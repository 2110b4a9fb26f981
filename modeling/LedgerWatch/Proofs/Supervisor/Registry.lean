import LedgerWatch.Proofs.Supervisor.Transitions

/-!
# Pairs, registry and calls

`Later` says what never goes back in a pair, whatever happens. `Sound` says how the pairs, the
registry and the calls belong together: a live pair is registered, or a call that tears down
several has still to come to it. Both hold over every run (`run_later`, `run_sound`).
-/

namespace LedgerWatch

/-- The pairs that a call tearing down several has not come to yet. -/
def Call.rest : Call → List PairId
  | .clearing _ rest | .stopping _ _ rest | .joining _ rest => rest
  | _ => []

/-- What never goes back while a pair lives on as `later`. -/
structure Pair.Later (pair later : Pair) : Prop where
  key : later.key = pair.key
  observer : later.observer = pair.observer
  cancelled : pair.cancelled = true → later.cancelled = true
  gate : pair.gateOpen = false → later.gateOpen = false

theorem Pair.Later.refl (pair : Pair) : pair.Later pair := ⟨rfl, rfl, id, id⟩

theorem Pair.Later.trans {a b c : Pair} (h : a.Later b) (k : b.Later c) : a.Later c :=
  ⟨k.key.trans h.key, k.observer.trans h.observer, fun x => k.cancelled (h.cancelled x),
    fun x => k.gate (h.gate x)⟩

theorem Pair.Later.live {pair later : Pair} (h : pair.Later later) (live : later.cancelled = false) :
    pair.cancelled = false := by
  rw [← Bool.not_eq_true] at live ⊢
  exact mt h.cancelled live

theorem Pair.later_finish (pair : Pair) (line : List Party) (channel : Option ChannelId) :
    pair.Later { pair.finish with line, channel } :=
  ⟨rfl, rfl, fun _ => rfl, fun _ => rfl⟩

namespace Supervisor

variable {s t : Supervisor} {p q : PairId} {pair : Pair} {id : CallId} {ps : List PairId}

/-- Nothing was subscribed yet. -/
structure Initial (s : Supervisor) : Prop where
  registry : s.registry = {}
  pairs : s.pairs = []
  channels : s.channels = []
  calls : s.calls = []

/-! ## What never goes back -/

theorem later_set {later : Pair} (at_p : s.pairs[p]? = some pair) (h : pair.Later later)
    {mine : Pair} (at_q : s.pairs[q]? = some mine) :
    ∃ mine', (s.pairs.set p later)[q]? = some mine' ∧ mine.Later mine' := by
  obtain ⟨hp, -⟩ := List.getElem?_eq_some_iff.1 at_p
  by_cases hq : p = q
  · subst hq
    cases at_p.symm.trans at_q
    exact ⟨later, by simp [hp], h⟩
  · exact ⟨mine, by simp [hq, at_q], .refl mine⟩

theorem TornDown.later (h : TornDown id ps s t) {mine : Pair} (at_q : s.pairs[q]? = some mine) :
    ∃ mine', t.pairs[q]? = some mine' ∧ mine.Later mine' := by
  induction h generalizing mine with
  | done => exact ⟨mine, at_q, .refl mine⟩
  | missing _ _ ih => exact ih at_q
  | passed at_p _ _ _ _ ih =>
    obtain ⟨mine', at_q', h⟩ := later_set at_p (Pair.later_finish _ _ _) at_q
    obtain ⟨mine'', at_q'', h'⟩ := ih at_q'
    exact ⟨mine'', at_q'', h.trans h'⟩
  | queued at_p _ => exact later_set at_p (Pair.later_finish _ _ _) at_q
  | stops at_p _ _ => exact later_set at_p (Pair.later_finish _ _ _) at_q
  | joins at_p _ _ _ => exact later_set at_p (Pair.later_finish _ _ _) at_q

theorem GoesOn.later {rest : List PairId} (h : GoesOn id p rest s t) {mine : Pair}
    (at_q : s.pairs[q]? = some mine) : ∃ mine', t.pairs[q]? = some mine' ∧ mine.Later mine' := by
  cases h with
  | onward _ torn => exact torn.later at_q
  | joins => exact ⟨mine, at_q, .refl mine⟩

theorem Wakes.later {e : Event} {woken : Pair} (h : Wakes s p pair e woken) : pair.Later woken := by
  cases h <;> exact ⟨rfl, rfl, id, id⟩

theorem GetsTurn.later {e : Event} {ready : Pair} (h : GetsTurn s p pair e ready) :
    pair.Later ready := by
  cases h with
  | atOnce wakes _ _ => exact wakes.later.trans ⟨rfl, rfl, id, id⟩
  | waited _ _ => exact .refl pair

/-- Pairs stay, and what happened to them for good stays. -/
theorem Transition.later {e : Event} (h : Transition s e t) {mine : Pair}
    (at_q : s.pairs[q]? = some mine) : ∃ mine', t.pairs[q]? = some mine' ∧ mine.Later mine' := by
  have same : ∃ mine', s.pairs[q]? = some mine' ∧ mine.Later mine' := ⟨mine, at_q, .refl mine⟩
  cases h with
  | idle | passed | found | leftAlone | unknown | unawaited | stray => exact same
  | registered =>
    obtain ⟨hq, -⟩ := List.getElem?_eq_some_iff.1 at_q
    exact ⟨mine, by rw [List.getElem?_append_left hq]; exact at_q, .refl mine⟩
  | entered _ at_p _ _ =>
    refine later_set at_p ?_ at_q
    exact ⟨rfl, rfl, id, id⟩
  | unsubscribed _ torn | unsubscribedAll _ torn => exact torn.later at_q
  | @foundClear _ _ _ pair _ _ _ at_p _ _ onward =>
    have left : pair.Later { pair with line := pair.line.tail } := ⟨rfl, rfl, id, id⟩
    obtain ⟨mine', at_q', h⟩ := later_set at_p left at_q
    obtain ⟨mine'', at_q'', h'⟩ := GoesOn.later onward at_q'
    exact ⟨mine'', at_q'', h.trans h'⟩
  | joined _ onward => exact onward.later at_q
  | stoppedForCall _ _ onward => exact onward.later at_q
  | followed _ at_p _ =>
    refine later_set at_p ?_ at_q
    exact ⟨rfl, rfl, id, id⟩
  | answered _ at_p _ =>
    refine later_set at_p ?_ at_q
    exact ⟨rfl, rfl, id, id⟩
  | cleared _ at_p _ _ =>
    refine later_set at_p ?_ at_q
    exact ⟨rfl, rfl, id, id⟩
  | rested at_p wakes _ =>
    refine later_set at_p ?_ at_q
    exact wakes.later
  | queued at_p wakes _ _ =>
    refine later_set at_p ?_ at_q
    exact wakes.later.trans ⟨rfl, rfl, id, id⟩
  | withdrew at_p turn _ =>
    refine later_set at_p ?_ at_q
    exact turn.later.trans ⟨rfl, rfl, id, id⟩
  | stopsOld at_p turn _ _ =>
    refine later_set at_p ?_ at_q
    exact turn.later.trans ⟨rfl, rfl, id, id⟩
  | startsNew at_p turn _ _ =>
    refine later_set at_p ?_ at_q
    exact turn.later.trans ⟨rfl, rfl, id, id⟩
  | ended at_p _ _ =>
    refine later_set at_p ?_ at_q
    exact ⟨rfl, rfl, id, id⟩
  | opened _ _ _ at_p =>
    refine later_set at_p ?_ at_q
    exact ⟨rfl, rfl, id, id⟩
  | failed _ _ _ at_p =>
    refine later_set at_p ?_ at_q
    exact ⟨rfl, rfl, fun _ => rfl, fun _ => rfl⟩
  | replaced _ _ at_p _ =>
    refine later_set at_p ?_ at_q
    exact ⟨rfl, rfl, id, id⟩
  | notReplaced _ _ at_p _ =>
    refine later_set at_p ?_ at_q
    exact ⟨rfl, rfl, id, id⟩
  | stoppedForWatchdog _ at_p _ =>
    refine later_set at_p ?_ at_q
    exact ⟨rfl, rfl, id, id⟩
  | heard _ at_p _ _ =>
    refine later_set at_p ?_ at_q
    exact ⟨rfl, rfl, id, id⟩
  | closing _ at_p _ =>
    refine later_set at_p ?_ at_q
    exact ⟨rfl, rfl, id, id⟩

theorem run_later (events : List Event) {mine : Pair} (at_q : s.pairs[q]? = some mine) :
    ∃ mine', (s.run events).pairs[q]? = some mine' ∧ mine.Later mine' := by
  induction events generalizing s mine with
  | nil => exact ⟨mine, at_q, .refl mine⟩
  | cons e events ih =>
    obtain ⟨mine', at_q', h⟩ := (step_transition s e).later at_q
    obtain ⟨mine'', at_q'', h'⟩ := ih at_q'
    exact ⟨mine'', at_q'', h.trans h'⟩

/-! ## How pairs, registry and calls belong together -/

/-- The pair a channel was made for. -/
def owner? (s : Supervisor) (c : ChannelId) : Option PairId := s.channels[c]?.map Channel.pair

theorem owner?_modify {c : ChannelId} {f : Channel → Channel}
    (keep : ∀ channel, (f channel).pair = channel.pair) (h : t.channels = s.channels.modify c f)
    (d : ChannelId) : t.owner? d = s.owner? d := by
  unfold owner?
  rw [h, List.getElem?_modify]
  cases s.channels[d]? with
  | none => rfl
  | some channel =>
    simp only [Option.map_eq_map, Option.map_some]
    split
    · rw [keep]
    · rfl

theorem owner?_setStatus {c : ChannelId} {status : ChannelStatus}
    (h : t.channels = s.setStatus c status) (d : ChannelId) : t.owner? d = s.owner? d :=
  owner?_modify (f := fun channel => { channel with status }) (fun _ => rfl) h d

theorem owner?_countStop {c : ChannelId} (h : t.channels = s.countStop c) (d : ChannelId) :
    t.owner? d = s.owner? d :=
  owner?_modify (f := fun channel => { channel with stops := channel.stops + 1 })
    (fun _ => rfl) h d

theorem owner?_append (h : t.channels = s.channels ++ [newChannel p]) (d : ChannelId) :
    t.owner? d = if d = s.channels.length then some p else s.owner? d := by
  split
  · rename_i last
    simp [owner?, h, last, newChannel]
  · rename_i other
    rw [owner?, owner?, h, getElem?_concat_ne other]

/-- The pairs that the call `id` has not come to yet. -/
def owes (s : Supervisor) (id : CallId) : List PairId := (s.calls[id]?.map Call.rest).getD []

/-- The pair waits to be torn down by a call that is busy with another one. -/
def Awaiting (s : Supervisor) (p : PairId) : Prop := ∃ id, p ∈ s.owes id

theorem owes_eq {call : Call} (at_id : s.calls[id]? = some call) : s.owes id = call.rest := by
  simp [owes, at_id]

theorem owes_append {call : Call} (empty : call.rest = []) (h : t.calls = s.calls ++ [call])
    (other : CallId) : t.owes other = s.owes other := by
  unfold owes
  by_cases last : other = s.calls.length
  · simp [h, last, empty]
  · rw [h, getElem?_concat_ne last]

theorem owes_set {call : Call} (hid : id < s.calls.length) (h : t.calls = s.calls.set id call)
    (other : CallId) : t.owes other = if id = other then call.rest else s.owes other := by
  unfold owes
  rw [h]
  split
  · rename_i same
    subst same
    simp [hid]
  · rename_i different
    rw [List.getElem?_set_ne different]

theorem awaiting_congr (h : ∀ other, t.owes other = s.owes other) (q : PairId) :
    t.Awaiting q ↔ s.Awaiting q := by
  simp only [Awaiting, h]

theorem awaiting_set {old call : Call} (at_id : s.calls[id]? = some old)
    (h : t.calls = s.calls.set id call) (same : call.rest = old.rest) (q : PairId) :
    t.Awaiting q ↔ s.Awaiting q := by
  obtain ⟨hid, -⟩ := List.getElem?_eq_some_iff.1 at_id
  refine awaiting_congr (fun other => ?_) q
  rw [owes_set hid h]
  split
  · rename_i eq
    rw [same, ← eq, owes_eq at_id]
  · rfl

/-- `held` are pairs that a call in progress holds in its hands. Between events there are none. -/
structure Sound (held : List PairId) (s : Supervisor) : Prop where
  owned : ∀ c p, s.owner? c = some p → p < s.pairs.length
  unique : ∀ (key : WatchKey) (p : PairId), (key, p) ∈ s.registry.entries →
    s.registry.get? key = some p
  registered : ∀ (key : WatchKey) (p : PairId), (key, p) ∈ s.registry.entries →
    ∃ pair, s.pairs[p]? = some pair ∧ pair.key = key ∧ pair.cancelled = false
  leaving : ∀ (p : PairId), p ∈ held ∨ s.Awaiting p →
    p < s.pairs.length ∧ ∀ (key : WatchKey), (key, p) ∉ s.registry.entries
  live : ∀ (p : PairId) (pair : Pair), s.pairs[p]? = some pair → pair.cancelled = false →
    s.registry.get? pair.key = some p ∨ p ∈ held ∨ s.Awaiting p
  gate : ∀ (p : PairId) (pair : Pair), s.pairs[p]? = some pair → pair.gateOpen = !pair.cancelled
  finished : ∀ (p : PairId) (pair : Pair), s.pairs[p]? = some pair →
    (pair.cancelled = true ↔ pair.state = .unsubscribed)

theorem sound_initial (h : s.Initial) : Sound [] s := by
  constructor <;> simp [h.registry, h.pairs, h.channels, h.calls, Awaiting, owes,
    owner?]

/-- A pair as it may be in the place of another one: its gate and state still tell of its end. -/
structure Fits (pair other : Pair) : Prop where
  key : other.key = pair.key
  cancelled : other.cancelled = pair.cancelled
  gate : other.gateOpen = pair.gateOpen
  finished : (pair.state = .unsubscribed ↔ other.state = .unsubscribed)

theorem Fits.refl (pair : Pair) : Fits pair pair := ⟨rfl, rfl, rfl, Iff.rfl⟩

theorem Fits.trans {a b c : Pair} (h : Fits a b) (k : Fits b c) : Fits a c :=
  ⟨k.key.trans h.key, k.cancelled.trans h.cancelled, k.gate.trans h.gate,
    h.finished.trans k.finished⟩

theorem Sound.owned_setStatus {held : List PairId} {c : ChannelId} {status : ChannelStatus}
    (h : Sound held s) (k : t.channels = s.setStatus c status) (d : ChannelId) (q : PairId)
    (own : t.owner? d = some q) : q < s.pairs.length :=
  h.owned d q (owner?_setStatus k d ▸ own)

theorem Sound.owned_countStop {held : List PairId} {c : ChannelId}
    (h : Sound held s) (k : t.channels = s.countStop c) (d : ChannelId) (q : PairId)
    (own : t.owner? d = some q) : q < s.pairs.length :=
  h.owned d q (owner?_countStop k d ▸ own)

/-- The pair a channel was made for is there. -/
theorem Sound.present {held : List PairId} {c : ChannelId} {channel : Channel} (h : Sound held s)
    (at_c : s.channels[c]? = some channel) : s.pairs[channel.pair]? ≠ none := by
  have own : channel.pair < s.pairs.length := h.owned c channel.pair (by simp [owner?, at_c])
  simpa using own

theorem Sound.effects {held : List PairId} (h : Sound held s) (fx : List Effect) :
    Sound held { s with effects := fx } :=
  ⟨h.owned, h.unique, h.registered, h.leaving, h.live, h.gate, h.finished⟩

/-- What keeps the supervisor sound when no pair ends and none is registered or removed. -/
theorem Sound.fits {held : List PairId} (h : Sound held s) (registry : t.registry = s.registry)
    (awaiting : ∀ q, t.Awaiting q ↔ s.Awaiting q) (length : t.pairs.length = s.pairs.length)
    (owned : ∀ c p, t.owner? c = some p → p < s.pairs.length)
    (pairs : ∀ (q : PairId) (other : Pair), t.pairs[q]? = some other →
      ∃ pair, s.pairs[q]? = some pair ∧ Fits pair other) : Sound held t where
  owned c p at_c := length ▸ owned c p at_c
  unique key q entry := by
    rw [registry] at entry ⊢
    exact h.unique key q entry
  registered key q entry := by
    obtain ⟨pair, at_q, key_eq, live⟩ := h.registered key q (registry ▸ entry)
    have hq : q < t.pairs.length := length ▸ (List.getElem?_eq_some_iff.1 at_q).1
    obtain ⟨mine, at_q', fits⟩ := pairs q _ (List.getElem?_eq_getElem hq)
    cases at_q.symm.trans at_q'
    exact ⟨_, List.getElem?_eq_getElem hq, fits.key.trans key_eq, fits.cancelled.trans live⟩
  leaving q out := by
    rw [awaiting] at out
    rw [length, registry]
    exact h.leaving q out
  live q other at_q live := by
    obtain ⟨pair, at_q', fits⟩ := pairs q other at_q
    rw [awaiting, registry, fits.key]
    exact h.live q pair at_q' (fits.cancelled ▸ live)
  gate q other at_q := by
    obtain ⟨pair, at_q', fits⟩ := pairs q other at_q
    rw [fits.gate, fits.cancelled]
    exact h.gate q pair at_q'
  finished q other at_q := by
    obtain ⟨pair, at_q', fits⟩ := pairs q other at_q
    rw [fits.cancelled]
    exact (h.finished q pair at_q').trans fits.finished

theorem Sound.same {held : List PairId} (h : Sound held s) (registry : t.registry = s.registry)
    (awaiting : ∀ q, t.Awaiting q ↔ s.Awaiting q) (pairs : t.pairs = s.pairs)
    (owned : ∀ c p, t.owner? c = some p → p < s.pairs.length) : Sound held t :=
  h.fits registry awaiting (by rw [pairs]) owned
    (fun q other at_q => ⟨other, pairs ▸ at_q, .refl other⟩)

theorem Sound.set {held : List PairId} (h : Sound held s) (registry : t.registry = s.registry)
    (awaiting : ∀ q, t.Awaiting q ↔ s.Awaiting q)
    (owned : ∀ c p, t.owner? c = some p → p < s.pairs.length)
    {other : Pair} (pairs : t.pairs = s.pairs.set p other) (at_p : s.pairs[p]? = some pair)
    (fits : Fits pair other) : Sound held t := by
  refine h.fits registry awaiting (by rw [pairs, List.length_set]) owned ?_
  intro q mine at_q
  rw [pairs] at at_q
  rcases of_getElem?_set at_q with ⟨rfl, rfl⟩ | ⟨-, at_q⟩
  · exact ⟨pair, at_p, fits⟩
  · exact ⟨mine, at_q, .refl mine⟩

/-- The supervisor without what the call `id` has still to do. -/
def takenOver (s : Supervisor) (id : CallId) : Supervisor :=
  { s with calls := s.calls.set id (.returned (.ok ())) }

/-- A call that has just begun has done nothing yet. -/
theorem calls_begun (h : t.calls = s.calls ++ [.returned (.ok ())]) :
    (t.takenOver s.calls.length).calls = s.calls ++ [.returned (.ok ())] := by
  simp [takenOver, h]

theorem awaiting_takenOver {call : Call} (hid : id < s.calls.length)
    (h : t.calls = s.calls.set id call) (q : PairId) :
    t.Awaiting q ↔ q ∈ call.rest ∨ (s.takenOver id).Awaiting q := by
  have mine := owes_set hid h
  have taken (other : CallId) : (s.takenOver id).owes other =
      if id = other then Call.rest (.returned (.ok ())) else s.owes other :=
    owes_set hid rfl other
  unfold Awaiting
  simp only [mine, taken]
  constructor
  · rintro ⟨other, mem⟩
    by_cases eq : id = other
    · exact .inl (by simpa [eq] using mem)
    · exact .inr ⟨other, by simpa [eq] using mem⟩
  · rintro (mem | ⟨other, mem⟩)
    · exact ⟨id, by simpa using mem⟩
    · by_cases eq : id = other
      · simp [eq, Call.rest] at mem
      · exact ⟨other, by simpa [eq] using mem⟩

/-- A call in progress takes what it has to do into its hands. -/
theorem Sound.take {call : Call} (h : Sound [] s) (at_id : s.calls[id]? = some call) :
    Sound call.rest (s.takenOver id) := by
  obtain ⟨hid, -⟩ := List.getElem?_eq_some_iff.1 at_id
  have awaiting := awaiting_takenOver (s := s) (t := s) hid (set_eq_self at_id).symm
  exact {
    owned := h.owned
    unique := h.unique
    registered := h.registered
    leaving := fun q out => h.leaving q (.inr ((awaiting q).2 out))
    live := fun q pair at_q live => by
      rcases h.live q pair at_q live with known | out | out
      · exact .inl known
      · simp at out
      · exact .inr ((awaiting q).1 out)
    gate := h.gate
    finished := h.finished }

/-- A call that has to wait leaves what it holds as what it still has to do. -/
theorem Sound.leave (call : Call) (h : Sound call.rest (s.takenOver id))
    (hid : id < s.calls.length) (fx : List Effect) :
    Sound [] { s with calls := s.calls.set id call, effects := fx } := by
  have awaiting := awaiting_takenOver (s := s)
    (t := { s with calls := s.calls.set id call, effects := fx }) hid rfl
  exact {
    owned := h.owned
    unique := h.unique
    registered := h.registered
    leaving := fun q out => h.leaving q ((awaiting q).1 (out.resolve_left (by simp)))
    live := fun q pair at_q live => by
      rcases h.live q pair at_q live with known | out
      · exact .inl known
      · exact .inr (.inr ((awaiting q).2 out))
    gate := h.gate
    finished := h.finished }

/-- An unregistered pair ends. -/
theorem Sound.finish {held : List PairId} (h : Sound held s)
    (unregistered : ∀ key, (key, p) ∉ s.registry.entries) (pair : Pair) (line : List Party)
    (channel : Option ChannelId) :
    Sound held { s with pairs := s.pairs.set p { pair.finish with line, channel } } where
  owned c q at_c := by simpa using h.owned c q at_c
  unique := h.unique
  registered key q entry := by
    obtain ⟨mine, k, facts⟩ := h.registered key q entry
    have hq : p ≠ q := fun eq => unregistered key (eq ▸ entry)
    exact ⟨mine, by rw [List.getElem?_set_ne hq]; exact k, facts⟩
  leaving q out := by simpa using h.leaving q out
  live q other k live := by
    rcases of_getElem?_set k with ⟨-, rfl⟩ | ⟨-, k⟩
    · simp [Pair.finish] at live
    · exact h.live q other k live
  gate q other k := by
    rcases of_getElem?_set k with ⟨-, rfl⟩ | ⟨-, k⟩
    · rfl
    · exact h.gate q other k
  finished q other k := by
    rcases of_getElem?_set k with ⟨-, rfl⟩ | ⟨-, k⟩
    · simp [Pair.finish]
    · exact h.finished q other k

/-- A pair that ended is let go. -/
theorem Sound.drop {held : List PairId} (h : Sound (p :: held) s)
    (ended : ∀ pair, s.pairs[p]? = some pair → pair.cancelled = true) : Sound held s where
  owned := h.owned
  unique := h.unique
  registered := h.registered
  leaving q out := h.leaving q (out.imp_left (List.mem_cons_of_mem p))
  live q pair at_q live := by
    rcases h.live q pair at_q live with known | out | out
    · exact .inl known
    · rcases List.mem_cons.1 out with rfl | out
      · simp [ended pair at_q] at live
      · exact .inr (.inl out)
    · exact .inr (.inr out)
  gate := h.gate
  finished := h.finished

theorem Sound.finishHeld {held : List PairId} (h : Sound (p :: held) s) (pair : Pair)
    (line : List Party) (channel : Option ChannelId) :
    Sound held { s with pairs := s.pairs.set p { pair.finish with line, channel } } := by
  obtain ⟨hp, unregistered⟩ := h.leaving p (.inl List.mem_cons_self)
  refine (h.finish unregistered pair line channel).drop (fun mine at_p' => ?_)
  rw [List.getElem?_set_self hp] at at_p'
  cases at_p'
  rfl

/-- A registered pair is taken out of the registry. -/
theorem Sound.unregister {held : List PairId} {key : WatchKey} (h : Sound held s)
    (known : s.registry.get? key = some p) :
    Sound (p :: held) { s with registry := s.registry.erase key } := by
  have entry := Table.mem_of_get? known
  obtain ⟨pair, at_p, key_eq, live⟩ := h.registered key p entry
  exact {
    owned := h.owned
    unique := fun key' q entry' => by
      obtain ⟨entry', different⟩ := Table.mem_entries_erase.1 entry'
      rw [Table.get?_erase, if_neg (Ne.symm different)]
      exact h.unique key' q entry'
    registered := fun key' q entry' => h.registered key' q (Table.mem_entries_erase.1 entry').1
    leaving := fun q out => by
      by_cases hq : q = p
      · subst hq
        refine ⟨(List.getElem?_eq_some_iff.1 at_p).1, fun key' entry' => ?_⟩
        obtain ⟨entry', different⟩ := Table.mem_entries_erase.1 entry'
        obtain ⟨pair', at_p', key_eq', -⟩ := h.registered key' q entry'
        cases at_p.symm.trans at_p'
        exact different (key_eq'.symm.trans key_eq)
      · have := h.leaving q (out.imp_left fun mem => (List.mem_cons.1 mem).resolve_left hq)
        exact ⟨this.1, fun key' entry' => this.2 key' (Table.mem_entries_erase.1 entry').1⟩
    live := fun q other at_q alive => by
      by_cases hq : q = p
      · exact .inr (.inl (hq ▸ List.mem_cons_self))
      · rcases h.live q other at_q alive with known' | out | out
        · refine .inl ?_
          rw [Table.get?_erase, if_neg]
          · exact known'
          · intro same
            rw [← same, known] at known'
            exact hq (Option.some.inj known').symm
        · exact .inr (.inl (List.mem_cons_of_mem p out))
        · exact .inr (.inr out)
    gate := h.gate
    finished := h.finished }

/-- All registered pairs are taken out of the registry. -/
theorem Sound.unregisterAll (h : Sound [] s) :
    Sound s.registry.values { s with registry := {} } where
  owned := h.owned
  unique key p entry := by simp at entry
  registered key p entry := by simp at entry
  leaving q out := by
    refine ⟨?_, fun key entry => by simp at entry⟩
    rcases out with mem | out
    · obtain ⟨⟨key, p⟩, entry, rfl⟩ := List.mem_map.1 mem
      obtain ⟨pair, at_p, -⟩ := h.registered key p entry
      exact (List.getElem?_eq_some_iff.1 at_p).1
    · exact (h.leaving q (.inr out)).1
  live q pair at_q live := by
    rcases h.live q pair at_q live with known | out | out
    · exact .inr (.inl (List.mem_map.2 ⟨_, Table.mem_of_get? known, rfl⟩))
    · simp at out
    · exact .inr (.inr out)
  gate := h.gate
  finished := h.finished

/-- In which order a call holds pairs does not matter here. -/
theorem Sound.perm {held order : List PairId} (h : Sound held s) (perm : order.Perm held) :
    Sound order s where
  owned := h.owned
  unique := h.unique
  registered := h.registered
  leaving q out := h.leaving q (out.imp_left perm.mem_iff.1)
  live q pair at_q live := (h.live q pair at_q live).imp_right (.imp_left perm.mem_iff.2)
  gate := h.gate
  finished := h.finished

theorem TornDown.sound (torn : TornDown id ps s t) (hid : id < s.calls.length)
    (h : Sound ps (s.takenOver id)) : Sound [] t := by
  induction torn with
  | done => exact Sound.leave (.returned (.ok ())) h hid _
  | missing absent _ _ =>
    have hp := (h.leaving _ (.inl List.mem_cons_self)).1
    exact absurd hp (by simpa [takenOver] using absent)
  | passed _ _ _ _ _ ih => exact ih hid ((h.finishHeld _ _ _).effects _)
  | @queued p rest s pair fx _ _ =>
    exact Sound.leave (.clearing p rest)
      (s := { s with pairs := s.pairs.set p { pair.finish with line := pair.line ++ [.call id] } })
      (h.finishHeld _ _ _) hid fx
  | @stops p rest s pair c fx _ _ _ =>
    exact Sound.leave (.stopping p c rest)
      (s := { s with pairs := s.pairs.set p { pair.finish with channel := none } })
      (h.finishHeld _ _ _) hid fx
  | @joins p rest s pair fx _ _ _ _ =>
    exact Sound.leave (.joining p rest)
      (s := { s with pairs := s.pairs.set p pair.finish })
      (h.finishHeld _ _ _) hid fx

theorem GoesOn.sound {rest : List PairId} (onward : GoesOn id p rest s t)
    (hid : id < s.calls.length) (h : Sound rest (s.takenOver id)) : Sound [] t := by
  cases onward with
  | onward _ torn => exact torn.sound hid h
  | joins => exact Sound.leave (.joining p rest) h hid _

/-- A new pair is registered, with its call. -/
theorem Sound.register {key : WatchKey} (h : Sound [] s) (new : s.registry.get? key = none)
    (observer : Option String) :
    Sound [] { s with
      registry := s.registry.insert key s.pairs.length
      pairs := s.pairs ++ [s.newPair key observer]
      calls := s.calls ++ [.arriving s.pairs.length] } := by
  have awaiting : ∀ q, Awaiting { s with
      registry := s.registry.insert key s.pairs.length
      pairs := s.pairs ++ [s.newPair key observer]
      calls := s.calls ++ [.arriving s.pairs.length] } q ↔ s.Awaiting q :=
    awaiting_congr (owes_append rfl rfl)
  have stays {q : PairId} {pair : Pair} (k : s.pairs[q]? = some pair) :
      (s.pairs ++ [s.newPair key observer])[q]? = some pair := by
    rw [List.getElem?_append_left (List.getElem?_eq_some_iff.1 k).1]
    exact k
  have other {key' : WatchKey} {q : PairId} (k : s.registry.get? key' = some q) : key ≠ key' := by
    intro same
    simp [same ▸ new] at k
  have get {key' : WatchKey} {q : PairId} (k : s.registry.get? key' = some q) :
      (s.registry.insert key s.pairs.length).get? key' = some q := by
    rw [Table.get?_insert, if_neg (other k)]
    exact k
  exact {
    owned := fun d q own => by simpa using Nat.lt_succ_of_lt (h.owned d q own)
    unique := fun key' q entry => by
      rcases Table.mem_entries_insert entry with eq | entry
      · cases eq
        simp [Table.get?_insert]
      · exact get (h.unique key' q entry)
    registered := fun key' q entry => by
      rcases Table.mem_entries_insert entry with eq | entry
      · cases eq
        exact ⟨s.newPair key observer, by simp, rfl, rfl⟩
      · obtain ⟨pair, k, facts⟩ := h.registered key' q entry
        exact ⟨pair, stays k, facts⟩
    leaving := fun q out => by
      have out := out.resolve_left (by simp)
      obtain ⟨hq, unregistered⟩ := h.leaving q (.inr ((awaiting q).1 out))
      refine ⟨by simpa using Nat.lt_succ_of_lt hq, fun key' entry => ?_⟩
      rcases Table.mem_entries_insert entry with eq | entry
      · cases eq
        exact Nat.lt_irrefl _ hq
      · exact unregistered key' entry
    live := fun q pair k live => by
      rcases of_getElem?_concat k with k | ⟨rfl, rfl⟩
      · rcases h.live q pair k live with known | out | out
        · exact .inl (get known)
        · simp at out
        · exact .inr (.inr ((awaiting q).2 out))
      · exact .inl (by simp [newPair, Table.get?_insert])
    gate := fun q pair k => by
      rcases of_getElem?_concat k with k | ⟨rfl, rfl⟩
      · exact h.gate q pair k
      · rfl
    finished := fun q pair k => by
      rcases of_getElem?_concat k with k | ⟨rfl, rfl⟩
      · exact h.finished q pair k
      · simp [newPair] }

theorem Wakes.fits {e : Event} {woken : Pair} (h : Wakes s p pair e woken) : Fits pair woken := by
  cases h <;> exact ⟨rfl, rfl, rfl, Iff.rfl⟩

theorem fits_stall (pair : Pair) : Fits pair (stall pair) := by
  refine ⟨rfl, rfl, rfl, ?_⟩
  unfold stall
  split <;> simp_all

theorem GetsTurn.fits {e : Event} {ready : Pair} (h : GetsTurn s p pair e ready) :
    Fits pair ready := by
  cases h with
  | atOnce wakes _ _ => exact (wakes.fits.trans (fits_stall _)).trans ⟨rfl, rfl, rfl, Iff.rfl⟩
  | waited _ _ => exact .refl pair

theorem fits_replacing {watchdog : Watchdog} (live : pair.state ≠ .unsubscribed) :
    Fits pair (replacing pair watchdog) :=
  ⟨rfl, rfl, rfl, by simp [replacing, live]⟩

theorem fits_opened {c : ChannelId} {canStall : Bool} :
    Fits pair (s.openedPair pair c canStall) := by
  refine ⟨rfl, rfl, rfl, ?_⟩
  unfold openedPair
  split <;> simp_all

theorem fits_replaced {c : ChannelId} : Fits pair (s.replacedPair pair c) := by
  refine ⟨rfl, rfl, rfl, ?_⟩
  unfold replacedPair
  split <;> simp_all

theorem fits_heard (now : Nat) : Fits pair (pair.heard now) := by
  refine ⟨rfl, rfl, rfl, ?_⟩
  unfold Pair.heard
  cases h : pair.state <;> simp

theorem fits_closing : Fits pair pair.closing := by
  refine ⟨rfl, rfl, rfl, ?_⟩
  unfold Pair.closing
  cases h : pair.state <;> simp

theorem Transition.sound {e : Event} (step : Transition s e t) (h : Sound [] s) : Sound [] t := by
  have live {p : PairId} {pair : Pair} (at_p : s.pairs[p]? = some pair)
      (live : pair.cancelled = false) : pair.state ≠ .unsubscribed := by
    intro finished
    rw [(h.finished p pair at_p).2 finished] at live
    cases live
  cases step with
  | idle => exact h.effects _
  | passed => exact h.same rfl (fun _ => Iff.rfl) rfl h.owned
  | registered new =>
    exact (h.register new _).effects _
  | entered call at_p _ _ =>
    refine h.set rfl (awaiting_set call rfl rfl) ?_ rfl at_p ⟨rfl, rfl, rfl, Iff.rfl⟩
    intro d q own
    rw [owner?_append rfl] at own
    split at own
    · cases own
      exact (List.getElem?_eq_some_iff.1 at_p).1
    · exact h.owned d q own
  | leftAlone call _ _ _ => exact h.same rfl (awaiting_set call rfl rfl) rfl h.owned
  | found => exact h.same rfl (awaiting_congr (owes_append rfl rfl)) rfl h.owned
  | unknown => exact h.same rfl (awaiting_congr (owes_append rfl rfl)) rfl h.owned
  | followed _ at_p _ =>
    exact h.set rfl (awaiting_congr (owes_append rfl rfl)) h.owned rfl at_p ⟨rfl, rfl, rfl, Iff.rfl⟩
  | @unsubscribed key p _ fx known torn =>
    refine torn.sound (by simp) ((h.unregister known).same rfl ?_ rfl h.owned)
    exact awaiting_congr (owes_append (by rfl) (calls_begun rfl))
  | unsubscribedAll perm torn =>
    refine torn.sound (by simp) ((h.unregisterAll.perm perm).same rfl ?_ rfl h.owned)
    exact awaiting_congr (owes_append (by rfl) (calls_begun rfl))
  | answered call at_p _ =>
    exact h.set rfl (awaiting_set call rfl rfl) h.owned rfl at_p ⟨rfl, rfl, rfl, Iff.rfl⟩
  | cleared call at_p _ _ =>
    exact h.set rfl (awaiting_set call rfl rfl) h.owned rfl at_p ⟨rfl, rfl, rfl, Iff.rfl⟩
  | foundClear call at_p _ _ onward =>
    have hid := (List.getElem?_eq_some_iff.1 call).1
    refine onward.sound hid ((h.take call).set rfl (fun _ => Iff.rfl) h.owned rfl at_p ?_)
    exact ⟨rfl, rfl, rfl, Iff.rfl⟩
  | joined call onward =>
    have hid := (List.getElem?_eq_some_iff.1 call).1
    exact onward.sound hid ((h.take call).effects _)
  | rested at_p wakes _ => exact h.set rfl (fun _ => Iff.rfl) h.owned rfl at_p wakes.fits
  | queued at_p wakes _ _ =>
    exact h.set rfl (fun _ => Iff.rfl) h.owned rfl at_p
      ((wakes.fits.trans (fits_stall _)).trans ⟨rfl, rfl, rfl, Iff.rfl⟩)
  | withdrew at_p turn _ =>
    exact h.set rfl (fun _ => Iff.rfl) h.owned rfl at_p
      (turn.fits.trans ⟨rfl, rfl, rfl, Iff.rfl⟩)
  | stopsOld at_p turn alive _ =>
    exact h.set rfl (fun _ => Iff.rfl) h.owned rfl at_p
      (turn.fits.trans (fits_replacing fun finished =>
        live at_p alive (turn.fits.finished.2 finished)))
  | startsNew at_p turn alive _ =>
    refine h.set rfl (fun _ => Iff.rfl) ?_ rfl at_p
      (turn.fits.trans (fits_replacing fun finished =>
        live at_p alive (turn.fits.finished.2 finished)))
    intro d q own
    rw [owner?_append rfl] at own
    split at own
    · cases own
      exact (List.getElem?_eq_some_iff.1 at_p).1
    · exact h.owned d q own
  | ended at_p _ _ => exact h.set rfl (fun _ => Iff.rfl) h.owned rfl at_p ⟨rfl, rfl, rfl, Iff.rfl⟩
  | opened _ _ call at_p =>
    exact h.set rfl (awaiting_set call rfl rfl) (h.owned_setStatus rfl) rfl at_p fits_opened
  | @failed c _ id _ pair channel error fx _ _ call at_p =>
    let u : Supervisor := { s with
      channels := s.setStatus c .failed
      calls := s.calls.set id (.returned (.error error)) }
    have hu : Sound [] u := h.same rfl (awaiting_set call rfl rfl) rfl (h.owned_setStatus rfl)
    by_cases known : s.registry.get? pair.key = some channel.pair
    · have out := ((hu.unregister known).finishHeld pair pair.line.tail pair.channel).effects fx
      rw [if_pos known]
      exact out
    · have unregistered (key : WatchKey) : (key, channel.pair) ∉ s.registry.entries := by
        intro entry
        obtain ⟨pair', at_p', key_eq, -⟩ := h.registered key channel.pair entry
        cases at_p.symm.trans at_p'
        exact known (key_eq ▸ h.unique key channel.pair entry)
      have out := (hu.finish unregistered pair pair.line.tail pair.channel).effects fx
      rw [if_neg known]
      exact out
  | replaced _ _ at_p _ =>
    exact h.set rfl (fun _ => Iff.rfl) (h.owned_setStatus rfl) rfl at_p fits_replaced
  | notReplaced _ _ at_p _ =>
    exact h.set rfl (fun _ => Iff.rfl) (h.owned_setStatus rfl) rfl at_p
      ⟨rfl, rfl, rfl, Iff.rfl⟩
  | unawaited _ _ _ _ _ =>
    exact h.same rfl (fun _ => Iff.rfl) rfl (h.owned_setStatus rfl)
  | stray at_c missing => exact absurd missing (h.present at_c)
  | stoppedForCall _ call onward =>
    have hid := (List.getElem?_eq_some_iff.1 call).1
    exact onward.sound hid ((h.take call).same rfl (fun _ => Iff.rfl) rfl (h.owned_countStop rfl))
  | @stoppedForWatchdog c _ _ _ at_c at_p _ =>
    refine h.set rfl (fun _ => Iff.rfl) ?_ rfl at_p ⟨rfl, rfl, rfl, Iff.rfl⟩
    intro d q own
    rw [owner?_append (s := { s with channels := s.countStop c }) rfl] at own
    split at own
    · cases own
      exact (List.getElem?_eq_some_iff.1 at_p).1
    · exact h.owned_countStop (t := { s with channels := s.countStop c }) rfl d q own
  | heard _ at_p _ _ => exact h.set rfl (fun _ => Iff.rfl) h.owned rfl at_p (fits_heard _)
  | closing _ at_p _ => exact h.set rfl (fun _ => Iff.rfl) h.owned rfl at_p fits_closing

theorem run_sound (h : Sound [] s) (events : List Event) : Sound [] (s.run events) := by
  induction events generalizing s with
  | nil => exact h
  | cons e events ih => exact ih ((step_transition s e).sound h)

end Supervisor

end LedgerWatch
