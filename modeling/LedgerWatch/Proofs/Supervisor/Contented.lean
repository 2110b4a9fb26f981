import LedgerWatch.Proofs.Supervisor.Subscribers

/-!
# Pairs that keep their channel

A pair is contented while nothing asks for another channel: its watchdog neither waits for a turn
nor works, and it is ended, opening or active with no limit on its silence. Only a closing or the
handshake of a channel that can stall makes a contented pair another one (`Transition.contented`),
so a pair whose channels do neither keeps the channel that it began with (`keeps_enter`,
`Keeps.step`); before that it has no channel that could (`Unhurried.step`). None of this depends on
what is stored, and the store may be written to by others meanwhile (`Keeps.withStore`).
-/

namespace LedgerWatch

/-- Nothing asks for another channel of the pair. -/
structure Pair.Contented (pair : Pair) : Prop where
  watchdog : pair.watchdog = .unborn ∨ pair.watchdog = .idle ∨ pair.watchdog = .ended
  calm : pair.cancelled = true ∨
    (pair.state = .subscribing ∨ pair.state = .active) ∧ pair.patience = none
  total : pair.total = 0

namespace Pair.Contented

variable {pair later : Pair}

/-- Its watchdog neither waits for a turn nor works. -/
theorem watchdog_ne (h : pair.Contented) {busy : Watchdog}
    (works : busy ≠ .unborn ∧ busy ≠ .idle ∧ busy ≠ .ended) : pair.watchdog ≠ busy := by
  rintro rfl
  obtain ⟨born, awake, runs⟩ := works
  rcases h.watchdog with unborn | idle | ended
  · exact born unborn
  · exact awake idle
  · exact runs ended

theorem content (h : pair.Contented) (ended : pair.cancelled = true → pair.state = .unsubscribed)
    (now : Nat) : Supervisor.needsReplacement pair now = false := by
  rcases h.calm with finished | ⟨opening | active, patience⟩
  · simp [Supervisor.needsReplacement, ended finished]
  · simp [Supervisor.needsReplacement, opening]
  · simp [Supervisor.needsReplacement, active, patience]

theorem torn (h : pair.Contented) (torn : pair.Torn later) : later.Contented :=
  ⟨torn.watchdog ▸ h.watchdog, .inl torn.cancelled, torn.total.trans h.total⟩

theorem rests (h : pair.Contented) (same : Supervisor.Rests pair later) : later.Contented :=
  ⟨same.watchdog ▸ h.watchdog,
    by rw [same.cancelled, same.state, same.patience]; exact h.calm, same.total.trans h.total⟩

theorem heard (h : pair.Contented) (now : Nat) : (pair.heard now).Contented := by
  refine ⟨h.watchdog, ?_, h.total⟩
  rcases h.calm with finished | ⟨opening | active, patience⟩
  · exact .inl finished
  · exact .inr ⟨.inr (by simp [Pair.heard, opening]), patience⟩
  · exact .inr ⟨.inr (by simp [Pair.heard, active]), patience⟩

end Pair.Contented

namespace Supervisor

variable {s t : Supervisor} {p q : PairId} {pair : Pair} {c d : ChannelId} {e : Event}

theorem newPair_contented (s : Supervisor) (key : WatchKey) (observer : Option String) :
    (s.newPair key observer).Contented :=
  ⟨.inl rfl, .inr ⟨.inl rfl, rfl⟩, rfl⟩

/-- The event is neither a closing of the pair's channels nor a handshake of one that can stall. -/
def Calm (s : Supervisor) (p : PairId) (e : Event) : Prop :=
  ∀ c, s.owner? c = some p → e ≠ .deliver c .closed ∧ ∀ result, e ≠ .handshake c true result

theorem contented_set {other changed : Pair} (at_q : s.pairs[q]? = some other)
    (pairs : t.pairs = s.pairs.set q changed)
    (kept : q = p → other.Contented → changed.Contented) (at_p : s.pairs[p]? = some pair)
    (contented : pair.Contented) : ∃ later, t.pairs[p]? = some later ∧ later.Contented := by
  by_cases same : q = p
  · subst same
    cases at_q.symm.trans at_p
    exact ⟨changed, by rw [pairs, List.getElem?_set_self (List.getElem?_eq_some_iff.1 at_p).1],
      kept rfl contented⟩
  · exact ⟨pair, by rw [pairs, List.getElem?_set_ne same, at_p], contented⟩

theorem contented_kept {before : Pair} (contented : before.Contented)
    (kept : ∃ later, t.pairs[p]? = some later ∧ before.Kept later) :
    ∃ later, t.pairs[p]? = some later ∧ later.Contented := by
  obtain ⟨later, at_p, rfl | torn⟩ := kept
  · exact ⟨later, at_p, contented⟩
  · exact ⟨later, at_p, contented.torn torn⟩

theorem GetsTurn.not_contented {ready : Pair} (turn : GetsTurn s p pair e ready)
    (contented : pair.Contented) (content : needsReplacement pair s.now = false) : False := by
  cases turn with
  | atOnce _ needed _ => simp [content] at needed
  | waited queued _ => exact contented.watchdog_ne (by simp) queued

theorem contented_finish (contented : pair.Contented) (line : List Party) :
    { pair.finish with line }.Contented :=
  ⟨contented.watchdog, .inl rfl, contented.total⟩

theorem openedPair_contented (contented : pair.Contented) (s : Supervisor) (c : ChannelId) :
    (s.openedPair pair c false).Contented := by
  refine ⟨.inr (.inl rfl), ?_, contented.total⟩
  rcases contented.calm with finished | ⟨opening | active, -⟩
  · exact .inl finished
  · exact .inr ⟨.inr (by simp [openedPair, opening]), rfl⟩
  · exact .inr ⟨.inr (by simp [openedPair, active]), rfl⟩

/-- A contented pair stays contented under every calm event. -/
theorem Transition.contented (step : Transition s e t) (lawful : s.Lawful) (calm : s.Calm p e)
    (at_p : s.pairs[p]? = some pair) (contented : pair.Contented) :
    ∃ later, t.pairs[p]? = some later ∧ later.Contented := by
  have content {other : Pair} {q : PairId} (at_q : s.pairs[q]? = some other)
      (h : other.Contented) : needsReplacement other s.now = false :=
    h.content (lawful.sound.finished _ _ at_q).1 s.now
  have still {t : Supervisor} (same : t.pairs[p]? = s.pairs[p]?) :
      ∃ later, t.pairs[p]? = some later ∧ later.Contented := ⟨pair, same.trans at_p, contented⟩
  cases step with
  | idle | passed | leftAlone | found | unknown | unawaited => exact still rfl
  | registered => exact still (List.getElem?_append_left (List.getElem?_eq_some_iff.1 at_p).1)
  | entered _ at_q | followed _ at_q _ | answered _ at_q _ =>
    exact contented_set at_q rfl (fun _ h => h.rests ⟨rfl, rfl, rfl, rfl, rfl, rfl, rfl, rfl⟩) at_p
      contented
  | unsubscribed _ torn => exact contented_kept contented (torn.kept at_p)
  | unsubscribedAll _ torn => exact contented_kept contented (torn.kept at_p)
  | joined _ onward => exact contented_kept contented (onward.kept at_p)
  | stoppedForCall _ _ onward => exact contented_kept contented (onward.kept at_p)
  | @foundClear _ q _ other _ fx _ at_q _ _ onward =>
    let served := { other with line := other.line.tail }
    let u : Supervisor := { s with pairs := s.pairs.set q served, effects := fx }
    have pairs : u.pairs = s.pairs.set q served := rfl
    obtain ⟨later, at_later, still⟩ := contented_set at_q pairs
      (fun _ h => h.rests ⟨rfl, rfl, rfl, rfl, rfl, rfl, rfl, rfl⟩) at_p contented
    exact contented_kept still (onward.kept at_later)
  | cleared call at_q _ _ =>
    exact contented_set at_q rfl (fun _ h => ⟨h.watchdog, h.calm, h.total⟩) at_p contented
  | rested at_q wakes _ =>
    exact contented_set at_q rfl (fun _ h => h.rests wakes.rests) at_p contented
  | queued at_q _ needed _ =>
    exact contented_set at_q rfl (fun _ h => by simp [content at_q h] at needed) at_p contented
  | withdrew at_q turn _ | stopsOld at_q turn _ _ | startsNew at_q turn _ _ =>
    exact contented_set at_q rfl (fun _ h => (turn.not_contented h (content at_q h)).elim) at_p
      contented
  | ended at_q _ finished =>
    exact contented_set at_q rfl (fun _ h => ⟨.inr (.inr rfl), .inl finished, h.total⟩) at_p
      contented
  | @opened c canStall _ _ _ _ _ at_c _ _ at_q =>
    refine contented_set at_q rfl (fun same h => ?_) at_p contented
    obtain rfl : canStall = false := by
      have steady := (calm c (by simp [owner?, at_c, same])).2
      cases canStall with
      | false => rfl
      | true => exact absurd rfl (steady (.ok ()))
    exact openedPair_contented h s c
  | failed _ _ _ at_q =>
    exact contented_set at_q rfl (fun _ h => contented_finish h _) at_p contented
  | replaced _ _ at_q watchdog | notReplaced _ _ at_q watchdog =>
    exact contented_set at_q rfl (fun _ h => absurd watchdog (h.watchdog_ne (by simp))) at_p
      contented
  | stray at_c missing => exact absurd missing (lawful.sound.present at_c)
  | stoppedForWatchdog _ at_q watchdog =>
    exact contented_set at_q rfl (fun _ h => absurd watchdog (h.watchdog_ne (by simp))) at_p
      contented
  | heard _ at_q _ _ => exact contented_set at_q rfl (fun _ h => h.heard s.now) at_p contented
  | @closing c _ _ _ at_c at_q _ =>
    refine contented_set at_q rfl (fun same _ => ?_) at_p contented
    exact absurd rfl (calm c (by simp [owner?, at_c, same])).1

/-! ## The one channel of a pair -/

/-- The pair `p` of this key and observer is contented, and `c` is its only channel. -/
structure Keeps (s : Supervisor) (p : PairId) (c : ChannelId) (key : WatchKey)
    (observer : Option String) : Prop where
  lawful : s.Lawful
  pair : ∃ pair, s.pairs[p]? = some pair ∧ pair.key = key ∧ pair.observer = observer ∧
    pair.Contented
  owner : ∀ d, s.owner? d = some p ↔ d = c

variable {key : WatchKey} {observer : Option String}

theorem Keeps.step (h : s.Keeps p c key observer) (unclosed : e ≠ .deliver c .closed)
    (steady : ∀ result, e ≠ .handshake c true result) : (s.step e).Keeps p c key observer := by
  obtain ⟨pair, at_p, own, watched, contented⟩ := h.pair
  have step := step_transition s e
  have calm : s.Calm p e := fun d mine => (h.owner d).1 mine ▸ ⟨unclosed, steady⟩
  obtain ⟨later, at_later, stays⟩ := step.contented h.lawful calm at_p contented
  obtain ⟨later', at_later', facts⟩ := step.later at_p
  cases at_later.symm.trans at_later'
  refine ⟨h.lawful.step e, ⟨later, at_later, facts.key.trans own, facts.observer.trans watched,
    stays⟩, fun d => ⟨fun mine => ?_, ?_⟩⟩
  · cases old : s.owner? d with
    | some q => cases (step.owner old).symm.trans mine; exact (h.owner d).1 old
    | none =>
      rcases step.makes h.lawful.sound old mine with
        ⟨id, -, came, -⟩ | ⟨other, at_other, watchdog⟩
      · exact absurd ((h.owner c).2 rfl)
          (((h.lawful.orderly.pairs p pair at_p).arriving id came).channels c)
      · cases at_later.symm.trans at_other
        exact absurd watchdog (stays.watchdog_ne (by simp))
  · rintro rfl
    exact step.owner ((h.owner d).2 rfl)

/-! ## Other writers of the store -/

theorem Lawful.withStore (h : s.Lawful) (store : Store) : { s with store }.Lawful where
  sound := ⟨h.sound.owned, h.sound.unique, h.sound.registered, h.sound.leaving, h.sound.live,
    h.sound.gate, h.sound.finished⟩
  orderly := ⟨fun p pair at_p =>
    have at_p := h.orderly.pairs p pair at_p
    ⟨at_p.slot, at_p.nodup, at_p.calls, at_p.watchdog,
      fun id came =>
        have untouched := at_p.arriving id came
        ⟨untouched.line, untouched.watchdog, untouched.channels, untouched.only⟩,
      at_p.opening, at_p.unborn, at_p.stopping, at_p.starting, at_p.clearing, at_p.resting⟩,
    h.orderly.bounded⟩
  coherent := h.coherent

theorem Keeps.withStore (h : s.Keeps p c key observer) (store : Store) :
    { s with store }.Keeps p c key observer :=
  ⟨h.lawful.withStore store, h.pair, h.owner⟩

/-! ## Pairs without a channel -/

/-- A pair for whose first channel a call still comes is contented. -/
def Unhurried (s : Supervisor) : Prop :=
  ∀ (id : CallId) (p : PairId), s.calls[id]? = some (.arriving p) →
    ∃ pair, s.pairs[p]? = some pair ∧ pair.Contented

/-- Such a pair has no channel that could be heard of. -/
theorem Unhurried.step (h : s.Unhurried) (lawful : s.Lawful) (e : Event) :
    (s.step e).Unhurried := by
  intro id p came
  have step := step_transition s e
  rcases step.opening_from lawful.sound rfl came with before | opening
  · obtain ⟨pair, at_p, contented⟩ := h id p before
    have untouched := (lawful.orderly.pairs p pair at_p).arriving id before
    exact step.contented lawful (fun c own => absurd own (untouched.channels c)) at_p contented
  · cases opening with
    | @arriving key _ registers =>
      obtain ⟨rfl, new, observer, rfl⟩ := registers
      rw [step_subscribe_new new]
      exact ⟨_, List.getElem?_concat_length, newPair_contented s key observer⟩

theorem run_unhurried (events : List Event) (lawful : s.Lawful) (h : s.Unhurried) :
    (s.run events).Unhurried := by
  induction events generalizing s with
  | nil => exact h
  | cons e events ih => exact ih (lawful.step e) (h.step lawful e)

theorem unhurried_initial (initial : s.Initial) : s.Unhurried := by
  intro id p came
  simp [initial.calls] at came

/-- A pair has the one channel that is made when the call that registered it has come for it. -/
theorem keeps_enter {id : CallId} (lawful : s.Lawful) (unhurried : s.Unhurried)
    (came : s.calls[id]? = some (.arriving p)) (at_p : s.pairs[p]? = some pair)
    (live : pair.cancelled = false) :
    (s.step (.enter id)).Keeps p s.channels.length pair.key pair.observer ∧
      (s.step (.enter id)).calls[id]? = some (.starting p s.channels.length) := by
  obtain ⟨pair', at_p', contented⟩ := unhurried id p came
  cases at_p.symm.trans at_p'
  have untouched := (lawful.orderly.pairs p pair at_p).arriving id came
  have hp := (List.getElem?_eq_some_iff.1 at_p).1
  have hid := (List.getElem?_eq_some_iff.1 came).1
  have lawful' := lawful.step (.enter id)
  rw [step_enter came at_p untouched.line live] at lawful' ⊢
  refine ⟨⟨lawful', ⟨_, List.getElem?_set_self hp, rfl, rfl,
    contented.rests ⟨rfl, rfl, rfl, rfl, rfl, rfl, rfl, rfl⟩⟩, fun d => ?_⟩,
    List.getElem?_set_self hid⟩
  rw [owner?_append rfl]
  split
  · rename_i last
    exact iff_of_true rfl last
  · rename_i other
    exact iff_of_false (untouched.channels d) other

end Supervisor

end LedgerWatch
