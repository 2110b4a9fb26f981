import LedgerWatch.Proofs.Supervisor.Registry

/-!
# Turns with a pair's channel

`OrderlyAt` says what a pair's line means: who stands in it, who is at its head while a channel
starts or stops, and which channel the pair has while nobody is at work. Main statement:
`run_orderly`, every pair is orderly after every run.

An event touches one pair, or several when a call tears pairs down. The other pairs keep the calls
that wait for them and their channels (`SameCalls`, `SameChannels`), which is all that
`OrderlyAt` reads apart from the pair (`OrderlyAt.frame`).
-/

namespace LedgerWatch

/-- The pair in whose line the call stands. -/
def Call.waits? : Call → Option PairId
  | .following p | .starting p _ | .clearing p _ => some p
  | _ => none

/-- The pair whose channel the call has, waits for or comes for. -/
def Call.about? : Call → Option PairId
  | .arriving p | .following p | .starting p _ | .clearing p _ => some p
  | _ => none

theorem Call.about?_of_waits? {call : Call} {p : PairId} (waits : call.waits? = some p) :
    call.about? = some p := by
  cases call <;> first | exact waits | cases waits

/-- The watchdog stands in the line of its pair. -/
def Watchdog.inLine : Watchdog → Bool
  | .queued | .stopping _ | .starting _ => true
  | _ => false

namespace Supervisor

variable {s t u : Supervisor} {p q : PairId} {pair : Pair} {id : CallId} {c : ChannelId}

/-- How far the start of a channel is. -/
def status? (s : Supervisor) (c : ChannelId) : Option ChannelStatus :=
  s.channels[c]?.map Channel.status

/-- The channel made last for the pair. -/
def Newest (s : Supervisor) (p : PairId) (c : ChannelId) : Prop :=
  s.owner? c = some p ∧ ∀ d, s.owner? d = some p → d ≤ c

def waitsAt (s : Supervisor) (id : CallId) : Option PairId := s.calls[id]?.bind Call.waits?

def aboutAt (s : Supervisor) (id : CallId) : Option PairId := s.calls[id]?.bind Call.about?

/-- The call `id` comes for the channel of a pair that has none yet, and it alone does. -/
structure Untouched (s : Supervisor) (p : PairId) (pair : Pair) (id : CallId) : Prop where
  line : pair.line = []
  watchdog : pair.watchdog = .unborn
  channels : ∀ c, s.owner? c ≠ some p
  only : ∀ id' : CallId, s.calls[id']? = some (.arriving p) → id' = id

structure OrderlyAt (s : Supervisor) (p : PairId) (pair : Pair) : Prop where
  slot : ∀ c, pair.channel = some c → s.Newest p c ∧ s.status? c = some .started
  nodup : pair.line.Nodup
  calls : ∀ id, .call id ∈ pair.line ↔ s.waitsAt id = some p
  watchdog : .watchdog ∈ pair.line ↔ pair.watchdog.inLine = true
  arriving : ∀ id : CallId, s.calls[id]? = some (.arriving p) → s.Untouched p pair id
  opening : ∀ (id : CallId) (c : ChannelId), s.calls[id]? = some (.starting p c) →
    pair.line.head? = some (.call id) ∧ pair.watchdog = .unborn ∧ s.Newest p c ∧
      s.status? c = some .starting
  unborn : pair.watchdog = .unborn → pair.cancelled = false →
    (∃ id : CallId, s.calls[id]? = some (.arriving p)) ∨
      ∃ (id : CallId) (c : ChannelId), s.calls[id]? = some (.starting p c)
  stopping : ∀ c, pair.watchdog = .stopping c →
    pair.line.head? = some .watchdog ∧ pair.channel = none
  starting : ∀ c, pair.watchdog = .starting c →
    pair.line.head? = some .watchdog ∧ pair.channel = none ∧ s.Newest p c ∧
      s.status? c = some .starting
  clearing : ∀ (id : CallId) (rest : List PairId), s.calls[id]? = some (.clearing p rest) →
    pair.cancelled = true
  resting : pair.watchdog = .idle ∨ pair.watchdog = .queued → pair.cancelled = false →
    ∀ c, s.Newest p c → s.status? c = some .started ∧ pair.channel = some c ∨
      s.status? c = some .failed ∧ pair.channel = none

structure Orderly (s : Supervisor) : Prop where
  pairs : ∀ (p : PairId) (pair : Pair), s.pairs[p]? = some pair → s.OrderlyAt p pair
  bounded : ∀ (id : CallId) (p : PairId), s.aboutAt id = some p → p < s.pairs.length

/-! ## Pairs that an event does not touch -/

/-- The same calls have the pair's channel, wait for it or come for it. -/
def SameCalls (s t : Supervisor) (p : PairId) : Prop :=
  ∀ (id : CallId) (call : Call), call.about? = some p →
    (t.calls[id]? = some call ↔ s.calls[id]? = some call)

/-- The pair has the same channels, and their starts are as far. -/
structure SameChannels (s t : Supervisor) (p : PairId) : Prop where
  owner : ∀ c, t.owner? c = some p ↔ s.owner? c = some p
  status : ∀ c, s.owner? c = some p → t.status? c = s.status? c

theorem waitsAt_eq_some : s.waitsAt id = some p ↔
    ∃ call, s.calls[id]? = some call ∧ call.waits? = some p :=
  Option.bind_eq_some_iff

theorem aboutAt_eq_some : s.aboutAt id = some p ↔
    ∃ call, s.calls[id]? = some call ∧ call.about? = some p :=
  Option.bind_eq_some_iff

theorem SameCalls.waitsAt (h : SameCalls s t p) (id : CallId) :
    t.waitsAt id = some p ↔ s.waitsAt id = some p := by
  rw [waitsAt_eq_some, waitsAt_eq_some]
  constructor
  · rintro ⟨call, at_id, waits⟩
    exact ⟨call, (h id call (Call.about?_of_waits? waits)).1 at_id, waits⟩
  · rintro ⟨call, at_id, waits⟩
    exact ⟨call, (h id call (Call.about?_of_waits? waits)).2 at_id, waits⟩

theorem SameCalls.aboutAt (h : SameCalls s t p) (id : CallId) :
    t.aboutAt id = some p ↔ s.aboutAt id = some p := by
  rw [aboutAt_eq_some, aboutAt_eq_some]
  constructor
  · rintro ⟨call, at_id, about⟩
    exact ⟨call, (h id call about).1 at_id, about⟩
  · rintro ⟨call, at_id, about⟩
    exact ⟨call, (h id call about).2 at_id, about⟩

theorem SameChannels.newest (h : SameChannels s t p) (c : ChannelId) :
    t.Newest p c ↔ s.Newest p c := by
  simp only [Newest, h.owner]

theorem SameChannels.refl (h : t.channels = s.channels) : SameChannels s t p :=
  ⟨fun c => by rw [owner?, owner?, h], fun c _ => by rw [status?, status?, h]⟩

theorem SameChannels.trans (h : SameChannels s t p) (k : SameChannels t u p) :
    SameChannels s u p :=
  ⟨fun c => (k.owner c).trans (h.owner c),
    fun c own => (k.status c ((h.owner c).2 own)).trans (h.status c own)⟩

theorem OrderlyAt.frame (h : s.OrderlyAt p pair) (calls : SameCalls s t p)
    (channels : SameChannels s t p) : t.OrderlyAt p pair where
  slot c slot := by
    obtain ⟨newest, started⟩ := h.slot c slot
    exact ⟨(channels.newest c).2 newest, (channels.status c newest.1).trans started⟩
  nodup := h.nodup
  calls id := (h.calls id).trans (calls.waitsAt id).symm
  watchdog := h.watchdog
  arriving id at_id := by
    have untouched := h.arriving id ((calls id _ rfl).1 at_id)
    exact {
      line := untouched.line
      watchdog := untouched.watchdog
      channels := fun c own => untouched.channels c ((channels.owner c).1 own)
      only := fun id' at_id' => untouched.only id' ((calls id' _ rfl).1 at_id') }
  opening id c at_id := by
    obtain ⟨head, unborn, newest, starting⟩ := h.opening id c ((calls id _ rfl).1 at_id)
    exact ⟨head, unborn, (channels.newest c).2 newest,
      (channels.status c newest.1).trans starting⟩
  unborn unborn live := by
    rcases h.unborn unborn live with ⟨id, at_id⟩ | ⟨id, c, at_id⟩
    · exact .inl ⟨id, (calls id _ rfl).2 at_id⟩
    · exact .inr ⟨id, c, (calls id _ rfl).2 at_id⟩
  stopping := h.stopping
  starting c watchdog := by
    obtain ⟨head, empty, newest, starting⟩ := h.starting c watchdog
    exact ⟨head, empty, (channels.newest c).2 newest,
      (channels.status c newest.1).trans starting⟩
  clearing id rest at_id := h.clearing id rest ((calls id _ rfl).1 at_id)
  resting watchdog live c newest := by
    have newest := (channels.newest c).1 newest
    rw [channels.status c newest.1]
    exact h.resting watchdog live c newest

theorem sameCalls_append {call : Call} (h : t.calls = s.calls ++ [call])
    (other : call.about? ≠ some p) : SameCalls s t p := by
  intro id mine about
  rw [h]
  by_cases last : id = s.calls.length
  · subst last
    have different : call ≠ mine := by
      rintro rfl
      exact other about
    simp [different]
  · rw [getElem?_concat_ne last]

theorem sameCalls_set {old call : Call} (at_id : s.calls[id]? = some old)
    (h : t.calls = s.calls.set id call) (left : old.about? ≠ some p)
    (other : call.about? ≠ some p) : SameCalls s t p := by
  intro id' mine about
  rw [h]
  by_cases same : id = id'
  · subst same
    obtain ⟨hid, -⟩ := List.getElem?_eq_some_iff.1 at_id
    have not_call : call ≠ mine := by
      rintro rfl
      exact other about
    have not_old : old ≠ mine := by
      rintro rfl
      exact left about
    rw [List.getElem?_set_self hid, at_id]
    simp [not_call, not_old]
  · rw [List.getElem?_set_ne same]

theorem status?_setStatus {status : ChannelStatus} (h : t.channels = s.setStatus c status)
    (d : ChannelId) : t.status? d = if c = d then (s.status? d).map fun _ => status
      else s.status? d := by
  unfold status?
  rw [h, setStatus, List.getElem?_modify]
  cases s.channels[d]? with
  | none => split <;> rfl
  | some channel => split <;> rfl

theorem status?_countStop (h : t.channels = s.countStop c) (d : ChannelId) :
    t.status? d = s.status? d := by
  unfold status?
  rw [h, countStop, List.getElem?_modify]
  cases s.channels[d]? with
  | none => rfl
  | some channel =>
    simp only [Option.map_eq_map, Option.map_some]
    split <;> rfl

theorem status?_append {channel : Channel} (h : t.channels = s.channels ++ [channel])
    {d : ChannelId} (hd : d < s.channels.length) : t.status? d = s.status? d := by
  rw [status?, status?, h, List.getElem?_append_left hd]

theorem length_of_owner? (own : s.owner? c = some p) : c < s.channels.length := by
  obtain ⟨channel, at_c, -⟩ := Option.map_eq_some_iff.1 own
  exact (List.getElem?_eq_some_iff.1 at_c).1

theorem sameChannels_setStatus {status : ChannelStatus} (h : t.channels = s.setStatus c status)
    (other : s.owner? c ≠ some p) : SameChannels s t p where
  owner d := by rw [owner?_setStatus h]
  status d own := by
    rw [status?_setStatus h, if_neg]
    rintro rfl
    exact other own

theorem sameChannels_countStop (h : t.channels = s.countStop c) : SameChannels s t p :=
  ⟨fun d => by rw [owner?_countStop h], fun d _ => status?_countStop h d⟩

theorem sameChannels_append (h : t.channels = s.channels ++ [newChannel q]) (other : q ≠ p) :
    SameChannels s t p where
  owner d := by
    rw [owner?_append h]
    split
    · rename_i last
      subst last
      simp [other, owner?]
    · rfl
  status d own := status?_append h (length_of_owner? own)

theorem newest_append (h : t.channels = s.channels ++ [newChannel p]) :
    t.Newest p s.channels.length := by
  refine ⟨by rw [owner?_append h, if_pos rfl], fun d own => ?_⟩
  rw [owner?_append h] at own
  split at own
  · rename_i last
    exact Nat.le_of_eq last
  · exact Nat.le_of_lt (length_of_owner? own)

theorem status?_new (h : t.channels = s.channels ++ [newChannel p]) :
    t.status? s.channels.length = some .starting := by
  simp [status?, h, newChannel]

theorem newest_setStatus {status : ChannelStatus} (h : t.channels = s.setStatus c status)
    (d : ChannelId) : t.Newest p d ↔ s.Newest p d := by
  simp only [Newest, owner?_setStatus h]

theorem Newest.unique {d : ChannelId} (h : s.Newest p c) (k : s.Newest p d) : c = d :=
  Nat.le_antisymm (k.2 c h.1) (h.2 d k.1)

/-- One pair changed, and the calls and channels of the others are the same. -/
theorem Orderly.change {later : Pair} (h : s.Orderly) (at_p : s.pairs[p]? = some pair)
    (pairs : t.pairs = s.pairs.set p later) (here : t.OrderlyAt p later)
    (calls : ∀ q, p ≠ q → SameCalls s t q) (channels : ∀ q, p ≠ q → SameChannels s t q) :
    t.Orderly := by
  obtain ⟨hp, -⟩ := List.getElem?_eq_some_iff.1 at_p
  constructor
  · intro q other at_q
    rw [pairs] at at_q
    rcases of_getElem?_set at_q with ⟨rfl, rfl⟩ | ⟨hq, at_q⟩
    · exact here
    · exact (h.pairs q other at_q).frame (calls q hq) (channels q hq)
  · intro id q about
    rw [pairs, List.length_set]
    by_cases hq : p = q
    · exact hq ▸ hp
    · exact h.bounded id q (((calls q hq).aboutAt id).1 about)

theorem Orderly.same (h : s.Orderly) (pairs : t.pairs = s.pairs) (calls : ∀ q, SameCalls s t q)
    (channels : ∀ q, SameChannels s t q) : t.Orderly where
  pairs q other at_q := (h.pairs q other (pairs ▸ at_q)).frame (calls q) (channels q)
  bounded id q about := by
    rw [pairs]
    exact h.bounded id q (((calls q).aboutAt id).1 about)

/-- The pair changed in something that no turn depends on. -/
theorem OrderlyAt.touch {later : Pair} (h : s.OrderlyAt p pair) (line : later.line = pair.line)
    (watchdog : later.watchdog = pair.watchdog)
    (cancelled : pair.cancelled = true → later.cancelled = true)
    (channel : later.channel = pair.channel ∨ later.cancelled = true ∧ later.channel = none) :
    s.OrderlyAt p later := by
  have empty (h : pair.channel = none) : later.channel = none := by
    rcases channel with same | ⟨-, empty⟩
    · rw [same, h]
    · exact empty
  have live (h : later.cancelled = false) : pair.cancelled = false := by
    cases finished : pair.cancelled with
    | false => rfl
    | true => simp [cancelled finished] at h
  exact {
    slot := fun c slot => by
      rcases channel with same | ⟨-, none⟩
      · exact h.slot c (same ▸ slot)
      · simp [none] at slot
    nodup := line ▸ h.nodup
    calls := line ▸ h.calls
    watchdog := line ▸ watchdog ▸ h.watchdog
    arriving := fun id at_id =>
      { h.arriving id at_id with
        line := line.trans (h.arriving id at_id).line
        watchdog := watchdog.trans (h.arriving id at_id).watchdog }
    opening := line ▸ watchdog ▸ h.opening
    unborn := fun unborn alive => h.unborn (watchdog ▸ unborn) (live alive)
    stopping := fun c stopping => by
      obtain ⟨head, none⟩ := h.stopping c (watchdog ▸ stopping)
      exact ⟨line ▸ head, empty none⟩
    starting := fun c starting => by
      obtain ⟨head, none, newest⟩ := h.starting c (watchdog ▸ starting)
      exact ⟨line ▸ head, empty none, newest⟩
    clearing := fun id rest at_id => cancelled (h.clearing id rest at_id)
    resting := fun rest alive c newest => by
      rw [channel.resolve_right (by simp [alive])]
      exact h.resting (watchdog ▸ rest) (live alive) c newest }

/-! ## Coming to the line and leaving it -/

theorem leave {line : List Party} {party : Party} (nodup : line.Nodup)
    (first : line.head? = some party) : line.tail.Nodup ∧ party ∉ line.tail ∧
      ∀ other, other ≠ party → (other ∈ line.tail ↔ other ∈ line) := by
  cases line with
  | nil => simp at first
  | cons head rest =>
    obtain rfl : head = party := by simpa using first
    obtain ⟨out, nodup⟩ := List.nodup_cons.1 nodup
    refine ⟨nodup, out, fun other different => ?_⟩
    simp [different]

theorem head?_join {line : List Party} {party : Party} (busy : line ≠ []) (other : Party) :
    (line ++ [other]).head? = some party ↔ line.head? = some party := by
  cases line with
  | nil => exact absurd rfl busy
  | cons head rest => simp

theorem nodup_join {line : List Party} {party : Party} (nodup : line.Nodup)
    (out : party ∉ line) : (line ++ [party]).Nodup := by
  refine List.nodup_append.2 ⟨nodup, by simp, ?_⟩
  intro a mem b last eq
  obtain rfl : b = party := by simpa using last
  exact out (eq ▸ mem)

/-- A call that has not to start a channel joins the line behind others. -/
theorem OrderlyAt.callJoins {later : Pair} (h : s.OrderlyAt p pair) (id : CallId) (call : Call)
    (out : s.waitsAt id ≠ some p) (at_id : t.calls[id]? = some call)
    (waits : call.waits? = some p) (notStarting : ∀ c, call ≠ .starting p c)
    (clears : ∀ rest, call = .clearing p rest → later.cancelled = true)
    (others : ∀ id', id' ≠ id → t.calls[id']? = s.calls[id']?) (channels : t.channels = s.channels)
    (busy : pair.line ≠ []) (line : later.line = pair.line ++ [.call id])
    (watchdog : later.watchdog = pair.watchdog)
    (cancelled : pair.cancelled = true → later.cancelled = true)
    (channel : later.channel = pair.channel) : t.OrderlyAt p later := by
  have same : SameChannels s t p := .refl channels
  have live (h : later.cancelled = false) : pair.cancelled = false := by
    cases finished : pair.cancelled with
    | false => rfl
    | true => simp [cancelled finished] at h
  have starting {id' : CallId} {c : ChannelId} (k : t.calls[id']? = some (.starting p c)) :
      s.calls[id']? = some (.starting p c) := by
    by_cases hid : id' = id
    · subst hid
      cases at_id.symm.trans k
      exact absurd rfl (notStarting c)
    · rw [others id' hid] at k
      exact k
  exact {
    slot := fun c slot => by
      obtain ⟨newest, started⟩ := h.slot c (channel ▸ slot)
      exact ⟨(same.newest c).2 newest, (same.status c newest.1).trans started⟩
    nodup := by
      rw [line]
      exact nodup_join h.nodup (fun mem => out ((h.calls id).1 mem))
    calls := fun id' => by
      rw [line, List.mem_append, h.calls id', waitsAt_eq_some, waitsAt_eq_some]
      by_cases hid : id' = id
      · subst hid
        simp [at_id, waits]
      · simp [others id' hid, hid]
    watchdog := by
      rw [line, watchdog, ← h.watchdog]
      simp
    arriving := fun id' at_id' => by
      by_cases hid : id' = id
      · subst hid
        cases at_id.symm.trans at_id'
        simp [Call.waits?] at waits
      · exact absurd (h.arriving id' (others id' hid ▸ at_id')).line busy
    opening := fun id' c at_id' => by
      obtain ⟨head, unborn, newest, starting⟩ := h.opening id' c (starting at_id')
      rw [line, watchdog, head?_join busy, same.newest, same.status c newest.1]
      exact ⟨head, unborn, newest, starting⟩
    unborn := fun unborn alive => by
      rcases h.unborn (watchdog ▸ unborn) (live alive) with ⟨id', at_id'⟩ | ⟨id', c, at_id'⟩
      · exact absurd (h.arriving id' at_id').line busy
      · refine .inr ⟨id', c, ?_⟩
        rw [others, at_id']
        rintro rfl
        exact out (waitsAt_eq_some.2 ⟨_, at_id', rfl⟩)
    stopping := fun c stopping => by
      rw [line, channel, head?_join busy]
      exact h.stopping c (watchdog ▸ stopping)
    starting := fun c starting => by
      obtain ⟨head, empty, newest, starting⟩ := h.starting c (watchdog ▸ starting)
      rw [line, channel, head?_join busy, same.newest, same.status c newest.1]
      exact ⟨head, empty, newest, starting⟩
    clearing := fun id' rest at_id' => by
      by_cases hid : id' = id
      · subst hid
        cases at_id.symm.trans at_id'
        exact clears rest rfl
      · rw [others id' hid] at at_id'
        exact cancelled (h.clearing id' rest at_id')
    resting := fun rest alive c newest => by
      have newest := (same.newest c).1 newest
      rw [channel, same.status c newest.1]
      exact h.resting (watchdog ▸ rest) (live alive) c newest }

/-- What is left of the line when the call at its head has its turn. -/
theorem OrderlyAt.callLeaves {old call : Call} (h : s.OrderlyAt p pair)
    (at_id : s.calls[id]? = some old) (first : pair.line.head? = some (.call id))
    (calls : t.calls = s.calls.set id call) (done : call.waits? = none) :
    pair.line.tail.Nodup ∧ (∀ id', .call id' ∈ pair.line.tail ↔ t.waitsAt id' = some p) ∧
      (.watchdog ∈ pair.line.tail ↔ .watchdog ∈ pair.line) := by
  obtain ⟨nodup, out, others⟩ := leave h.nodup first
  obtain ⟨hid, -⟩ := List.getElem?_eq_some_iff.1 at_id
  refine ⟨nodup, fun id' => ?_, others .watchdog (by simp)⟩
  by_cases eq : id' = id
  · subst eq
    have gone : t.waitsAt id' = none := by simp [waitsAt, calls, hid, done]
    simp [out, gone]
  · rw [others (.call id') (by simpa using eq), h.calls id', waitsAt, waitsAt, calls,
      List.getElem?_set_ne (Ne.symm eq)]

/-- A call that waited for its turn, and not for a channel's start, has it and leaves the line. -/
theorem OrderlyAt.callDone {old call : Call} {later : Pair} (h : s.OrderlyAt p pair)
    (at_id : s.calls[id]? = some old) (waited : ∀ c, old ≠ .starting p c)
    (first : pair.line.head? = some (.call id)) (calls : t.calls = s.calls.set id call)
    (done : call.about? = none) (channels : t.channels = s.channels)
    (line : later.line = pair.line.tail) (watchdog : later.watchdog = pair.watchdog)
    (cancelled : later.cancelled = pair.cancelled)
    (channel : later.channel = pair.channel ∨ later.cancelled = true ∧ later.channel = none) :
    t.OrderlyAt p later := by
  have same : SameChannels s t p := .refl channels
  have nowhere : call.waits? = none := by
    cases waits : call.waits? with
    | none => rfl
    | some q => simp [Call.about?_of_waits? waits] at done
  obtain ⟨nodup, waiting, dog⟩ := h.callLeaves at_id first calls nowhere
  have before {id' : CallId} {mine : Call} (k : t.calls[id']? = some mine)
      (about : mine.about? = some p) : s.calls[id']? = some mine := by
    rw [calls] at k
    rcases of_getElem?_set k with ⟨-, rfl⟩ | ⟨-, k⟩
    · simp [done] at about
    · exact k
  have busy : pair.line ≠ [] := by
    intro free
    simp [free] at first
  have quiet {id' : CallId} {c : ChannelId} : s.calls[id']? ≠ some (.starting p c) := by
    intro opening
    have head := (h.opening id' c opening).1
    obtain rfl : id = id' := by simpa using first.symm.trans head
    cases at_id.symm.trans opening
    exact waited c rfl
  exact {
    slot := fun c slot => by
      rcases channel with kept | ⟨-, none⟩
      · obtain ⟨newest, started⟩ := h.slot c (kept ▸ slot)
        exact ⟨(same.newest c).2 newest, (same.status c newest.1).trans started⟩
      · simp [none] at slot
    nodup := line ▸ nodup
    calls := line ▸ waiting
    watchdog := by rw [line, watchdog, dog, h.watchdog]
    arriving := fun id' at_id' => absurd (h.arriving id' (before at_id' rfl)).line busy
    opening := fun id' c opening => absurd (before opening rfl) quiet
    unborn := fun unborn alive => by
      rcases h.unborn (watchdog ▸ unborn) (cancelled ▸ alive) with ⟨id', at_id'⟩ | ⟨id', c, opening⟩
      · exact absurd (h.arriving id' at_id').line busy
      · exact absurd opening quiet
    stopping := fun c stopping => by
      have head := (h.stopping c (watchdog ▸ stopping)).1
      simp [first] at head
    starting := fun c starting => by
      have head := (h.starting c (watchdog ▸ starting)).1
      simp [first] at head
    clearing := fun id' rest k => cancelled ▸ h.clearing id' rest (before k rfl)
    resting := fun rest alive c newest => by
      have newest := (same.newest c).1 newest
      rw [channel.resolve_right (by simp [alive]), same.status c newest.1]
      exact h.resting (watchdog ▸ rest) (cancelled ▸ alive) c newest }

/-- The watchdog is at the head of the line, and no call starts a channel of the pair or comes for
it. -/
structure WatchdogFirst (s : Supervisor) (p : PairId) (line : List Party) (cancelled : Bool) :
    Prop where
  nodup : line.Nodup
  first : line.head? = some .watchdog
  calls : ∀ id, .call id ∈ line ↔ s.waitsAt id = some p
  settled : ∀ id : CallId, s.calls[id]? ≠ some (.arriving p)
  quiet : ∀ (id : CallId) (c : ChannelId), s.calls[id]? ≠ some (.starting p c)
  clearing : ∀ (id : CallId) (rest : List PairId), s.calls[id]? = some (.clearing p rest) →
    cancelled = true

theorem WatchdogFirst.congr {line : List Party} {cancelled : Bool}
    (h : s.WatchdogFirst p line cancelled) (calls : t.calls = s.calls) :
    t.WatchdogFirst p line cancelled where
  nodup := h.nodup
  first := h.first
  calls id := by rw [waitsAt, calls]; exact h.calls id
  settled := calls ▸ h.settled
  quiet := calls ▸ h.quiet
  clearing := calls ▸ h.clearing

theorem OrderlyAt.settled (h : s.OrderlyAt p pair) (born : pair.watchdog ≠ .unborn) (id : CallId) :
    s.calls[id]? ≠ some (.arriving p) :=
  fun arriving => born (h.arriving id arriving).watchdog

theorem OrderlyAt.quiet (h : s.OrderlyAt p pair) (born : pair.watchdog ≠ .unborn) (id : CallId)
    (c : ChannelId) : s.calls[id]? ≠ some (.starting p c) :=
  fun opening => born (h.opening id c opening).2.1

theorem OrderlyAt.watchdogFirst (h : s.OrderlyAt p pair)
    (work : pair.watchdog = .stopping c ∨ pair.watchdog = .starting c) :
    s.WatchdogFirst p pair.line pair.cancelled where
  nodup := h.nodup
  first := work.elim (fun stopping => (h.stopping c stopping).1)
    fun starting => (h.starting c starting).1
  calls := h.calls
  settled := h.settled (by rcases work with work | work <;> simp [work])
  quiet := h.quiet (by rcases work with work | work <;> simp [work])
  clearing := h.clearing

theorem GetsTurn.resting {e : Event} {ready : Pair} (turn : GetsTurn s p pair e ready) :
    pair.watchdog = .idle ∨ pair.watchdog = .queued := by
  cases turn with
  | atOnce wakes _ _ =>
    cases wakes with
    | notice idle _ => exact .inl idle
    | tick idle _ => exact .inl idle
  | waited queued _ => exact .inr queued

theorem GetsTurn.watchdogFirst {e : Event} {ready : Pair} (turn : GetsTurn s p pair e ready)
    (h : s.OrderlyAt p pair) : s.WatchdogFirst p ready.line pair.cancelled := by
  have born : pair.watchdog ≠ .unborn := by rcases turn.resting with k | k <;> simp [k]
  cases turn with
  | atOnce _ _ free =>
    refine ⟨by simp, rfl, fun id => ?_, h.settled born, h.quiet born, h.clearing⟩
    rw [← h.calls id, free]
    simp
  | waited _ first => exact ⟨h.nodup, first, h.calls, h.settled born, h.quiet born, h.clearing⟩

theorem WatchdogFirst.stops {line : List Party} (later : Pair)
    (h : s.WatchdogFirst p line later.cancelled) (same : later.line = line)
    (watchdog : later.watchdog = .stopping c) (empty : later.channel = none) :
    s.OrderlyAt p later where
  slot d slot := by simp [empty] at slot
  nodup := same ▸ h.nodup
  calls := same ▸ h.calls
  watchdog := by
    rw [same, watchdog]
    simpa [Watchdog.inLine] using List.mem_of_mem_head? h.first
  arriving id at_id := absurd at_id (h.settled id)
  opening id d opening := absurd opening (h.quiet id d)
  unborn unborn := by simp [watchdog] at unborn
  stopping _ _ := ⟨same ▸ h.first, empty⟩
  starting d starting := by simp [watchdog] at starting
  clearing := h.clearing
  resting rest := by simp [watchdog] at rest

theorem WatchdogFirst.starts {line : List Party} (later : Pair)
    (h : s.WatchdogFirst p line later.cancelled) (same : later.line = line)
    (watchdog : later.watchdog = .starting c) (empty : later.channel = none)
    (newest : s.Newest p c) (status : s.status? c = some .starting) : s.OrderlyAt p later where
  slot d slot := by simp [empty] at slot
  nodup := same ▸ h.nodup
  calls := same ▸ h.calls
  watchdog := by
    rw [same, watchdog]
    simpa [Watchdog.inLine] using List.mem_of_mem_head? h.first
  arriving id at_id := absurd at_id (h.settled id)
  opening id d opening := absurd opening (h.quiet id d)
  unborn unborn := by simp [watchdog] at unborn
  stopping d stopping := by simp [watchdog] at stopping
  starting d starting := by
    obtain rfl : c = d := by simpa [watchdog] using starting
    exact ⟨same ▸ h.first, empty, newest, status⟩
  clearing := h.clearing
  resting rest := by simp [watchdog] at rest

theorem WatchdogFirst.done {line : List Party} (later : Pair)
    (h : s.WatchdogFirst p line later.cancelled) (same : later.line = line.tail)
    (watchdog : later.watchdog = .idle)
    (slot : ∀ c, later.channel = some c → s.Newest p c ∧ s.status? c = some .started)
    (resting : later.cancelled = false → ∀ c, s.Newest p c →
      s.status? c = some .started ∧ later.channel = some c ∨
        s.status? c = some .failed ∧ later.channel = none) :
    s.OrderlyAt p later := by
  obtain ⟨nodup, out, others⟩ := leave h.nodup h.first
  exact {
    slot
    nodup := same ▸ nodup
    calls := fun id => by rw [same, others (.call id) (by simp), h.calls id]
    watchdog := by simpa [same, watchdog, Watchdog.inLine] using out
    arriving := fun id at_id => absurd at_id (h.settled id)
    opening := fun id d opening => absurd opening (h.quiet id d)
    unborn := fun unborn => by simp [watchdog] at unborn
    stopping := fun d stopping => by simp [watchdog] at stopping
    starting := fun d starting => by simp [watchdog] at starting
    clearing := h.clearing
    resting := fun _ => resting }

/-! ## Every event keeps the order -/

theorem at_takenOver (hid : id < s.calls.length) :
    (s.takenOver id).calls[id]? = some (.returned (.ok ())) := by
  simp [takenOver, hid]

theorem sameCalls_resumed {call : Call} (hid : id < s.calls.length)
    (h : t.calls = s.calls.set id call) (other : call.about? ≠ some p) :
    SameCalls (s.takenOver id) t p :=
  sameCalls_set (at_takenOver hid) (show t.calls = (s.takenOver id).calls.set id call by
    simp [takenOver, h]) (by simp [Call.about?]) other

theorem OrderlyAt.finish {channel : Option ChannelId} (h : s.OrderlyAt p pair)
    (kept : channel = pair.channel ∨ channel = none) :
    s.OrderlyAt p { pair.finish with channel } :=
  h.touch rfl rfl (fun _ => rfl) (kept.imp_right fun empty => ⟨rfl, empty⟩)

theorem Orderly.finish (h : s.Orderly) (at_p : s.pairs[p]? = some pair)
    (pairs : t.pairs = s.pairs.set p pair.finish) (calls : t.calls = s.calls)
    (channels : t.channels = s.channels) : t.Orderly := by
  have same (q : PairId) : SameCalls s t q := fun id call _ => by rw [calls]
  exact h.change at_p pairs (((h.pairs p pair at_p).finish (.inl rfl)).frame (same p)
    (.refl channels)) (fun q _ => same q) (fun _ _ => .refl channels)

theorem TornDown.orderly (torn : TornDown id ps s t) (hid : id < s.calls.length)
    (h : (s.takenOver id).Orderly) : t.Orderly := by
  induction torn with
  | done => exact h.same rfl (fun _ _ _ _ => Iff.rfl) (fun _ => .refl rfl)
  | missing _ _ ih =>
    exact ih hid (h.same rfl (fun _ _ _ _ => Iff.rfl) (fun _ => .refl rfl))
  | @passed p rest s t pair fx at_p _ _ _ _ ih =>
    exact ih hid (h.finish (s := s.takenOver id) at_p rfl rfl rfl)
  | @queued p rest s pair _ at_p busy =>
    refine h.change at_p rfl ?_ (fun q hq => sameCalls_resumed hid rfl ?_) (fun _ _ => .refl rfl)
    · refine (h.pairs _ _ at_p).callJoins id (.clearing p rest) ?_ ?_ rfl
        (by simp) (fun _ _ => rfl) ?_ rfl busy rfl rfl (fun _ => rfl) rfl
      · simp [waitsAt, at_takenOver hid, Call.waits?]
      · simp [hid]
      · intro id' hid'
        simp [takenOver, List.getElem?_set_ne (Ne.symm hid')]
    · simpa [Call.about?] using hq
  | stops at_p _ _ =>
    refine h.change at_p rfl ?_ (fun q _ => sameCalls_resumed hid rfl ?_) (fun _ _ => .refl rfl)
    · refine ((h.pairs _ _ at_p).finish (.inr rfl)).frame (sameCalls_resumed hid rfl ?_) (.refl rfl)
      simp [Call.about?]
    · simp [Call.about?]
  | joins at_p _ _ _ =>
    refine h.change at_p rfl ?_ (fun q _ => sameCalls_resumed hid rfl ?_) (fun _ _ => .refl rfl)
    · refine ((h.pairs _ _ at_p).finish (.inl rfl)).frame (sameCalls_resumed hid rfl ?_) (.refl rfl)
      simp [Call.about?]
    · simp [Call.about?]

theorem GoesOn.orderly {rest : List PairId} (onward : GoesOn id p rest s t)
    (hid : id < s.calls.length) (h : (s.takenOver id).Orderly) : t.Orderly := by
  cases onward with
  | onward _ torn => exact torn.orderly hid h
  | joins =>
    exact h.same rfl (fun _ => sameCalls_resumed hid rfl (by simp [Call.about?]))
      (fun _ => .refl rfl)

/-- A new pair has nobody in its line, and its call comes for the channel. -/
theorem Orderly.register {key : WatchKey} (h : s.Orderly) (sound : Sound [] s)
    (observer : Option String) (pairs : t.pairs = s.pairs ++ [s.newPair key observer])
    (channels : t.channels = s.channels)
    (calls : t.calls = s.calls ++ [.arriving s.pairs.length]) : t.Orderly := by
  have at_new : t.calls[s.calls.length]? = some (.arriving s.pairs.length) := by
    simp [calls]
  have only {id : CallId} {call : Call} (k : t.calls[id]? = some call)
      (about : call.about? = some s.pairs.length) : id = s.calls.length := by
    rw [calls] at k
    rcases of_getElem?_concat k with k | ⟨hid, -⟩
    · exact absurd (h.bounded id _ (aboutAt_eq_some.2 ⟨call, k, about⟩)) (Nat.lt_irrefl _)
    · exact hid
  have other {id : CallId} {call : Call} (k : t.calls[id]? = some call)
      (about : call.about? = some s.pairs.length) : call = .arriving s.pairs.length := by
    obtain rfl := only k about
    exact Option.some.inj (k.symm.trans at_new)
  constructor
  · intro q mine at_q
    rw [pairs] at at_q
    rcases of_getElem?_concat at_q with at_q | ⟨rfl, rfl⟩
    · have different : s.pairs.length ≠ q := Nat.ne_of_gt (List.getElem?_eq_some_iff.1 at_q).1
      refine (h.pairs q mine at_q).frame (sameCalls_append calls ?_) (.refl channels)
      simpa [Call.about?] using different
    · exact {
        slot := fun d k => by simp [newPair] at k
        nodup := by simp [newPair]
        calls := fun id => by
          rw [waitsAt_eq_some]
          constructor
          · intro stands
            simp [newPair] at stands
          · rintro ⟨call, k, waits⟩
            obtain rfl := other k (Call.about?_of_waits? waits)
            simp [Call.waits?] at waits
        watchdog := by simp [newPair, Watchdog.inLine]
        arriving := fun id k => {
          line := rfl
          watchdog := rfl
          channels := fun c own => by
            rw [owner?, channels] at own
            exact absurd (sound.owned c _ own) (Nat.lt_irrefl _)
          only := fun id' k' => (only k' rfl).trans (only k rfl).symm }
        opening := fun id d k => by cases other k rfl
        unborn := fun _ _ => .inl ⟨_, at_new⟩
        stopping := fun d k => by cases k
        starting := fun d k => by cases k
        clearing := fun id rest k => by cases other k rfl
        resting := fun k => by rcases k with k | k <;> cases k }
  · intro id q k
    simp only [pairs, List.length_append, List.length_singleton]
    by_cases hq : s.pairs.length = q
    · exact hq ▸ Nat.lt_succ_self _
    · refine Nat.lt_succ_of_lt (h.bounded id q (((sameCalls_append calls ?_).aboutAt id).1 k))
      simpa [Call.about?] using hq

/-- The call that came for the channel is at the head of the line and starts one. -/
theorem OrderlyAt.enters (h : s.OrderlyAt p pair) (call : s.calls[id]? = some (.arriving p))
    (calls : t.calls = s.calls.set id (.starting p s.channels.length))
    (channels : t.channels = s.channels ++ [newChannel p]) :
    t.OrderlyAt p { pair with line := [.call id] } := by
  have untouched := h.arriving id call
  obtain ⟨hid, -⟩ := List.getElem?_eq_some_iff.1 call
  have mine : t.calls[id]? = some (.starting p s.channels.length) := by simp [calls, hid]
  have before {id' : CallId} (other : id' ≠ id) : t.calls[id']? = s.calls[id']? := by
    rw [calls, List.getElem?_set_ne (Ne.symm other)]
  have nobody (id' : CallId) : s.waitsAt id' ≠ some p := by
    intro waits
    have stands := (h.calls id').2 waits
    simp [untouched.line] at stands
  exact {
    slot := fun c slot => absurd (h.slot c slot).1.1 (untouched.channels c)
    nodup := by simp
    calls := fun id' => by
      by_cases hid' : id' = id
      · subst hid'
        simp [waitsAt, mine, Call.waits?]
      · rw [waitsAt, before hid', ← waitsAt]
        simp [hid', nobody id']
    watchdog := by simp [untouched.watchdog, Watchdog.inLine]
    arriving := fun id' k => by
      by_cases hid' : id' = id
      · subst hid'
        cases mine.symm.trans k
      · exact absurd (untouched.only id' (before hid' ▸ k)) hid'
    opening := fun id' c k => by
      by_cases hid' : id' = id
      · subst hid'
        cases mine.symm.trans k
        exact ⟨rfl, untouched.watchdog, newest_append channels, status?_new channels⟩
      · exact absurd (waitsAt_eq_some.2 ⟨_, before hid' ▸ k, rfl⟩) (nobody id')
    unborn := fun _ _ => .inr ⟨id, _, mine⟩
    stopping := fun c k => by simp [untouched.watchdog] at k
    starting := fun c k => by simp [untouched.watchdog] at k
    clearing := fun id' rest k => by
      by_cases hid' : id' = id
      · subst hid'
        cases mine.symm.trans k
      · exact h.clearing id' rest (before hid' ▸ k)
    resting := fun k => by rcases k with k | k <;> simp [untouched.watchdog] at k }

/-- The call that came for the channel of a pair that ended meanwhile lets it be. -/
theorem OrderlyAt.leftAlone {result : Except SubscriptionError Unit} (h : s.OrderlyAt p pair)
    (call : s.calls[id]? = some (.arriving p)) (finished : pair.cancelled = true)
    (calls : t.calls = s.calls.set id (.returned result)) (channels : t.channels = s.channels) :
    t.OrderlyAt p pair := by
  have same : SameChannels s t p := .refl channels
  have untouched := h.arriving id call
  have before {id' : CallId} {mine : Call} (k : t.calls[id']? = some mine)
      (about : mine.about? = some p) : id' ≠ id ∧ s.calls[id']? = some mine := by
    rw [calls] at k
    rcases of_getElem?_set k with ⟨-, rfl⟩ | ⟨other, k⟩
    · simp [Call.about?] at about
    · exact ⟨Ne.symm other, k⟩
  have nobody (id' : CallId) : s.waitsAt id' ≠ some p := by
    intro waits
    have stands := (h.calls id').2 waits
    simp [untouched.line] at stands
  exact {
    slot := fun c slot => absurd (h.slot c slot).1.1 (untouched.channels c)
    nodup := h.nodup
    calls := fun id' => by
      rw [untouched.line, waitsAt_eq_some]
      constructor
      · intro stands
        cases stands
      · rintro ⟨mine, k, waits⟩
        have k := (before k (Call.about?_of_waits? waits)).2
        exact absurd (waitsAt_eq_some.2 ⟨mine, k, waits⟩) (nobody id')
    watchdog := h.watchdog
    arriving := fun id' k => absurd (untouched.only id' (before k rfl).2) (before k rfl).1
    opening := fun id' c k =>
      absurd (waitsAt_eq_some.2 ⟨_, (before k rfl).2, rfl⟩) (nobody id')
    unborn := fun _ live => by simp [finished] at live
    stopping := h.stopping
    starting := fun c k => by simp [untouched.watchdog] at k
    clearing := fun _ _ _ => finished
    resting := fun _ live => by simp [finished] at live }

/-- The first handshake is over, and the call leaves the line. -/
theorem OrderlyAt.startOver {status : ChannelStatus} {result : Except SubscriptionError Unit}
    {later : Pair} (h : s.OrderlyAt p pair) (call : s.calls[id]? = some (.starting p c))
    (calls : t.calls = s.calls.set id (.returned result))
    (channels : t.channels = s.setStatus c status)
    (line : later.line = pair.line.tail)
    (watchdog : later.watchdog = .idle ∨ later.watchdog = .unborn)
    (cancelled : pair.cancelled = true → later.cancelled = true)
    (slot : status = .started ∧ later.channel = some c ∨ later.channel = pair.channel)
    (alive : later.cancelled = false →
      later.watchdog = .idle ∧ status = .started ∧ later.channel = some c) :
    t.OrderlyAt p later := by
  obtain ⟨first, unborn, newest, starting⟩ := h.opening id c call
  obtain ⟨nodup, waiting, dog⟩ := h.callLeaves call first calls rfl
  have before {id' : CallId} {mine : Call} (k : t.calls[id']? = some mine)
      (about : mine.about? = some p) : id' ≠ id ∧ s.calls[id']? = some mine := by
    rw [calls] at k
    rcases of_getElem?_set k with ⟨-, rfl⟩ | ⟨other, k⟩
    · simp [Call.about?] at about
    · exact ⟨Ne.symm other, k⟩
  have busy : pair.line ≠ [] := by
    intro free
    simp [free] at first
  have quiet (id' : CallId) (d : ChannelId) : t.calls[id']? ≠ some (.starting p d) := by
    intro opening
    obtain ⟨other, opening⟩ := before opening rfl
    have head := (h.opening id' d opening).1
    exact other (by simpa using head.symm.trans first)
  exact {
    slot := fun d k => by
      rcases slot with ⟨rfl, slot⟩ | kept
      · obtain rfl : c = d := by simpa [slot] using k
        rw [status?_setStatus channels, if_pos rfl, starting]
        exact ⟨(newest_setStatus channels c).2 newest, rfl⟩
      · obtain ⟨newest', started⟩ := h.slot d (kept ▸ k)
        obtain rfl := newest.unique newest'
        simp [starting] at started
    nodup := line ▸ nodup
    calls := line ▸ waiting
    watchdog := by
      rw [line, dog, h.watchdog, unborn]
      rcases watchdog with k | k <;> simp [k, Watchdog.inLine]
    arriving := fun id' k => absurd (h.arriving id' (before k rfl).2).line busy
    opening := fun id' d opening => absurd opening (quiet id' d)
    unborn := fun unborn live => by simp [(alive live).1] at unborn
    stopping := fun d k => by rcases watchdog with k' | k' <;> simp [k'] at k
    starting := fun d k => by rcases watchdog with k' | k' <;> simp [k'] at k
    clearing := fun id' rest k => cancelled (h.clearing id' rest (before k rfl).2)
    resting := fun _ live d newest' => by
      obtain ⟨-, rfl, filled⟩ := alive live
      have newest' : s.Newest p d := by simpa only [Newest, owner?_setStatus channels] using newest'
      obtain rfl := newest.unique newest'
      rw [status?_setStatus channels, if_pos rfl, starting]
      exact .inl ⟨rfl, filled⟩ }

/-- A handshake that nobody waits for says nothing about the pair's newest channel. -/
theorem OrderlyAt.unawaited {status : ChannelStatus} (h : s.OrderlyAt p pair)
    (starting : s.status? c = some .starting)
    (noCall : ∀ (id : CallId) (p : PairId), s.calls[id]? ≠ some (.starting p c))
    (watchdog : pair.watchdog ≠ .starting c) (calls : t.calls = s.calls)
    (channels : t.channels = s.setStatus c status) : t.OrderlyAt p pair := by
  have newest (d : ChannelId) : t.Newest p d ↔ s.Newest p d := by
    simp only [Newest, owner?_setStatus channels]
  have other {d : ChannelId} (k : c ≠ d) : t.status? d = s.status? d := by
    rw [status?_setStatus channels, if_neg k]
  exact {
    slot := fun d k => by
      obtain ⟨last, started⟩ := h.slot d k
      have hd : c ≠ d := by
        rintro rfl
        simp [starting] at started
      exact ⟨(newest d).2 last, (other hd).trans started⟩
    nodup := h.nodup
    calls := fun id => by rw [waitsAt, calls]; exact h.calls id
    watchdog := h.watchdog
    arriving := fun id k => by
      have untouched := h.arriving id (calls ▸ k)
      exact {
        line := untouched.line
        watchdog := untouched.watchdog
        channels := fun d own => untouched.channels d (owner?_setStatus channels d ▸ own)
        only := calls ▸ untouched.only }
    opening := fun id d k => by
      rw [calls] at k
      obtain ⟨head, unborn, last, starting⟩ := h.opening id d k
      have hd : c ≠ d := by
        rintro rfl
        exact noCall id p k
      exact ⟨head, unborn, (newest d).2 last, (other hd).trans starting⟩
    unborn := calls ▸ h.unborn
    stopping := h.stopping
    starting := fun d k => by
      obtain ⟨head, empty, last, starting⟩ := h.starting d k
      have hd : c ≠ d := by
        rintro rfl
        exact watchdog k
      exact ⟨head, empty, (newest d).2 last, (other hd).trans starting⟩
    clearing := calls ▸ h.clearing
    resting := fun rest live d last => by
      have known := h.resting rest live d ((newest d).1 last)
      have hd : c ≠ d := by
        rintro rfl
        simp [starting] at known
      rwa [other hd] }

/-- The watchdog joins the line behind others. -/
theorem OrderlyAt.watchdogJoins {later : Pair} (h : s.OrderlyAt p pair)
    (idle : pair.watchdog = .idle) (line : later.line = pair.line ++ [.watchdog])
    (watchdog : later.watchdog = .queued)
    (cancelled : later.cancelled = pair.cancelled) (channel : later.channel = pair.channel) :
    s.OrderlyAt p later where
  slot := channel ▸ h.slot
  nodup := by
    rw [line]
    refine nodup_join h.nodup (fun mem => ?_)
    simpa [idle, Watchdog.inLine] using h.watchdog.1 mem
  calls id := by
    rw [line, ← h.calls id]
    simp
  watchdog := by simp [line, watchdog, Watchdog.inLine]
  arriving id k := absurd k (h.settled (by simp [idle]) id)
  opening id d opening := absurd opening (h.quiet (by simp [idle]) id d)
  unborn unborn := by simp [watchdog] at unborn
  stopping d k := by simp [watchdog] at k
  starting d k := by simp [watchdog] at k
  clearing := cancelled ▸ h.clearing
  resting _ live := by
    rw [channel]
    exact h.resting (.inl idle) (cancelled ▸ live)

theorem OrderlyAt.watchdogEnds (h : s.OrderlyAt p pair) (idle : pair.watchdog = .idle) :
    s.OrderlyAt p { pair with watchdog := .ended } where
  slot := h.slot
  nodup := h.nodup
  calls := h.calls
  watchdog := by simpa [idle, Watchdog.inLine] using h.watchdog
  arriving id k := absurd k (h.settled (by simp [idle]) id)
  opening id d opening := absurd opening (h.quiet (by simp [idle]) id d)
  unborn unborn := by cases unborn
  stopping d k := by cases k
  starting d k := by cases k
  clearing := h.clearing
  resting k := by rcases k with k | k <;> cases k

/-- A call starts a channel of the pair it waits for. -/
theorem Orderly.owner {channel : Channel} (h : s.Orderly)
    (call : s.calls[id]? = some (.starting p c)) (at_c : s.channels[c]? = some channel) :
    channel.pair = p := by
  have hp := h.bounded id p (aboutAt_eq_some.2 ⟨_, call, rfl⟩)
  obtain ⟨-, -, newest, -⟩ := (h.pairs p _ (List.getElem?_eq_getElem hp)).opening id c call
  simpa [owner?, at_c] using newest.1

/-- A call that has just begun has done nothing yet. -/
theorem Orderly.begun (h : s.Orderly) (pairs : t.pairs = s.pairs)
    (calls : t.calls = s.calls ++ [.returned (.ok ())]) (channels : t.channels = s.channels) :
    (t.takenOver s.calls.length).Orderly :=
  h.same pairs (fun _ => sameCalls_append (calls_begun calls) (by simp [Call.about?]))
    (fun _ => .refl channels)

/-- A call that waited for no turn takes what it has to do into its hands. -/
theorem Orderly.take {call : Call} (h : s.Orderly) (at_id : s.calls[id]? = some call)
    (about : call.about? = none) (pairs : t.pairs = s.pairs) (calls : t.calls = s.calls)
    (channels : ∀ q, SameChannels s t q) : (t.takenOver id).Orderly :=
  h.same pairs (fun _ => sameCalls_set at_id (by rw [takenOver, calls]) (by simp [about])
    (by simp [Call.about?])) (fun q => ⟨(channels q).owner, (channels q).status⟩)

/-- A call that has its turn with an empty slot leaves the line. -/
theorem Orderly.takeTurn {rest : List PairId} (h : s.Orderly)
    (call : s.calls[id]? = some (.clearing p rest)) (at_p : s.pairs[p]? = some pair)
    (first : pair.line.head? = some (.call id))
    (pairs : t.pairs = s.pairs.set p { pair with line := pair.line.tail })
    (calls : t.calls = s.calls) (channels : t.channels = s.channels) :
    (t.takenOver id).Orderly := by
  have taken : (t.takenOver id).calls = s.calls.set id (.returned (.ok ())) := by
    rw [takenOver, calls]
  refine h.change at_p pairs ?_ (fun q hq => sameCalls_set call taken ?_ (by simp [Call.about?]))
    (fun _ _ => .refl channels)
  · exact (h.pairs p _ at_p).callDone call (by simp) first taken rfl channels rfl rfl rfl (.inl rfl)
  · simpa [Call.about?] using hq

theorem Transition.orderly {e : Event} (step : Transition s e t) (sound : Sound [] s)
    (h : s.Orderly) : t.Orderly := by
  -- A pair that changed where neither calls nor channels did.
  have alone {p : PairId} {pair later : Pair} {t : Supervisor} (at_p : s.pairs[p]? = some pair)
      (pairs : t.pairs = s.pairs.set p later) (calls : t.calls = s.calls)
      (channels : t.channels = s.channels) (here : s.OrderlyAt p later) : t.Orderly := by
    have same (q : PairId) : SameCalls s t q := fun id call _ => by rw [calls]
    exact h.change at_p pairs (here.frame (same p) (.refl channels)) (fun q _ => same q)
      (fun _ _ => .refl channels)
  cases step with
  | idle => exact h.same rfl (fun _ _ _ _ => Iff.rfl) (fun _ => .refl rfl)
  | passed => exact h.same rfl (fun _ _ _ _ => Iff.rfl) (fun _ => .refl rfl)
  | registered => exact h.register sound _ rfl rfl rfl
  | @entered id p _ _ call at_p _ _ =>
    refine h.change at_p rfl ((h.pairs p _ at_p).enters call rfl rfl)
      (fun q hq => sameCalls_set call rfl ?_ ?_) (fun q hq => sameChannels_append rfl hq)
    · simpa [Call.about?] using hq
    · simpa [Call.about?] using hq
  | @leftAlone id p _ _ call at_p _ finished =>
    refine h.change at_p (set_eq_self at_p).symm
      ((h.pairs p _ at_p).leftAlone call finished rfl rfl)
      (fun q hq => sameCalls_set call rfl ?_ (by simp [Call.about?])) (fun _ _ => .refl rfl)
    simpa [Call.about?] using hq
  | found =>
    exact h.same rfl (fun _ => sameCalls_append rfl (by simp [Call.about?])) (fun _ => .refl rfl)
  | unknown =>
    exact h.same rfl (fun _ => sameCalls_append rfl (by simp [Call.about?])) (fun _ => .refl rfl)
  | @followed _ _ p _ _ _ at_p busy =>
    refine h.change at_p rfl ?_ (fun q hq => sameCalls_append rfl ?_) (fun _ _ => .refl rfl)
    · refine (h.pairs p _ at_p).callJoins s.calls.length (.following p) ?_ ?_ rfl
        (by simp) (by simp) ?_ rfl busy rfl rfl id rfl
      · simp [waitsAt]
      · simp
      · exact fun id different => getElem?_concat_ne different
    · simpa [Call.about?] using hq
  | unsubscribed _ torn => exact torn.orderly (by simp) (h.begun rfl rfl rfl)
  | unsubscribedAll _ torn => exact torn.orderly (by simp) (h.begun rfl rfl rfl)
  | @answered id p _ _ call at_p first =>
    refine h.change at_p rfl ?_ (fun q hq => sameCalls_set call rfl ?_ (by simp [Call.about?]))
      (fun _ _ => .refl rfl)
    · exact (h.pairs p _ at_p).callDone call (by simp) first rfl rfl rfl rfl rfl rfl (.inl rfl)
    · simpa [Call.about?] using hq
  | @cleared id p rest _ _ _ call at_p first _ =>
    have finished := (h.pairs p _ at_p).clearing id rest call
    refine h.change at_p rfl ?_ (fun q hq => sameCalls_set call rfl ?_ (by simp [Call.about?]))
      (fun _ _ => .refl rfl)
    · exact (h.pairs p _ at_p).callDone call (by simp) first rfl rfl rfl rfl rfl rfl
        (.inr ⟨finished, rfl⟩)
    · simpa [Call.about?] using hq
  | foundClear call at_p first _ onward =>
    exact onward.orderly (List.getElem?_eq_some_iff.1 call).1
      (h.takeTurn call at_p first rfl rfl rfl)
  | joined call onward =>
    exact onward.orderly (List.getElem?_eq_some_iff.1 call).1
      (h.take call rfl rfl rfl (fun _ => .refl rfl))
  | stoppedForCall _ call onward =>
    exact onward.orderly (List.getElem?_eq_some_iff.1 call).1
      (h.take call rfl rfl rfl (fun _ => sameChannels_countStop rfl))
  | rested at_p wakes _ =>
    refine alone at_p rfl rfl rfl ?_
    cases wakes with
    | notice => exact (h.pairs _ _ at_p).touch rfl rfl id (.inl rfl)
    | tick => exact (h.pairs _ _ at_p).touch rfl rfl id (.inl rfl)
  | @queued _ p _ _ _ at_p wakes _ _ =>
    refine alone at_p rfl rfl rfl ?_
    cases wakes with
    | notice idle _ => exact (h.pairs p _ at_p).watchdogJoins idle rfl rfl rfl rfl
    | tick idle _ => exact (h.pairs p _ at_p).watchdogJoins idle rfl rfl rfl rfl
  | @withdrew _ p _ _ _ at_p turn finished =>
    refine alone at_p rfl rfl rfl ?_
    have first := turn.watchdogFirst (h.pairs p _ at_p)
    exact WatchdogFirst.done _ (turn.cancelled_eq ▸ first) rfl rfl
      (fun c slot => (h.pairs p _ at_p).slot c (turn.channel_eq ▸ slot))
      (fun live => by simp [turn.cancelled_eq, finished] at live)
  | @stopsOld _ p _ _ _ _ at_p turn _ _ =>
    refine alone at_p rfl rfl rfl ?_
    have first := turn.watchdogFirst (h.pairs p _ at_p)
    exact WatchdogFirst.stops (replacing _ _) (turn.cancelled_eq ▸ first) rfl rfl rfl
  | @startsNew _ p _ _ _ at_p turn _ _ =>
    refine h.change at_p rfl ?_ (fun _ _ _ _ _ => Iff.rfl)
      (fun q hq => sameChannels_append rfl hq)
    have first := turn.watchdogFirst (h.pairs p _ at_p)
    rw [← turn.cancelled_eq] at first
    exact WatchdogFirst.starts (replacing _ _) (first.congr rfl) rfl rfl rfl
      (newest_append rfl) (status?_new rfl)
  | ended at_p idle _ => exact alone at_p rfl rfl rfl ((h.pairs _ _ at_p).watchdogEnds idle)
  | opened at_c _ call at_p =>
    obtain rfl := h.owner call at_c
    refine h.change at_p rfl ?_ (fun q hq => sameCalls_set call rfl ?_ (by simp [Call.about?]))
      (fun q hq => sameChannels_setStatus rfl ?_)
    · exact (h.pairs _ _ at_p).startOver call rfl rfl rfl (.inl rfl) id (.inl ⟨rfl, rfl⟩)
        (fun _ => ⟨rfl, rfl, rfl⟩)
    · simpa [Call.about?] using hq
    · simpa [owner?, at_c] using hq
  | failed at_c _ call at_p =>
    obtain rfl := h.owner call at_c
    have unborn := ((h.pairs _ _ at_p).opening _ _ call).2.1
    refine h.change at_p rfl ?_ (fun q hq => sameCalls_set call rfl ?_ (by simp [Call.about?]))
      (fun q hq => sameChannels_setStatus rfl ?_)
    · exact (h.pairs _ _ at_p).startOver call rfl rfl rfl (.inr unborn) (fun _ => rfl)
        (.inr rfl) (fun live => by simp [Pair.finish] at live)
    · simpa [Call.about?] using hq
    · simpa [owner?, at_c] using hq
  | @replaced c _ _ channel _ at_c _ at_p watchdog =>
    refine h.change at_p rfl ?_ (fun _ _ _ _ _ => Iff.rfl)
      (fun q hq => sameChannels_setStatus rfl (by simpa [owner?, at_c] using hq))
    obtain ⟨-, -, newest, starting⟩ := (h.pairs _ _ at_p).starting c watchdog
    have first := (h.pairs _ _ at_p).watchdogFirst (.inr watchdog)
    have last : Newest { s with channels := s.setStatus c .started } channel.pair c :=
      (newest_setStatus rfl c).2 newest
    have started : status? { s with channels := s.setStatus c .started } c = some .started := by
      rw [status?_setStatus rfl, if_pos rfl, starting]
      rfl
    refine WatchdogFirst.done (replacedPair s _ c) (first.congr rfl) rfl rfl
      (fun d slot => ?_) (fun _ d last' => .inl ?_)
    · obtain rfl : c = d := Option.some.inj slot
      exact ⟨last, started⟩
    · obtain rfl := newest.unique ((newest_setStatus rfl d).1 last')
      exact ⟨started, rfl⟩
  | @notReplaced c _ _ _ _ _ at_c _ at_p watchdog =>
    refine h.change at_p rfl ?_ (fun _ _ _ _ _ => Iff.rfl)
      (fun q hq => sameChannels_setStatus rfl (by simpa [owner?, at_c] using hq))
    obtain ⟨-, empty, newest, starting⟩ := (h.pairs _ _ at_p).starting c watchdog
    have first := (h.pairs _ _ at_p).watchdogFirst (.inr watchdog)
    refine WatchdogFirst.done _ (first.congr rfl) rfl rfl (fun d slot => by simp [empty] at slot)
      (fun _ d last => .inr ?_)
    obtain rfl := newest.unique ((newest_setStatus rfl d).1 last)
    rw [status?_setStatus rfl, if_pos rfl, starting]
    exact ⟨rfl, empty⟩
  | @unawaited c _ _ pair channel status _ at_c starting at_p noCall watchdog =>
    refine h.change at_p (set_eq_self at_p).symm ?_ (fun _ _ _ _ _ => Iff.rfl)
      (fun q hq => sameChannels_setStatus rfl (by simpa [owner?, at_c] using hq))
    exact (h.pairs _ _ at_p).unawaited (by simp [status?, at_c, starting]) noCall watchdog rfl rfl
  | stray at_c missing => exact absurd missing (sound.present at_c)
  | @stoppedForWatchdog c pair channel _ _ at_p watchdog =>
    let u : Supervisor := { s with channels := s.countStop c }
    have counted (q : PairId) : SameChannels s u q := sameChannels_countStop rfl
    have length : u.channels.length = s.channels.length := by simp [u, countStop]
    refine h.change at_p rfl ?_ (fun _ _ _ _ _ => Iff.rfl)
      (fun q hq => (counted q).trans (sameChannels_append rfl hq))
    have first := (h.pairs _ _ at_p).watchdogFirst (.inl watchdog)
    rw [← length]
    exact WatchdogFirst.starts _ (first.congr rfl) rfl rfl
      ((h.pairs _ _ at_p).stopping c watchdog).2 (newest_append (s := u) rfl)
      (status?_new (s := u) rfl)
  | heard _ at_p _ _ =>
    exact alone at_p rfl rfl rfl ((h.pairs _ _ at_p).touch rfl rfl id (.inl rfl))
  | closing _ at_p _ =>
    exact alone at_p rfl rfl rfl ((h.pairs _ _ at_p).touch rfl rfl id (.inl rfl))

/-- Somebody has the pair's channel: a call or the watchdog has its turn and can go on, or one of
the pair's channels is asked to start or to stop and the answer is outstanding. -/
inductive Occupied (s : Supervisor) (p : PairId) (pair : Pair) : Prop
  | call {id : CallId} (waits : s.waitsAt id = some p) (turn : s.hasTurn id = true)
  | watchdog (queued : pair.watchdog = .queued) (first : pair.line.head? = some .watchdog)
  | starts {c : ChannelId} (own : s.owner? c = some p) (starting : s.status? c = some .starting)
  | stops {c : ChannelId} (watchdog : pair.watchdog = .stopping c)

/-- Whoever is at the head of a line can go on, or waits for a channel. -/
theorem OrderlyAt.occupied (h : s.OrderlyAt p pair) (at_p : s.pairs[p]? = some pair)
    (busy : pair.line ≠ []) : s.Occupied p pair := by
  cases line : pair.line with
  | nil => exact absurd line busy
  | cons party others =>
    cases party with
    | watchdog =>
      have inLine := h.watchdog.1 (by simp [line])
      cases watchdog : pair.watchdog with
      | queued => exact .watchdog watchdog (by rw [line]; rfl)
      | stopping c => exact .stops watchdog
      | starting c =>
        obtain ⟨-, -, newest, starting⟩ := h.starting c watchdog
        exact .starts newest.1 starting
      | unborn | idle | ended => simp [watchdog, Watchdog.inLine] at inLine
    | call id =>
      have stands := (h.calls id).1 (by simp [line])
      obtain ⟨call, at_id, waits⟩ := waitsAt_eq_some.1 stands
      cases call with
      | starting q c =>
        obtain rfl : q = p := by simpa [Call.waits?] using waits
        obtain ⟨-, -, newest, starting⟩ := h.opening id c at_id
        exact .starts newest.1 starting
      | following q | clearing q rest =>
        obtain rfl : q = p := by simpa [Call.waits?] using waits
        exact .call stands (by simp [hasTurn, at_id, at_p, line])
      | arriving | stopping | joining | returned => simp [Call.waits?] at waits

theorem orderly_initial (h : s.Initial) : s.Orderly := by
  constructor <;> simp [h.pairs, aboutAt, h.calls]

theorem run_orderly (sound : Sound [] s) (h : s.Orderly) (events : List Event) :
    (s.run events).Orderly := by
  induction events generalizing s with
  | nil => exact h
  | cons e events ih =>
    have step := step_transition s e
    exact ih (step.sound sound) (step.orderly sound h)

end Supervisor

end LedgerWatch
