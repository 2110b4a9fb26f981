import LedgerWatch.Proofs.Supervisor.Closings
import LedgerWatch.Proofs.Supervisor.Duties

/-!
# In whose hands a channel is

A channel of a pair lies in the pair's slot, or a call or the pair's watchdog starts or stops it
(`hand`). A step hands over within one pair (`HandsOver`). A pair that ended with an empty slot
and a watchdog without a channel is sealed and stays so (`Transition.sealing`).
-/

namespace LedgerWatch

/-- The channel that a call starts or stops for the pair, with how far its start is. -/
def Call.channel? (p : PairId) : Call → Option (ChannelId × ChannelStatus)
  | .starting q c => if q = p then some (c, .starting) else none
  | .stopping q c _ => if q = p then some (c, .started) else none
  | _ => none

/-- The channel that a watchdog starts or stops. -/
def Watchdog.channel? : Watchdog → Option (ChannelId × ChannelStatus)
  | .stopping c => some (c, .started)
  | .starting c => some (c, .starting)
  | _ => none

/-- The pair ended, and neither its slot nor its watchdog has a channel. -/
structure Pair.Sealed (pair : Pair) : Prop where
  cancelled : pair.cancelled = true
  slot : pair.channel = none
  watchdog : pair.watchdog.channel? = none

/-- A sealed pair stays so, and its watchdog stays gone. -/
def Pair.Sealing (pair later : Pair) : Prop :=
  pair.Sealed → later.Sealed ∧ (pair.watchdog.isGone = true → later.watchdog.isGone = true)

namespace Supervisor

variable {s t u : Supervisor} {p q : PairId} {pair : Pair} {id : CallId} {c d : ChannelId}
  {ps : List PairId} {status : ChannelStatus}

/-! ## In whose hands a channel is -/

/-- The channel of the pair that a party starts or stops; for no party, the one in the slot. -/
def hand (s : Supervisor) (p : PairId) : Option Party → Option (ChannelId × ChannelStatus)
  | none => (s.pairs[p]?.bind Pair.channel).map fun c => (c, .started)
  | some .watchdog => s.pairs[p]?.bind fun pair => pair.watchdog.channel?
  | some (.call id) => s.calls[id]?.bind (Call.channel? p)

/-- The channel is in somebody's hands. -/
def Has (s : Supervisor) (p : PairId) (c : ChannelId) (status : ChannelStatus) : Prop :=
  ∃ party, s.hand p party = some (c, status)

theorem has_congr (h : ∀ party, t.hand p party = s.hand p party) :
    t.Has p c status ↔ s.Has p c status :=
  exists_congr fun party => by rw [h]

theorem hand_eq (pairs : t.pairs = s.pairs) (calls : t.calls = s.calls) (p : PairId)
    (party : Option Party) : t.hand p party = s.hand p party := by
  rcases party with - | - | - <;> simp only [hand, pairs, calls]

theorem hand_trans (h : ∀ p party, u.hand p party = s.hand p party)
    (k : ∀ p party, t.hand p party = u.hand p party) (p : PairId) (party : Option Party) :
    t.hand p party = s.hand p party :=
  (k p party).trans (h p party)

theorem hand_slot (at_p : s.pairs[p]? = some pair) :
    s.hand p none = pair.channel.map fun c => (c, .started) := by
  simp [hand, at_p]

theorem hand_watchdog (at_p : s.pairs[p]? = some pair) :
    s.hand p (some .watchdog) = pair.watchdog.channel? := by
  simp [hand, at_p]

theorem hand_call {call : Call} (at_id : s.calls[id]? = some call) (p : PairId) :
    s.hand p (some (.call id)) = call.channel? p := by
  simp [hand, at_id]

/-- Hands other than those of the pair `p` and of the call `id` are the same. -/
theorem hand_other (later : Pair) {call : Call} (pairs : t.pairs = s.pairs.set p later)
    (calls : t.calls = s.calls.set id call) {party : Option Party}
    (other : q = p → party ≠ none ∧ party ≠ some .watchdog) (another : party ≠ some (.call id)) :
    t.hand q party = s.hand q party := by
  rcases party with - | id' | -
  · have different : p ≠ q := fun eq => (other eq.symm).1 rfl
    simp only [hand, pairs, List.getElem?_set_ne different]
  · have different : id ≠ id' := fun eq => another (by rw [eq])
    simp only [hand, calls, List.getElem?_set_ne different]
  · have different : p ≠ q := fun eq => (other eq.symm).2 rfl
    simp only [hand, pairs, List.getElem?_set_ne different]

theorem hand_pair (later : Pair) (at_p : s.pairs[p]? = some pair)
    (pairs : t.pairs = s.pairs.set p later) (calls : t.calls = s.calls)
    (slot : later.channel = pair.channel)
    (watchdog : later.watchdog.channel? = pair.watchdog.channel?) (q : PairId)
    (party : Option Party) : t.hand q party = s.hand q party := by
  by_cases same : p = q
  · subst same
    have here : t.pairs[p]? = some later := by
      rw [pairs, List.getElem?_set_self (List.getElem?_eq_some_iff.1 at_p).1]
    rcases party with - | id | -
    · rw [hand_slot here, hand_slot at_p, slot]
    · simp only [hand, calls]
    · rw [hand_watchdog here, hand_watchdog at_p, watchdog]
  · rcases party with - | id | - <;> simp only [hand, pairs, calls, List.getElem?_set_ne same]

theorem hand_setCall (call : Call) {old : Call} (at_id : s.calls[id]? = some old)
    (calls : t.calls = s.calls.set id call) (pairs : t.pairs = s.pairs)
    (same : ∀ q, call.channel? q = old.channel? q) (q : PairId) (party : Option Party) : t.hand q party = s.hand q party := by
  rcases party with - | id' | -
  · simp only [hand, pairs]
  · by_cases eq : id = id'
    · subst eq
      have here : t.calls[id]? = some call := by
        rw [calls, List.getElem?_set_self (List.getElem?_eq_some_iff.1 at_id).1]
      rw [hand_call here, hand_call at_id, same]
    · simp only [hand, calls, List.getElem?_set_ne eq]
  · simp only [hand, pairs]

theorem hand_addCall (call : Call) (calls : t.calls = s.calls ++ [call]) (pairs : t.pairs = s.pairs)
    (none : ∀ q, call.channel? q = none) (q : PairId) (party : Option Party) :
    t.hand q party = s.hand q party := by
  rcases party with - | id | -
  · simp only [hand, pairs]
  · by_cases eq : id = s.calls.length
    · subst eq
      simp [hand, calls, none]
    · simp only [hand, calls, getElem?_concat_ne eq]
  · simp only [hand, pairs]

/-- The pair's channel goes from one party to another, or changes in one party's hands. -/
structure HandsOver (s t : Supervisor) (p : PairId) (giver taker : Option Party)
    (given : Option (ChannelId × ChannelStatus)) : Prop where
  taken : t.hand p taker = given
  gave : giver ≠ taker → t.hand p giver = none
  same : ∀ q party, (q = p → party ≠ giver ∧ party ≠ taker) → t.hand q party = s.hand q party

/-- Handing over what one had changes nothing in what is in hands. -/
theorem HandsOver.has_same {giver taker : Option Party}
    (h : HandsOver s t p giver taker (s.hand p giver))
    (empty : giver ≠ taker → s.hand p taker = none) (q : PairId) (d : ChannelId)
    (status : ChannelStatus) : t.Has q d status ↔ s.Has q d status := by
  constructor
  · rintro ⟨party, had⟩
    by_cases involved : q = p ∧ (party = giver ∨ party = taker)
    · obtain ⟨rfl, rfl | rfl⟩ := involved
      · by_cases alike : party = taker
        · subst alike
          exact ⟨party, h.taken ▸ had⟩
        · simp [h.gave alike] at had
      · exact ⟨giver, h.taken ▸ had⟩
    · rw [h.same q party (by rintro rfl; simpa using involved)] at had
      exact ⟨party, had⟩
  · rintro ⟨party, had⟩
    by_cases involved : q = p ∧ (party = giver ∨ party = taker)
    · obtain ⟨rfl, rfl | rfl⟩ := involved
      · exact ⟨taker, h.taken.trans had⟩
      · by_cases alike : giver = party
        · subst alike
          exact ⟨giver, h.taken.trans had⟩
        · simp [empty alike] at had
    · rw [← h.same q party (by rintro rfl; simpa using involved)] at had
      exact ⟨party, had⟩

/-- Where only the giver had a channel of the pair, the pair has afterwards what was given. -/
theorem HandsOver.has {giver taker : Option Party} {given : Option (ChannelId × ChannelStatus)}
    (h : HandsOver s t p giver taker given)
    (sole : ∀ party had, s.hand p party = some had → party = giver) (q : PairId) (d : ChannelId)
    (status : ChannelStatus) :
    t.Has q d status ↔ q ≠ p ∧ s.Has q d status ∨ q = p ∧ given = some (d, status) := by
  by_cases other : q = p
  · subst other
    simp only [ne_eq, not_true_eq_false, false_and, true_and, false_or]
    constructor
    · rintro ⟨party, had⟩
      by_cases taking : party = taker
      · exact h.taken.symm.trans (taking ▸ had)
      · by_cases giving : party = giver
        · subst giving
          simp [h.gave taking] at had
        · rw [h.same q party (fun _ => ⟨giving, taking⟩)] at had
          exact absurd (sole party _ had) giving
    · exact fun got => ⟨taker, h.taken.trans got⟩
  · simp only [ne_eq, other, not_false_eq_true, true_and, false_and, or_false]
    exact has_congr fun party => h.same q party (fun eq => absurd eq other)

theorem hand_both (later : Pair) (call : Call) {old : Call} (at_p : s.pairs[p]? = some pair)
    (at_id : s.calls[id]? = some old) (pairs : t.pairs = s.pairs.set p later)
    (calls : t.calls = s.calls.set id call) (slot : later.channel = pair.channel)
    (watchdog : later.watchdog.channel? = pair.watchdog.channel?)
    (same : ∀ q, call.channel? q = old.channel? q) (q : PairId) (party : Option Party) :
    t.hand q party = s.hand q party := by
  let u : Supervisor := { s with pairs := t.pairs }
  have first := hand_pair (t := u) later at_p pairs rfl slot watchdog q party
  have second := hand_setCall (s := u) (t := t) call at_id calls rfl same q party
  exact second.trans first

/-- A step that changes one pair and one call hands over between their parties. -/
theorem handsOver_both (later : Pair) (call : Call) {old : Call} {giver taker : Option Party}
    {given : Option (ChannelId × ChannelStatus)} (at_p : s.pairs[p]? = some pair)
    (at_id : s.calls[id]? = some old) (pairs : t.pairs = s.pairs.set p later)
    (calls : t.calls = s.calls.set id call) (taken : t.hand p taker = given)
    (gave : giver ≠ taker → t.hand p giver = none)
    (slot : none ≠ giver → none ≠ taker → later.channel = pair.channel)
    (watchdog : some .watchdog ≠ giver → some .watchdog ≠ taker →
      later.watchdog.channel? = pair.watchdog.channel?)
    (others : ∀ q, (q = p → some (.call id) ≠ giver ∧ some (.call id) ≠ taker) →
      call.channel? q = old.channel? q) : HandsOver s t p giver taker given := by
  refine ⟨taken, gave, fun q party other => ?_⟩
  have at_p' : t.pairs[p]? = some later := by
    rw [pairs, List.getElem?_set_self (List.getElem?_eq_some_iff.1 at_p).1]
  have at_id' : t.calls[id]? = some call := by
    rw [calls, List.getElem?_set_self (List.getElem?_eq_some_iff.1 at_id).1]
  by_cases mine : party = some (.call id)
  · subst mine
    rw [hand_call at_id', hand_call at_id]
    exact others q other
  · by_cases here : q = p ∧ (party = none ∨ party = some .watchdog)
    · obtain ⟨rfl, rfl | rfl⟩ := here
      · rw [hand_slot at_p', hand_slot at_p, slot (other rfl).1 (other rfl).2]
      · rw [hand_watchdog at_p', hand_watchdog at_p, watchdog (other rfl).1 (other rfl).2]
    · exact hand_other later pairs calls (by simpa using here) mine

/-- A step that changes one pair hands over between its slot and its watchdog. -/
theorem handsOver_pair (later : Pair) {giver taker : Option Party}
    {given : Option (ChannelId × ChannelStatus)} (at_p : s.pairs[p]? = some pair)
    (pairs : t.pairs = s.pairs.set p later) (calls : t.calls = s.calls)
    (taken : t.hand p taker = given) (gave : giver ≠ taker → t.hand p giver = none)
    (slot : none ≠ giver → none ≠ taker → later.channel = pair.channel)
    (watchdog : some .watchdog ≠ giver → some .watchdog ≠ taker →
      later.watchdog.channel? = pair.watchdog.channel?) : HandsOver s t p giver taker given := by
  refine ⟨taken, gave, fun q party other => ?_⟩
  have at_p' : t.pairs[p]? = some later := by
    rw [pairs, List.getElem?_set_self (List.getElem?_eq_some_iff.1 at_p).1]
  by_cases here : q = p
  · subst here
    rcases party with - | id | -
    · rw [hand_slot at_p', hand_slot at_p, slot (other rfl).1 (other rfl).2]
    · simp only [hand, calls]
    · rw [hand_watchdog at_p', hand_watchdog at_p, watchdog (other rfl).1 (other rfl).2]
  · rcases party with - | id | - <;>
      simp only [hand, pairs, calls, List.getElem?_set_ne (Ne.symm here)]

/-- A step that changes one call takes away what the call had. -/
theorem handsOver_call (call : Call) {old : Call} {given : Option (ChannelId × ChannelStatus)}
    (at_id : s.calls[id]? = some old) (calls : t.calls = s.calls.set id call)
    (pairs : t.pairs = s.pairs) (taken : call.channel? p = given)
    (others : ∀ q, q ≠ p → call.channel? q = old.channel? q) :
    HandsOver s t p (some (.call id)) (some (.call id)) given := by
  have at_id' : t.calls[id]? = some call := by
    rw [calls, List.getElem?_set_self (List.getElem?_eq_some_iff.1 at_id).1]
  refine ⟨(hand_call at_id' p).trans taken, fun k => absurd rfl k, fun q party other => ?_⟩
  rcases party with - | id' | -
  · simp only [hand, pairs]
  · by_cases eq : id = id'
    · subst eq
      rw [hand_call at_id', hand_call at_id]
      exact others q fun same => (other same).1 rfl
    · simp only [hand, calls, List.getElem?_set_ne eq]
  · simp only [hand, pairs]

/-- A new pair and its call have no channel yet. -/
theorem hand_new {later : Pair} {call : Call} (pairs : t.pairs = s.pairs ++ [later])
    (calls : t.calls = s.calls ++ [call]) (slot : later.channel = none)
    (watchdog : later.watchdog.channel? = none) (none : ∀ q, call.channel? q = none) (q : PairId)
    (party : Option Party) : t.hand q party = s.hand q party := by
  let u : Supervisor := { s with pairs := t.pairs }
  refine (hand_addCall (s := u) call calls rfl none q party).trans ?_
  by_cases new : q = s.pairs.length
  · subst new
    rcases party with - | id | - <;> simp [hand, u, pairs, slot, watchdog]
  · rcases party with - | id | - <;> simp only [hand, u, pairs, getElem?_concat_ne new]

theorem set_takenOver (s : Supervisor) (id : CallId) (call : Call) :
    s.calls.set id call = (s.takenOver id).calls.set id call := by
  simp [takenOver]

/-- Tearing down hands a channel at most from the slot to the call. -/
theorem TornDown.has (torn : TornDown id ps s t) (hid : id < s.calls.length) (q : PairId)
    (d : ChannelId) (status : ChannelStatus) :
    t.Has q d status ↔ (s.takenOver id).Has q d status := by
  induction torn with
  | done => exact has_congr (hand_eq rfl rfl q)
  | missing _ _ ih => exact (ih hid).trans (has_congr (hand_eq rfl rfl q))
  | @passed p rest s t pair fx at_p _ _ _ _ ih =>
    refine (ih hid).trans (has_congr fun party => ?_)
    exact hand_pair (s := s.takenOver id) (t := takenOver { s with
      pairs := s.pairs.set p pair.finish, effects := fx } id) pair.finish at_p rfl rfl rfl rfl q party
  | @queued p rest s pair fx at_p _ =>
    refine has_congr fun party => ?_
    exact hand_both (s := s.takenOver id) { pair.finish with line := pair.line ++ [.call id] }
      (.clearing p rest) at_p (at_takenOver hid) rfl (set_takenOver s id (.clearing p rest)) rfl rfl
      (fun _ => rfl) q party
  | @stops p rest s pair c fx at_p _ slot =>
    have at_p' : (s.takenOver id).pairs[p]? = some pair := at_p
    have given : (s.takenOver id).hand p none = some (c, .started) := by
      rw [hand_slot at_p', slot]
      rfl
    have handed : HandsOver (s.takenOver id) { s with
        calls := s.calls.set id (.stopping p c rest)
        pairs := s.pairs.set p { pair.finish with channel := none }
        effects := fx } p none (some (.call id)) ((s.takenOver id).hand p none) := by
      refine handsOver_both { pair.finish with channel := none } (.stopping p c rest) at_p'
        (at_takenOver hid) rfl (set_takenOver s id _) ?_ (fun _ => ?_) (fun k => absurd rfl k)
        (fun _ _ => rfl) (fun q other => ?_)
      · rw [given]
        simp [hand, hid, Call.channel?]
      · simp [hand, (List.getElem?_eq_some_iff.1 at_p).1]
      · have different : p ≠ q := fun eq => (other eq.symm).2 rfl
        simp [Call.channel?, different]
    exact handed.has_same (fun _ => by simp [hand, takenOver, hid, Call.channel?]) q d status
  | @joins p rest s pair fx at_p _ _ _ =>
    refine has_congr fun party => ?_
    exact hand_both (s := s.takenOver id) pair.finish (.joining p rest) at_p (at_takenOver hid) rfl
      (set_takenOver s id (.joining p rest)) rfl rfl (fun _ => rfl) q party

theorem GoesOn.has {rest : List PairId} (onward : GoesOn id p rest s t) (hid : id < s.calls.length)
    (q : PairId) (d : ChannelId) (status : ChannelStatus) :
    t.Has q d status ↔ (s.takenOver id).Has q d status := by
  cases onward with
  | onward _ torn => exact torn.has hid q d status
  | @joins _ fx =>
    refine has_congr fun party => ?_
    exact hand_setCall (s := s.takenOver id)
      (t := { s with calls := s.calls.set id (.joining p rest), effects := fx }) (.joining p rest)
      (at_takenOver hid) (set_takenOver s id (.joining p rest)) rfl (fun _ => rfl) q party

/-! ## Pairs whose slot was emptied for good -/

/-- The pair is sealed, and no call starts a channel of it. -/
def SealedAt (s : Supervisor) (p : PairId) : Prop :=
  (∃ pair, s.pairs[p]? = some pair ∧ pair.Sealed) ∧
    ∀ (id : CallId) (c : ChannelId), s.calls[id]? ≠ some (.starting p c)

theorem sealing_same {later : Pair} (cancelled : pair.cancelled = true → later.cancelled = true)
    (slot : pair.channel = none → later.channel = none)
    (watchdog : later.watchdog = pair.watchdog) : pair.Sealing later :=
  fun h => ⟨⟨cancelled h.cancelled, slot h.slot, watchdog ▸ h.watchdog⟩, fun gone => watchdog ▸ gone⟩

/-- A watchdog at work does not go with a sealed pair. -/
theorem sealing_of_live {later : Pair} (live : pair.cancelled = false) : pair.Sealing later :=
  fun h => by simp [h.cancelled] at live

theorem sealing_of_working {later : Pair} (work : pair.watchdog.channel? ≠ none) :
    pair.Sealing later :=
  fun h => absurd h.watchdog work

theorem sealing_set {later : Pair} (at_p : s.pairs[p]? = some pair)
    (h : p = q → pair.Sealing later) {mine : Pair} (at_q : s.pairs[q]? = some mine) :
    ∃ mine', (s.pairs.set p later)[q]? = some mine' ∧ mine.Sealing mine' := by
  obtain ⟨hp, -⟩ := List.getElem?_eq_some_iff.1 at_p
  by_cases hq : p = q
  · subst hq
    cases at_p.symm.trans at_q
    exact ⟨later, List.getElem?_set_self hp, h rfl⟩
  · exact ⟨mine, by rw [List.getElem?_set_ne hq, at_q], fun k => ⟨k, fun gone => gone⟩⟩

theorem sealing_refl (pair : Pair) : pair.Sealing pair := fun h => ⟨h, fun gone => gone⟩

theorem sealing_trans {a b c : Pair} (h : a.Sealing b) (k : b.Sealing c) : a.Sealing c :=
  fun x => ⟨(k (h x).1).1, fun gone => (k (h x).1).2 ((h x).2 gone)⟩

theorem TornDown.sealing (torn : TornDown id ps s t) {mine : Pair}
    (at_q : s.pairs[q]? = some mine) : ∃ mine', t.pairs[q]? = some mine' ∧ mine.Sealing mine' := by
  induction torn generalizing mine with
  | done => exact ⟨mine, at_q, sealing_refl mine⟩
  | missing _ _ ih => exact ih at_q
  | @passed p _ s _ pair fx at_p _ _ _ _ ih =>
    have finished : pair.Sealing pair.finish := sealing_same (fun _ => rfl) (fun k => k) rfl
    obtain ⟨mine', at_q', h⟩ := sealing_set at_p (fun _ => finished) at_q
    obtain ⟨mine'', at_q'', h'⟩ := ih at_q'
    exact ⟨mine'', at_q'', sealing_trans h h'⟩
  | queued at_p _ =>
    refine sealing_set at_p (fun _ => ?_) at_q
    exact sealing_same (fun _ => rfl) (fun k => k) rfl
  | stops at_p _ _ =>
    refine sealing_set at_p (fun _ => ?_) at_q
    exact sealing_same (fun _ => rfl) (fun _ => rfl) rfl
  | joins at_p _ _ _ =>
    refine sealing_set at_p (fun _ => ?_) at_q
    exact sealing_same (fun _ => rfl) (fun k => k) rfl

theorem GoesOn.sealing {rest : List PairId} (onward : GoesOn id p rest s t) {mine : Pair}
    (at_q : s.pairs[q]? = some mine) : ∃ mine', t.pairs[q]? = some mine' ∧ mine.Sealing mine' := by
  cases onward with
  | onward _ torn => exact torn.sealing at_q
  | joins => exact ⟨mine, at_q, sealing_refl mine⟩

theorem Transition.sealing {e : Event} (step : Transition s e t) (sound : Sound [] s)
    (orderly : s.Orderly)
    (quiet : ∀ (id : CallId) (c : ChannelId), s.calls[id]? ≠ some (.starting q c)) {mine : Pair}
    (at_q : s.pairs[q]? = some mine) : ∃ mine', t.pairs[q]? = some mine' ∧ mine.Sealing mine' := by
  cases step with
  | idle | passed | found | leftAlone | unknown | unawaited =>
    exact ⟨mine, at_q, sealing_refl mine⟩
  | registered =>
    obtain ⟨hq, -⟩ := List.getElem?_eq_some_iff.1 at_q
    exact ⟨mine, by rw [List.getElem?_append_left hq]; exact at_q, sealing_refl mine⟩
  | followed _ at_p _ | answered _ at_p _ | heard _ at_p _ _ | closing _ at_p _ =>
    refine sealing_set at_p (fun _ => ?_) at_q
    exact sealing_same (fun k => k) (fun k => k) rfl
  | failed _ _ _ at_p =>
    refine sealing_set at_p (fun _ => ?_) at_q
    exact sealing_same (fun _ => rfl) (fun k => k) rfl
  | cleared _ at_p _ _ =>
    refine sealing_set at_p (fun _ => ?_) at_q
    exact sealing_same (fun k => k) (fun _ => rfl) rfl
  | unsubscribed _ torn => exact torn.sealing at_q
  | unsubscribedAll _ torn => exact torn.sealing at_q
  | @foundClear _ p _ pair _ fx _ at_p _ _ onward =>
    have left : pair.Sealing { pair with line := pair.line.tail } :=
      sealing_same (fun k => k) (fun k => k) rfl
    obtain ⟨mine', at_q', h⟩ := sealing_set at_p (fun _ => left) at_q
    obtain ⟨mine'', at_q'', h'⟩ := onward.sealing at_q'
    exact ⟨mine'', at_q'', sealing_trans h h'⟩
  | joined _ onward => exact onward.sealing at_q
  | stoppedForCall _ _ onward => exact onward.sealing at_q
  | rested at_p wakes _ =>
    refine sealing_set at_p (fun _ => ?_) at_q
    cases wakes <;> exact sealing_same (fun k => k) (fun k => k) rfl
  | queued at_p wakes _ _ =>
    refine sealing_set at_p (fun _ h => ?_) at_q
    refine ⟨⟨wakes.cancelled_eq.trans h.cancelled, ?_, rfl⟩, fun gone => ?_⟩
    · cases wakes <;> exact h.slot
    · simp [wakes.idle.1, Watchdog.isGone] at gone
  | withdrew at_p turn finished =>
    refine sealing_set at_p (fun _ h => ?_) at_q
    refine ⟨⟨turn.cancelled_eq.trans finished, turn.channel_eq.trans h.slot, rfl⟩, fun gone => ?_⟩
    rcases turn.resting with k | k <;> simp [k, Watchdog.isGone] at gone
  | entered _ at_p _ live => exact sealing_set at_p (fun _ => sealing_of_live live) at_q
  | stopsOld at_p _ live _ => exact sealing_set at_p (fun _ => sealing_of_live live) at_q
  | startsNew at_p _ live _ => exact sealing_set at_p (fun _ => sealing_of_live live) at_q
  | ended at_p _ _ =>
    refine sealing_set at_p (fun _ h => ?_) at_q
    exact ⟨⟨h.cancelled, h.slot, rfl⟩, fun _ => rfl⟩
  | opened at_c _ call at_p =>
    obtain rfl := orderly.owner call at_c
    exact sealing_set at_p (fun eq => absurd (eq ▸ call) (quiet _ _)) at_q
  | replaced _ _ at_p work | notReplaced _ _ at_p work | stoppedForWatchdog _ at_p work =>
    exact sealing_set at_p (fun _ => sealing_of_working (by simp [work, Watchdog.channel?])) at_q
  | stray at_c missing => exact absurd missing (sound.present at_c)

end Supervisor

end LedgerWatch
