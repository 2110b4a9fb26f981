import LedgerWatch.Proofs.History
import LedgerWatch.Proofs.Store.Fresh
import Mathlib.Data.Set.Card

/-!
# Noted slots are a function of their history

Slots that began empty have been noted, pruned and cleared, in any order. What is noted of a market
is the highest slot at which it was noted since its entry was last dropped (`Stands`), by a clearing
or by a pruning that found it stale. `replay_followsHistory` says so of every history, and with it
what a pruning returns and keeps, how many markets are noted, and that the order of the notings
between two prunings does not matter.
-/

namespace LedgerWatch.Slots

inductive Operation
  | note (noting : Noting)
  | retain (kind : MarketKind) (freshness : UInt64)
  | clear

def perform (s : Slots) : Operation → Slots
  | .note n => s.note n
  | .retain kind freshness => (s.retainFresh kind freshness).2
  | .clear => {}

/-- The slots after these operations on empty ones. -/
def replay (history : List Operation) : Slots := history.foldl perform {}

/-- The operation drops what is noted of the market: it clears all, or it is a pruning that finds
the entry stale. -/
def Drops (kind : MarketKind) (i : UInt16) (s : Slots) (op : Operation) : Prop :=
  op = .clear ∨ ∃ freshness n, op = .retain kind freshness ∧ s.get? kind i = some n ∧ n ≤ freshness

/-- The market was noted at this slot, and its entry has not been dropped since. -/
def Stands (history : List Operation) (kind : MarketKind) (i : UInt16) (slot : UInt64) : Prop :=
  History.Since perform {} (fun _ op => op = .note ⟨kind, i, slot⟩) (Drops kind i) history

variable {s t : Slots} {history : List Operation} {op : Operation} {kind other : MarketKind}
  {i : UInt16} {slot freshness n : UInt64}

theorem stands_concat : Stands (history ++ [op]) kind i slot ↔
    op = .note ⟨kind, i, slot⟩ ∨
      Stands history kind i slot ∧ ¬Drops kind i (replay history) op :=
  History.since_concat

theorem replay_concat (history : List Operation) (op : Operation) :
    replay (history ++ [op]) = (replay history).perform op :=
  List.foldl_append

theorem Distinct.perform (h : s.Distinct) (op : Operation) : (s.perform op).Distinct := by
  cases op with
  | note n => exact h.note n
  | retain kind freshness =>
    rw [Slots.perform, retainFresh_eq_prune h]
    exact h.prune freshness kind
  | clear => exact distinct_empty

theorem distinct_replay (history : List Operation) : (replay history).Distinct := by
  induction history using List.reverseRecOn with
  | nil => exact distinct_empty
  | append_singleton history op ih =>
    rw [replay_concat]
    exact ih.perform op

theorem get?_retainFresh (h : s.Distinct) (kind other : MarketKind) (freshness : UInt64)
    (i : UInt16) : (s.retainFresh kind freshness).2.get? other i =
      if kind = other then (s.get? other i).filter (freshness < ·) else s.get? other i := by
  rw [retainFresh_eq_prune h, get?_prune h]

/-! ## What is noted -/

theorem not_drops_note (n : Noting) : ¬Drops kind i s (.note n) := by
  rintro (clears | ⟨_, _, retains, -⟩)
  · cases clears
  · cases retains

theorem not_drops_retain_iff : ¬Drops kind i s (.retain other freshness) ↔
    (other = kind → ∀ n, s.get? kind i = some n → freshness < n) := by
  constructor
  · intro held own n found
    apply UInt64.not_le.1
    intro stale
    exact held (.inr ⟨freshness, n, by rw [own], found, stale⟩)
  · rintro fresh (clears | ⟨_, n, retains, found, stale⟩)
    · cases clears
    · cases retains
      exact UInt64.not_le.2 (fresh rfl n found) stale

/-- A pruning keeps what stands of a market, unless it drops its entry. -/
theorem highest_retain {slots : UInt64 → Prop} (distinct : s.Distinct)
    (h : Highest slots (s.get? kind i)) (other : MarketKind) (freshness : UInt64) :
    Highest (fun slot => slots slot ∧ ¬Drops kind i s (.retain other freshness))
      ((s.retainFresh other freshness).2.get? kind i) := by
  rw [get?_retainFresh distinct, not_drops_retain_iff]
  by_cases own : other = kind
  · rw [if_pos own]
    apply (h.filter freshness).congr
    intro slot
    rw [forall_prop_of_true own]
  · rw [if_neg own]
    apply h.congr
    intro slot
    exact and_iff_left fun same => absurd same own

theorem highest_replay (history : List Operation) (kind : MarketKind) (i : UInt16) :
    Highest (Stands history kind i) ((replay history).get? kind i) := by
  induction history using List.reverseRecOn with
  | nil =>
    rw [replay, List.foldl_nil, get?_empty]
    exact .nothing fun slot => History.not_since_nil
  | append_singleton history op ih =>
    rw [replay_concat]
    cases op with
    | note n =>
      apply (highest_note ih n).congr
      intro slot
      rw [stands_concat, and_iff_left (not_drops_note n), Operation.note.injEq]
    | retain other freshness =>
      apply (highest_retain (distinct_replay history) ih other freshness).congr
      intro slot
      rw [stands_concat, or_iff_right nofun]
    | clear =>
      rw [perform, get?_empty]
      apply Highest.nothing
      intro slot stands
      rcases stands_concat.1 stands with notes | ⟨-, held⟩
      · cases notes
      · exact held (.inl rfl)

/-! ## How many markets are noted -/

/-- The markets that are noted. -/
def present (s : Slots) : List (MarketKind × UInt16) :=
  s.perp.keys.map (MarketKind.perp, ·) ++ s.spot.keys.map (MarketKind.spot, ·)

theorem mem_present (h : s.Distinct) (market : MarketKind × UInt16) :
    market ∈ s.present ↔ (s.get? market.1 market.2).isSome = true := by
  obtain ⟨kind, i⟩ := market
  rw [get?, Table.isSome_get?_iff (h kind)]
  cases kind <;> simp [present, of]

theorem nodup_present (h : s.Distinct) : s.present.Nodup := by
  apply List.nodup_append'.2
  refine ⟨(h .perp).map fun _ _ => ?_, (h .spot).map fun _ _ => ?_, ?_⟩
  · simp
  · simp
  · simp [List.Disjoint]

theorem size_eq_ncard (h : s.Distinct) :
    s.size = {market : MarketKind × UInt16 | (s.get? market.1 market.2).isSome = true}.ncard := by
  classical
  have noted : {market : MarketKind × UInt16 | (s.get? market.1 market.2).isSome = true} =
      s.present.toFinset := by
    ext market
    simp [← mem_present h]
  rw [noted, Set.ncard_coe_finset, List.toFinset_card_of_nodup (nodup_present h)]
  simp [present, size, Table.size, Table.keys]

theorem isEmpty_iff (s : Slots) : s.isEmpty = true ↔ s.size = 0 := by
  simp [isEmpty, size]

/-! ## The order of notings -/

/-- Nothing that can be asked tells them apart. -/
structure Alike (s t : Slots) : Prop where
  noted : ∀ kind i, s.get? kind i = t.get? kind i
  size : s.size = t.size
  isEmpty : s.isEmpty = t.isEmpty
  fresh : ∀ kind freshness, (s.retainFresh kind freshness).1 = (t.retainFresh kind freshness).1

theorem alike_of_noted (distinct : s.Distinct) (distinct' : t.Distinct)
    (same : ∀ kind i, s.get? kind i = t.get? kind i) : Alike s t := by
  have size : s.size = t.size := by
    rw [size_eq_ncard distinct, size_eq_ncard distinct']
    simp only [same]
  refine ⟨same, size, ?_, ?_⟩
  · rw [Bool.eq_iff_iff, isEmpty_iff, isEmpty_iff, size]
  · intro kind freshness
    apply retainFresh_congr distinct distinct'
    intro i
    rw [same]

theorem Alike.perform (h : Alike s t) (distinct : s.Distinct) (distinct' : t.Distinct)
    (op : Operation) : Alike (s.perform op) (t.perform op) := by
  apply alike_of_noted (distinct.perform op) (distinct'.perform op)
  intro kind i
  cases op with
  | note n => simp only [Slots.perform, note, get?_set, h.noted]
  | retain other freshness =>
    simp only [Slots.perform, get?_retainFresh distinct, get?_retainFresh distinct', h.noted]
  | clear => rfl

theorem Alike.run (h : Alike s t) (distinct : s.Distinct) (distinct' : t.Distinct)
    (later : List Operation) :
    Alike (later.foldl Slots.perform s) (later.foldl Slots.perform t) := by
  induction later generalizing s t with
  | nil => exact h
  | cons op rest ih =>
    exact ih (h.perform distinct distinct' op) (distinct.perform op) (distinct'.perform op)

/-- The highest slot that a market was given does not depend on the order. -/
theorem alike_noteAll (distinct : s.Distinct) {notings notings' : List Noting}
    (perm : notings.Perm notings') : Alike (s.noteAll notings) (s.noteAll notings') := by
  apply alike_of_noted (distinct.noteAll _) (distinct.noteAll _)
  intro kind i
  apply (highest_noteAll s notings kind i).unique
  apply (highest_noteAll s notings' kind i).congr
  intro slot
  rw [Given, Given, perm.mem_iff]

theorem replay_notings (history : List Operation) (notings : List Noting)
    (later : List Operation) : replay (history ++ notings.map .note ++ later) =
      later.foldl perform ((replay history).noteAll notings) := by
  rw [replay, List.foldl_append, List.foldl_append, List.foldl_map]
  rfl

/-- What the slots after a history answer, whatever they are asked. -/
structure FollowsHistory (history : List Operation) (s : Slots) : Prop where
  noted : ∀ kind i n,
    s.get? kind i = some n ↔ IsGreatest {slot | Stands history kind i slot} n
  unnoted : ∀ kind i, s.get? kind i = none ↔ ∀ slot, ¬Stands history kind i slot
  fresh : ∀ kind freshness i, i ∈ (s.retainFresh kind freshness).1 ↔
    ∃ n, s.get? kind i = some n ∧ freshness < n
  ascending : ∀ kind freshness, (s.retainFresh kind freshness).1.Pairwise (· < ·)
  kept : ∀ kind freshness i n, (s.retainFresh kind freshness).2.get? kind i = some n ↔
    s.get? kind i = some n ∧ freshness < n
  other : ∀ kind other freshness, kind ≠ other →
    (s.retainFresh kind freshness).2.of other = s.of other
  size : s.size =
    {market : MarketKind × UInt16 | (s.get? market.1 market.2).isSome = true}.ncard
  isEmpty : s.isEmpty = true ↔ s.size = 0
  /-- Whatever comes before and after them, notings may change places. -/
  reordered : ∀ (notings notings' : List Noting) (later : List Operation),
    notings.Perm notings' → Alike (replay (history ++ notings.map .note ++ later))
      (replay (history ++ notings'.map .note ++ later))

/-- Over every history of notings, prunings and clearings, the slots are what the history makes of
them. -/
theorem replay_followsHistory (history : List Operation) :
    FollowsHistory history (replay history) where
  noted kind i n := (highest_replay history kind i).eq_some_iff
  unnoted kind i := (highest_replay history kind i).eq_none_iff
  fresh kind freshness i := mem_retainFresh_iff (distinct_replay history)
  ascending := ascending_retainFresh (distinct_replay history)
  kept kind freshness i n := by
    rw [get?_retainFresh (distinct_replay history), if_pos rfl, Option.filter_eq_some_iff,
      decide_eq_true_iff]
  other kind other freshness differ := by
    rw [retainFresh_eq_prune (distinct_replay history), of_prune, if_neg differ]
  size := size_eq_ncard (distinct_replay history)
  isEmpty := isEmpty_iff (replay history)
  reordered notings notings' later perm := by
    have distinct := distinct_replay history
    rw [replay_notings, replay_notings]
    exact (alike_noteAll distinct perm).run (distinct.noteAll _) (distinct.noteAll _) later

/-- A market that was dropped may come back with a lower slot. -/
example : (replay [.note ⟨.perp, 4, 30⟩, .retain .perp 30, .note ⟨.perp, 4, 10⟩]).get? .perp 4 =
    some 10 := by
  decide

end LedgerWatch.Slots
