import LedgerWatch.Proofs.Store.Noted
import Mathlib.Data.List.Perm.Basic

/-!
# The fresh indexes

What a pruning returns are the indexes noted above a slot (`mem_retainFresh_iff`), in strictly
ascending order (`ascending_retainFresh`), so it does not depend on the order in which they were
noted (`retainFresh_congr`).
-/

namespace LedgerWatch

theorem perm_insertSorted {α : Type} {before : α → α → Bool} (a : α) (l : List α) :
    (insertSorted before a l).Perm (a :: l) := by
  induction l with
  | nil => exact .refl _
  | cons b rest ih =>
    simp only [insertSorted]
    split
    · exact (ih.cons b).trans (.swap a b rest)
    · exact .refl _

theorem perm_sortBy {α : Type} {before : α → α → Bool} (l : List α) :
    (sortBy before l).Perm l := by
  induction l with
  | nil => exact .refl _
  | cons a rest ih => exact (perm_insertSorted a _).trans (ih.cons a)

section Ascending

variable {ν : Type}

theorem ascending_insertSorted (e : UInt16 × ν) {l : List (UInt16 × ν)}
    (sorted : l.Pairwise fun a b => a.1 ≤ b.1) :
    (insertSorted (fun a b => decide (a.1 < b.1)) e l).Pairwise fun a b => a.1 ≤ b.1 := by
  induction l with
  | nil => simp [insertSorted]
  | cons b rest ih =>
    obtain ⟨first, sorted⟩ := List.pairwise_cons.1 sorted
    simp only [insertSorted]
    split
    · rename_i below
      refine List.pairwise_cons.2 ⟨?_, ih sorted⟩
      intro c mem
      rcases mem_insertSorted.1 mem with rfl | mem
      · exact UInt16.le_of_lt (of_decide_eq_true below)
      · exact first c mem
    · rename_i notBelow
      have least : e.1 ≤ b.1 := UInt16.not_lt.1 (by simpa using notBelow)
      refine List.pairwise_cons.2 ⟨?_, List.pairwise_cons.2 ⟨first, sorted⟩⟩
      intro c mem
      rcases List.mem_cons.1 mem with rfl | mem
      · exact least
      · exact UInt16.le_trans least (first c mem)

theorem ascending_sortBy (l : List (UInt16 × ν)) :
    (sortBy (fun a b => decide (a.1 < b.1)) l).Pairwise fun a b => a.1 ≤ b.1 := by
  induction l with
  | nil => exact .nil
  | cons e rest ih => exact ascending_insertSorted e ih

theorem ascending_mergeSort (l : List UInt16) :
    (l.mergeSort fun i j => i ≤ j).Pairwise (· ≤ ·) := by
  refine (List.pairwise_mergeSort ?_ ?_ l).imp of_decide_eq_true
  · intro i j k first second
    exact decide_eq_true (UInt16.le_trans (of_decide_eq_true first) (of_decide_eq_true second))
  · intro i j
    simpa using UInt16.le_total i j

end Ascending

namespace Slots

variable {s t : Slots} {kind : MarketKind} {freshness : UInt64} {i : UInt16}

theorem retainFresh_fst (s : Slots) (kind : MarketKind) (freshness : UInt64) :
    (s.retainFresh kind freshness).1 =
      ((s.snapshot kind).filter (isFresh freshness)).map Prod.fst := by
  simp only [retainFresh, List.partition_eq_filter_filter]

/-- Sorting the entries and keeping the fresh ones leaves the fresh indexes sorted. -/
theorem retainFresh_eq (s : Slots) (kind : MarketKind) (freshness : UInt64) :
    (s.retainFresh kind freshness).1 =
      (((s.of kind).entries.filter fun entry => freshness < entry.2).map
        Prod.fst).mergeSort fun i j => i ≤ j := by
  rw [retainFresh_fst]
  have ascending : (((s.snapshot kind).filter (isFresh freshness)).map Prod.fst).Pairwise
      (· ≤ ·) := by
    apply List.pairwise_map.2
    exact (ascending_sortBy _).filter _
  have same : (((s.snapshot kind).filter (isFresh freshness)).map Prod.fst).Perm
      (((s.of kind).entries.filter fun entry => freshness < entry.2).map Prod.fst) :=
    ((perm_sortBy _).filter _).map _
  exact List.Perm.eq_of_pairwise (fun _ _ _ _ => UInt16.le_antisymm) ascending
    (ascending_mergeSort _) (same.trans (List.mergeSort_perm _ _).symm)

theorem mem_retainFresh : i ∈ (s.retainFresh kind freshness).1 ↔
    ∃ slot, (i, slot) ∈ (s.of kind).entries ∧ freshness < slot := by
  simp [retainFresh_fst, snapshot, isFresh, mem_sortBy]

theorem mem_retainFresh_iff (distinct : s.Distinct) : i ∈ (s.retainFresh kind freshness).1 ↔
    ∃ n, s.get? kind i = some n ∧ freshness < n := by
  simp only [mem_retainFresh, ← Table.get?_eq_some_iff (distinct kind)]
  rfl

theorem nodup_retainFresh (distinct : s.Distinct) (kind : MarketKind) (freshness : UInt64) :
    (s.retainFresh kind freshness).1.Nodup := by
  rw [retainFresh_eq]
  have keys := Table.nodup_filter (distinct kind) (isFresh freshness)
  exact (List.mergeSort_perm _ _).nodup_iff.2 keys

theorem ascending_retainFresh (distinct : s.Distinct) (kind : MarketKind) (freshness : UInt64) :
    (s.retainFresh kind freshness).1.Pairwise (· < ·) := by
  have nodup := nodup_retainFresh distinct kind freshness
  have ascending : (s.retainFresh kind freshness).1.Pairwise (· ≤ ·) := by
    rw [retainFresh_eq]
    exact ascending_mergeSort _
  apply List.Pairwise.imp₂ _ ascending nodup
  intro i j
  exact UInt16.lt_of_le_of_ne

/-- Which markets are fresh does not depend on the order in which they were noted. -/
theorem retainFresh_congr (distinct : s.Distinct) (distinct' : t.Distinct)
    (same : ∀ i, (∃ n, s.get? kind i = some n ∧ freshness < n) ↔
      ∃ n, t.get? kind i = some n ∧ freshness < n) :
    (s.retainFresh kind freshness).1 = (t.retainFresh kind freshness).1 := by
  have perm : (s.retainFresh kind freshness).1.Perm (t.retainFresh kind freshness).1 := by
    apply (List.perm_ext_iff_of_nodup (nodup_retainFresh distinct _ _)
      (nodup_retainFresh distinct' _ _)).2
    intro i
    rw [mem_retainFresh_iff distinct, mem_retainFresh_iff distinct', same]
  apply perm.eq_of_pairwise _ (ascending_retainFresh distinct _ _)
    (ascending_retainFresh distinct' _ _)
  intro i j _ _ below above
  exact absurd below (UInt16.lt_asymm above)

end Slots

end LedgerWatch
