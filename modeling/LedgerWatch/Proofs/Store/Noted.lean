import LedgerWatch.Store.Slots
import Mathlib.Data.List.Basic
import Mathlib.Data.List.Induction
import Mathlib.Order.Bounds.Defs

/-!
# Noting and pruning

A submission raises what is noted of each market it wrote (`get?_record`), and what many notings
leave of a market is the highest of their slots (`highest_noteAll`). Pruning a kind keeps its
entries above a slot and no others, and dropping the stale entries of a snapshot one after another
is such a pruning (`retainFresh_eq_prune`), as long as no index is noted twice (`Distinct`).
-/

namespace LedgerWatch

namespace Table

section Filter

variable {κ ν : Type} {t : Table κ ν}

def filter (t : Table κ ν) (keep : κ × ν → Bool) : Table κ ν := ⟨t.entries.filter keep⟩

theorem filter_filter (keep keep' : κ × ν → Bool) :
    (t.filter keep).filter keep' = t.filter fun e => keep' e && keep e := by
  simp [filter]

theorem filter_idem (keep : κ × ν → Bool) : (t.filter keep).filter keep = t.filter keep := by
  simp [filter_filter]

theorem filter_congr {keep keep' : κ × ν → Bool} (same : ∀ e ∈ t.entries, keep e = keep' e) :
    t.filter keep = t.filter keep' := by
  rw [filter, filter, List.filter_congr same]

theorem filter_eq_self {keep : κ × ν → Bool} (all : ∀ e ∈ t.entries, keep e = true) :
    t.filter keep = t := by
  rw [filter, List.filter_eq_self.2 all]

theorem nodup_filter (h : t.keys.Nodup) (keep : κ × ν → Bool) : (t.filter keep).keys.Nodup :=
  h.sublist (List.filter_sublist.map Prod.fst)

variable [DecidableEq κ]

theorem get?_eq_some_iff (h : t.keys.Nodup) {key : κ} {value : ν} :
    t.get? key = some value ↔ (key, value) ∈ t.entries :=
  ⟨mem_of_get?, get?_of_mem h⟩

theorem isSome_get?_iff (h : t.keys.Nodup) {key : κ} : (t.get? key).isSome = true ↔ key ∈ t.keys := by
  rw [Option.isSome_iff_exists]
  simp only [get?_eq_some_iff h]
  constructor
  · intro ⟨value, mem⟩
    exact List.mem_map.2 ⟨_, mem, rfl⟩
  · intro mem
    obtain ⟨⟨_, value⟩, entry, rfl⟩ := List.mem_map.1 mem
    exact ⟨value, entry⟩

/-- A key that is given once is found after filtering exactly if its entry is kept. -/
theorem get?_filter (h : t.keys.Nodup) (keep : κ × ν → Bool) (key : κ) :
    (t.filter keep).get? key = (t.get? key).filter fun value => keep (key, value) := by
  apply Option.ext
  intro value
  rw [get?_eq_some_iff (nodup_filter h keep), Option.filter_eq_some_iff, get?_eq_some_iff h]
  exact List.mem_filter

end Filter

end Table

namespace Slots

variable {s : Slots} {kind other : MarketKind} {freshness : UInt64}

theorem ext_of {s t : Slots} (same : ∀ kind, s.of kind = t.of kind) : s = t := by
  obtain ⟨perp, spot⟩ := s
  obtain ⟨perp', spot'⟩ := t
  rw [show perp = perp' from same .perp, show spot = spot' from same .spot]

theorem of_withTable (s : Slots) (kind other : MarketKind) (t : Table UInt16 UInt64) :
    (s.withTable kind t).of other = if kind = other then t else s.of other := by
  cases kind <;> cases other <;> rfl

theorem withTable_of (s : Slots) (kind : MarketKind) : s.withTable kind (s.of kind) = s := by
  cases kind <;> rfl

theorem withTable_withTable (s : Slots) (kind : MarketKind) (t u : Table UInt16 UInt64) :
    (s.withTable kind t).withTable kind u = s.withTable kind u := by
  cases kind <;> rfl

/-- No index is noted twice. -/
def Distinct (s : Slots) : Prop := ∀ kind, (s.of kind).keys.Nodup

theorem Distinct.withTable (h : s.Distinct) {t : Table UInt16 UInt64} (nodup : t.keys.Nodup) :
    (s.withTable kind t).Distinct := by
  intro other
  rw [of_withTable]
  split
  · exact nodup
  · exact h other

theorem distinct_empty : ({} : Slots).Distinct := by
  intro kind
  cases kind <;> exact List.nodup_nil

theorem get?_empty (kind : MarketKind) (i : UInt16) : ({} : Slots).get? kind i = none := by
  cases kind <;> rfl

/-! ## Noting -/

/-- What a submission at `slot` makes of a noted slot. -/
def raised (noted : Option UInt64) (slot : UInt64) : UInt64 :=
  match noted with
  | some noted => max noted slot
  | none => slot

/-- The higher of the two slots is noted. -/
theorem raised_cases (noted : Option UInt64) (slot : UInt64) :
    raised noted slot = slot ∧ (∀ n, noted = some n → n ≤ slot) ∨
      noted = some (raised noted slot) ∧ slot ≤ raised noted slot := by
  cases noted with
  | none => exact .inl ⟨rfl, fun n absent => nomatch absent⟩
  | some n =>
    change (if n ≤ slot then slot else n) = slot ∧ _ ∨ some n = some (if n ≤ slot then slot else n) ∧
      slot ≤ (if n ≤ slot then slot else n)
    split
    · rename_i le
      left
      exact ⟨rfl, fun n' same => Option.some.inj same ▸ le⟩
    · rename_i gt
      right
      exact ⟨rfl, UInt64.le_of_lt (UInt64.not_le.1 gt)⟩

theorem le_raised (noted : Option UInt64) (slot : UInt64) : slot ≤ raised noted slot := by
  cases raised_cases noted slot with
  | inl here => exact UInt64.le_of_eq here.1.symm
  | inr before => exact before.2

theorem noted_le_raised (n slot : UInt64) : n ≤ raised (some n) slot := by
  cases raised_cases (some n) slot with
  | inl here => exact here.1.symm ▸ here.2 n rfl
  | inr before => exact UInt64.le_of_eq (Option.some.inj before.1)

theorem raised_raised (noted : Option UInt64) (slot : UInt64) :
    raised (some (raised noted slot)) slot = raised noted slot := by
  cases raised_cases (some (raised noted slot)) slot with
  | inl here =>
    obtain ⟨same, above⟩ := here
    rw [same]
    exact UInt64.le_antisymm (le_raised noted slot) (above _ rfl)
  | inr before => exact (Option.some.inj before.1).symm

theorem get?_set (s : Slots) (kind other : MarketKind) (i j : UInt16) (slot : UInt64) :
    (s.set kind i slot).get? other j =
      if kind = other ∧ i = j then some (raised (s.get? kind i) slot) else s.get? other j := by
  unfold set
  simp only [get?, of_withTable]
  by_cases same : kind = other
  · subst same
    rw [if_pos rfl, Table.get?_insert]
    simp only [true_and]
    rfl
  · rw [if_neg same, if_neg (fun both => same both.1)]

theorem Distinct.set (h : s.Distinct) (kind : MarketKind) (i : UInt16) (slot : UInt64) :
    (s.set kind i slot).Distinct :=
  h.withTable (Table.nodup_keys_insert (h kind) _ _)

/-- Noting one slot for several markets of a kind raises each of them once. -/
theorem get?_foldl_set (s : Slots) (kind other : MarketKind) (indexes : List UInt16) (i : UInt16)
    (slot : UInt64) : (indexes.foldl (fun s index => s.set kind index slot) s).get? other i =
      if kind = other ∧ i ∈ indexes then some (raised (s.get? other i) slot)
      else s.get? other i := by
  induction indexes generalizing s with
  | nil => simp
  | cons index rest ih =>
    rw [List.foldl_cons, ih, get?_set]
    by_cases same : kind = other
    · subst same
      by_cases here : index = i
      · subst here
        simp [raised_raised]
      · simp [here, Ne.symm here]
    · simp [same]

def indexes (perp spot : List UInt16) : MarketKind → List UInt16
  | .perp => perp
  | .spot => spot

theorem get?_record (s : Slots) (perp spot : List UInt16) (slot : UInt64) (kind : MarketKind)
    (i : UInt16) : (s.record perp spot slot).get? kind i =
      if i ∈ indexes perp spot kind then some (raised (s.get? kind i) slot) else s.get? kind i := by
  unfold record
  rw [get?_foldl_set, get?_foldl_set]
  cases kind with
  | perp =>
    simp only [reduceCtorEq, false_and, if_false, true_and]
    rfl
  | spot =>
    simp only [reduceCtorEq, false_and, if_false, true_and]
    rfl

theorem Distinct.foldl_set (h : s.Distinct) (kind : MarketKind) (indexes : List UInt16)
    (slot : UInt64) : (indexes.foldl (fun s index => s.set kind index slot) s).Distinct := by
  induction indexes generalizing s with
  | nil => exact h
  | cons index rest ih => exact ih (h.set kind index slot)

theorem Distinct.record (h : s.Distinct) (perp spot : List UInt16) (slot : UInt64) :
    (s.record perp spot slot).Distinct :=
  (h.foldl_set .perp perp slot).foldl_set .spot spot slot

/-! ## Many notings -/

/-- What is noted is the highest of these slots, and nothing if there are none. -/
structure Highest (slots : UInt64 → Prop) (noted : Option UInt64) : Prop where
  among : ∀ n, noted = some n → slots n
  le : ∀ slot, slots slot → ∃ n, noted = some n ∧ slot ≤ n

namespace Highest

variable {slots slots' : UInt64 → Prop} {noted noted' : Option UInt64} {slot n : UInt64}

theorem eq_some_iff (h : Highest slots noted) :
    noted = some n ↔ IsGreatest {slot | slots slot} n := by
  constructor
  · intro here
    refine ⟨h.among n here, ?_⟩
    intro slot mem
    obtain ⟨m, there, le⟩ := h.le slot mem
    obtain rfl := Option.some.inj (here.symm.trans there)
    exact le
  · intro ⟨mem, greatest⟩
    obtain ⟨m, here, le⟩ := h.le n mem
    rw [here, UInt64.le_antisymm le (greatest (h.among m here))]

theorem eq_none_iff (h : Highest slots noted) : noted = none ↔ ∀ slot, ¬slots slot := by
  constructor
  · intro absent slot mem
    obtain ⟨n, here, -⟩ := h.le slot mem
    rw [absent] at here
    cases here
  · intro empty
    cases here : noted with
    | none => rfl
    | some n => exact absurd (h.among n here) (empty n)

/-- The highest is above a slot if any is. -/
theorem exists_above_iff (h : Highest slots noted) {freshness : UInt64} :
    (∃ n, noted = some n ∧ freshness < n) ↔ ∃ slot, slots slot ∧ freshness < slot := by
  constructor
  · intro ⟨n, here, above⟩
    exact ⟨n, h.among n here, above⟩
  · intro ⟨slot, mem, above⟩
    obtain ⟨n, here, le⟩ := h.le slot mem
    exact ⟨n, here, UInt64.lt_of_lt_of_le above le⟩

theorem congr (h : Highest slots noted) (same : ∀ slot, slots' slot ↔ slots slot) :
    Highest slots' noted := by
  rwa [show slots' = slots from funext fun slot => propext (same slot)]

theorem unique (h : Highest slots noted) (h' : Highest slots noted') : noted = noted' := by
  apply Option.ext
  intro n
  rw [h.eq_some_iff, h'.eq_some_iff]

theorem nothing (empty : ∀ slot, ¬slots slot) : Highest slots none where
  among _ here := nomatch here
  le slot mem := absurd mem (empty slot)

/-- What is noted is kept if it is above a slot. -/
theorem filter (h : Highest slots noted) (freshness : UInt64) :
    Highest (fun slot => slots slot ∧ ∀ n, noted = some n → freshness < n)
      (noted.filter (freshness < ·)) where
  among n kept := by
    obtain ⟨here, fresh⟩ := Option.filter_eq_some_iff.1 kept
    refine ⟨h.among n here, ?_⟩
    intro m there
    obtain rfl := Option.some.inj (here.symm.trans there)
    exact of_decide_eq_true fresh
  le slot mem := by
    obtain ⟨n, here, le⟩ := h.le slot mem.1
    exact ⟨n, Option.filter_eq_some_iff.2 ⟨here, decide_eq_true (mem.2 n here)⟩, le⟩

/-- One more slot raises what is noted. -/
theorem raise (h : Highest slots noted) (slot : UInt64) :
    Highest (fun other => other = slot ∨ slots other) (some (raised noted slot)) where
  among n here := by
    obtain rfl := Option.some.inj here
    cases raised_cases noted slot with
    | inl now => exact .inl now.1
    | inr before => exact .inr (h.among _ before.1)
  le other mem := by
    refine ⟨_, rfl, ?_⟩
    cases mem with
    | inl now => exact now ▸ le_raised noted slot
    | inr before =>
      obtain ⟨n, here, le⟩ := h.le other before
      rw [here]
      exact UInt64.le_trans le (noted_le_raised n slot)

end Highest

/-- A market is noted at a slot. -/
structure Noting where
  kind : MarketKind
  index : UInt16
  slot : UInt64
deriving DecidableEq

def note (s : Slots) (n : Noting) : Slots := s.set n.kind n.index n.slot

def noteAll (s : Slots) (notings : List Noting) : Slots := notings.foldl note s

/-- The market was noted at this slot before, or is by one of these. -/
def Given (s : Slots) (notings : List Noting) (kind : MarketKind) (i : UInt16) (slot : UInt64) :
    Prop :=
  s.get? kind i = some slot ∨ ⟨kind, i, slot⟩ ∈ notings

section Notings

variable {notings : List Noting} {n : Noting} {i : UInt16} {slot : UInt64}

theorem given_concat : s.Given (notings ++ [n]) kind i slot ↔
    n = ⟨kind, i, slot⟩ ∨ s.Given notings kind i slot := by
  simp only [Given, List.mem_append, List.mem_singleton]
  rw [eq_comm (a := n), ← or_assoc, or_comm]

/-- One noting raises its own market and leaves the others. -/
theorem highest_note {slots : UInt64 → Prop} (h : Highest slots (s.get? kind i)) (n : Noting) :
    Highest (fun slot => n = ⟨kind, i, slot⟩ ∨ slots slot) ((s.note n).get? kind i) := by
  rw [note, get?_set]
  by_cases own : n.kind = kind ∧ n.index = i
  · obtain ⟨rfl, rfl⟩ := own
    rw [if_pos ⟨rfl, rfl⟩]
    apply (h.raise n.slot).congr
    intro slot
    constructor
    · rintro (own | before)
      · exact .inl (congrArg Noting.slot own).symm
      · exact .inr before
    · rintro (rfl | before)
      · exact .inl rfl
      · exact .inr before
  · rw [if_neg own]
    apply h.congr
    intro slot
    constructor
    · rintro (rfl | before)
      · exact absurd ⟨rfl, rfl⟩ own
      · exact before
    · exact .inr

theorem noteAll_concat (s : Slots) (notings : List Noting) (n : Noting) :
    s.noteAll (notings ++ [n]) = (s.noteAll notings).note n :=
  List.foldl_append

/-- What is noted of a market in the end is the highest slot that it was given. -/
theorem highest_noteAll (s : Slots) (notings : List Noting) (kind : MarketKind) (i : UInt16) :
    Highest (s.Given notings kind i) ((s.noteAll notings).get? kind i) := by
  induction notings using List.reverseRecOn with
  | nil =>
    constructor
    · intro n here
      exact .inl here
    · rintro slot (here | mem)
      · exact ⟨slot, here, UInt64.le_refl slot⟩
      · cases mem
  | append_singleton notings n ih =>
    rw [noteAll_concat]
    apply (highest_note ih n).congr
    intro slot
    exact given_concat

/-- What a noting leaves of a kind depends on what there was of this kind alone. -/
theorem of_note (s : Slots) (n : Noting) (kind : MarketKind) : (s.note n).of kind =
    if n.kind = kind then
      (s.of kind).insert n.index (raised ((s.of kind).get? n.index) n.slot)
    else s.of kind := by
  rw [note, set, of_withTable]
  split
  · rename_i same
    rw [← same]
    rfl
  · rfl

theorem Distinct.note (h : s.Distinct) (n : Noting) : (s.note n).Distinct :=
  h.set n.kind n.index n.slot

theorem Distinct.noteAll (h : s.Distinct) (notings : List Noting) : (s.noteAll notings).Distinct := by
  unfold Slots.noteAll
  induction notings generalizing s with
  | nil => exact h
  | cons n rest ih => exact ih (h.note n)

end Notings

/-! ## Pruning -/

/-- Keeps the entries of one kind above a slot. -/
def prune (freshness : UInt64) (s : Slots) (kind : MarketKind) : Slots :=
  s.withTable kind ((s.of kind).filter (isFresh freshness))

theorem of_prune (s : Slots) (kind other : MarketKind) : (s.prune freshness kind).of other =
    if kind = other then (s.of other).filter (isFresh freshness) else s.of other := by
  rw [prune, of_withTable]
  split
  · rename_i same
    rw [same]
  · rfl

theorem get?_prune (h : s.Distinct) (freshness : UInt64) (kind other : MarketKind) (i : UInt16) :
    (s.prune freshness kind).get? other i =
      if kind = other then (s.get? other i).filter (freshness < ·) else s.get? other i := by
  unfold get?
  rw [of_prune]
  split
  · exact Table.get?_filter (h other) _ i
  · rfl

theorem Distinct.prune (h : s.Distinct) (freshness : UInt64) (kind : MarketKind) :
    (s.prune freshness kind).Distinct :=
  h.withTable (Table.nodup_filter (h kind) _)

theorem of_dropStale (s : Slots) (i : UInt16) (differ : kind ≠ other) :
    (dropStale freshness kind s i).of other = s.of other := by
  unfold dropStale
  split
  · split
    · rw [of_withTable, if_neg differ]
    · rfl
  · rfl

/-- Dropping an index keeps what is noted of it if that is fresh, and changes nothing else. -/
theorem get?_dropStale (s : Slots) (i j : UInt16) :
    (dropStale freshness kind s i).get? kind j =
      if i = j then (s.get? kind j).filter (freshness < ·) else s.get? kind j := by
  have erased (j : UInt16) : (s.withTable kind ((s.of kind).erase i)).get? kind j =
      if i = j then none else s.get? kind j := by
    rw [get?, of_withTable, if_pos rfl, Table.get?_erase]
    rfl
  unfold dropStale
  by_cases here : i = j
  · subst here
    rw [if_pos rfl]
    cases found : s.get? kind i with
    | none => exact found
    | some n =>
      by_cases stale : n ≤ freshness
      · simp [stale, erased, Option.filter, UInt64.not_lt.2 stale]
      · simp [stale, found, Option.filter, UInt64.not_le.1 stale]
  · rw [if_neg here]
    split
    · split
      · rw [erased, if_neg here]
      · rfl
    · rfl

/-- An index that is stale goes, and a fresh one stays. -/
theorem dropStale_eq (h : s.Distinct) (i : UInt16) : dropStale freshness kind s i =
    s.withTable kind ((s.of kind).filter fun e => isFresh freshness e || e.1 ≠ i) := by
  have noted (e : UInt16 × UInt64) (mem : e ∈ (s.of kind).entries) (here : e.1 = i) :
      s.get? kind i = some e.2 := by
    subst here
    exact Table.get?_of_mem (h kind) mem
  have kept (keep : ∀ e ∈ (s.of kind).entries, e.1 = i → isFresh freshness e = true) :
      s = s.withTable kind ((s.of kind).filter fun e => isFresh freshness e || e.1 ≠ i) := by
    have all : (s.of kind).filter (fun e => isFresh freshness e || e.1 ≠ i) = s.of kind := by
      apply Table.filter_eq_self
      intro e mem
      by_cases here : e.1 = i
      · simp [keep e mem here]
      · simp [here]
    rw [all, withTable_of]
  unfold dropStale
  cases found : s.get? kind i with
  | none =>
    refine kept fun e mem here => ?_
    simp [noted e mem here] at found
  | some slot =>
    dsimp only
    split
    · rename_i stale
      have erased : (s.of kind).erase i =
          (s.of kind).filter fun e => isFresh freshness e || e.1 ≠ i := by
        apply Table.filter_congr
        intro e mem
        by_cases here : e.1 = i
        · obtain rfl : slot = e.2 := Option.some.inj (found.symm.trans (noted e mem here))
          simp [here, isFresh, UInt64.not_lt.2 stale]
        · simp [here]
      rw [erased]
    · rename_i fresh
      refine kept fun e mem here => ?_
      obtain rfl : slot = e.2 := Option.some.inj (found.symm.trans (noted e mem here))
      exact decide_eq_true (UInt64.not_le.1 fresh)

theorem foldl_dropStale_eq (h : s.Distinct) (stale : List UInt16) :
    stale.foldl (dropStale freshness kind) s =
      s.withTable kind ((s.of kind).filter fun e => isFresh freshness e || e.1 ∉ stale) := by
  induction stale generalizing s with
  | nil => rw [List.foldl_nil, Table.filter_eq_self (by simp), withTable_of]
  | cons i rest ih =>
    have nodup := Table.nodup_filter (h kind) fun e => isFresh freshness e || e.1 ≠ i
    have both : ((s.of kind).filter fun e => isFresh freshness e || e.1 ≠ i).filter
        (fun e => isFresh freshness e || e.1 ∉ rest) =
        (s.of kind).filter fun e => isFresh freshness e || e.1 ∉ i :: rest := by
      rw [Table.filter_filter]
      apply Table.filter_congr
      intro e _
      by_cases fresh : isFresh freshness e = true
      · simp [fresh]
      · simp [fresh, Bool.and_comm]
    rw [List.foldl_cons, dropStale_eq h, ih (h.withTable nodup), withTable_withTable, of_withTable,
      if_pos rfl, both]

/-- Dropping what a snapshot shows as stale leaves the fresh entries. -/
theorem retainFresh_eq_prune (h : s.Distinct) (kind : MarketKind) (freshness : UInt64) :
    (s.retainFresh kind freshness).2 = s.prune freshness kind := by
  simp only [retainFresh, List.partition_eq_filter_filter]
  rw [foldl_dropStale_eq h, prune]
  congr 1
  apply Table.filter_congr
  intro e mem
  by_cases fresh : isFresh freshness e = true
  · simp [fresh]
  · have stale : e ∈ (s.snapshot kind).filter (not ∘ isFresh freshness) := by
      apply List.mem_filter.2
      exact ⟨mem_sortBy.2 mem, by simp [fresh]⟩
    have named := List.mem_map_of_mem (f := Prod.fst) stale
    simp only [fresh, Bool.false_or]
    simpa using named

end Slots

end LedgerWatch
