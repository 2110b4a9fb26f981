/-!
# Tables

A table gives each key at most one value and keeps its keys in the order in which they first
came. `get?` is the view: what it gives after an insertion or an erasure is `get?_insert` and
`get?_erase`.
-/

namespace LedgerWatch

structure Table (κ ν : Type) where
  entries : List (κ × ν) := []
deriving DecidableEq

namespace Table

variable {κ ν : Type} [DecidableEq κ]

def empty : Table κ ν := {}

instance : Inhabited (Table κ ν) := ⟨empty⟩

def find : κ → List (κ × ν) → Option ν
  | _, [] => none
  | key, (k, v) :: rest => if k = key then some v else find key rest

def get? (t : Table κ ν) (key : κ) : Option ν := find key t.entries

def contains (t : Table κ ν) (key : κ) : Bool := (t.get? key).isSome

/-- Replaces the key's value in its place, or adds the key at the end. -/
def put (key : κ) (value : ν) : List (κ × ν) → List (κ × ν)
  | [] => [(key, value)]
  | (k, v) :: rest => if k = key then (key, value) :: rest else (k, v) :: put key value rest

def insert (t : Table κ ν) (key : κ) (value : ν) : Table κ ν := ⟨put key value t.entries⟩

def erase (t : Table κ ν) (key : κ) : Table κ ν := ⟨t.entries.filter fun e => e.1 ≠ key⟩

def size (t : Table κ ν) : Nat := t.entries.length

def keys (t : Table κ ν) : List κ := t.entries.map Prod.fst

def values (t : Table κ ν) : List ν := t.entries.map Prod.snd

theorem find_put (key other : κ) (value : ν) (entries : List (κ × ν)) :
    find other (put key value entries) = if key = other then some value else find other entries := by
  induction entries with
  | nil => rfl
  | cons e rest ih =>
    obtain ⟨k, v⟩ := e
    simp only [put, find]
    split <;> grind [find]

theorem get?_insert (t : Table κ ν) (key other : κ) (value : ν) :
    (t.insert key value).get? other = if key = other then some value else t.get? other :=
  find_put key other value t.entries

theorem find_filter (key other : κ) (entries : List (κ × ν)) :
    find other (entries.filter fun e => e.1 ≠ key) =
      if key = other then none else find other entries := by
  induction entries with
  | nil => simp [find]
  | cons e rest ih =>
    obtain ⟨k, v⟩ := e
    simp only [List.filter_cons]
    split <;> grind [find]

theorem get?_erase (t : Table κ ν) (key other : κ) :
    (t.erase key).get? other = if key = other then none else t.get? other :=
  find_filter key other t.entries

theorem mem_of_find {key : κ} {value : ν} {entries : List (κ × ν)}
    (h : find key entries = some value) : (key, value) ∈ entries := by
  induction entries with
  | nil => simp [find] at h
  | cons e rest ih =>
    obtain ⟨k, v⟩ := e
    simp only [find] at h
    split at h
    · rename_i same
      cases h
      simp [same]
    · exact List.mem_cons_of_mem _ (ih h)

theorem mem_of_get? {t : Table κ ν} {key : κ} {value : ν} (h : t.get? key = some value) :
    (key, value) ∈ t.entries :=
  mem_of_find h

theorem mem_put {e : κ × ν} {key : κ} {value : ν} {entries : List (κ × ν)}
    (h : e ∈ put key value entries) : e = (key, value) ∨ e ∈ entries := by
  induction entries with
  | nil => simpa [put] using h
  | cons head rest ih =>
    obtain ⟨k, v⟩ := head
    simp only [put] at h
    split at h
    · rcases List.mem_cons.1 h with h | h
      · exact .inl h
      · exact .inr (List.mem_cons_of_mem _ h)
    · rcases List.mem_cons.1 h with h | h
      · exact .inr (h ▸ List.mem_cons_self)
      · rcases ih h with h | h
        · exact .inl h
        · exact .inr (List.mem_cons_of_mem _ h)

theorem mem_entries_insert {t : Table κ ν} {e : κ × ν} {key : κ} {value : ν}
    (h : e ∈ (t.insert key value).entries) : e = (key, value) ∨ e ∈ t.entries :=
  mem_put h

theorem mem_entries_erase {t : Table κ ν} {e : κ × ν} {key : κ} :
    e ∈ (t.erase key).entries ↔ e ∈ t.entries ∧ e.1 ≠ key := by
  simp [erase]

theorem mem_keys_put {key other : κ} {value : ν} {entries : List (κ × ν)} :
    other ∈ (put key value entries).map Prod.fst ↔ other = key ∨ other ∈ entries.map Prod.fst := by
  induction entries with
  | nil => simp [put]
  | cons e rest ih =>
    obtain ⟨k, v⟩ := e
    simp only [put]
    split
    · rename_i same
      simp [same]
    · simp only [List.map_cons, List.mem_cons, ih]
      exact or_left_comm

theorem nodup_keys_insert {t : Table κ ν} (h : t.keys.Nodup) (key : κ) (value : ν) :
    (t.insert key value).keys.Nodup := by
  obtain ⟨entries⟩ := t
  simp only [keys, insert] at h ⊢
  induction entries with
  | nil => simp [put]
  | cons e rest ih =>
    obtain ⟨k, v⟩ := e
    obtain ⟨out, nodup⟩ := List.nodup_cons.1 h
    simp only [put]
    split
    · rename_i same
      exact List.nodup_cons.2 ⟨same ▸ out, nodup⟩
    · rename_i other
      refine List.nodup_cons.2 ⟨fun mem => ?_, ih nodup⟩
      rcases mem_keys_put.1 mem with same | mem
      · exact other same
      · exact out mem

theorem get?_of_mem {t : Table κ ν} {key : κ} {value : ν} (h : t.keys.Nodup)
    (mem : (key, value) ∈ t.entries) : t.get? key = some value := by
  obtain ⟨entries⟩ := t
  simp only [keys, get?] at h mem ⊢
  induction entries with
  | nil => simp at mem
  | cons e rest ih =>
    obtain ⟨k, v⟩ := e
    obtain ⟨out, nodup⟩ := List.nodup_cons.1 h
    rcases List.mem_cons.1 mem with same | mem
    · cases same
      simp [find]
    · have other : k ≠ key := by
        rintro rfl
        exact out (List.mem_map.2 ⟨_, mem, rfl⟩)
      simp only [find, if_neg other]
      exact ih nodup mem

theorem map_fst_put (key : κ) (value : ν) (entries : List (κ × ν)) :
    (put key value entries).map Prod.fst =
      if key ∈ entries.map Prod.fst then entries.map Prod.fst else entries.map Prod.fst ++ [key] := by
  induction entries with
  | nil => simp [put]
  | cons e rest ih =>
    obtain ⟨k, v⟩ := e
    simp only [put]
    by_cases same : k = key
    · simp [same]
    · simp only [if_neg same, List.map_cons, ih, List.mem_cons, Ne.symm same, false_or]
      by_cases mem : key ∈ rest.map Prod.fst
      · rw [if_pos mem, if_pos mem]
      · rw [if_neg mem, if_neg mem, List.cons_append]

/-- An insertion keeps the order of the keys, and puts a new one last. -/
theorem keys_insert (t : Table κ ν) (key : κ) (value : ν) :
    (t.insert key value).keys = if key ∈ t.keys then t.keys else t.keys ++ [key] :=
  map_fst_put key value t.entries

end Table

/-- Puts an element before the first one that it must not follow. -/
def insertSorted {α : Type} (before : α → α → Bool) (a : α) : List α → List α
  | [] => [a]
  | b :: rest => if before b a then b :: insertSorted before a rest else a :: b :: rest

/-- Sorts by insertion. -/
def sortBy {α : Type} (before : α → α → Bool) : List α → List α
  | [] => []
  | a :: rest => insertSorted before a (sortBy before rest)

theorem mem_insertSorted {α : Type} {before : α → α → Bool} {a b : α} {l : List α} :
    a ∈ insertSorted before b l ↔ a = b ∨ a ∈ l := by
  induction l with
  | nil => simp [insertSorted]
  | cons c rest ih =>
    simp only [insertSorted]
    split
    · simp only [List.mem_cons, ih]
      exact or_left_comm
    · simp

theorem mem_sortBy {α : Type} {before : α → α → Bool} {a : α} {l : List α} :
    a ∈ sortBy before l ↔ a ∈ l := by
  induction l with
  | nil => simp [sortBy]
  | cons b rest ih => simp [sortBy, mem_insertSorted, ih]

theorem pairwise_insertSorted {α : Type} {before : α → α → Bool} {a : α} {l : List α}
    (trans : ∀ a b c, before a b = true → before b c = true → before a c = true)
    (total : ∀ b ∈ l, before a b = true ∨ before b a = true)
    (sorted : l.Pairwise fun a b => before a b = true) :
    (insertSorted before a l).Pairwise fun a b => before a b = true := by
  induction l with
  | nil => simp [insertSorted]
  | cons b rest ih =>
    obtain ⟨first, sorted'⟩ := List.pairwise_cons.1 sorted
    simp only [insertSorted]
    split
    · rename_i later
      refine List.pairwise_cons.2
        ⟨fun c mem => ?_, ih (fun c mem => total c (List.mem_cons_of_mem _ mem)) sorted'⟩
      rcases mem_insertSorted.1 mem with rfl | mem
      · exact later
      · exact first c mem
    · rename_i earlier
      have here := (total b List.mem_cons_self).resolve_right earlier
      refine List.pairwise_cons.2 ⟨fun c mem => ?_, sorted⟩
      rcases List.mem_cons.1 mem with rfl | mem
      · exact here
      · exact trans _ _ _ here (first c mem)

/-- Sorting by a strict order puts elements that it tells apart in that order. -/
theorem pairwise_sortBy {α : Type} {before : α → α → Bool} {l : List α}
    (trans : ∀ a b c, before a b = true → before b c = true → before a c = true)
    (total : l.Pairwise fun a b => before a b = true ∨ before b a = true) :
    (sortBy before l).Pairwise fun a b => before a b = true := by
  induction l with
  | nil => simp [sortBy]
  | cons a rest ih =>
    obtain ⟨first, rest⟩ := List.pairwise_cons.1 total
    exact pairwise_insertSorted trans (fun b mem => first b (mem_sortBy.1 mem)) (ih rest)

end LedgerWatch
