import LedgerWatch.Attach.AccountMap
import Mathlib.Data.List.Basic

/-!
# Positions and accounts in step

An account map keeps two things, the accounts and where each key's account stands. They stay in step
(`InStep.insert`): the keys are distinct, and each stands where its rank among the keys says.
Whatever is looked up is then found in the list, and an insertion can be told from what is looked up
before and after it (`position?_insert`, `InStep.get?_insert`).
-/

namespace LedgerWatch

variable {κ : Type} [DecidableEq κ]

theorem Table.get?_eq_none_iff {ν : Type} {t : Table κ ν} {key : κ} :
    t.get? key = none ↔ key ∉ t.keys := by
  obtain ⟨entries⟩ := t
  simp only [get?, keys]
  induction entries with
  | nil => simp [find]
  | cons e rest ih =>
    by_cases same : e.1 = key
    · simp [find, same]
    · simp [find, same, ih, Ne.symm same]

theorem Table.entries_insert_of_absent {ν : Type} {t : Table κ ν} {key : κ}
    (absent : t.get? key = none) (value : ν) :
    (t.insert key value).entries = t.entries ++ [(key, value)] := by
  obtain ⟨entries⟩ := t
  simp only [get?, insert] at absent ⊢
  induction entries with
  | nil => rfl
  | cons e rest ih =>
    by_cases same : e.1 = key
    · simp [find, same] at absent
    · simp only [find, same, if_false] at absent
      simp [put, same, ih absent]

namespace AccountMap

variable {m : AccountMap κ} {key other : κ} {position : Nat} {account : AccountMeta}

/-- The keys in the order in which they first came. -/
def keys (m : AccountMap κ) : List κ := m.positions.keys

/-- Each key with its account. -/
def entries (m : AccountMap κ) : List (κ × AccountMeta) := m.keys.zip m.accounts

/-- Each key has one position, its rank among the keys, and there is an account for each. -/
structure InStep (m : AccountMap κ) : Prop where
  nodup : m.keys.Nodup
  ranked : m.positions.entries = m.keys.zipIdx
  paired : m.keys.length = m.accounts.length

/-! ## What an insertion does -/

/-- A new key is put last, with its account. -/
theorem insert_of_absent (absent : m.position? key = none) (address : Address) (writable : Bool) :
    m.insert key address writable =
      { positions := m.positions.insert key m.accounts.length
        accounts := m.accounts ++ [{ address, writable }] } := by
  have absent : m.positions.get? key = none := absent
  rw [insert, absent]

/-- A known key's account is raised where it stands. -/
theorem insert_of_present (present : m.position? key = some position) (address : Address)
    (writable : Bool) : m.insert key address writable =
      { m with accounts := m.accounts.modify position fun held =>
          { held with writable := held.writable || writable } } := by
  have present : m.positions.get? key = some position := present
  rw [insert, present]

theorem keys_insert (m : AccountMap κ) (key : κ) (address : Address) (writable : Bool) :
    (m.insert key address writable).keys =
      if key ∈ m.keys then m.keys else m.keys ++ [key] := by
  cases at_key : m.position? key with
  | none =>
    rw [insert_of_absent at_key]
    exact Table.keys_insert ..
  | some position =>
    have present : key ∈ m.keys := by
      by_contra absent
      cases (Table.get?_eq_none_iff.2 absent).symm.trans at_key
    rw [insert_of_present at_key, if_pos present]
    rfl

/-- A known key stays where it is. -/
theorem position?_insert (m : AccountMap κ) (key other : κ) (address : Address) (writable : Bool) :
    (m.insert key address writable).position? other =
      if key = other then some ((m.position? key).getD m.accounts.length)
      else m.position? other := by
  cases at_key : m.position? key with
  | none =>
    rw [insert_of_absent at_key]
    exact Table.get?_insert ..
  | some position =>
    rw [insert_of_present at_key]
    by_cases same : key = other
    · subst same
      rw [if_pos rfl]
      exact at_key
    · rw [if_neg same]
      rfl

namespace InStep

omit [DecidableEq κ] in
theorem empty : ({} : AccountMap κ).InStep where
  nodup := List.nodup_nil
  ranked := rfl
  paired := rfl

theorem position?_eq_some_iff (h : m.InStep) :
    m.position? key = some position ↔ m.keys[position]? = some key := by
  have entry : m.position? key = some position ↔ (key, position) ∈ m.positions.entries :=
    ⟨Table.mem_of_get?, Table.get?_of_mem h.nodup⟩
  rw [entry, h.ranked, List.mem_zipIdx_iff_getElem?]

theorem position_lt (h : m.InStep) (present : m.position? key = some position) :
    position < m.accounts.length := by
  obtain ⟨lt, -⟩ := List.getElem?_eq_some_iff.1 (h.position?_eq_some_iff.1 present)
  exact h.paired ▸ lt

/-- Two keys have two positions. -/
theorem position_injective (h : m.InStep) (present : m.position? key = some position)
    (present' : m.position? other = some position) : key = other := by
  rw [h.position?_eq_some_iff] at present present'
  exact Option.some.inj (present.symm.trans present')

omit [DecidableEq κ] in
theorem fst_entries (h : m.InStep) : m.entries.map Prod.fst = m.keys :=
  List.map_fst_zip (Nat.le_of_eq h.paired)

omit [DecidableEq κ] in
theorem snd_entries (h : m.InStep) : m.entries.map Prod.snd = m.toList :=
  List.map_snd_zip (Nat.le_of_eq h.paired.symm)

/-- What is looked up is what stands at the rank of the key. -/
theorem get?_eq_some_iff (h : m.InStep) :
    m.get? key = some account ↔ (key, account) ∈ m.entries := by
  simp only [get?, Option.bind_eq_some_iff, h.position?_eq_some_iff, entries,
    List.mem_iff_getElem?, List.getElem?_zip_eq_some]

theorem get?_of_present (h : m.InStep) (present : m.position? key = some position) :
    ∃ account, m.accounts[position]? = some account ∧ m.get? key = some account := by
  have lt := h.position_lt present
  refine ⟨m.accounts[position], List.getElem?_eq_getElem lt, ?_⟩
  rw [get?, present, Option.bind_some, List.getElem?_eq_getElem lt]

theorem insert (h : m.InStep) (key : κ) (address : Address) (writable : Bool) :
    (m.insert key address writable).InStep := by
  cases at_key : m.position? key with
  | none =>
    have entries := Table.entries_insert_of_absent at_key m.accounts.length
    have keys : (m.positions.insert key m.accounts.length).keys = m.keys ++ [key] := by
      rw [Table.keys, entries, List.map_append]
      rfl
    rw [insert_of_absent at_key]
    refine ⟨Table.nodup_keys_insert h.nodup _ _, ?_, ?_⟩
    · change (m.positions.insert key m.accounts.length).entries = List.zipIdx (Table.keys _)
      rw [keys, entries, h.ranked, List.zipIdx_append, h.paired]
      simp
    · change (Table.keys _).length = (m.accounts ++ _).length
      rw [keys, List.length_append, List.length_append, h.paired]
      rfl
  | some position =>
    rw [insert_of_present at_key]
    exact ⟨h.nodup, h.ranked, h.paired.trans (List.length_modify ..).symm⟩

/-- The account that an insertion leaves for each key. -/
theorem get?_insert (h : m.InStep) (key other : κ) (address : Address) (writable : Bool) :
    (m.insert key address writable).get? other =
      if key = other then
        match m.get? key with
        | some held => some { held with writable := held.writable || writable }
        | none => some { address, writable }
      else m.get? other := by
  cases at_key : m.position? key with
  | none =>
    rw [get?, position?_insert, insert_of_absent at_key]
    by_cases same : key = other
    · subst same
      simp [get?, at_key]
    · rw [if_neg same, if_neg same, get?]
      cases at_other : m.position? other with
      | none => rfl
      | some position => exact List.getElem?_append_left (h.position_lt at_other)
  | some position =>
    rw [get?, position?_insert, insert_of_present at_key]
    by_cases same : key = other
    · obtain ⟨held, stands, found⟩ := h.get?_of_present at_key
      subst same
      simp [at_key, found, stands]
    · rw [if_neg same, if_neg same, get?]
      cases at_other : m.position? other with
      | none => rfl
      | some position' =>
        have apart : position ≠ position' := by
          rintro rfl
          exact same (h.position_injective at_key at_other)
        simp [apart]

/-- The accounts are what is looked up for the keys, in their order. -/
theorem toList_eq (h : m.InStep) : m.toList = m.keys.filterMap m.get? := by
  rw [← h.snd_entries, ← h.fst_entries, List.filterMap_map, ← List.filterMap_eq_map]
  apply List.filterMap_congr
  intro e mem
  exact (h.get?_eq_some_iff.2 mem).symm

end InStep

end AccountMap

end LedgerWatch
