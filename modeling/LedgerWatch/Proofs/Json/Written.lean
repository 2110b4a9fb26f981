import LedgerWatch.Json.Write
import LedgerWatch.Proofs.Json.Grammar
import Mathlib.Data.List.Basic
import Mathlib.Data.List.TakeWhile

/-!
# What is written can be read

The writer spells every value whose numerals are numerals (`Proper.spells`), so the reader reads
what it writes (`parse_write`). Decimal numbers are numerals, and can be read as numbers again
(`u64?_nat`).
-/

namespace LedgerWatch.Json

variable {text : List Char}

/-! ## Strings -/

theorem unit?_control (n : Nat) (low : n < 0x20) :
    unit? '0' '0' (Text.Hex.digit (n / 16)) (Text.Hex.digit (n % 16)) = some n := by
  revert n
  decide

/-- A character is written so that it is read as itself. -/
theorem stringText_escaped (c : Char) {found : List Piece} (more : StringText found text) :
    StringText (.char c :: found) (escaped c ++ text) := by
  unfold escaped
  -- the characters escaped by a letter
  iterate 7
    split
    · subst c
      exact .escape rfl more
  split
  · rename_i low
    have whole : Piece.ofUnit c.toNat = .char c := by
      rw [Piece.ofUnit, if_neg (by omega), Char.ofNat_toNat]
    rw [← whole]
    exact .unit (unit?_control c.toNat low) more
  · rename_i unquoted unescaped _ _ _ _ _ visible
    exact .raw (Nat.not_lt.1 visible) unquoted unescaped more

theorem stringText_flatMap (text : List Char) :
    StringText (text.map .char) (text.flatMap escaped) := by
  induction text with
  | nil => exact .nil
  | cons c text ih => exact stringText_escaped c ih

theorem joined_map_char (text : List Char) : joined (text.map .char) = some text := by
  induction text with
  | nil => rfl
  | cons c text ih => rw [List.map_cons, joined, ih, Option.map_some]

theorem spelled_map_char (text : String) : spelled (text.toList.map .char) = some text := by
  rw [spelled, joined_map_char, Option.map_some, String.ofList_toList]

/-- A string is written between quotes, and what is written between them spells it. -/
theorem stringChars_eq (chars : Option String) : ∃ found body,
    stringChars chars = '"' :: body ++ ['"'] ∧ StringText found body ∧ spelled found = chars := by
  cases chars with
  | some text =>
    exact ⟨_, _, rfl, stringText_flatMap text.toList, spelled_map_char text⟩
  | none =>
    refine ⟨[.half 0xD800], ['\\', 'u', 'd', '8', '0', '0'], rfl, ?_, rfl⟩
    exact .unit (n := 0xD800) rfl .nil

/-! ## Numbers -/

theorem digits_toDigits (n : Nat) : Digits (Nat.toDigits 10 n) := by
  refine ⟨Nat.toDigits_ne_nil, ?_⟩
  intro c mem
  exact Nat.isDigit_of_mem_toDigits (by decide) (by decide) mem

theorem head?_toDigits (n : Nat) (positive : n ≠ 0) : (Nat.toDigits 10 n).head? ≠ some '0' := by
  induction n using Nat.base_induction 10 (by decide) with
  | single m small =>
    rw [Nat.toDigits_of_lt_base small]
    revert m
    decide
  | digit m k small more ih =>
    rw [← Nat.toDigits_append_toDigits (by decide) more small,
      List.head?_append_of_ne_nil _ Nat.toDigits_ne_nil]
    exact ih (by omega)

theorem numeral_toDigits (n : Nat) : Numeral (Nat.toDigits 10 n) := by
  have whole : Whole (Nat.toDigits 10 n) := by
    by_cases zero : n = 0
    · subst zero
      exact .zero
    · exact .digits (digits_toDigits n) (head?_toDigits n zero)
  have numeral : Numeral ([] ++ Nat.toDigits 10 n ++ [] ++ []) :=
    .intro (.inl rfl) whole .none .none
  simpa using numeral

theorem toList_toString (n : Nat) : (toString n).toList = Nat.toDigits 10 n := by
  rw [Nat.toString_eq_repr, Nat.toList_repr]

theorem natural?_nat (n : Nat) : (nat n).natural? = some n := by
  have digits := (digits_toDigits n).2
  have given : toString n ≠ "" ∧ (toString n).toList.all Char.isDigit = true := by
    rw [toList_toString, List.all_eq_true]
    exact ⟨Nat.repr_ne_empty, digits⟩
  rw [nat, natural?, if_pos given, toList_toString]
  exact congrArg some Nat.ofDigitChars_ten_toDigits

theorem u64?_nat (n : UInt64) : (nat n.toNat).u64? = some n := by
  have small : n.toNat < UInt64.size := n.toNat_lt
  rw [u64?, natural?_nat, Option.bind_eq_bind, Option.bind_some, guard, if_pos small]
  exact congrArg some UInt64.ofNat_toNat

/-- A numeral of digits only has no places and no exponent. -/
theorem scientific_digits (digits : ∀ c ∈ text, c.isDigit = true) :
    scientific text = (decimal text, 0, 0) := by
  have unmarked : ∀ c ∈ text, c ≠ '.' ∧ c ≠ 'e' ∧ c ≠ 'E' := by
    intro c mem
    have digit := digits c mem
    refine ⟨?_, ?_, ?_⟩
    all_goals
      rintro rfl
      exact absurd digit (by decide)
  have mantissa : text.takeWhile (fun c => !(decide (c = 'e') || decide (c = 'E'))) = text := by
    apply List.takeWhile_eq_self_iff.2
    intro c mem
    simp [unmarked c mem]
  have exponent : text.dropWhile (fun c => !(decide (c = 'e') || decide (c = 'E'))) = [] := by
    apply List.dropWhile_eq_nil_iff.2
    intro c mem
    simp [unmarked c mem]
  have fraction : text.dropWhile (fun c => decide (c ≠ '.')) = [] := by
    apply List.dropWhile_eq_nil_iff.2
    intro c mem
    simp [unmarked c mem]
  have kept : text.filter Char.isDigit = text := List.filter_eq_self.2 digits
  simp only [scientific, mantissa, exponent, fraction, kept]
  rfl

theorem lt_doubleBound (n : UInt64) : n.toNat < doubleBound := by
  have large : 2 ^ 64 ≤ doubleBound := by decide +kernel
  exact Nat.lt_of_lt_of_le n.toNat_lt large

theorem isFinite_toString (n : UInt64) : isFinite (toString n.toNat) = true := by
  have digits := scientific_digits (digits_toDigits n.toNat).2
  have number : decimal (Nat.toDigits 10 n.toNat) = n.toNat := Nat.ofDigitChars_ten_toDigits
  rw [isFinite, toList_toString, digits, number]
  by_cases zero : n.toNat = 0
  · simp [zero]
  · simp [zero, lt_doubleBound n]

/-! ## Values -/

/-- Every number in the value holds a numeral. -/
inductive Proper : Json → Prop
  | null : Proper .null
  | bool (value : Bool) : Proper (.bool value)
  | num {numeral : String} (written : Numeral numeral.toList) : Proper (.num numeral)
  | str (chars : Option String) : Proper (.str chars)
  | arr {items : List Json} (inside : ∀ item ∈ items, Proper item) : Proper (.arr items)
  | obj {members : List (Option String × Json)} (inside : ∀ m ∈ members, Proper m.2) :
      Proper (.obj members)

theorem proper_nat (n : Nat) : Proper (nat n) := by
  apply Proper.num
  rw [toList_toString]
  exact numeral_toDigits n

theorem Proper.object {members : List (String × Json)} (inside : ∀ m ∈ members, Proper m.2) :
    Proper (object members) := by
  apply Proper.obj
  intro m mem
  obtain ⟨original, found, rfl⟩ := List.mem_map.1 mem
  exact inside original found

theorem Spells.element_of_value {v : Json} (h : Spells (.value v) text) :
    Spells (.element v) text := by
  have bare : Spells (.element v) ([] ++ text ++ []) :=
    .element blanks_nil h blanks_nil
  simpa using bare

theorem spells_member (name : Option String) {v : Json} (h : Spells (.value v) text) :
    Spells (.member (name, v)) (stringChars name ++ ':' :: text) := by
  obtain ⟨found, body, eq, string, rfl⟩ := stringChars_eq name
  have bare : Spells (.member (spelled found, v)) ([] ++ '"' :: body ++ '"' :: [] ++ ':' :: text) :=
    .member blanks_nil string blanks_nil h.element_of_value
  rw [eq]
  simpa using bare

theorem spells_itemChars {item : Json} {rest : List Json}
    (inside : ∀ i ∈ item :: rest, Spells (.value i) i.chars) :
    ∃ text, item.chars ++ itemChars rest = text ++ [']'] ∧
      Spells (.items (item :: rest)) text := by
  induction rest generalizing item with
  | nil =>
    have last : Spells (.value item) item.chars := inside item (by simp)
    exact ⟨item.chars, rfl, .lastItem last.element_of_value⟩
  | cons next rest ih =>
    have first : Spells (.value item) item.chars := inside item (by simp)
    obtain ⟨text, eq, others⟩ := ih (fun i mem => inside i (List.mem_cons_of_mem item mem))
    refine ⟨item.chars ++ ',' :: text, ?_, .item first.element_of_value others⟩
    rw [itemChars, List.cons_append, eq, List.append_assoc, List.cons_append]

theorem spells_memberChars {name : Option String} {v : Json} {rest : List (Option String × Json)}
    (inside : ∀ m ∈ (name, v) :: rest, Spells (.value m.2) m.2.chars) :
    ∃ text, stringChars name ++ ':' :: v.chars ++ memberChars rest = text ++ ['\x7d'] ∧
      Spells (.members ((name, v) :: rest)) text := by
  induction rest generalizing name v with
  | nil =>
    have last : Spells (.value v) v.chars := inside (name, v) (by simp)
    exact ⟨_, rfl, .lastMember (spells_member name last)⟩
  | cons next rest ih =>
    obtain ⟨name', v'⟩ := next
    have first : Spells (.value v) v.chars := inside (name, v) (by simp)
    obtain ⟨text, eq, others⟩ := ih (fun m mem => inside m (List.mem_cons_of_mem (name, v) mem))
    refine ⟨_ ++ ',' :: text, ?_, .members (spells_member name first) others⟩
    have joined : stringChars name ++ ':' :: v.chars ++ memberChars ((name', v') :: rest) =
        stringChars name ++ ':' :: v.chars ++
          ',' :: (stringChars name' ++ ':' :: v'.chars ++ memberChars rest) := rfl
    rw [joined, eq, List.append_assoc _ (',' :: text), List.cons_append]

/-- The writer spells the value. -/
theorem Proper.spells {v : Json} (h : Proper v) : Spells (.value v) v.chars := by
  induction h with
  | null => exact .null
  | bool value =>
    cases value with
    | true => exact .true
    | false => exact .false
  | @num numeral written =>
    have number := Spells.num written
    rwa [String.ofList_toList] at number
  | str chars =>
    obtain ⟨found, body, eq, string, rfl⟩ := stringChars_eq chars
    rw [Json.chars, eq]
    exact .str string
  | @arr items inside ih =>
    cases items with
    | nil => exact .noItems blanks_nil
    | cons item rest =>
      obtain ⟨text, eq, within⟩ := spells_itemChars ih
      rw [chars, List.cons_append, eq]
      exact .arr within
  | @obj members inside ih =>
    cases members with
    | nil => exact .noMembers blanks_nil
    | cons member rest =>
      obtain ⟨name, v⟩ := member
      obtain ⟨text, eq, within⟩ := spells_memberChars ih
      rw [chars, List.cons_append, List.cons_append, eq]
      exact .obj within

/-- What is written is read as it was. -/
theorem parse_write {v : Json} (h : Proper v) : parse v.write = some v := by
  apply parse_of_spells
  rw [write, String.toList_ofList]
  exact h.spells.element_of_value

end LedgerWatch.Json
