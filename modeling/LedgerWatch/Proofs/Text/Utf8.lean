import LedgerWatch.Text.Utf8
import Mathlib.Data.List.TakeWhile

/-!
# Whole characters and broken ones

A first byte says how many bytes follow it, and the bytes that `encodeChar` writes after it are as
many as that and continue it (`exists_spells`). Reading therefore gives back every character that
was written whole (`decodeLossy_encode`), and of a character whose last bytes are missing at the end
it makes one replacement (`decodeLossy_take_encodeChar`). A text cut after some number of bytes
keeps the characters before the cut, and at most one of them is broken (`exists_cut`).
-/

namespace LedgerWatch.Text.Utf8

variable {n : Nat} {first : UInt8} {others rest : Bytes}

/-- The bytes that may follow a first one that asks this of the second. -/
def Continues (second : UInt8 → Bool) : Bytes → Prop
  | [] => True
  | b :: more => second b = true ∧ ∀ later ∈ more, isContinuation later = true

/-- These bytes are the number's: the first announces the others, and they continue it. -/
structure Spells (first : UInt8) (others : Bytes) (n : Nat) : Prop where
  lead : ∃ second, lead? first = some (others.length + 1, second) ∧ Continues second others
  number : scalar (first :: others) = n

theorem toNat_byte (h : n < 256) : (UInt8.ofNat n).toNat = n := UInt8.toNat_ofNat_of_lt' h

theorem between_byte {low high : Nat} (le : low ≤ n) (le' : n ≤ high) (small : n < 256) :
    between low high (UInt8.ofNat n) = true := by
  simp [between, toNat_byte small, le, le']

theorem isContinuation_byte (n : Nat) : isContinuation (UInt8.ofNat (0x80 + n % 64)) = true :=
  between_byte (by omega) (by omega) (by omega)

theorem spells_one (small : n < 0x80) : Spells (UInt8.ofNat n) [] n where
  lead := by
    have byte : (UInt8.ofNat n).toNat = n := toNat_byte (by omega)
    exact ⟨fun _ => true, by simp [lead?, byte, small], trivial⟩
  number := toNat_byte (by omega)

theorem spells_two (large : 0x80 ≤ n) (small : n < 0x800) :
    Spells (UInt8.ofNat (0xC0 + n / 64)) [UInt8.ofNat (0x80 + n % 64)] n where
  lead := by
    have byte : (UInt8.ofNat (0xC0 + n / 64)).toNat = 0xC0 + n / 64 := toNat_byte (by omega)
    refine ⟨isContinuation, ?_, isContinuation_byte n, nofun⟩
    simp only [lead?, byte]
    rw [if_neg (by omega), if_neg (by omega), if_pos (by omega)]
    rfl
  number := by
    change ((UInt8.ofNat (0xC0 + n / 64)).toNat - 0xC0) * 64 +
      ((UInt8.ofNat (0x80 + n % 64)).toNat - 0x80) = n
    rw [toNat_byte (by omega), toNat_byte (by omega)]
    omega

theorem spells_three (large : 0x800 ≤ n) (small : n < 0x10000)
    (apart : n < 0xD800 ∨ 0xDFFF < n) :
    Spells (UInt8.ofNat (0xE0 + n / 4096))
      [UInt8.ofNat (0x80 + n / 64 % 64), UInt8.ofNat (0x80 + n % 64)] n where
  lead := by
    have byte : (UInt8.ofNat (0xE0 + n / 4096)).toNat = 0xE0 + n / 4096 := toNat_byte (by omega)
    have third : ∀ b ∈ [UInt8.ofNat (0x80 + n % 64)], isContinuation b = true :=
      List.forall_mem_singleton.2 (isContinuation_byte n)
    simp only [lead?, byte]
    rw [if_neg (by omega), if_neg (by omega), if_neg (by omega)]
    obtain low | high | other : n < 0x1000 ∨ (0xD000 ≤ n ∧ n < 0xE000) ∨
      0x1000 ≤ n ∧ (n < 0xD000 ∨ 0xE000 ≤ n) := by omega
    · rw [if_pos (by omega)]
      exact ⟨_, rfl, between_byte (by omega) (by omega) (by omega), third⟩
    · rw [if_neg (by omega), if_pos (by omega)]
      exact ⟨_, rfl, between_byte (by omega) (by omega) (by omega), third⟩
    · rw [if_neg (by omega), if_neg (by omega), if_pos (by omega)]
      exact ⟨_, rfl, isContinuation_byte _, third⟩
  number := by
    change ((UInt8.ofNat (0xE0 + n / 4096)).toNat - 0xE0) * 4096 +
      ((UInt8.ofNat (0x80 + n / 64 % 64)).toNat - 0x80) * 64 +
        ((UInt8.ofNat (0x80 + n % 64)).toNat - 0x80) = n
    rw [toNat_byte (by omega), toNat_byte (by omega), toNat_byte (by omega)]
    omega

theorem spells_four (large : 0x10000 ≤ n) (small : n < 0x110000) :
    Spells (UInt8.ofNat (0xF0 + n / 262144))
      [UInt8.ofNat (0x80 + n / 4096 % 64), UInt8.ofNat (0x80 + n / 64 % 64),
        UInt8.ofNat (0x80 + n % 64)] n where
  lead := by
    have byte : (UInt8.ofNat (0xF0 + n / 262144)).toNat = 0xF0 + n / 262144 := toNat_byte (by omega)
    have later : ∀ b ∈ [UInt8.ofNat (0x80 + n / 64 % 64), UInt8.ofNat (0x80 + n % 64)],
        isContinuation b = true :=
      List.forall_mem_cons.2
        ⟨isContinuation_byte _, List.forall_mem_singleton.2 (isContinuation_byte n)⟩
    simp only [lead?, byte]
    rw [if_neg (by omega), if_neg (by omega), if_neg (by omega), if_neg (by omega),
      if_neg (by omega), if_neg (by omega)]
    obtain low | high | other : n < 0x40000 ∨ 0x100000 ≤ n ∨ 0x40000 ≤ n ∧ n < 0x100000 := by
      omega
    · rw [if_pos (by omega)]
      exact ⟨_, rfl, between_byte (by omega) (by omega) (by omega), later⟩
    · rw [if_neg (by omega), if_neg (by omega), if_pos (by omega)]
      exact ⟨_, rfl, between_byte (by omega) (by omega) (by omega), later⟩
    · rw [if_neg (by omega), if_pos (by omega)]
      exact ⟨_, rfl, isContinuation_byte _, later⟩
  number := by
    change ((UInt8.ofNat (0xF0 + n / 262144)).toNat - 0xF0) * 262144 +
      ((UInt8.ofNat (0x80 + n / 4096 % 64)).toNat - 0x80) * 4096 +
        ((UInt8.ofNat (0x80 + n / 64 % 64)).toNat - 0x80) * 64 +
          ((UInt8.ofNat (0x80 + n % 64)).toNat - 0x80) = n
    rw [toNat_byte (by omega), toNat_byte (by omega), toNat_byte (by omega), toNat_byte (by omega)]
    omega

theorem toNat_char (c : Char) :
    c.toNat < 0xD800 ∨ 0xDFFF < c.toNat ∧ c.toNat < 0x110000 :=
  c.valid

/-- Every character is written in one of the four lengths, and spelled. -/
theorem exists_spells (c : Char) :
    ∃ first others, encodeChar c = first :: others ∧ Spells first others c.toNat := by
  have valid := toNat_char c
  unfold encodeChar
  dsimp only
  split
  · exact ⟨_, _, rfl, spells_one (by assumption)⟩
  split
  · exact ⟨_, _, rfl, spells_two (by omega) (by assumption)⟩
  split
  · exact ⟨_, _, rfl, spells_three (by omega) (by assumption) (by omega)⟩
  · exact ⟨_, _, rfl, spells_four (by omega) (by omega)⟩

theorem Continues.take {second : UInt8 → Bool} (h : Continues second others) (k : Nat) :
    Continues second (others.take k) := by
  cases others with
  | nil => simpa using h
  | cons b more =>
    cases k with
    | zero => trivial
    | succ k => exact ⟨h.1, fun later mem => h.2 later (List.mem_of_mem_take mem)⟩

/-- What is read after a first byte: as many bytes as continue it, if that is all it asks for or
nothing comes after them. -/
theorem readOne_eq {second : UInt8 → Bool} {width : Nat} {front : Bytes}
    (lead : lead? first = some (width, second)) (continues : Continues second front)
    (ends : front.length + 1 = width ∨ front.length + 1 < width ∧ rest = []) :
    readOne first (front ++ rest) =
      if front.length + 1 = width then (Char.ofNat (scalar (first :: front)), front.length)
      else (replacement, front.length) := by
  cases front with
  | nil => obtain rfl | ⟨-, rfl⟩ := ends <;> simp [readOne, lead]
  | cons b more =>
    rw [List.length_cons] at ends
    have reached : (more ++ rest).take (width - 2) = more := by
      obtain full | ⟨short, rfl⟩ := ends
      · exact List.take_left' (by omega)
      · rw [List.append_nil, List.take_of_length_le (by omega)]
    have kept : more.takeWhile isContinuation = more := List.takeWhile_eq_self_iff.2 continues.2
    have whole : (b :: more).take (width - 1) = b :: more :=
      List.take_of_length_le (by rw [List.length_cons]; omega)
    simp only [readOne, lead, List.cons_append, continues.1, if_true, reached, kept, whole]

namespace Spells

variable {c : Char}

theorem readOne (h : Spells first others c.toNat) (rest : Bytes) :
    readOne first (others ++ rest) = (c, others.length) := by
  obtain ⟨second, lead, continues⟩ := h.lead
  rw [readOne_eq lead continues (.inl rfl), if_pos rfl, h.number, Char.ofNat_toNat]

/-- When some of the others are missing, those that are there go into one replacement. -/
theorem readOne_take (h : Spells first others n) {k : Nat} (short : k < others.length) :
    Utf8.readOne first (others.take k) = (replacement, k) := by
  obtain ⟨second, lead, continues⟩ := h.lead
  have length : (others.take k).length = k := List.length_take_of_le (by omega)
  have missing : (others.take k).length + 1 < others.length + 1 := by omega
  have read := readOne_eq lead (continues.take k) (.inr ⟨missing, rfl⟩)
  rwa [List.append_nil, length, if_neg (by omega)] at read

end Spells

theorem decodeLossy_encodeChar (c : Char) (rest : Bytes) :
    decodeLossy (encodeChar c ++ rest) = c :: decodeLossy rest := by
  obtain ⟨first, others, eq, spells⟩ := exists_spells c
  rw [eq, List.cons_append, decodeLossy, spells.readOne]
  simp only [List.drop_left]

/-- What was written is read back, whatever comes after it. -/
theorem decodeLossy_encode (chars : List Char) (rest : Bytes) :
    decodeLossy (encode chars ++ rest) = chars ++ decodeLossy rest := by
  induction chars with
  | nil => rfl
  | cons c chars ih =>
    rw [encode, List.flatMap_cons, List.append_assoc, decodeLossy_encodeChar, ← encode, ih]
    rfl

/-- Of a character whose last bytes are missing, one replacement is left. -/
theorem decodeLossy_take_encodeChar {c : Char} {k : Nat} (some : 0 < k)
    (short : k < (encodeChar c).length) :
    decodeLossy ((encodeChar c).take k) = [replacement] := by
  obtain ⟨first, others, eq, spells⟩ := exists_spells c
  obtain ⟨k, rfl⟩ : ∃ j, k = j + 1 := ⟨k - 1, by omega⟩
  rw [eq, List.length_cons] at short
  rw [eq, List.take_succ_cons, decodeLossy, spells.readOne_take (by omega)]
  simp [decodeLossy]

/-! ## Lengths -/

/-- It is the encoding in which strings are kept. -/
theorem encodeChar_eq (c : Char) : encodeChar c = String.utf8EncodeChar c := by
  have valid := toNat_char c
  have same : c.val.toNat = c.toNat := rfl
  simp only [encodeChar, String.utf8EncodeChar, same]
  split
  · rw [if_pos (by omega)]
  split
  · rw [if_neg (by omega), if_pos (by omega), Nat.mod_eq_of_lt (a := c.toNat / 64) (by omega)]
    simp only [Nat.add_comm]
  split
  · rw [if_neg (by omega), if_neg (by omega), if_pos (by omega),
      Nat.mod_eq_of_lt (a := c.toNat / 4096) (by omega)]
    simp only [Nat.add_comm]
  · rw [if_neg (by omega), if_neg (by omega), if_neg (by omega),
      Nat.mod_eq_of_lt (a := c.toNat / 262144) (by omega)]
    simp only [Nat.add_comm]

theorem length_encodeChar (c : Char) : (encodeChar c).length = c.utf8Size := by
  rw [encodeChar_eq, String.length_utf8EncodeChar]

theorem length_encode_toList (text : String) : (encode text.toList).length = text.utf8ByteSize := by
  have bytes : encode text.toList = text.toList.flatMap String.utf8EncodeChar := by
    rw [encode, funext encodeChar_eq]
  rw [bytes, ← String.size_toByteArray, ← String.utf8Encode_toList, List.utf8Encode,
    List.size_toByteArray]

/-! ## Cuts -/

theorem encode_append (before after : List Char) :
    encode (before ++ after) = encode before ++ encode after :=
  List.flatMap_append

/-- A cut after `n` bytes falls behind some character, behind the whole text, or into a character:
then it breaks that one and leaves whole those before it. -/
theorem exists_cut (chars : List Char) (n : Nat) : ∃ whole rest, chars = whole ++ rest ∧
    ((encode whole).length = n ∨ (encode whole).length < n ∧
      (rest = [] ∨ ∃ c after, rest = c :: after ∧
        n < (encode whole).length + (encodeChar c).length)) := by
  induction chars generalizing n with
  | nil =>
    refine ⟨[], [], rfl, ?_⟩
    obtain rfl | pos := Nat.eq_zero_or_pos n
    · exact .inl rfl
    · exact .inr ⟨pos, .inl rfl⟩
  | cons c chars ih =>
    by_cases fits : (encodeChar c).length ≤ n
    · obtain ⟨whole, rest, rfl, ends⟩ := ih (n - (encodeChar c).length)
      have length : (encode (c :: whole)).length =
          (encodeChar c).length + (encode whole).length := by
        simp [encode]
      refine ⟨c :: whole, rest, rfl, ?_⟩
      obtain full | ⟨short, rfl | ⟨d, after, rfl, broken⟩⟩ := ends
      · exact .inl (by omega)
      · exact .inr ⟨by omega, .inl rfl⟩
      · exact .inr ⟨by omega, .inr ⟨d, after, rfl, by omega⟩⟩
    · refine ⟨[], c :: chars, rfl, ?_⟩
      obtain rfl | pos := Nat.eq_zero_or_pos n
      · exact .inl rfl
      · have length : (encode []).length = 0 := rfl
        exact .inr ⟨pos, .inr ⟨c, chars, rfl, by omega⟩⟩

end LedgerWatch.Text.Utf8
