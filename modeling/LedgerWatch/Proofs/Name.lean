import LedgerWatch.Name
import LedgerWatch.Proofs.Text.Utf8
import Mathlib.Data.List.DropRight

/-!
# What a stored name shows

A field takes thirty-two bytes of a name and is read as text again. A name that has room comes back
without the blanks and NULs at its end, and what a field shows, it shows again when it is stored once
more (`shown_trims_and_settles`). The field does not look where the characters end: when it breaks
one, it shows the characters before that one and a replacement, so that what it shows need not be a
prefix of the name (`shown_prefix_iff`, `cutName_gains`).
-/

namespace LedgerWatch.Name

open Text.Utf8

variable {chars whole : List Char} {c : Char}

theorem toList_ofChars (chars : List Char) : (ofChars chars).toList =
    (encode chars).take 32 ++ List.replicate (32 - (encode chars).length) 0x20 := by
  apply List.ext_getElem
  · simp
    omega
  · intro i low high
    simp only [ofChars, Vector.getElem_toList, Vector.getElem_ofFn, List.getElem_append]
    split
    · rename_i within
      have present : i < (encode chars).length := by
        rw [List.length_take] at within
        omega
      simp [present]
    · rename_i beyond
      have absent : ¬ i < (encode chars).length := by
        simp at beyond low
        omega
      simp [absent]

/-! ## Trimming -/

theorem trimEnd_append {fill : List Char} (all : ∀ c ∈ fill, isFill c = true) (chars : List Char) :
    trimEnd (chars ++ fill) = trimEnd chars := by
  rw [trimEnd, List.reverse_append, List.dropWhile_append_of_pos, ← trimEnd]
  simpa using all

theorem trimEnd_trimEnd (chars : List Char) : trimEnd (trimEnd chars) = trimEnd chars :=
  List.rdropWhile_idempotent isFill chars

theorem trimEnd_replacement (whole : List Char) :
    trimEnd (whole ++ [replacement]) = whole ++ [replacement] :=
  List.rdropWhile_concat_neg isFill whole replacement (by decide)

theorem trimEnd_prefix (chars : List Char) : trimEnd chars <+: chars :=
  List.rdropWhile_prefix isFill chars

/-! ## Reading a field back -/

/-- What has room is read back without the fill. -/
theorem chars_of_fits (fits : (encode chars).length ≤ 32) :
    (ofChars chars).chars = trimEnd chars := by
  have spaces (k : Nat) : List.replicate k 0x20 = encode (List.replicate k ' ') := by
    induction k with
    | zero => rfl
    | succ k ih =>
      rw [List.replicate_succ, ih]
      rfl
  have all : ∀ c ∈ List.replicate (32 - (encode chars).length) ' ', isFill c = true := by
    intro c mem
    rw [List.eq_of_mem_replicate mem]
    decide
  have read := decodeLossy_encode (chars ++ List.replicate (32 - (encode chars).length) ' ') []
  rw [List.append_nil, decodeLossy, List.append_nil] at read
  rw [Name.chars, toList_ofChars, List.take_of_length_le fits, spaces, ← encode_append, read,
    trimEnd_append all]

/-- The same of characters that fill the field, whatever comes after them. -/
theorem chars_of_full (full : (encode whole).length = 32) (rest : List Char) :
    (ofChars (whole ++ rest)).chars = trimEnd whole := by
  have same : ofChars (whole ++ rest) = ofChars whole := by
    apply Vector.toList_inj.1
    have none : 32 - (encode (whole ++ rest)).length = 32 - (encode whole).length := by
      rw [encode_append, List.length_append]
      omega
    rw [toList_ofChars, toList_ofChars, none, encode_append, List.take_left' full,
      List.take_of_length_le full.le]
  rw [same, chars_of_fits full.le]

/-- A character of which only some bytes have room is read back as a replacement. -/
theorem chars_of_broken (begun : (encode whole).length < 32)
    (broken : 32 < (encode whole).length + (encodeChar c).length) (rest : List Char) :
    (ofChars (whole ++ c :: rest)).chars = whole ++ [replacement] := by
  have split : encode (whole ++ c :: rest) = encode whole ++ encodeChar c ++ encode rest := by
    rw [encode_append, List.append_assoc]
    rfl
  have length : (encode whole ++ encodeChar c).length =
      (encode whole).length + (encodeChar c).length :=
    List.length_append
  have bytes : (ofChars (whole ++ c :: rest)).toList =
      encode whole ++ (encodeChar c).take (32 - (encode whole).length) := by
    have none : 32 - (encode whole ++ encodeChar c ++ encode rest).length = 0 := by
      rw [List.length_append]
      omega
    rw [toList_ofChars, split, none, List.replicate_zero, List.append_nil,
      List.take_append_of_le_length (by omega), List.take_append, List.take_of_length_le begun.le]
  rw [Name.chars, bytes, decodeLossy_encode, decodeLossy_take_encodeChar (by omega) (by omega),
    trimEnd_replacement]

/-! ## Texts that come back as they are -/

/-- A field gives the text back: it has room and no fill at its end, or it ends with a replacement
that stands for itself. -/
inductive Settled : List Char → Prop
  | fits {chars : List Char} (room : (encode chars).length ≤ 32) (bare : trimEnd chars = chars) :
      Settled chars
  | broken {whole : List Char} (begun : (encode whole).length < 32)
      (broken : 32 < (encode whole).length + (encodeChar replacement).length) :
      Settled (whole ++ [replacement])

theorem Settled.chars_eq (h : Settled chars) : (ofChars chars).chars = chars := by
  cases h with
  | fits room bare => rw [chars_of_fits room, bare]
  | broken begun broken => exact chars_of_broken begun broken []

theorem settled_trimEnd (fits : (encode chars).length ≤ 32) : Settled (trimEnd chars) := by
  obtain ⟨fill, eq⟩ := trimEnd_prefix chars
  refine .fits ?_ (trimEnd_trimEnd chars)
  rw [← eq, encode_append, List.length_append] at fits
  omega

/-- What a field shows is settled. The replacement may be longer than what was left of the broken
character, and then it is broken in its turn. -/
theorem settled_chars (chars : List Char) : Settled (ofChars chars).chars := by
  obtain ⟨whole, rest, rfl, full | ⟨short, rfl | ⟨c, after, rfl, broken⟩⟩⟩ := exists_cut chars 32
  · rw [chars_of_full full]
    exact settled_trimEnd full.le
  · rw [List.append_nil, chars_of_fits short.le]
    exact settled_trimEnd short.le
  · rw [chars_of_broken short broken]
    have three : (encodeChar replacement).length = 3 := by decide
    by_cases room : (encode whole).length + 3 ≤ 32
    · refine .fits ?_ (trimEnd_replacement whole)
      rw [encode_append, List.length_append]
      exact room
    · exact .broken short (by omega)

/-! ## Names as texts -/

variable {name before : String}

/-- What a name shows once it has been stored. -/
def shown (name : String) : String := (ofText name).text

/-- The rest is the text without the blanks and NULs at its end. -/
structure Trims (text rest : String) : Prop where
  fill : ∃ fill, text = rest ++ fill ∧ ∀ c ∈ fill.toList, c = '\x00' ∨ c = ' '
  bare : ∀ c ∈ rest.toList.getLast?, c ≠ '\x00' ∧ c ≠ ' '

/-- The field's end falls into this character of the name, which stands after this text. -/
structure Breaks (name before : String) (c : Char) : Prop where
  stands : ∃ after, name = before.push c ++ after
  begun : before.utf8ByteSize < 32
  broken : 32 < (before.push c).utf8ByteSize

theorem exists_ofList (text : String) : ∃ chars, text = String.ofList chars :=
  ⟨text.toList, String.ofList_toList.symm⟩

theorem push_ofList (chars : List Char) (c : Char) :
    (String.ofList chars).push c = String.ofList (chars ++ [c]) := by
  apply String.toList_inj.1
  simp

theorem shown_ofList (chars : List Char) :
    shown (String.ofList chars) = String.ofList (ofChars chars).chars := by
  rw [shown, ofText, String.toList_ofList, text]

theorem size_ofList (chars : List Char) :
    (String.ofList chars).utf8ByteSize = (encode chars).length := by
  rw [← length_encode_toList, String.toList_ofList]

theorem trims_trimEnd (chars : List Char) :
    Trims (String.ofList chars) (String.ofList (trimEnd chars)) where
  fill := by
    refine ⟨String.ofList (chars.rtakeWhile isFill), ?_, ?_⟩
    · rw [← String.ofList_append]
      exact congrArg String.ofList List.rdropWhile_append_rtakeWhile.symm
    · intro c mem
      rw [String.toList_ofList] at mem
      simpa [isFill] using List.mem_rtakeWhile_imp mem
  bare := by
    intro c last
    rw [String.toList_ofList] at last
    obtain ⟨some, rfl⟩ := List.mem_getLast?_eq_getLast last
    have bare : ¬ isFill ((trimEnd chars).getLast some) = true :=
      List.rdropWhile_last_not isFill chars some
    simpa [isFill] using bare

theorem shown_of_fits (fits : name.utf8ByteSize ≤ 32) : Trims name (shown name) := by
  obtain ⟨chars, rfl⟩ := exists_ofList name
  rw [size_ofList] at fits
  rw [shown_ofList, chars_of_fits fits]
  exact trims_trimEnd chars

theorem shown_of_breaks (h : Breaks name before c) : shown name = before.push replacement := by
  obtain ⟨⟨after, rfl⟩, begun, broken⟩ := h
  obtain ⟨whole, rfl⟩ := exists_ofList before
  obtain ⟨rest, rfl⟩ := exists_ofList after
  rw [String.utf8ByteSize_push, size_ofList, ← length_encodeChar] at broken
  rw [size_ofList] at begun
  rw [push_ofList, ← String.ofList_append, shown_ofList, List.append_assoc, List.singleton_append,
    chars_of_broken begun broken, push_ofList]

theorem eq_replacement_of_shows (h : Breaks name before c)
    (shows : ∃ after, name = shown name ++ after) : c = replacement := by
  obtain ⟨after, eq⟩ := h.stands
  obtain ⟨rest, eq'⟩ := shows
  rw [shown_of_breaks h] at eq'
  have same := congrArg String.toList (eq.symm.trans eq')
  simp only [String.toList_append, String.toList_push, List.append_assoc,
    List.append_cancel_left_eq, List.singleton_append, List.cons.injEq] at same
  exact same.1

/-- A field ends where a character of the name does, or behind the whole name, or it breaks a
character. -/
theorem ends_or_breaks (name : String) :
    (∃ before after, name = before ++ after ∧
      (before.utf8ByteSize = 32 ∨ before.utf8ByteSize < 32 ∧ after = "") ∧
        Trims before (shown name)) ∨
      ∃ before c, Breaks name before c := by
  obtain ⟨chars, rfl⟩ := exists_ofList name
  obtain ⟨whole, rest, rfl, full | ⟨short, rfl | ⟨c, after, rfl, broken⟩⟩⟩ := exists_cut chars 32
  · refine .inl ⟨String.ofList whole, String.ofList rest, String.ofList_append, ?_, ?_⟩
    · exact .inl (by rw [size_ofList, full])
    · rw [shown_ofList, chars_of_full full]
      exact trims_trimEnd whole
  · have size : (String.ofList whole).utf8ByteSize < 32 := by rwa [size_ofList]
    rw [List.append_nil]
    exact .inl ⟨String.ofList whole, "", by simp, .inr ⟨size, rfl⟩, shown_of_fits size.le⟩
  · refine .inr ⟨String.ofList whole, c, ⟨String.ofList after, ?_⟩, ?_, ?_⟩
    · rw [push_ofList, ← String.ofList_append, List.append_assoc, List.singleton_append]
    · rwa [size_ofList]
    · rwa [String.utf8ByteSize_push, size_ofList, ← length_encodeChar]

/-! ## What a field shows -/

def thirtyOneLetters : String := String.ofList (List.replicate 31 'a')

/-- Its last character takes two bytes, and the field ends between them. -/
def cutName : String := thirtyOneLetters.push 'é'

theorem breaks_cutName : Breaks cutName thirtyOneLetters 'é' where
  stands := ⟨"", String.append_empty.symm⟩
  begun := by decide +kernel
  broken := by decide +kernel

/-- A name that has room is shown without the blanks and NULs at its end, and whatever a name shows,
broken character or not, is shown again when it is stored. -/
theorem shown_trims_and_settles (name : String) :
    (name.utf8ByteSize ≤ 32 → Trims name (shown name)) ∧ shown (shown name) = shown name := by
  refine ⟨shown_of_fits, ?_⟩
  obtain ⟨chars, rfl⟩ := exists_ofList name
  rw [shown_ofList, shown_ofList, (settled_chars chars).chars_eq]

/-- Blanks and a NUL at the end go, and a replacement stays. -/
theorem shown_trims_and_settles_padded :
    "SOL-PERP \x00 ".utf8ByteSize ≤ 32 ∧
    Trims "SOL-PERP \x00 " (shown "SOL-PERP \x00 ") ∧ shown "SOL-PERP \x00 " = "SOL-PERP" ∧
    shown (shown cutName) = shown cutName := by
  have room : "SOL-PERP \x00 ".utf8ByteSize ≤ 32 := by decide
  have shows : shown "SOL-PERP \x00 " = "SOL-PERP" := by
    have spelled : String.ofList "SOL-PERP \x00 ".toList = "SOL-PERP \x00 " := String.ofList_toList
    rw [← spelled, shown_ofList, chars_of_fits (by decide)]
    rfl
  exact ⟨room, (shown_trims_and_settles _).1 room, shows, (shown_trims_and_settles cutName).2⟩

/-- What a name shows is a prefix of it exactly if no character is broken but one that is a
replacement itself. Of a name with a broken character it shows the characters before that one and a
replacement, and of any other name the characters that have room, without the blanks and NULs at
their end. -/
theorem shown_prefix_iff (name : String) :
    ((∃ after, name = shown name ++ after) ↔ ∀ before c, Breaks name before c → c = replacement) ∧
    (∀ before c, Breaks name before c → shown name = before.push replacement) ∧
    ((∀ before c, ¬ Breaks name before c) → ∃ before after, name = before ++ after ∧
      (before.utf8ByteSize = 32 ∨ before.utf8ByteSize < 32 ∧ after = "") ∧
        Trims before (shown name)) := by
  refine ⟨⟨?_, ?_⟩, fun before c => shown_of_breaks, ?_⟩
  · intro shows before c breaks
    exact eq_replacement_of_shows breaks shows
  · intro own
    obtain ⟨before, after, eq, -, trims⟩ | ⟨before, c, breaks⟩ := ends_or_breaks name
    · obtain ⟨fill, eq', -⟩ := trims.fill
      refine ⟨fill ++ after, ?_⟩
      calc name = before ++ after := eq
        _ = shown name ++ fill ++ after := congrArg (· ++ after) eq'
        _ = shown name ++ (fill ++ after) := String.append_assoc
    · obtain ⟨after, eq⟩ := breaks.stands
      obtain rfl := own before c breaks
      exact ⟨after, by rw [shown_of_breaks breaks, ← eq]⟩
  · intro unbroken
    exact (ends_or_breaks name).resolve_right fun ⟨before, c, breaks⟩ => unbroken before c breaks

/-- A name that is cut in a character shows one that it does not have. -/
theorem cutName_gains : shown cutName = thirtyOneLetters.push replacement ∧
    ¬ ∃ after, cutName = shown cutName ++ after := by
  refine ⟨shown_of_breaks breaks_cutName, fun shows => ?_⟩
  exact absurd (eq_replacement_of_shows breaks_cutName shows) (by decide)

/-- The broken character gives way to a replacement, and a short name has none. -/
theorem shown_prefix_iff_cut :
    (Breaks cutName thirtyOneLetters 'é' ∧ shown cutName = thirtyOneLetters.push replacement) ∧
    (∀ before c, ¬ Breaks "SOL-PERP" before c) ∧
    ∃ before after, "SOL-PERP" = before ++ after ∧
      (before.utf8ByteSize = 32 ∨ before.utf8ByteSize < 32 ∧ after = "") ∧
        Trims before (shown "SOL-PERP") := by
  have unbroken : ∀ before c, ¬ Breaks "SOL-PERP" before c := by
    intro before c breaks
    obtain ⟨after, eq⟩ := breaks.stands
    have room : "SOL-PERP".utf8ByteSize = 8 := by decide
    rw [eq, String.utf8ByteSize_append] at room
    have broken := breaks.broken
    omega
  exact ⟨⟨breaks_cutName, (shown_prefix_iff cutName).2.1 _ _ breaks_cutName⟩, unbroken,
    (shown_prefix_iff "SOL-PERP").2.2 unbroken⟩

end LedgerWatch.Name
