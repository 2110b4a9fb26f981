import LedgerWatch.Proofs.Address.Preimages
import LedgerWatch.Proofs.Text.Utf8
import Mathlib.Data.Nat.Digits.Lemmas

/-!
# Base 58 text is read back

A byte string is its leading zeros and the rest, which is a numeral without leading zeros, and such
a numeral is given back by the digits of its number (`digits_number`). So is the text written for
it, in the other base, and reading returns the bytes (`decode_encode`). Thirty-two bytes take at
most forty-four characters, and so every address is read back from its text (`Address.parse_text`).
-/

namespace LedgerWatch

namespace Text.Base58

variable {base : Nat} {values : List Nat}

/-- The number that digits write, highest first. -/
def number (base : Nat) (values : List Nat) : Nat := values.foldl (fun n v => base * n + v) 0

theorem digits_eq_digits (large : 1 < base) (n : Nat) : digits base n = Nat.digits base n := by
  induction n using Nat.strongRecOn with
  | ind n ih =>
    rw [digits]
    by_cases positive : 0 < n
    · rw [if_pos ⟨large, positive⟩, Nat.digits_def' large positive,
        ih (n / base) (Nat.div_lt_self positive large)]
    · obtain rfl : n = 0 := by omega
      simp

theorem number_eq_ofDigits (base : Nat) (values : List Nat) :
    number base values = Nat.ofDigits base values.reverse := by
  rw [number, List.foldl_eq_foldr_reverse, Nat.ofDigits_eq_foldr]
  congr 1
  funext v n
  exact Nat.add_comm _ _

theorem number_append_of_zeros {zeros : List Nat} (unset : ∀ v ∈ zeros, v = 0) :
    number base (zeros ++ values) = number base values := by
  induction zeros with
  | nil => rfl
  | cons v rest ih =>
    obtain rfl := unset v List.mem_cons_self
    exact ih fun v mem => unset v (List.mem_cons_of_mem _ mem)

/-- Digits without leading zeros are those of their number. -/
theorem digits_number (large : 1 < base) (small : ∀ v ∈ values, v < base)
    (leads : values.head? ≠ some 0) : (digits base (number base values)).reverse = values := by
  have given : Nat.digits base (Nat.ofDigits base values.reverse) = values.reverse := by
    refine Nat.digits_ofDigits base large _ (fun v mem => small v (List.mem_reverse.1 mem)) ?_
    intro nonempty zero
    rw [List.getLast_reverse] at zero
    exact leads (List.head?_eq_some_head (by simpa using nonempty) ▸ congrArg some zero)
  rw [digits_eq_digits large, number_eq_ofDigits, given, List.reverse_reverse]

/-- The digits of a number have no leading zeros. -/
theorem head?_reverse_digits (large : 1 < base) (n : Nat) :
    (digits base n).reverse.head? ≠ some 0 := by
  rw [digits_eq_digits large, List.head?_reverse]
  intro last
  by_cases zero : n = 0
  · subst zero
    simp at last
  · rw [List.getLast?_eq_some_getLast (Nat.digits_ne_nil_iff_ne_zero.2 zero)] at last
    exact Nat.getLast_digit_ne_zero base zero (Option.some.inj last)

theorem lt_of_mem_digits (large : 1 < base) {n v : Nat} (mem : v ∈ digits base n) : v < base :=
  Nat.digits_lt_base large (digits_eq_digits large n ▸ mem)

theorem number_reverse_digits (large : 1 < base) (n : Nat) :
    number base (digits base n).reverse = n := by
  rw [number_eq_ofDigits, List.reverse_reverse, digits_eq_digits large, Nat.ofDigits_digits]

theorem value?_digit : ∀ v < 58, value? (digit v) = some v := by decide

theorem mapM_value?_digit (small : ∀ v ∈ values, v < 58) :
    (values.map digit).mapM value? = some values := by
  induction values with
  | nil => rfl
  | cons v rest ih =>
    rw [List.map_cons, List.mapM_cons, value?_digit v (small v List.mem_cons_self),
      ih fun v mem => small v (List.mem_cons_of_mem _ mem)]
    rfl

/-- The zeros in front of digits without leading zeros are found again. -/
theorem takeWhile_zeros {zeros : List Nat} (unset : ∀ v ∈ zeros, v = 0)
    (leads : values.head? ≠ some 0) : (zeros ++ values).takeWhile (· == 0) = zeros := by
  have none : values.takeWhile (· == 0) = [] := by
    cases values with
    | nil => rfl
    | cons v rest =>
      refine List.takeWhile_cons_of_neg fun zero => leads ?_
      exact congrArg some (eq_of_beq zero)
  rw [List.takeWhile_append_of_pos fun v mem => beq_iff_eq.2 (unset v mem), none, List.append_nil]

/-! ## Bytes as digits -/

variable (bytes : Bytes)

/-- The leading zero bytes. -/
def zeros : Bytes := bytes.takeWhile (· == 0)

/-- The bytes behind them. -/
def significant : Bytes := bytes.dropWhile (· == 0)

theorem zeros_append_significant : zeros bytes ++ significant bytes = bytes :=
  List.takeWhile_append_dropWhile

theorem eq_zero_of_mem_zeros {b : UInt8} (mem : b ∈ zeros bytes) : b = 0 := by
  have unset : (b == 0) = true := List.mem_takeWhile_imp (p := (· == 0)) mem
  exact eq_of_beq unset

theorem head?_significant : ((significant bytes).map UInt8.toNat).head? ≠ some 0 := by
  have kept := List.head?_dropWhile_not (· == 0) bytes
  rw [significant, List.head?_map]
  cases head : (bytes.dropWhile (· == 0)).head? with
  | none => simp
  | some b =>
    rw [head] at kept
    intro zero
    have unset : b = 0 := UInt8.toNat_inj.1 (Option.some.inj zero)
    simp [unset] at kept

theorem toNatBE_eq_number : bytes.toNatBE = number 256 (bytes.map UInt8.toNat) := by
  rw [Bytes.toNatBE, number, List.foldl_map]

/-- Leading zeros do not show in the number. -/
theorem toNatBE_significant : bytes.toNatBE = (significant bytes).toNatBE := by
  conv_lhs => rw [← zeros_append_significant bytes]
  rw [toNatBE_eq_number, toNatBE_eq_number, List.map_append, number_append_of_zeros]
  intro v mem
  obtain ⟨b, among, rfl⟩ := List.mem_map.1 mem
  exact congrArg UInt8.toNat (eq_zero_of_mem_zeros bytes among)

theorem reverse_digits_toNatBE :
    ((digits 256 bytes.toNatBE).map UInt8.ofNat).reverse = significant bytes := by
  have digits : (digits 256 (significant bytes).toNatBE).reverse =
      (significant bytes).map UInt8.toNat := by
    rw [toNatBE_eq_number]
    refine digits_number (by decide) ?_ (head?_significant bytes)
    intro v mem
    obtain ⟨b, -, rfl⟩ := List.mem_map.1 mem
    exact b.toNat_lt
  rw [toNatBE_significant, ← List.map_reverse, digits, List.map_map]
  exact (List.map_congr_left fun b _ => UInt8.ofNat_toNat).trans (List.map_id _)

/-- The values of the characters that are written. -/
def written : List Nat :=
  (zeros bytes).map (fun _ => 0) ++ (digits 58 bytes.toNatBE).reverse

theorem toList_encode : (encode bytes).toList = (written bytes).map digit := by
  rw [encode, String.toList_ofList, written, List.map_append, List.map_map, List.map_reverse]
  rfl

theorem lt_of_mem_written {v : Nat} (mem : v ∈ written bytes) : v < 58 := by
  rcases List.mem_append.1 mem with mem | mem
  · obtain ⟨_, -, rfl⟩ := List.mem_map.1 mem
    decide
  · exact lt_of_mem_digits (by decide) (List.mem_reverse.1 mem)

theorem decode_encode : decode (encode bytes) = some bytes := by
  have unset : ∀ v ∈ (zeros bytes).map (fun _ => 0), v = 0 := by
    intro v mem
    obtain ⟨_, -, rfl⟩ := List.mem_map.1 mem
    rfl
  have front : (written bytes).takeWhile (· == 0) = (zeros bytes).map fun _ => 0 :=
    takeWhile_zeros unset (head?_reverse_digits (by decide) _)
  have value : number 58 (written bytes) = bytes.toNatBE := by
    rw [written, number_append_of_zeros unset, number_reverse_digits (by decide)]
  have back : ((zeros bytes).map fun _ => (0 : Nat)).map (fun _ => (0 : UInt8)) = zeros bytes := by
    rw [List.map_map]
    exact (List.map_congr_left fun b mem => (eq_zero_of_mem_zeros bytes mem).symm).trans
      (List.map_id _)
  rw [number] at value
  rw [decode, toList_encode, mapM_value?_digit fun v mem => lt_of_mem_written bytes mem]
  simp only [Option.bind_eq_bind, Option.bind_some, Option.pure_def]
  rw [front, value, back, reverse_digits_toNatBE, zeros_append_significant]

/-! ## The length of a text -/

theorem utf8Size_digit : ∀ v < 58, (digit v).utf8Size = 1 := by decide

theorem utf8ByteSize_encode : (encode bytes).utf8ByteSize = (written bytes).length := by
  have ones : (written bytes).map (fun v => (Utf8.encodeChar (digit v)).length) =
      (written bytes).map fun _ => 1 := by
    refine List.map_congr_left fun v mem => ?_
    rw [Utf8.length_encodeChar, utf8Size_digit v (lt_of_mem_written bytes mem)]
  rw [← Utf8.length_encode_toList, toList_encode, Utf8.encode, List.length_flatMap, List.map_map]
  rw [Function.comp_def, ones, List.map_const', List.sum_replicate_nat, Nat.mul_one]

theorem pow_le_pow : ∀ n ≤ 32, 256 ^ n ≤ 58 ^ (n + 12) := by decide +kernel

/-- A zero byte takes one character, and twelve more than the bytes are enough for the rest. -/
theorem utf8ByteSize_encode_le (short : bytes.length ≤ 32) :
    (encode bytes).utf8ByteSize ≤ bytes.length + 12 := by
  have parts := congrArg List.length (zeros_append_significant bytes)
  rw [List.length_append] at parts
  have below : bytes.toNatBE < 256 ^ (significant bytes).length := by
    rw [toNatBE_significant, toNatBE_eq_number, number_eq_ofDigits]
    have bound := Nat.ofDigits_lt_base_pow_length (b := 256)
      (l := ((significant bytes).map UInt8.toNat).reverse) (by decide) ?_
    · simpa using bound
    · intro v mem
      obtain ⟨b, -, rfl⟩ := List.mem_map.1 (List.mem_reverse.1 mem)
      exact b.toNat_lt
  have enough : (digits 58 bytes.toNatBE).length ≤ (significant bytes).length + 12 := by
    rw [digits_eq_digits (by decide), Nat.digits_length_le_iff (by decide)]
    exact Nat.lt_of_lt_of_le below (pow_le_pow _ (by omega))
  rw [utf8ByteSize_encode, written, List.length_append, List.length_map, List.length_reverse]
  omega

end Text.Base58

namespace Address

theorem ofBytes?_toBytes (a : Address) : ofBytes? a.toBytes = some a := by
  rw [ofBytes?, dif_pos a.length_toBytes]
  congr 1

/-- Every address is read back from its text. -/
theorem parse_text (a : Address) : parse a.text = .ok a := by
  have short := Text.Base58.utf8ByteSize_encode_le a.toBytes (Nat.le_of_eq a.length_toBytes)
  have fits : ¬ longestText < a.text.utf8ByteSize := by
    rw [length_toBytes] at short
    exact Nat.not_lt.2 short
  rw [parse, if_neg fits, text, Text.Base58.decode_encode]
  simp only [ofBytes?_toBytes]

end Address

end LedgerWatch
