/-!
# Byte strings

A byte string is a list of bytes. Fixed-width numbers are written low byte first;
`Bytes.ofNatLE` and `Bytes.toNatLE` are that notation for any width, and `Bytes.toNatBE` reads
the other order, which digests and base 58 text use.
-/

namespace LedgerWatch

abbrev Bytes := List UInt8

namespace Bytes

/-- The `width` low bytes of a number, lowest first. -/
def ofNatLE : Nat → Nat → Bytes
  | 0, _ => []
  | width + 1, n => UInt8.ofNat n :: ofNatLE width (n / 256)

def toNatLE : Bytes → Nat
  | [] => 0
  | b :: rest => b.toNat + 256 * toNatLE rest

def toNatBE (bytes : Bytes) : Nat :=
  bytes.foldl (fun n b => 256 * n + b.toNat) 0

/-- How many byte strings of a length there are. -/
def count : Nat → Nat
  | 0 => 1
  | length + 1 => 256 * count length

/-- The bytes from `offset` on, `length` of them, when the string holds that many. -/
def window? (bytes : Bytes) (offset length : Nat) : Option Bytes :=
  if offset + length ≤ bytes.length then some ((bytes.drop offset).take length) else none

theorem length_ofNatLE (width n : Nat) : (ofNatLE width n).length = width := by
  induction width generalizing n with
  | zero => rfl
  | succ width ih => simp [ofNatLE, ih]

theorem toNatLE_ofNatLE (width n : Nat) : toNatLE (ofNatLE width n) = n % count width := by
  induction width generalizing n with
  | zero => simp [ofNatLE, toNatLE, count, Nat.mod_one]
  | succ width ih =>
    rw [ofNatLE, toNatLE, ih, count, Nat.mod_mul]
    simp

theorem toNatLE_lt (bytes : Bytes) : toNatLE bytes < count bytes.length := by
  induction bytes with
  | nil => simp [toNatLE, count]
  | cons b rest ih =>
    have := b.toNat_lt
    simp only [toNatLE, List.length_cons, count]
    omega

theorem ofNatLE_toNatLE (bytes : Bytes) : ofNatLE bytes.length (toNatLE bytes) = bytes := by
  induction bytes with
  | nil => rfl
  | cons b rest ih =>
    have := b.toNat_lt
    have low : UInt8.ofNat (b.toNat + 256 * toNatLE rest) = b := by
      apply UInt8.toNat_inj.mp
      simp
    have high : (b.toNat + 256 * toNatLE rest) / 256 = toNatLE rest := by omega
    rw [List.length_cons, toNatLE, ofNatLE, low, high, ih]

end Bytes

/-- Cuts a list into pieces of `size`, the last one perhaps shorter. -/
def pieces {α : Type} (size : Nat) (list : List α) : List (List α) :=
  if 0 < size ∧ 0 < list.length then list.take size :: pieces size (list.drop size) else []
termination_by list.length
decreasing_by simp only [List.length_drop]; omega

end LedgerWatch
