import LedgerWatch.Bytes

/-!
# Base 58 text

A byte string is read as one number, highest byte first, and written in base 58. Each leading
zero byte, which the number cannot show, is written as a leading `1`.
-/

namespace LedgerWatch.Text.Base58

def alphabet : List Char :=
  "123456789ABCDEFGHJKLMNPQRSTUVWXYZabcdefghijkmnopqrstuvwxyz".toList

def digit (n : Nat) : Char :=
  alphabet.getD n '1'

def value? (c : Char) : Option Nat :=
  alphabet.idxOf? c

/-- The digits of a number, lowest first, none for zero. -/
def digits (base n : Nat) : List Nat :=
  if 2 ≤ base ∧ 0 < n then n % base :: digits base (n / base) else []
termination_by n
decreasing_by exact Nat.div_lt_self (by omega) (by omega)

def encode (bytes : Bytes) : String :=
  let zeros := bytes.takeWhile (· == 0)
  String.ofList (zeros.map (fun _ => '1') ++ ((digits 58 bytes.toNatBE).map digit).reverse)

/-- Every character must be of the alphabet; any length is read. -/
def decode (text : String) : Option Bytes := do
  let values ← text.toList.mapM value?
  let zeros := values.takeWhile (· == 0)
  let number := values.foldl (fun n v => 58 * n + v) 0
  return zeros.map (fun _ => 0) ++ ((digits 256 number).map UInt8.ofNat).reverse

end LedgerWatch.Text.Base58
