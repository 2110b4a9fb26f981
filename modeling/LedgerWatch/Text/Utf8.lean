import LedgerWatch.Bytes

/-!
# UTF-8

`encode` writes characters in one to four bytes. `decodeLossy` reads any byte string: a
malformed piece becomes one replacement character, and the piece is the longest prefix that
some well-formed character starts with, or one byte when there is none.
-/

namespace LedgerWatch.Text.Utf8

def encodeChar (c : Char) : Bytes :=
  let n := c.toNat
  if n < 0x80 then [UInt8.ofNat n]
  else if n < 0x800 then [UInt8.ofNat (0xC0 + n / 64), UInt8.ofNat (0x80 + n % 64)]
  else if n < 0x10000 then
    [UInt8.ofNat (0xE0 + n / 4096), UInt8.ofNat (0x80 + n / 64 % 64), UInt8.ofNat (0x80 + n % 64)]
  else
    [UInt8.ofNat (0xF0 + n / 262144), UInt8.ofNat (0x80 + n / 4096 % 64),
      UInt8.ofNat (0x80 + n / 64 % 64), UInt8.ofNat (0x80 + n % 64)]

def encode (chars : List Char) : Bytes :=
  chars.flatMap encodeChar

/-- Stands for a malformed piece. -/
def replacement : Char := '\uFFFD'

def between (low high : Nat) (b : UInt8) : Bool :=
  decide (low ≤ b.toNat ∧ b.toNat ≤ high)

def isContinuation : UInt8 → Bool := between 0x80 0xBF

/-- How many bytes a lead byte announces, and the range its second byte lies in, so that neither
overlong forms nor surrogates nor numbers beyond the last character are well formed. -/
def lead? (b : UInt8) : Option (Nat × (UInt8 → Bool)) :=
  let n := b.toNat
  if n < 0x80 then some (1, fun _ => true)
  else if n < 0xC2 then none
  else if n < 0xE0 then some (2, isContinuation)
  else if n = 0xE0 then some (3, between 0xA0 0xBF)
  else if n = 0xED then some (3, between 0x80 0x9F)
  else if n < 0xF0 then some (3, isContinuation)
  else if n = 0xF0 then some (4, between 0x90 0xBF)
  else if n < 0xF4 then some (4, isContinuation)
  else if n = 0xF4 then some (4, between 0x80 0x8F)
  else none

/-- The number a well-formed sequence of the given length spells. -/
def scalar : List UInt8 → Nat
  | [a] => a.toNat
  | [a, b] => (a.toNat - 0xC0) * 64 + (b.toNat - 0x80)
  | [a, b, c] => (a.toNat - 0xE0) * 4096 + (b.toNat - 0x80) * 64 + (c.toNat - 0x80)
  | [a, b, c, d] =>
    (a.toNat - 0xF0) * 262144 + (b.toNat - 0x80) * 4096 + (c.toNat - 0x80) * 64 + (d.toNat - 0x80)
  | _ => 0

/-- Reads one character, or the replacement for one malformed piece, and says how many bytes
after the first it took. -/
def readOne (b : UInt8) (rest : Bytes) : Char × Nat :=
  match lead? b with
  | none => (replacement, 0)
  | some (width, second) =>
    let more := match rest with
      | [] => []
      | s :: tail => if second s then s :: (tail.take (width - 2)).takeWhile isContinuation else []
    let taken := more.take (width - 1)
    if taken.length + 1 = width then (Char.ofNat (scalar (b :: taken)), taken.length)
    else (replacement, taken.length)

def decodeLossy : Bytes → List Char
  | [] => []
  | b :: rest =>
    let (c, extra) := readOne b rest
    c :: decodeLossy (rest.drop extra)
termination_by bytes => bytes.length
decreasing_by simp only [List.length_drop, List.length_cons]; omega

end LedgerWatch.Text.Utf8
