import LedgerWatch.Text.Base58

/-!
# Addresses

An account's address is thirty-two bytes, written in base 58. The all-zero address stands for
"no oracle of its own" wherever a market names an oracle.
-/

namespace LedgerWatch

structure Address where
  bytes : Vector UInt8 32
deriving DecidableEq

namespace Address

/-- The all-zero address. -/
def unset : Address := ⟨Vector.replicate 32 0⟩

instance : Inhabited Address := ⟨unset⟩

def toBytes (a : Address) : Bytes := a.bytes.toList

def ofBytes? (bytes : Bytes) : Option Address :=
  if h : bytes.length = 32 then some ⟨⟨bytes.toArray, by simpa using h⟩⟩ else none

/-- The first thirty-two bytes, filled up with zeros. -/
def ofBytes (bytes : Bytes) : Address :=
  ⟨Vector.ofFn fun i => bytes.getD i.val 0⟩

def text (a : Address) : String :=
  Text.Base58.encode a.toBytes

/-- Whether `a` comes before `b` in the order of their bytes. -/
def before (a b : Address) : Bool :=
  a.toBytes.toNatBE < b.toBytes.toNatBE

/-- Why a text names no address. -/
inductive ParseError
  | wrongSize
  | notBase58
deriving DecidableEq

def ParseError.message : ParseError → String
  | wrongSize => "String is the wrong size"
  | notBase58 => "Invalid Base58 string"

/-- No thirty-two bytes take more characters. -/
def longestText : Nat := 44

def parse (text : String) : Except ParseError Address :=
  if longestText < text.utf8ByteSize then .error .wrongSize
  else
    match Text.Base58.decode text with
    | none => .error .notBase58
    | some bytes =>
      match ofBytes? bytes with
      | none => .error .wrongSize
      | some a => .ok a

end Address

end LedgerWatch
