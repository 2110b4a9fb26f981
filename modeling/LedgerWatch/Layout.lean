import LedgerWatch.Address

/-!
# Byte layouts

A layout writes a value as bytes and reads one back from the front of a byte string, returning
what is left. Numbers are fixed-width, low byte first; records are their fields one after
another; a variant is a tag byte. Reading fails in two ways only: the bytes end early, or a tag
names no variant. `Layout.Exact` says that reading undoes writing and reads nothing else.
-/

namespace LedgerWatch

/-- Why bytes hold no value of a layout. -/
inductive Fault
  | truncated
  | unknownTag (tag : UInt8)
deriving DecidableEq

def Fault.message : Fault → String
  | truncated => "Unexpected length of input"
  | unknownTag tag => s!"Unexpected variant tag: {tag.toNat}"

structure Layout (α : Type) where
  encode : α → Bytes
  decode : Bytes → Except Fault (α × Bytes)

namespace Layout

variable {α β : Type}

/-- A number of `width` bytes. -/
def word (width : Nat) (ofNat : Nat → α) (toNat : α → Nat) : Layout α where
  encode value := Bytes.ofNatLE width (toNat value)
  decode bytes :=
    if width ≤ bytes.length then
      .ok (ofNat (Bytes.toNatLE (bytes.take width)), bytes.drop width)
    else .error .truncated

def u8 : Layout UInt8 := word 1 UInt8.ofNat UInt8.toNat
def u16 : Layout UInt16 := word 2 UInt16.ofNat UInt16.toNat
def u32 : Layout UInt32 := word 4 UInt32.ofNat UInt32.toNat
def u64 : Layout UInt64 := word 8 UInt64.ofNat UInt64.toNat
def i32 : Layout Int32 :=
  word 4 (fun n => (UInt32.ofNat n).toInt32) (fun x => x.toUInt32.toNat)
def i64 : Layout Int64 :=
  word 8 (fun n => (UInt64.ofNat n).toInt64) (fun x => x.toUInt64.toNat)

/-- One field after another. -/
def pair (first : Layout α) (second : Layout β) : Layout (α × β) where
  encode value := first.encode value.1 ++ second.encode value.2
  decode bytes := do
    let (a, rest) ← first.decode bytes
    let (b, rest) ← second.decode rest
    return ((a, b), rest)

/-- The same bytes read as another type. -/
def iso (layout : Layout α) (build : α → β) (back : β → α) : Layout β where
  encode value := layout.encode (back value)
  decode bytes := do
    let (a, rest) ← layout.decode bytes
    return (build a, rest)

def decodeMany (element : Layout α) : (n : Nat) → Bytes → Except Fault (Vector α n × Bytes)
  | 0, bytes => .ok (#v[], bytes)
  | n + 1, bytes => do
    let (front, rest) ← decodeMany element n bytes
    let (last, rest) ← element.decode rest
    return (front.push last, rest)

/-- A fixed number of values in a row. -/
def array (n : Nat) (element : Layout α) : Layout (Vector α n) where
  encode values := values.toList.flatMap element.encode
  decode := decodeMany element n

/-- A tag byte alone. -/
def tagged (tag : α → UInt8) (ofTag? : UInt8 → Option α) : Layout α where
  encode value := [tag value]
  decode
    | [] => .error .truncated
    | t :: rest =>
      match ofTag? t with
      | none => .error (.unknownTag t)
      | some value => .ok (value, rest)

def address : Layout Address := (array 32 u8).iso Address.mk Address.bytes

/-- Reading undoes writing whatever follows, and reads only what writing gives. -/
structure Exact (layout : Layout α) : Prop where
  decode_encode : ∀ value rest, layout.decode (layout.encode value ++ rest) = .ok (value, rest)
  eq_encode : ∀ {bytes value rest}, layout.decode bytes = .ok (value, rest) →
    bytes = layout.encode value ++ rest

end Layout

end LedgerWatch
