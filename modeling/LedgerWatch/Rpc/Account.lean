import LedgerWatch.Address
import LedgerWatch.Json
import LedgerWatch.Ledger
import LedgerWatch.Text.Base64

/-!
# Accounts in replies

A reply holds an account as an object whose data is text in a named encoding. Reading has two
ways to go wrong, which callers tell apart: the object is malformed, and then the whole reply
is; or its data or owner cannot be decoded, and then there is no account.
-/

namespace LedgerWatch.Rpc

structure Account where
  lamports : UInt64
  data : Bytes
  owner : Address
  executable : Bool
  rentEpoch : UInt64
deriving DecidableEq

/-- The values of a record's fields: by name from an object, or all of them from an array. -/
def fields? (names : List String) : Json → Option (List (Option Json))
  | .arr items => if items.length = names.length then some (items.map some) else none
  | value => do
    let members ← value.members?
    names.mapM fun name => Json.only name members

/-- A missing or null value, or one that is read. -/
def optional? {α : Type} (read : Json → Option α) : Option Json → Option (Option α)
  | none => some none
  | some .null => some none
  | some value => (read value).map some

inductive Encoding
  | binary
  | base58
  | base64
  | jsonParsed
  | base64Zstd
deriving DecidableEq

namespace Encoding

def all : List Encoding := [binary, base58, base64, jsonParsed, base64Zstd]

def name : Encoding → String
  | binary => "binary"
  | base58 => "base58"
  | base64 => "base64"
  | jsonParsed => "jsonParsed"
  | base64Zstd => "base64+zstd"

def ofName? (text : String) : Option Encoding := all.find? fun e => e.name == text

end Encoding

/-- Account data as sent: a bare text is base 58, an object is data the server parsed. -/
inductive Data
  | bare (text : String)
  | parsed
  | encoded (text : String) (encoding : Encoding)
deriving DecidableEq

/-- The bytes that compressed ones stand for, none when they are no compression. -/
abbrev Inflate : Type := Bytes → Option Bytes

/-- For a reader that asks for nothing compressed. -/
def Inflate.never : Inflate := fun _ => none

namespace Data

/-- A parsed account names its program, its content, and its size. -/
def isParsed (value : Json) : Bool :=
  match fields? ["program", "parsed", "space"] value with
  | some [some program, some _, some space] => program.text?.isSome && space.u64?.isSome
  | _ => false

def ofJson? : Json → Option Data
  | .str (some text) => some (bare text)
  | .arr [text, encoding] => do
    return encoded (← text.text?) (← Encoding.ofName? (← encoding.text?))
  | value => if isParsed value then some parsed else none

/-- The bytes, unless the text is wrong or the encoding is not one that is decoded. -/
def bytes? (inflate : Inflate) : Data → Option Bytes
  | bare text => Text.Base58.decode text
  | encoded text .base58 => Text.Base58.decode text
  | encoded text .base64 => Text.Base64.decode text
  | encoded text .base64Zstd => (Text.Base64.decode text).bind inflate
  | parsed | encoded _ .binary | encoded _ .jsonParsed => none

end Data

/-- An account object as read, before its data and owner are decoded. -/
structure Sent where
  lamports : UInt64
  data : Data
  owner : String
  executable : Bool
  rentEpoch : UInt64
deriving DecidableEq

def Sent.ofJson? (value : Json) : Option Sent := do
  match ← fields? ["lamports", "data", "owner", "executable", "rentEpoch", "space"] value with
  | [some lamports, some data, some owner, some executable, some rentEpoch, space] =>
    let _ ← optional? Json.u64? space
    return {
      lamports := ← lamports.u64?
      data := ← Data.ofJson? data
      owner := ← owner.text?
      executable := ← executable.bool?
      rentEpoch := ← rentEpoch.u64? }
  | _ => none

/-- The account, when data and owner can be decoded. -/
def Sent.account? (sent : Sent) (inflate : Inflate := .never) : Option Account := do
  let data ← sent.data.bytes? inflate
  let owner ← (Address.parse sent.owner).toOption
  return { sent with data, owner }

/-- The slot of a reply's context, which may also tell the server's version. -/
def contextSlot? (value : Json) : Option UInt64 := do
  match ← fields? ["slot", "apiVersion"] value with
  | [some slot, version] =>
    let _ ← optional? Json.text? version
    slot.u64?
  | _ => none

/-- A value in its context. A missing value is read as null. -/
def stamped? {α : Type} (read : Json → Option α) (value : Json) : Option (Stamped α) := do
  match ← fields? ["context", "value"] value with
  | [some context, value] => return ⟨← read (value.getD .null), ← contextSlot? context⟩
  | _ => none

/-- An account with its address, as scans and program subscriptions send it. -/
structure Keyed where
  address : String
  account : Sent
deriving DecidableEq

def Keyed.ofJson? (value : Json) : Option Keyed := do
  match ← fields? ["pubkey", "account"] value with
  | [some address, some account] => return ⟨← address.text?, ← Sent.ofJson? account⟩
  | _ => none

end LedgerWatch.Rpc
