import LedgerWatch.Config
import LedgerWatch.Rpc.Account

/-!
# The client library

A client makes the calls and reads the results: which text asks for an account, in which encoding
its data is asked for, and what becomes of the answer. The reader takes a client as it comes;
`Client.standard` is the one it runs with, but for the compression of account data, which is a
parameter of that client too.
-/

namespace LedgerWatch.Rpc

structure Call where
  method : String
  params : Json

/-- Reading a result gives nothing when it is malformed. -/
structure Client where
  slotCall : Commitment → Call
  slot? : Json → Option UInt64
  /-- What is read of one account in a reply: none if it is absent or cannot be decoded. -/
  entry? : Json → Option (Option Account)
  accountCall : Commitment → Address → Call
  account? : Json → Option (Stamped (Option Account))
  accountsCall : Commitment → List Address → Call
  accounts? : Json → Option (Stamped (List (Option Account)))
  scanCall : Commitment → Address → List Window → Call
  scan? : Json → Option (List (Address × Account))

def commitmentJson (commitment : Commitment) : Json := .string commitment.name

/-- The options of an account read; the unset ones are sent as null. -/
def accountOptions (encoding : Encoding) (commitment : Commitment) : List (String × Json) :=
  [("encoding", .string encoding.name), ("dataSlice", .null),
    ("commitment", commitmentJson commitment), ("minContextSlot", .null)]

def filterJson (w : Window) : Json :=
  .object [("memcmp", .object [("offset", .nat w.offset),
    ("bytes", .string (Text.Base58.encode w.bytes)), ("encoding", .string "base58")])]

def scanOptions (commitment : Commitment) (filters : List Window) : Json :=
  .object (("filters", .arr (filters.map filterJson)) :: accountOptions .base64 commitment ++
    [("withContext", .null), ("sortResults", .null)])

/-- The values of a list, each read alike. -/
def entries? {α : Type} (read : Json → Option α) (value : Json) : Option (List α) := do
  (← value.items?).mapM read

def maybeAccount? (inflate : Inflate) (value : Json) : Option (Option Account) :=
  (optional? Sent.ofJson? (some value)).map fun sent => sent.bind fun sent => sent.account? inflate

/-- The entries of a scan, wrapped in a context or bare. -/
def scanned? (value : Json) : Option (List Keyed) :=
  match stamped? (entries? Keyed.ofJson?) value with
  | some reply => some reply.value
  | none => entries? Keyed.ofJson? value

/-- An entry whose address or account cannot be decoded fails the scan. -/
def Keyed.account? (keyed : Keyed) (inflate : Inflate) : Option (Address × Account) := do
  let address ← (Address.parse keyed.address).toOption
  return (address, ← keyed.account.account? inflate)

/-- Asks for accounts compressed, and for those of a scan as they are. -/
def Client.standard (inflate : Inflate := .never) : Client where
  slotCall commitment :=
    ⟨"getSlot", .arr [.object [("commitment", commitmentJson commitment)]]⟩
  slot? := Json.u64?
  entry? := maybeAccount? inflate
  accountCall commitment address :=
    ⟨"getAccountInfo",
      .arr [.string address.text, .object (accountOptions .base64Zstd commitment)]⟩
  account? := stamped? (maybeAccount? inflate)
  accountsCall commitment addresses :=
    ⟨"getMultipleAccounts",
      .arr [.arr (addresses.map fun a => .string a.text),
        .object (accountOptions .base64Zstd commitment)]⟩
  accounts? := stamped? (entries? (maybeAccount? inflate))
  scanCall commitment program filters :=
    ⟨"getProgramAccounts", .arr [.string program.text, scanOptions commitment filters]⟩
  scan? value := do (← scanned? value).mapM fun keyed => keyed.account? inflate

end LedgerWatch.Rpc
