import LedgerWatch.Proofs.Json.Written
import LedgerWatch.Proofs.Text.Base58
import LedgerWatch.Rpc.Client

/-!
# What a client asks and what it returns

A server reads a call by its method and its first parameters (`Call.query?`). A client conforms when
the server reads in each call what the client was told to ask for, and when the client returns the
slot of a reply's context and the accounts of its entries, in their order. The results about reads
hold for every conforming client, and the standard one conforms, however it inflates account data
(`Client.standard_conforms`): that it asks for the addresses at all rests on their being read back
from their texts.
-/

namespace LedgerWatch.Rpc

/-- What a server is asked for. -/
inductive Query
  | slot
  | account (address : Address)
  | accounts (addresses : List Address)
  | scan (program : Address) (filters : List Window)
deriving DecidableEq

def address? (value : Json) : Option Address := do
  (Address.parse (← value.text?)).toOption

/-- The window that a filter compares, its bytes in base 58. -/
def window? (value : Json) : Option Window := do
  match ← fields? ["memcmp"] value with
  | [some comparison] =>
    match ← fields? ["offset", "bytes", "encoding"] comparison with
    | [some offset, some bytes, some encoding] =>
      guard (encoding.text? = some "base58")
      return ⟨← offset.natural?, ← Text.Base58.decode (← bytes.text?)⟩
    | _ => none
  | _ => none

/-- The windows of a scan's filters. -/
def windows? (options : Json) : Option (List Window) := do
  match ← fields? ["filters"] options with
  | [some filters] => entries? window? filters
  | _ => none

/-- The call as a server reads it. -/
def Call.query? (call : Call) : Option Query :=
  match call.method, call.params with
  | "getSlot", _ => some .slot
  | "getAccountInfo", .arr (address :: _) => (address? address).map .account
  | "getMultipleAccounts", .arr (addresses :: _) => (entries? address? addresses).map .accounts
  | "getProgramAccounts", .arr [program, options] => do
    return .scan (← address? program) (← windows? options)
  | _, _ => none

/-- A server reads these queries in the calls, in their order. -/
def Asks (calls : List Call) (queries : List Query) : Prop :=
  calls.map Call.query? = queries.map some

/-- The client asks for what it is told to, and returns of a reply the context's slot and the
account of each entry in order. -/
structure Client.Conforms (client : Client) : Prop where
  asksSlot : ∀ commitment, (client.slotCall commitment).query? = some .slot
  asksAccount : ∀ commitment address,
    (client.accountCall commitment address).query? = some (.account address)
  asksAccounts : ∀ commitment addresses,
    (client.accountsCall commitment addresses).query? = some (.accounts addresses)
  asksScan : ∀ commitment program filters,
    (client.scanCall commitment program filters).query? = some (.scan program filters)
  slot : ∀ {result slot}, client.slot? result = some slot → result.u64? = some slot
  account : ∀ {result reply}, client.account? result = some reply →
    stamped? client.entry? result = some reply
  accounts : ∀ {result reply}, client.accounts? result = some reply →
    stamped? (entries? client.entry?) result = some reply

theorem Client.Conforms.asks_accountsCall {client : Client} (conforms : client.Conforms)
    (commitment : Commitment) (batches : List (List Address)) :
    Asks (batches.map (client.accountsCall commitment)) (batches.map .accounts) := by
  rw [Asks, List.map_map, List.map_map]
  exact List.map_congr_left fun batch _ => conforms.asksAccounts commitment batch

theorem Client.Conforms.asks_slotCall {client : Client} (conforms : client.Conforms)
    (commitment : Commitment) : Asks [client.slotCall commitment] [.slot] :=
  congrArg (fun query => [query]) (conforms.asksSlot commitment)

/-! ## The standard client -/

theorem address?_text (a : Address) : address? (.string a.text) = some a := by
  simp [address?, Json.string, Json.text?, Address.parse_text, Except.toOption]

/-- A list written entry by entry is read entry by entry. -/
theorem entries?_map {α : Type} {read : Json → Option α} {write : α → Json}
    (inverse : ∀ a, read (write a) = some a) (list : List α) :
    entries? read (.arr (list.map write)) = some list := by
  rw [entries?, Json.items?, Option.bind_eq_bind, Option.bind_some]
  induction list with
  | nil => rfl
  | cons a rest ih =>
    rw [List.map_cons, List.mapM_cons, inverse, ih]
    rfl

theorem window?_filterJson (w : Window) : window? (filterJson w) = some w := by
  simp [window?, filterJson, fields?, Json.object, Json.members?, Json.only, Json.string,
    Json.text?, Text.Base58.decode_encode, Json.natural?_nat]

theorem windows?_scanOptions (commitment : Commitment) (filters : List Window) :
    windows? (scanOptions commitment filters) = some filters := by
  have named : fields? ["filters"] (scanOptions commitment filters) =
      some [some (.arr (filters.map filterJson))] := by
    simp [fields?, scanOptions, accountOptions, Json.object, Json.members?, Json.only]
  rw [windows?, named, Option.bind_eq_bind, Option.bind_some]
  exact entries?_map window?_filterJson filters

theorem Client.standard_conforms (inflate : Inflate) : (standard inflate).Conforms where
  asksSlot _ := rfl
  asksAccount _ address := congrArg (Option.map Query.account) (address?_text address)
  asksAccounts _ addresses :=
    congrArg (Option.map Query.accounts) (entries?_map address?_text addresses)
  asksScan commitment program filters := by
    show (do return Query.scan (← address? (.string program.text)) (← windows? _)) = _
    rw [address?_text, windows?_scanOptions]
    rfl
  slot := id
  account := id
  accounts := id

end LedgerWatch.Rpc
