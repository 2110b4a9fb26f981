import LedgerWatch.Store

/-!
# Explicit reads into the store

A fetch is a program that alternates with the ledger: it leaves a store, asks one request, and
goes on from the outcome and from the store as it is by then, which others may have written
meanwhile. `Fetch.run` answers every request from one reader and lets nothing come between.

`fetchNow` reads one key, `fetchMany` several in one request, `scanAll` every account of a type,
`loadUsers` the users of an authority, and `load` all that a client starts from.
-/

namespace LedgerWatch

inductive Fetch (α : Type) : Type
  | done (store : Store) (value : α)
  | read (store : Store) (request : Request) (resume : request.Outcome → Store → Fetch α)

/-- Answers one request, whatever it is. -/
abbrev Reader : Type := (request : Request) → request.Outcome

namespace Fetch

variable {α β : Type}

def bind : Fetch α → (α → Store → Fetch β) → Fetch β
  | done store value, next => next value store
  | read store request resume, next => read store request fun o s => bind (resume o s) next

/-- Goes on only after success. -/
def andThen (first : Fetch (Except Failure α)) (next : α → Store → Fetch (Except Failure β)) :
    Fetch (Except Failure β) :=
  first.bind fun result store =>
    match result with
    | .error failure => done store (.error failure)
    | .ok value => next value store

def map (f : α → β) (fetch : Fetch α) : Fetch β :=
  fetch.bind fun value store => done store (f value)

/-- The `n`-th request is answered by the `n`-th reader. -/
def runEach : (Nat → Reader) → Fetch α → Store × α
  | _, done store value => (store, value)
  | readers, read store request resume =>
    runEach (fun n => readers (n + 1)) (resume (readers 0 request) store)

def run (reader : Reader) (fetch : Fetch α) : Store × α :=
  runEach (fun _ => reader) fetch

end Fetch

namespace Store

/-- Stores the account's record under the key's address, if there is one and it decodes. -/
def absorb (s : Store) (address : Address) (kind : RecordKind)
    (outcome : Except LedgerError (Stamped (Option Bytes))) : Store × Option Record :=
  match outcome with
  | .ok ⟨some data, slot⟩ =>
    match Record.decode kind data with
    | .ok record => (s.put address record slot, some record)
    | .error _ => (s, none)
  | _ => (s, none)

/-- Reads one key. Absent and undecodable accounts and failed reads all give nothing. -/
def fetchNow (program : Address) (key : RecordKey) (s : Store) : Fetch (Option Record) :=
  if key.isQuote then .done s (some (.oracle Oracle.quotePrice))
  else
    let address := key.address program
    .read s (.account address) fun outcome s =>
      let (s, record) := s.absorb address key.kind outcome
      .done s record

/-- Pairs the keys asked for with the accounts answered, the absent ones left out. -/
def answered (program : Address) (keys : List RecordKey) (accounts : List (Option Bytes)) :
    List (Address × RecordKind × Bytes) :=
  (keys.zip accounts).filterMap fun (key, data?) =>
    data?.map fun data => (key.address program, key.kind, data)

/-- Reads several keys in one request and counts what was stored. -/
def fetchMany (program : Address) (keys : List RecordKey) (s : Store) :
    Fetch (Except Failure Nat) :=
  let keys := keys.filter fun key => !key.isQuote
  .read s (.accounts (keys.map (·.address program))) fun outcome s =>
    match outcome with
    | .error e => .done s (.error (.ledger e))
    | .ok reply =>
      let (s, count) := s.putDecoded reply.slot (answered program keys reply.value)
      .done s (.ok count)

/-- Reads what passes the filters, as one kind of record, and counts what was stored. -/
def scanMatching (filters : List Window) (kind : RecordKind) (s : Store) :
    Fetch (Except Failure Nat) :=
  .read s (.scan filters) fun outcome s =>
    match outcome with
    | .error e => .done s (.error (.ledger e))
    | .ok reply =>
      let (s, count) := s.putDecoded reply.slot
        (reply.value.map fun (address, data) => (address, kind, data))
      .done s (.ok count)

/-- Reads every account of a type. -/
def scanAll (type : AccountType) (kind : RecordKind) (s : Store) : Fetch (Except Failure Nat) :=
  s.scanMatching [⟨0, type.discriminator⟩] kind

end Store

/-- Where a user account holds its authority, right after the discriminator. -/
def userAuthorityOffset : Nat := 8

/-- The filters that select an authority's users. -/
def userFilters (authority : Address) : List Window :=
  [⟨0, AccountType.discriminator .user⟩, ⟨userAuthorityOffset, authority.toBytes⟩]

namespace Store

def loadUsers (authority : Address) (s : Store) : Fetch (Except Failure Nat) :=
  s.scanMatching (userFilters authority) .user

def loadState (program : Address) (s : Store) : Fetch (Except Failure ExchangeState) :=
  (s.fetchNow program .state).map fun record =>
    match record with
    | some (.state value) => .ok value
    | _ => .error (.notLoaded .exchangeState)

def loadOracle (program address : Address) (source : Oracle.Source) (s : Store) :
    Fetch (Option Oracle.PriceData) :=
  (s.fetchNow program (.oracle address source)).map fun record =>
    match record with
    | some (.oracle price) => some price
    | _ => none

def loadUser (program authority : Address) (subAccount : UInt16) (s : Store) :
    Fetch (Option User) :=
  (s.fetchNow program (.user ⟨authority, subAccount⟩)).map fun record =>
    match record with
    | some (.user user) => some user
    | _ => none

/-- Everything a client starts from: the state, the perp markets, the spot markets, their oracles
in one request, and the authority's users. The first failure ends it. -/
def load (program authority : Address) (s : Store) : Fetch (Except Failure Unit) :=
  (s.loadState program).andThen fun _ s =>
  (s.scanAll .perpMarket .perpMarket).andThen fun _ s =>
  (s.scanAll .spotMarket .spotMarket).andThen fun _ s =>
  (s.fetchMany program (s.marketOracles.map fun (address, source) => .oracle address source)).andThen
    fun _ s =>
  (s.loadUsers authority).andThen fun _ s =>
  .done s (.ok ())

end Store

end LedgerWatch
