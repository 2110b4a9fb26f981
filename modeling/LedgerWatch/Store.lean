import LedgerWatch.Address.Derived
import LedgerWatch.Error
import LedgerWatch.Store.Slots

/-!
# The store of observed records

The store holds the last record put for each key: the exchange state, each market by its index
within its kind, each user by authority and sub-account, each oracle by address. It also knows
which market was last put under an address. The unset oracle address always has the quote
asset's price, whatever is put under it.
-/

namespace LedgerWatch

/-- The logical name of a record. The source of an oracle says only how to read its account. -/
inductive RecordKey
  | state
  | perpMarket (index : UInt16)
  | spotMarket (index : UInt16)
  | user (key : UserKey)
  | oracle (address : Address) (source : Oracle.Source)
deriving DecidableEq

namespace RecordKey

def kind : RecordKey → RecordKind
  | state => .state
  | perpMarket _ => .perpMarket
  | spotMarket _ => .spotMarket
  | user _ => .user
  | oracle _ source => .oracle source

/-- Where the program keeps the record. -/
def address (program : Address) : RecordKey → Address
  | state => Address.Place.address .state program
  | perpMarket index => Address.Place.address (.perpMarket index) program
  | spotMarket index => Address.Place.address (.spotMarket index) program
  | user key => Address.Place.address (.user key.authority key.subAccount) program
  | oracle address _ => address

/-- Whether the key names the quote asset's price, which is never read from the ledger. -/
def isQuote : RecordKey → Bool
  | oracle address _ => address == Address.unset
  | _ => false

end RecordKey

/-- The key a record is stored under when observed at `address`. -/
def Record.key (address : Address) : Record → RecordKey
  | state _ => .state
  | perpMarket m => .perpMarket m.marketIndex
  | spotMarket m => .spotMarket m.marketIndex
  | user u => .user u.key
  | oracle _ => .oracle address default

structure Store where
  state : Option (Stamped ExchangeState) := none
  perpMarkets : Table UInt16 (Stamped PerpMarket) := {}
  spotMarkets : Table UInt16 (Stamped SpotMarket) := {}
  marketAt : Table Address (MarketKind × UInt16) := {}
  oracles : Table Address (Stamped Oracle.PriceData) := {}
  users : Table UserKey (Stamped User) := {}
  slots : Slots := {}
deriving DecidableEq

namespace Store

def oracle? (s : Store) (address : Address) : Option (Stamped Oracle.PriceData) :=
  if address = Address.unset then some ⟨Oracle.quotePrice, 0⟩ else s.oracles.get? address

def hasOracle (s : Store) (address : Address) : Bool := (s.oracle? address).isSome

/-- What is held for a key, however old. -/
def get? (s : Store) : RecordKey → Option (Stamped Record)
  | .state => s.state.map (·.map Record.state)
  | .perpMarket index => (s.perpMarkets.get? index).map (·.map Record.perpMarket)
  | .spotMarket index => (s.spotMarkets.get? index).map (·.map Record.spotMarket)
  | .user key => (s.users.get? key).map (·.map Record.user)
  | .oracle address _ => (s.oracle? address).map (·.map Record.oracle)

/-- Stores a record observed at `address` and `slot` in place of any earlier one for its key. -/
def put (s : Store) (address : Address) (record : Record) (slot : UInt64) : Store :=
  match record with
  | .state value => { s with state := some ⟨value, slot⟩ }
  | .perpMarket m => { s with
      perpMarkets := s.perpMarkets.insert m.marketIndex ⟨m, slot⟩
      marketAt := s.marketAt.insert address (.perp, m.marketIndex) }
  | .spotMarket m => { s with
      spotMarkets := s.spotMarkets.insert m.marketIndex ⟨m, slot⟩
      marketAt := s.marketAt.insert address (.spot, m.marketIndex) }
  | .user u => { s with users := s.users.insert u.key ⟨u, slot⟩ }
  | .oracle price => { s with oracles := s.oracles.insert address ⟨price, slot⟩ }

def removeUser (s : Store) (key : UserKey) : Option User × Store :=
  ((s.users.get? key).map Stamped.value, { s with users := s.users.erase key })

def exchangeState (s : Store) : Except Failure ExchangeState :=
  match s.state with
  | some entry => .ok entry.value
  | none => .error (.notLoaded .exchangeState)

def perpMarket (s : Store) (index : UInt16) : Except Failure PerpMarket :=
  match s.perpMarkets.get? index with
  | some entry => .ok entry.value
  | none => .error (.notLoaded (.perpMarket index))

def spotMarket (s : Store) (index : UInt16) : Except Failure SpotMarket :=
  match s.spotMarkets.get? index with
  | some entry => .ok entry.value
  | none => .error (.notLoaded (.spotMarket index))

/-- The perp markets by ascending index. -/
def perpMarketList (s : Store) : List PerpMarket :=
  sortBy (fun a b => a.marketIndex < b.marketIndex) (s.perpMarkets.values.map Stamped.value)

/-- The spot markets by ascending index. -/
def spotMarketList (s : Store) : List SpotMarket :=
  sortBy (fun a b => a.marketIndex < b.marketIndex) (s.spotMarkets.values.map Stamped.value)

def oraclePrice (s : Store) (address : Address) : Except Failure Oracle.PriceData :=
  match s.oracle? address with
  | some entry => .ok entry.value
  | none => .error (.notLoaded (.account address))

def perpOraclePrice (s : Store) (index : UInt16) : Except Failure Oracle.PriceData := do
  let market ← s.perpMarket index
  s.oraclePrice market.oracle

def spotOraclePrice (s : Store) (index : UInt16) : Except Failure Oracle.PriceData := do
  let market ← s.spotMarket index
  s.oraclePrice market.oracle

/-- Stores what decodes as `kind`, in order, all at one slot, and counts it. -/
def putDecoded (s : Store) (slot : UInt64) (accounts : List (Address × RecordKind × Bytes)) :
    Store × Nat :=
  accounts.foldl (fun (s, count) (address, kind, data) =>
    match Record.decode kind data with
    | .ok record => (s.put address record slot, count + 1)
    | .error _ => (s, count)) (s, 0)

/-- The distinct oracles that stored markets name, perp before spot, each by ascending index. -/
def marketOracles (s : Store) : List (Address × Oracle.Source) :=
  let perp := s.perpMarketList.map fun m => (m.oracle, m.oracleSource)
  let spot := s.spotMarketList.map fun m => (m.oracle, m.oracleSource)
  ((perp ++ spot).filter fun pair => pair.1 ≠ Address.unset).foldl
    (fun seen pair => if pair ∈ seen then seen else seen ++ [pair]) []

end Store

end LedgerWatch
