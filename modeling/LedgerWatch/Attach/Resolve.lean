import LedgerWatch.Attach.AccountMap
import LedgerWatch.Store

/-!
# Resolving the accounts an instruction needs

An instruction that touches a user's margin must be given every market the user is exposed to
and those markets' oracles: oracles first, then spot markets, then perp markets, each once. The
resolver visits markets in a fixed order and collects what each visit needs from the store. A
market or oracle that is not stored fails the whole resolution.
-/

namespace LedgerWatch

/-- What to resolve for. Without an explicit freshness slot it is the slot at which the first
user is stored, or 0. -/
structure ResolveParams where
  users : List User := []
  writablePerp : List UInt16 := []
  writableSpot : List UInt16 := []
  readablePerp : List UInt16 := []
  readableSpot : List UInt16 := []
  useSlots : Bool := false
  freshness : Option UInt64 := none
deriving DecidableEq

/-- A market to attach. -/
structure Visit where
  kind : MarketKind
  index : UInt16
  writable : Bool := false
deriving DecidableEq

/-- The accounts collected so far, by group. -/
structure Attached where
  oracles : AccountMap Address := {}
  spot : AccountMap UInt16 := {}
  perp : AccountMap UInt16 := {}
deriving DecidableEq

namespace Attached

def toList (a : Attached) : List AccountMeta :=
  a.oracles.toList ++ a.spot.toList ++ a.perp.toList

/-- The unset oracle needs no account; a prelaunch oracle is attached writable. -/
def addOracle (store : Store) (a : Attached) (oracle : Address) (source : Oracle.Source) :
    Except Subject Attached :=
  if oracle = Address.unset then .ok a
  else if store.hasOracle oracle then
    .ok { a with oracles := a.oracles.insert oracle oracle source.isPrelaunch }
  else .error (.account oracle)

def addSpot (store : Store) (a : Attached) (index : UInt16) (writable : Bool) :
    Except Subject Attached :=
  match store.spotMarkets.get? index with
  | none => .error (.spotMarket index)
  | some ⟨market, _⟩ =>
    { a with spot := a.spot.insert index market.pubkey writable }.addOracle store
      market.oracle market.oracleSource

/-- A perp market brings its oracle and, read-only, the spot market it is quoted in. -/
def addPerp (store : Store) (a : Attached) (index : UInt16) (writable : Bool) :
    Except Subject Attached :=
  match store.perpMarkets.get? index with
  | none => .error (.perpMarket index)
  | some ⟨market, _⟩ => do
    let a ← { a with perp := a.perp.insert index market.pubkey writable }.addOracle store
      market.oracle market.oracleSource
    a.addSpot store market.quoteSpotMarketIndex false

def visit (store : Store) (a : Attached) (v : Visit) : Except Subject Attached :=
  match v.kind with
  | .perp => a.addPerp store v.index v.writable
  | .spot => a.addSpot store v.index v.writable

def visitAll (store : Store) (a : Attached) (visits : List Visit) : Except Subject Attached :=
  visits.foldlM (visit store) a

end Attached

/-- The markets of a user's positions; one with open orders also touches the quote market. -/
def User.visits (user : User) : List Visit :=
  user.activePerp.map (fun p => ⟨.perp, p.marketIndex, false⟩) ++
  user.activeSpot.flatMap fun p =>
    ⟨.spot, p.marketIndex, false⟩ ::
      if p.hasOpenOrders then [⟨.spot, quoteSpotMarket, false⟩] else []

namespace ResolveParams

def userVisits (params : ResolveParams) : List Visit := params.users.flatMap User.visits

def overrideVisits (params : ResolveParams) : List Visit :=
  params.readablePerp.map (fun i => ⟨.perp, i, false⟩) ++
  params.readableSpot.map (fun i => ⟨.spot, i, false⟩) ++
  params.writablePerp.map (fun i => ⟨.perp, i, true⟩) ++
  params.writableSpot.map (fun i => ⟨.spot, i, true⟩)

def freshnessIn (params : ResolveParams) (store : Store) : UInt64 :=
  match params.freshness with
  | some slot => slot
  | none =>
    match params.users.head?.bind fun user => store.users.get? user.key with
    | some entry => entry.slot
    | none => 0

end ResolveParams

/-- Attaches the fresh markets of one kind and drops the noted entries that are not fresh, which
happens before anything is attached. -/
def attachFresh (kind : MarketKind) (freshness : UInt64) (store : Store) (a : Attached) :
    Except Subject Attached × Store :=
  let (fresh, slots) := store.slots.retainFresh kind freshness
  let store := { store with slots }
  (a.visitAll store (fresh.map fun index => ⟨kind, index, false⟩), store)

/-- Resolves the accounts, and leaves the store with what pruning was done by then. -/
def resolve (params : ResolveParams) (store : Store) : Except Subject (List AccountMeta) × Store :=
  let finish (a : Attached) (store : Store) :=
    ((a.visitAll store params.overrideVisits).map Attached.toList, store)
  match ({} : Attached).visitAll store params.userVisits with
  | .error missing => (.error missing, store)
  | .ok a =>
    if params.useSlots then
      let freshness := params.freshnessIn store
      match attachFresh .perp freshness store a with
      | (.error missing, store) => (.error missing, store)
      | (.ok a, store) =>
        match attachFresh .spot freshness store a with
        | (.error missing, store) => (.error missing, store)
        | (.ok a, store) => finish a store
    else finish a store

end LedgerWatch
