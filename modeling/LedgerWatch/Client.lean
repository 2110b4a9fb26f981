import LedgerWatch.Attach.Resolve
import LedgerWatch.Config
import LedgerWatch.Store.Fetch
import LedgerWatch.Watch.Supervisor

/-!
# A client of one authority

A client watches the exchange for one authority. Its store is its supervisor's, so that what a
channel delivers, what an explicit read brings and what a resolution looks up are the same
records.
-/

namespace LedgerWatch

structure Client where
  config : Config := {}
  program : Address
  authority : Address
  supervisor : Supervisor := {}

namespace Config

/-- The supervisor a configuration asks for. -/
def supervisor (c : Config) : Supervisor :=
  { resubTimeout := c.resubTimeout.map UInt64.toNat
    checkInterval := c.stallCheckInterval.toNat }

end Config

namespace Client

/-- Takes any configuration, valid or not, and an explicit program. -/
def ofParts (config : Config) (program authority : Address) : Client :=
  { config, program, authority, supervisor := config.supervisor }

def new (config : Config) (authority : Address) : Except Failure Client := do
  config.validate.mapError .invalidConfig
  let program ← config.program.mapError .invalidConfig
  return ofParts config program authority

def store (c : Client) : Store := c.supervisor.store

def withStore (c : Client) (store : Store) : Client :=
  { c with supervisor := { c.supervisor with store } }

/-- The watches of the exchange state and of every market, in the order they are opened. -/
def marketWatches (program : Address) : List WatchKey :=
  [⟨.state, .account (Address.Place.address .state program)⟩,
    ⟨.perpMarket, .program [⟨0, AccountType.discriminator .perpMarket⟩]⟩,
    ⟨.spotMarket, .program [⟨0, AccountType.discriminator .spotMarket⟩]⟩]

/-- The watches of the oracles that stored markets name. -/
def oracleWatches (store : Store) : List WatchKey :=
  store.marketOracles.map fun (address, source) => ⟨.oracle source, .account address⟩

def userWatch (program authority : Address) (subAccount : UInt16) : WatchKey :=
  ⟨.user, .account (Address.Place.address (.user authority subAccount) program)⟩

/-- Resolves against the client's store, and leaves it pruned. -/
def remainingAccounts (c : Client) (params : ResolveParams) :
    Except Failure (List AccountMeta) × Client :=
  let (result, store) := resolve params c.store
  (result.mapError .missingDependency, c.withStore store)

/-- Notes that a submission at `slot` wrote these markets. -/
def recordMarketSlots (c : Client) (perp spot : List UInt16) (slot : UInt64) : Client :=
  c.withStore { c.store with slots := c.store.slots.record perp spot slot }

end Client

end LedgerWatch
