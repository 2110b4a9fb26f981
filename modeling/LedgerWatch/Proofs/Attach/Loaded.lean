import LedgerWatch.Proofs.Account.Windows
import LedgerWatch.Proofs.Attach.Needs
import LedgerWatch.Proofs.Store.LastWriter
import LedgerWatch.Proofs.Store.Load

/-!
# Resolving after a load

A snapshot is complete when nothing that its markets refer to is missing from it. A load from a
complete snapshot succeeds whatever the store held before (`load_mirrors`), and from then on a
resolution that names only markets of the snapshot finds all that it needs
(`resolve_isOk_of_load`). Accounts that do not decode, markets that share an index and stale
entries of the store do no harm: what is stored under an index was read from the snapshot.
-/

namespace LedgerWatch

/-- The accounts of a ledger that does not change, at its slot. A scan sees those of the
program. -/
structure Snapshot where
  accounts : Address → Option Bytes
  owned : Address → Prop
  slot : UInt64

namespace Snapshot

/-- An account of the program reads as this value. -/
def Holds (l : Snapshot) (type : AccountType) (value : type.Value) : Prop :=
  ∃ address data, l.owned address ∧ l.accounts address = some data ∧ type.decode data = .ok value

/-- The oracle is unset, or its account reads under the source. -/
def Prices (l : Snapshot) (oracle : Address) (source : Oracle.Source) : Prop :=
  oracle ≠ Address.unset →
    ∃ data price, l.accounts oracle = some data ∧ Record.decodeOracle source data = .ok price

/-- The state is there, and all that the markets refer to. -/
structure Complete (l : Snapshot) (program : Address) : Prop where
  state : ∃ data value, l.accounts (RecordKey.state.address program) = some data ∧
    AccountType.decode .state data = .ok value
  perpOracle : ∀ m, l.Holds .perpMarket m → l.Prices m.oracle m.oracleSource
  spotOracle : ∀ m, l.Holds .spotMarket m → l.Prices m.oracle m.oracleSource
  quote : ∀ m, l.Holds .perpMarket m →
    ∃ q, l.Holds .spotMarket q ∧ q.marketIndex = m.quoteSpotMarketIndex

def HasPerp (l : Snapshot) (index : UInt16) : Prop :=
  ∃ m, l.Holds .perpMarket m ∧ m.marketIndex = index

def HasSpot (l : Snapshot) (index : UInt16) : Prop :=
  ∃ m, l.Holds .spotMarket m ∧ m.marketIndex = index

end Snapshot

/-- The reader answers every request from the snapshot. -/
structure Reader.Serves (reader : Reader) (l : Snapshot) : Prop where
  one : ∀ address, reader (.account address) = .ok ⟨l.accounts address, l.slot⟩
  several : ∀ addresses, reader (.accounts addresses) = .ok ⟨addresses.map l.accounts, l.slot⟩
  scan : ∀ filters, ∃ found, reader (.scan filters) = .ok ⟨found, l.slot⟩ ∧
    ∀ address data, (address, data) ∈ found ↔
      l.owned address ∧ l.accounts address = some data ∧ filters.all (·.accepts data) = true

theorem Reader.Serves.steady {reader : Reader} {l : Snapshot} (serves : reader.Serves l) :
    reader.Steady l.accounts l.slot where
  one := serves.one
  several := serves.several
  scan filters := by
    obtain ⟨found, answered, exact⟩ := serves.scan filters
    exact ⟨found, answered, fun entry mem => ((exact entry.1 entry.2).1 mem).2⟩

/-- A ledger in memory whose reads neither fail nor come back short; it takes every account for the
program's. -/
theorem Rehearsal.Ledger.serves {l : Rehearsal.Ledger} (works : l.failure = none)
    (whole : l.short = 0) (distinct : l.accounts.keys.Nodup) :
    Reader.Serves l.answer ⟨l.accounts.get?, fun _ => True, l.slot⟩ where
  one := (steady works whole distinct).one
  several := (steady works whole distinct).several
  scan filters := by
    refine ⟨l.ascending.filter fun entry => filters.all (·.accepts entry.2), ?_, ?_⟩
    · simp only [answer, works, reply]
    · intro address data
      rw [List.mem_filter, ascending, mem_sortBy, true_and]
      exact and_congr_left fun _ => ⟨Table.get?_of_mem distinct, Table.mem_of_get?⟩

namespace Store

/-! ## Batches of writes -/

variable {key : RecordKey} {slot : UInt64} {writes : List (Address × Record)}

/-- A key that one of the writes concerns holds what one of them wrote. -/
theorem get?_putAll_of_mem (shown : key.isQuote = false) (s : Store)
    (concerned : ∃ write ∈ writes, write.2.key write.1 = key.bare) :
    ∃ write ∈ writes, write.2.key write.1 = key.bare ∧
      (s.putAll slot writes).get? key = some ⟨write.2, slot⟩ := by
  induction writes using List.reverseRecOn with
  | nil => simp at concerned
  | append_singleton writes last ih =>
    have put : s.putAll slot (writes ++ [last]) =
        (s.putAll slot writes).put last.1 last.2 slot :=
      List.foldl_append
    rw [put, get?_put shown]
    by_cases concerns : last.2.key last.1 = key.bare
    · exact ⟨last, by simp, concerns, if_pos concerns⟩
    · obtain ⟨write, mem, same⟩ := concerned
      have earlier : write ∈ writes := by
        rcases List.mem_append.1 mem with mem | mem
        · exact mem
        · obtain rfl := List.mem_singleton.1 mem
          exact absurd same concerns
      obtain ⟨write, mem, same, held⟩ := ih ⟨write, earlier, same⟩
      exact ⟨write, List.mem_append_left _ mem, same, (if_neg concerns).trans held⟩

theorem get?_putAll_of_not_mem (shown : key.isQuote = false) (s : Store)
    (apart : ∀ write ∈ writes, write.2.key write.1 ≠ key.bare) :
    (s.putAll slot writes).get? key = s.get? key := by
  induction writes generalizing s with
  | nil => rfl
  | cons write rest ih =>
    obtain ⟨first, rest⟩ := List.forall_mem_cons.1 apart
    exact (ih _ rest).trans ((get?_put shown ..).trans (if_neg first))

/-! ## Running a load -/

section Load

variable {reader : Reader} {accounts : Address → Option Bytes} {l : Snapshot}

theorem run_loadState (steady : reader.Steady accounts slot) {program : Address} {data : Bytes}
    {value : ExchangeState} (held : accounts (RecordKey.state.address program) = some data)
    (decodes : AccountType.decode .state data = .ok value) (s : Store) :
    (s.loadState program).run reader =
      (s.put (RecordKey.state.address program) (.state value) slot, .ok value) := by
  have reads : Record.decode .state data = .ok (.state value) := by
    rw [Record.decode, decodes]
    rfl
  simp only [loadState, fetchNow, RecordKey.isQuote, Bool.false_eq_true, if_false, Fetch.map,
    Fetch.run_bind, Fetch.run_read, steady.one, held, absorb, RecordKey.kind, reads,
    Fetch.run_done]

/-- A load whose reads all succeed and which finds the state stores the state, what it scanned for
perp markets and for spot markets, and after that no market. -/
theorem run_load (steady : reader.Steady accounts slot) {program : Address} {data : Bytes}
    {value : ExchangeState} (held : accounts (RecordKey.state.address program) = some data)
    (decodes : AccountType.decode .state data = .ok value) {perp spot : List (Address × Bytes)}
    (perps : reader (.scan [⟨0, AccountType.discriminator .perpMarket⟩]) = .ok ⟨perp, slot⟩)
    (spots : reader (.scan [⟨0, AccountType.discriminator .spotMarket⟩]) = .ok ⟨spot, slot⟩)
    (authority : Address) (s : Store) :
    ∃ t, (s.load program authority).run reader = (t, .ok ()) ∧
      SameMarkets (((s.put (RecordKey.state.address program) (.state value) slot).putAll slot
        (scanned .perpMarket perp)).putAll slot (scanned .spotMarket spot)) t := by
  unfold load
  rw [Fetch.run_andThen (run_loadState steady held decodes s), scanAll,
    Fetch.run_andThen (run_scanMatching perps _ _), scanAll,
    Fetch.run_andThen (run_scanMatching spots _ _)]
  generalize ((s.put (RecordKey.state.address program) (.state value) slot).putAll slot
    (scanned .perpMarket perp)).putAll slot (scanned .spotMarket spot) = u
  have set : ∀ oracle ∈ u.marketOracles, oracle.1 ≠ Address.unset := fun oracle mem =>
    (mem_marketOracles.1 mem).1
  obtain ⟨users, answered, -⟩ := steady.scan (userFilters authority)
  rw [Fetch.run_andThen (run_fetchMany_oracles steady program u set), loadUsers,
    Fetch.run_andThen (run_scanMatching answered _ _)]
  refine ⟨_, rfl, (sameMarkets_putAll u slot isMarket_named).trans (sameMarkets_putAll _ slot ?_)⟩
  rintro ⟨address, record⟩ mem
  obtain ⟨data, -, ok⟩ := mem_scanned.1 mem
  obtain ⟨user, rfl⟩ := Record.decode_user_eq_ok ok
  rfl

end Load

end Store

/-! ## A mirrored snapshot -/

namespace Snapshot

open Attached (OracleStored)

/-- Under each index of a market of the snapshot the store holds a market of the snapshot, with its
oracle. -/
structure MirroredBy (l : Snapshot) (t : Store) : Prop where
  perp : ∀ index, l.HasPerp index → ∃ entry, t.perpMarkets.get? index = some entry ∧
    l.Holds .perpMarket entry.value ∧ OracleStored t entry.value.oracle
  spot : ∀ index, l.HasSpot index → ∃ entry, t.spotMarkets.get? index = some entry ∧
    l.Holds .spotMarket entry.value ∧ OracleStored t entry.value.oracle

/-- How the accounts of a type of market are read and stored. -/
structure Reading (type : AccountType) where
  kind : RecordKind
  market : MarketKind
  wrap : type.Value → Record
  index : type.Value → UInt16
  decode_eq : ∀ data, Record.decode kind data = (type.decode data).map wrap
  key_eq : ∀ address value, (wrap value).key address = .market market (index value)

def perpReading : Reading .perpMarket :=
  ⟨.perpMarket, .perp, .perpMarket, PerpMarket.marketIndex, fun _ => rfl, fun _ _ => rfl⟩

def spotReading : Reading .spotMarket :=
  ⟨.spotMarket, .spot, .spotMarket, SpotMarket.marketIndex, fun _ => rfl, fun _ _ => rfl⟩

variable {reader : Reader} {l : Snapshot} {type : AccountType} {found : List (Address × Bytes)}

/-- What a scan for the type found: the program's accounts with its discriminator. -/
def Finds (l : Snapshot) (type : AccountType) (found : List (Address × Bytes)) : Prop :=
  ∀ address data, (address, data) ∈ found ↔ l.owned address ∧ l.accounts address = some data ∧
    [⟨0, type.discriminator⟩].all (Window.accepts · data) = true

/-- Those that are stored are just the program's accounts that read as the type. -/
theorem Finds.scanned_iff (finds : l.Finds type found) (r : Reading type) {record : Record} :
    (∃ address, (address, record) ∈ Store.scanned r.kind found) ↔
      ∃ value, l.Holds type value ∧ record = r.wrap value := by
  simp only [Store.mem_scanned, finds _ _, r.decode_eq]
  constructor
  · rintro ⟨address, data, ⟨owned, held, -⟩, ok⟩
    cases decoded : type.decode data with
    | error fault => simp [decoded, Except.map] at ok
    | ok value =>
      obtain rfl : r.wrap value = record := by simpa [decoded, Except.map] using ok
      exact ⟨value, ⟨address, data, owned, held, decoded⟩, rfl⟩
  · rintro ⟨value, ⟨address, data, owned, held, decoded⟩, rfl⟩
    refine ⟨address, data, ⟨owned, held, ?_⟩, by simp [decoded, Except.map]⟩
    simpa using AccountType.accepts_of_decode decoded

/-- The scan leaves under each index of the snapshot a market of the snapshot. -/
theorem Finds.stored (finds : l.Finds type found) (r : Reading type) (s : Store) (slot : UInt64)
    {value : type.Value} (holds : l.Holds type value) : ∃ held, l.Holds type held ∧
      (s.putAll slot (Store.scanned r.kind found)).get? (.market r.market (r.index value)) =
        some ⟨r.wrap held, slot⟩ := by
  obtain ⟨address, mem⟩ := (finds.scanned_iff r).2 ⟨value, holds, rfl⟩
  have concerned : (r.wrap value).key address =
      (RecordKey.market r.market (r.index value)).bare := by
    rw [r.key_eq]
    cases r.market <;> rfl
  obtain ⟨⟨at_, record⟩, written, -, stored⟩ :=
    Store.get?_putAll_of_mem (by cases r.market <;> rfl) s ⟨_, mem, concerned⟩
  obtain ⟨held, holds, rfl⟩ := (finds.scanned_iff r).1 ⟨at_, written⟩
  exact ⟨held, holds, stored⟩

/-- A later scan for the other type of market leaves them alone. -/
theorem Finds.kept (finds : l.Finds type found) (r : Reading type) (s : Store) (slot : UInt64)
    {market : MarketKind} (other : r.market ≠ market) (index : UInt16) :
    (s.putAll slot (Store.scanned r.kind found)).get? (.market market index) =
      s.get? (.market market index) := by
  refine Store.get?_putAll_of_not_mem (by cases market <;> rfl) s ?_
  rintro ⟨address, record⟩ mem
  obtain ⟨value, -, rfl⟩ := (finds.scanned_iff r).1 ⟨address, mem⟩
  rw [r.key_eq]
  revert other
  cases r.market <;> cases market <;> simp [RecordKey.market, RecordKey.bare]

/-- A load from a complete snapshot succeeds and mirrors it, whatever the store held before. -/
theorem load_mirrors (serves : reader.Serves l) {program : Address} (complete : l.Complete program)
    (authority : Address) (s : Store) :
    ∃ t, (s.load program authority).run reader = (t, .ok ()) ∧ l.MirroredBy t := by
  obtain ⟨data, value, held, decodes⟩ := complete.state
  obtain ⟨perp, perps, findsPerp⟩ := serves.scan [⟨0, AccountType.discriminator .perpMarket⟩]
  obtain ⟨spot, spots, findsSpot⟩ := serves.scan [⟨0, AccountType.discriminator .spotMarket⟩]
  replace findsPerp : l.Finds .perpMarket perp := findsPerp
  replace findsSpot : l.Finds .spotMarket spot := findsSpot
  obtain ⟨t, loaded, same⟩ := Store.run_load serves.steady held decodes perps spots authority s
  have priced {oracle : Address} {source : Oracle.Source} (prices : l.Prices oracle source)
      (named : oracle ≠ Address.unset → (oracle, source) ∈ t.marketOracles) :
      OracleStored t oracle := by
    by_cases set : oracle = Address.unset
    · exact .inl set
    · obtain ⟨data, own, found, decodes⟩ := prices set
      obtain ⟨⟨price, -, seen⟩, -⟩ :=
        Store.sees_of_load serves.steady loaded (named set) found decodes
      refine .inr ?_
      rw [Store.oraclePrice_eq] at seen
      rw [Store.hasOracle]
      cases entry : t.oracle? oracle with
      | none => simp [Store.lookUp, entry] at seen
      | some entry => rfl
  refine ⟨t, loaded, ?_, ?_⟩
  · rintro index ⟨m, holds, rfl⟩
    obtain ⟨m', holds', stored⟩ := findsPerp.stored perpReading
      (s.put (RecordKey.state.address program) (.state value) l.slot) l.slot holds
    have kept := (findsSpot.kept spotReading ((s.put (RecordKey.state.address program)
      (.state value) l.slot).putAll l.slot (Store.scanned .perpMarket perp)) l.slot
      (show spotReading.market ≠ .perp by decide) m.marketIndex).trans stored
    have found : t.perpMarkets.get? m.marketIndex = some ⟨m', l.slot⟩ := by
      rw [same.perp]
      exact (Store.map_eq_some_iff fun _ _ => Record.perpMarket.inj).1 kept
    refine ⟨_, found, holds', priced (complete.perpOracle m' holds') fun set => ?_⟩
    exact Store.mem_marketOracles.2 ⟨set, .inl ⟨_, Store.mem_values found, rfl, rfl⟩⟩
  · rintro index ⟨m, holds, rfl⟩
    obtain ⟨m', holds', stored⟩ := findsSpot.stored spotReading
      ((s.put (RecordKey.state.address program) (.state value) l.slot).putAll l.slot
        (Store.scanned .perpMarket perp)) l.slot holds
    have found : t.spotMarkets.get? m.marketIndex = some ⟨m', l.slot⟩ := by
      rw [same.spot]
      exact (Store.map_eq_some_iff fun _ _ => Record.spotMarket.inj).1 stored
    refine ⟨_, found, holds', priced (complete.spotOracle m' holds') fun set => ?_⟩
    exact Store.mem_marketOracles.2 ⟨set, .inr ⟨_, Store.mem_values found, rfl, rfl⟩⟩

/-! ## Resolving -/

/-- The parameters name only markets of the snapshot, and no noted ones. -/
structure Covers (l : Snapshot) (params : ResolveParams) : Prop where
  unnoted : params.useSlots = false
  perp : ∀ user ∈ params.users, ∀ p ∈ user.activePerp, l.HasPerp p.marketIndex
  spot : ∀ user ∈ params.users, ∀ p ∈ user.activeSpot, l.HasSpot p.marketIndex
  orders : ∀ user ∈ params.users, ∀ p ∈ user.activeSpot,
    p.openBids ≠ 0 ∨ p.openAsks ≠ 0 → l.HasSpot 0
  perpOverride : ∀ i, i ∈ params.readablePerp ∨ i ∈ params.writablePerp → l.HasPerp i
  spotOverride : ∀ i, i ∈ params.readableSpot ∨ i ∈ params.writableSpot → l.HasSpot i

theorem Covers.visits {params : ResolveParams} (covers : l.Covers params) (t : Store) :
    ∀ v ∈ params.visits t, match v.kind with
      | .perp => l.HasPerp v.index
      | .spot => l.HasSpot v.index := by
  rintro ⟨kind, i, w⟩ visit
  have unnoted {kind' : MarketKind} (mem : ⟨kind, i, w⟩ ∈ params.freshVisits t kind') : False := by
    have noted := (ResolveParams.mem_freshVisits.1 mem).2.2.1
    simp [covers.unnoted] at noted
  rcases ResolveParams.mem_visits.1 visit with visit | noted | noted | visit
  · cases kind with
    | perp =>
      obtain ⟨-, user, mem, p, active, rfl⟩ := ResolveParams.mem_userVisits_perp.1 visit
      exact covers.perp user mem p active
    | spot =>
      obtain ⟨-, user, mem, p, active, rfl | ⟨orders, rfl⟩⟩ :=
        ResolveParams.mem_userVisits_spot.1 visit
      · exact covers.spot user mem p active
      · exact covers.orders user mem p active (by simpa [SpotPosition.hasOpenOrders] using orders)
  · exact (unnoted noted).elim
  · exact (unnoted noted).elim
  · cases kind with
    | perp =>
      refine covers.perpOverride i ?_
      exact (ResolveParams.mem_overrideVisits_perp.1 visit).imp And.right And.right
    | spot =>
      refine covers.spotOverride i ?_
      exact (ResolveParams.mem_overrideVisits_spot.1 visit).imp And.right And.right

/-- A visit of a market of a complete snapshot finds in its mirror all that it asks for. -/
theorem MirroredBy.served {t : Store} (mirrored : l.MirroredBy t) {program : Address}
    (complete : l.Complete program) {v : Visit} (named : match v.kind with
      | .perp => l.HasPerp v.index
      | .spot => l.HasSpot v.index) : Attached.Served t v := by
  obtain ⟨kind, i, w⟩ := v
  cases kind with
  | spot =>
    obtain ⟨entry, stored, -, oracle⟩ := mirrored.spot i named
    exact ⟨entry, stored, oracle⟩
  | perp =>
    obtain ⟨entry, stored, holds, oracle⟩ := mirrored.perp i named
    obtain ⟨quote, quoted, -, oracle'⟩ := mirrored.spot _ (complete.quote _ holds)
    exact ⟨entry, stored, oracle, quote, quoted, oracle'⟩

/-- A load from a complete snapshot succeeds, whatever the store held before, and afterwards every
resolution that names only markets of the snapshot succeeds. -/
theorem resolve_isOk_of_load (serves : reader.Serves l) {program : Address}
    (complete : l.Complete program) (authority : Address) (s : Store) :
    ∃ t, (s.load program authority).run reader = (t, .ok ()) ∧
      ∀ params, l.Covers params → ∃ accounts, (resolve params t).1 = .ok accounts := by
  obtain ⟨t, loaded, mirrored⟩ := load_mirrors serves complete authority s
  refine ⟨t, loaded, fun params covers => ?_⟩
  obtain ⟨a, visited⟩ := Attached.visitAll_isOk (a := {}).2 fun v visit =>
    mirrored.served complete (covers.visits t v visit)
  exact ⟨a.toList, by rw [resolve_eq, visited]; rfl⟩

/-! ## One market of each kind -/

/-- The spot market that the perp market is quoted in; its price is the fixed one. -/
def quoteMarket : SpotMarket where
  pubkey := plain 2
  marketIndex := 0
  oracle := Address.unset
  oracleSource := .quoteAsset
  mint := plain 3
  vault := plain 4
  decimals := 6
  name := Vector.replicate 32 0
  status := 0

/-- A perp market with its feed, and its quote market. -/
def quotedLedger : Rehearsal.Ledger where
  accounts := ⟨[
    (RecordKey.state.address Address.unset, AccountType.encode .state
      { admin := plain 0, signer := plain 0, quoteAssetMint := plain 3, numberOfMarkets := 1
        numberOfSpotMarkets := 1, signerNonce := 0, exchangeStatus := 0 }),
    (plain 1, AccountType.encode .perpMarket (feedMarket 0 .pythPull)),
    (plain 2, AccountType.encode .spotMarket quoteMarket),
    (plain 7, feedData)]⟩

def quoted : Snapshot := ⟨quotedLedger.accounts.get?, fun _ => True, quotedLedger.slot⟩

theorem quotedLedger_markets : ∀ entry ∈ quotedLedger.accounts.entries,
    (∀ m ∈ (AccountType.decode .perpMarket entry.2).toOption, m = feedMarket 0 .pythPull) ∧
      ∀ m ∈ (AccountType.decode .spotMarket entry.2).toOption, m = quoteMarket := by
  decide +kernel

theorem quoted_holds_perp (m : PerpMarket) :
    quoted.Holds .perpMarket m ↔ m = feedMarket 0 .pythPull := by
  constructor
  · rintro ⟨address, data, -, found, decodes⟩
    exact (quotedLedger_markets _ (Table.mem_of_get? found)).1 m (by rw [decodes]; rfl)
  · rintro rfl
    exact ⟨plain 1, _, trivial, (by decide +kernel : quotedLedger.accounts.get? (plain 1) =
      some (AccountType.encode .perpMarket (feedMarket 0 .pythPull))), by decide +kernel⟩

theorem quoted_holds_spot (m : SpotMarket) : quoted.Holds .spotMarket m ↔ m = quoteMarket := by
  constructor
  · rintro ⟨address, data, -, found, decodes⟩
    exact (quotedLedger_markets _ (Table.mem_of_get? found)).2 m (by rw [decodes]; rfl)
  · rintro rfl
    exact ⟨plain 2, _, trivial, (by decide +kernel : quotedLedger.accounts.get? (plain 2) =
      some (AccountType.encode .spotMarket quoteMarket)), by decide +kernel⟩

theorem quoted_complete : quoted.Complete Address.unset where
  state := ⟨_, _, (by decide +kernel : quotedLedger.accounts.get?
    (RecordKey.state.address Address.unset) = some (AccountType.encode .state
      { admin := plain 0, signer := plain 0, quoteAssetMint := plain 3, numberOfMarkets := 1
        numberOfSpotMarkets := 1, signerNonce := 0, exchangeStatus := 0 })),
    (AccountType.decode_eq_ok_iff _).2 (List.prefix_refl _)⟩
  perpOracle m holds set := by
    obtain rfl := (quoted_holds_perp m).1 holds
    exact ⟨feedData, unitPrice, by decide +kernel⟩
  spotOracle m holds set := by
    obtain rfl := (quoted_holds_spot m).1 holds
    exact absurd rfl set
  quote m holds := by
    obtain rfl := (quoted_holds_perp m).1 holds
    exact ⟨quoteMarket, (quoted_holds_spot _).2 rfl, rfl⟩

/-- A user who is long in the market and has a bid open for the quote asset. -/
def trader : User where
  authority := plain 9
  delegate := plain 0
  name := Vector.replicate 32 0
  subAccountId := 0
  perpPositions := (Vector.replicate 8 {}).set 0 { baseAssetAmount := 1 }
  spotPositions := (Vector.replicate 8 {}).set 0 { scaledBalance := 5, openBids := 2 }
  lastActiveSlot := 0

def tradeParams : ResolveParams := { users := [trader], writablePerp := [0] }

theorem quoted_covers : quoted.Covers tradeParams where
  unnoted := rfl
  perp := by
    have zero : ∀ user ∈ tradeParams.users, ∀ p ∈ user.activePerp, p.marketIndex = 0 := by
      decide +kernel
    exact fun user mem p active =>
      ⟨_, (quoted_holds_perp _).2 rfl, (zero user mem p active).symm⟩
  spot := by
    have zero : ∀ user ∈ tradeParams.users, ∀ p ∈ user.activeSpot, p.marketIndex = 0 := by
      decide +kernel
    exact fun user mem p active =>
      ⟨_, (quoted_holds_spot _).2 rfl, (zero user mem p active).symm⟩
  orders _ _ _ _ _ := ⟨_, (quoted_holds_spot _).2 rfl, rfl⟩
  perpOverride i named := by
    obtain rfl : i = 0 := by simpa [tradeParams] using named
    exact ⟨_, (quoted_holds_perp _).2 rfl, rfl⟩
  spotOverride i named := by simp [tradeParams] at named

theorem resolve_isOk_of_load_quoted :
    Reader.Serves quotedLedger.answer quoted ∧ quoted.Complete Address.unset ∧
      quoted.Covers tradeParams ∧
      ∃ t accounts, (({} : Store).load Address.unset Address.unset).run quotedLedger.answer =
        (t, .ok ()) ∧ (resolve tradeParams t).1 = .ok accounts := by
  have serves : Reader.Serves quotedLedger.answer quoted :=
    Rehearsal.Ledger.serves (l := quotedLedger) rfl rfl (by decide +kernel)
  obtain ⟨t, loaded, resolves⟩ := resolve_isOk_of_load serves quoted_complete Address.unset {}
  obtain ⟨accounts, resolved⟩ := resolves tradeParams quoted_covers
  exact ⟨serves, quoted_complete, quoted_covers, t, accounts, loaded, resolved⟩

end Snapshot

end LedgerWatch
