import LedgerWatch.Proofs.Store.Queries
import LedgerWatch.Rehearsal.Ledger
import Mathlib.Control.Monad.Basic

/-!
# Prices after a load

A load reads the markets, then in one batch the oracles that they name, one entry for each
address and source, and last the authority's users. The store keeps one price for each oracle
address. Of several sources under which markets name one account, the last that decodes it
decides the price that every one of these markets sees (`market_prices_of_load`): a market sees
the price of its own source if the sources agree, and not in general
(`shared_oracle_other_price`).
-/

namespace LedgerWatch

/-- The reader answers every request from the same accounts and at the same slot. -/
structure Reader.Steady (reader : Reader) (accounts : Address → Option Bytes) (slot : UInt64) :
    Prop where
  one : ∀ address, reader (.account address) = .ok ⟨accounts address, slot⟩
  several : ∀ addresses, reader (.accounts addresses) = .ok ⟨addresses.map accounts, slot⟩
  scan : ∀ filters, ∃ found, reader (.scan filters) = .ok ⟨found, slot⟩ ∧
    ∀ entry ∈ found, accounts entry.1 = some entry.2 ∧ filters.all (·.accepts entry.2) = true

/-- A ledger in memory whose reads neither fail nor come back short. -/
theorem Rehearsal.Ledger.steady {l : Rehearsal.Ledger} (works : l.failure = none)
    (whole : l.short = 0) (distinct : l.accounts.keys.Nodup) :
    Reader.Steady l.answer l.accounts.get? l.slot where
  one address := by simp only [answer, works, reply]
  several addresses := by
    simp only [answer, works, reply, whole]
    rw [List.take_of_length_le (by simp)]
  scan filters := by
    refine ⟨l.ascending.filter fun entry => filters.all (·.accepts entry.2), ?_, ?_⟩
    · simp only [answer, works, reply]
    · intro entry mem
      obtain ⟨listed, accepted⟩ := List.mem_filter.1 mem
      exact ⟨Table.get?_of_mem distinct (mem_sortBy.1 listed), accepted⟩

namespace Store

/-- A scan as users stores users only. -/
theorem run_loadUsers {reader : Reader} {accounts : Address → Option Bytes} {slot : UInt64}
    (steady : reader.Steady accounts slot) (authority : Address) (s : Store) :
    ∃ users, (∀ write ∈ users, ∃ user, write.2 = Record.user user) ∧
      ((s.loadUsers authority).run reader).1 = s.putAll slot users := by
  obtain ⟨found, answered, -⟩ := steady.scan (userFilters authority)
  refine ⟨scanned .user found, ?_, ?_⟩
  · rintro ⟨address, record⟩ mem
    obtain ⟨data, -, ok⟩ := mem_scanned.1 mem
    exact Record.decode_user_eq_ok ok
  · rw [loadUsers, run_scanMatching answered]

/-- The accounts of the oracles named, with what each is to be read as. -/
def named (accounts : Address → Option Bytes) (oracles : List (Address × Oracle.Source)) :
    List (Address × RecordKind × Bytes) :=
  oracles.filterMap fun oracle =>
    (accounts oracle.1).map fun data => (oracle.1, .oracle oracle.2, data)

/-- Nothing read as an oracle is a market. -/
theorem isMarket_named {accounts : Address → Option Bytes} {oracles : List (Address × Oracle.Source)} :
    ∀ write ∈ decoded (named accounts oracles), write.2.isMarket = false := by
  rintro ⟨address, record⟩ mem
  obtain ⟨kind, bytes, listed, ok⟩ := mem_decoded.1 mem
  obtain ⟨oracle, -, found⟩ := List.mem_filterMap.1 listed
  obtain ⟨_, -, same⟩ := Option.map_eq_some_iff.1 found
  obtain ⟨-, rfl, -⟩ : _ ∧ _ ∧ _ := by simpa using same
  obtain ⟨price, -, rfl⟩ := Record.decode_oracle_eq_ok_iff.1 ok
  rfl

/-- What the keys' accounts hold, the keys that are never read left out. -/
def held (accounts : Address → Option Bytes) (program : Address) (keys : List RecordKey) :
    List (Address × Record) :=
  let keys := keys.filter fun key => !key.isQuote
  decoded (answered program keys (keys.map fun key => accounts (key.address program)))

theorem run_fetchMany {reader : Reader} {accounts : Address → Option Bytes} {slot : UInt64}
    (steady : reader.Steady accounts slot) (program : Address) (keys : List RecordKey) (s : Store) :
    (s.fetchMany program keys).run reader =
      (s.putAll slot (held accounts program keys), .ok (held accounts program keys).length) := by
  rw [fetchMany_eq, Query.run_fetch_ok (steady.several _)]
  simp only [Query.put, Query.count, Query.several, Stamped.map, List.map_map, Function.comp_def,
    held]

theorem held_oracles (program : Address) (accounts : Address → Option Bytes)
    {oracles : List (Address × Oracle.Source)} (set : ∀ oracle ∈ oracles, oracle.1 ≠ Address.unset) :
    held accounts program (oracles.map fun oracle => .oracle oracle.1 oracle.2) =
      decoded (named accounts oracles) := by
  have kept : (oracles.map fun oracle => RecordKey.oracle oracle.1 oracle.2).filter
      (fun key => !key.isQuote) = oracles.map fun oracle => .oracle oracle.1 oracle.2 := by
    refine List.filter_eq_self.2 fun key mem => ?_
    obtain ⟨oracle, listed, rfl⟩ := List.mem_map.1 mem
    simpa [RecordKey.isQuote] using set oracle listed
  rw [held, kept]
  congr 1
  clear set kept
  induction oracles with
  | nil => rfl
  | cons oracle rest ih =>
    simp only [answered, named, List.map_cons, List.zip_cons_cons, List.filterMap_cons] at ih ⊢
    rw [ih]
    rfl

theorem run_fetchMany_oracles {reader : Reader} {accounts : Address → Option Bytes} {slot : UInt64}
    (steady : reader.Steady accounts slot) (program : Address) (s : Store)
    {oracles : List (Address × Oracle.Source)} (set : ∀ oracle ∈ oracles, oracle.1 ≠ Address.unset) :
    (s.fetchMany program (oracles.map fun oracle => .oracle oracle.1 oracle.2)).run reader =
      (s.putAll slot (decoded (named accounts oracles)),
        .ok (decoded (named accounts oracles)).length) := by
  rw [run_fetchMany steady, held_oracles program accounts set]

/-- A load ends with the oracles of the markets it found, and then users. -/
theorem exists_of_load {reader : Reader} {accounts : Address → Option Bytes} {slot : UInt64}
    (steady : reader.Steady accounts slot) {program authority : Address} {s t : Store}
    (loaded : (s.load program authority).run reader = (t, .ok ())) :
    ∃ (u : Store) (users : List (Address × Record)),
      (∀ write ∈ users, ∃ user, write.2 = Record.user user) ∧
      t = (u.putAll slot (decoded (named accounts u.marketOracles))).putAll slot users := by
  obtain ⟨_, _, -, loaded⟩ := Fetch.run_andThen_ok loaded
  obtain ⟨_, _, -, loaded⟩ := Fetch.run_andThen_ok loaded
  obtain ⟨u, _, -, loaded⟩ := Fetch.run_andThen_ok loaded
  obtain ⟨v, _, fetched, loaded⟩ := Fetch.run_andThen_ok loaded
  obtain ⟨w, _, last, loaded⟩ := Fetch.run_andThen_ok loaded
  obtain ⟨users, onlyUsers, stored⟩ := run_loadUsers steady authority v
  have set : ∀ oracle ∈ u.marketOracles, oracle.1 ≠ Address.unset := fun oracle mem =>
    (mem_marketOracles.1 mem).1
  have oracles : v = u.putAll slot (decoded (named accounts u.marketOracles)) :=
    (congrArg Prod.fst (fetched.symm.trans (run_fetchMany_oracles steady program u set)))
  have same : w = t := congrArg Prod.fst loaded
  have stored : w = v.putAll slot users := (congrArg Prod.fst last).symm.trans stored
  exact ⟨u, users, onlyUsers, same ▸ oracles ▸ stored⟩

/-! ## Which price stays -/

/-- The sources under which stored markets name an oracle, in the order of `marketOracles`. -/
def sources (s : Store) (address : Address) : List Oracle.Source :=
  s.marketOracles.filterMap fun oracle => if oracle.1 = address then some oracle.2 else none

/-- What the account decodes to under each source that decodes it. -/
def pricesUnder (sources : List Oracle.Source) (data : Bytes) : List Oracle.PriceData :=
  sources.filterMap fun source => (Record.decodeOracle source data).toOption

theorem mem_pricesUnder {sources : List Oracle.Source} {data : Bytes} {price : Oracle.PriceData} :
    price ∈ pricesUnder sources data ↔
      ∃ source ∈ sources, Record.decodeOracle source data = .ok price := by
  simp only [pricesUnder, List.mem_filterMap]
  refine exists_congr fun source => and_congr_right fun _ => ?_
  cases Record.decodeOracle source data <;> simp [Except.toOption]

theorem pricesAt_named {accounts : Address → Option Bytes} {address : Address} {data : Bytes}
    (held : accounts address = some data) (oracles : List (Address × Oracle.Source)) :
    pricesAt address (decoded (named accounts oracles)) =
      pricesUnder (oracles.filterMap fun oracle => if oracle.1 = address then some oracle.2 else none)
        data := by
  simp only [pricesAt, decoded, named, pricesUnder, List.filterMap_filterMap]
  congr 1
  funext oracle
  by_cases same : oracle.1 = address
  · simp only [same, held, if_true, Option.map_some, Option.bind_some, Record.decode]
    cases Record.decodeOracle oracle.2 data <;>
      simp [Except.map, Except.toOption, Record.oracle?]
  · cases accounts oracle.1 with
    | none => simp [same]
    | some other =>
      cases decoded : Record.decodeOracle oracle.2 other <;>
        simp [same, Record.decode, decoded, Except.map, Except.toOption]

/-- After a load a named oracle has the price under the last source that decodes its account. -/
theorem get?_oracles_of_load {reader : Reader} {accounts : Address → Option Bytes} {slot : UInt64}
    (steady : reader.Steady accounts slot) {program authority : Address} {s t : Store}
    (loaded : (s.load program authority).run reader = (t, .ok ())) {address : Address} {data : Bytes}
    (held : accounts address = some data) {price : Oracle.PriceData}
    (last : (pricesUnder (t.sources address) data).getLast? = some price) :
    t.oracles.get? address = some ⟨price, slot⟩ := by
  obtain ⟨u, users, onlyUsers, rfl⟩ := exists_of_load steady loaded
  have oracles : SameMarkets u (u.putAll slot (decoded (named accounts u.marketOracles))) :=
    sameMarkets_putAll u slot isMarket_named
  have after := sameMarkets_putAll (u.putAll slot (decoded (named accounts u.marketOracles))) slot
    fun write mem => by
      obtain ⟨user, is⟩ := onlyUsers write mem
      rw [is]
      rfl
  have none : pricesAt address users = [] := by
    refine List.filterMap_eq_nil_iff.2 fun write mem => ?_
    obtain ⟨user, is⟩ := onlyUsers write mem
    simp [is, Record.oracle?]
  rw [get?_oracles_putAll, none, get?_oracles_putAll, pricesAt_named held]
  rw [sources, (oracles.trans after).marketOracles] at last
  simp only [List.getLast?_nil, last]

/-- Every stored market's oracle is named under the market's source. -/
theorem mem_sources {s : Store} {address : Address} {source : Oracle.Source} :
    source ∈ s.sources address ↔ (address, source) ∈ s.marketOracles := by
  simp only [sources, List.mem_filterMap, Option.ite_none_right_eq_some, Option.some.injEq]
  constructor
  · rintro ⟨oracle, mem, rfl, rfl⟩
    exact mem
  · exact fun mem => ⟨_, mem, rfl, rfl⟩

theorem mem_values {α : Type} {t : Table UInt16 α} {index : UInt16} {value : α}
    (h : t.get? index = some value) : value ∈ t.values :=
  List.mem_map.2 ⟨_, Table.mem_of_get? h, rfl⟩

theorem perpMarket_eq_ok {s : Store} {index : UInt16} {market : PerpMarket}
    (h : s.perpMarket index = .ok market) : ∃ m ∈ s.perpMarkets.values, m.value = market := by
  unfold perpMarket at h
  split at h
  · rename_i entry found
    exact ⟨entry, mem_values found, Except.ok.inj h⟩
  · cases h

theorem spotMarket_eq_ok {s : Store} {index : UInt16} {market : SpotMarket}
    (h : s.spotMarket index = .ok market) : ∃ m ∈ s.spotMarkets.values, m.value = market := by
  unfold spotMarket at h
  split at h
  · rename_i entry found
    exact ⟨entry, mem_values found, Except.ok.inj h⟩
  · cases h

/-- What a market sees of its oracle: the price under the last source that decodes the account,
which is the price of the market's own source if all that decode it agree. -/
structure Sees (s : Store) (address : Address) (data : Bytes) (own : Oracle.PriceData)
    (seen : Except Failure Oracle.PriceData) : Prop where
  last : ∃ price, (pricesUnder (s.sources address) data).getLast? = some price ∧ seen = .ok price
  agreed : (∀ source ∈ s.sources address, ∀ price,
    Record.decodeOracle source data = .ok price → price = own) → seen = .ok own

theorem sees_of_load {reader : Reader} {accounts : Address → Option Bytes} {slot : UInt64}
    (steady : reader.Steady accounts slot) {program authority : Address} {s t : Store}
    (loaded : (s.load program authority).run reader = (t, .ok ())) {address : Address}
    {source : Oracle.Source} (listed : (address, source) ∈ t.marketOracles) {data : Bytes}
    (held : accounts address = some data) {own : Oracle.PriceData}
    (decodes : Record.decodeOracle source data = .ok own) :
    t.Sees address data own (t.oraclePrice address) := by
  have given : own ∈ pricesUnder (t.sources address) data :=
    mem_pricesUnder.2 ⟨source, mem_sources.2 listed, decodes⟩
  obtain ⟨price, last⟩ : ∃ price, (pricesUnder (t.sources address) data).getLast? = some price :=
    ⟨_, List.getLast?_eq_some_getLast (List.ne_nil_of_mem given)⟩
  have seen : t.oraclePrice address = .ok price := by
    rw [oraclePrice, oracle?, if_neg (mem_marketOracles.1 listed).1,
      get?_oracles_of_load steady loaded held last]
  refine ⟨⟨price, last, seen⟩, fun agree => ?_⟩
  obtain ⟨source, named, ok⟩ := mem_pricesUnder.1 (List.mem_of_getLast? last)
  rw [seen, agree source named price ok]

end Store

open Store in
/-- After a load every stored market whose oracle is set, present and decodable under the
market's source has a price, that of the last source which decodes the account among those under
which stored markets name it. -/
theorem market_prices_of_load {reader : Reader} {accounts : Address → Option Bytes} {slot : UInt64}
    (steady : reader.Steady accounts slot) {program authority : Address} {s t : Store}
    (loaded : (s.load program authority).run reader = (t, .ok ())) :
    (∀ index market data own, t.perpMarket index = .ok market → market.oracle ≠ Address.unset →
      accounts market.oracle = some data →
      Record.decodeOracle market.oracleSource data = .ok own →
      t.Sees market.oracle data own (t.perpOraclePrice index)) ∧
    (∀ index market data own, t.spotMarket index = .ok market → market.oracle ≠ Address.unset →
      accounts market.oracle = some data →
      Record.decodeOracle market.oracleSource data = .ok own →
      t.Sees market.oracle data own (t.spotOraclePrice index)) := by
  constructor
  · intro index market data own stored set held decodes
    obtain ⟨m, mem, rfl⟩ := perpMarket_eq_ok stored
    have listed := mem_marketOracles.2 ⟨set, .inl ⟨m, mem, rfl, rfl⟩⟩
    have price : t.perpOraclePrice index = t.oraclePrice m.value.oracle := by
      rw [perpOraclePrice, stored]
      rfl
    exact price ▸ sees_of_load steady loaded listed held decodes
  · intro index market data own stored set held decodes
    obtain ⟨m, mem, rfl⟩ := spotMarket_eq_ok stored
    have listed := mem_marketOracles.2 ⟨set, .inr ⟨m, mem, rfl, rfl⟩⟩
    have price : t.spotOraclePrice index = t.oraclePrice m.value.oracle := by
      rw [spotOraclePrice, stored]
      rfl
    exact price ▸ sees_of_load steady loaded listed held decodes

/-! ## Two markets, two sources, one account -/

/-- The address whose bytes all are the number. -/
def plain (n : UInt8) : Address := ⟨Vector.replicate 32 n⟩

/-- A perp market whose oracle is the price feed at `plain 7`. -/
def feedMarket (index : UInt16) (source : Oracle.Source) : PerpMarket where
  pubkey := plain 1
  marketIndex := index
  quoteSpotMarketIndex := 0
  oracle := plain 7
  oracleSource := source
  name := Vector.replicate 32 0
  status := 0

/-- A feed at five. -/
def feedData : Bytes :=
  AccountType.encode .priceUpdate
    { writeAuthority := plain 0, verification := .full, feedId := Vector.replicate 32 0
      price := 5, conf := 1, exponent := 0, prevPublishTime := 0, publishTime := 0
      postedSlot := 3 }

/-- Market 0 reads the feed as it is and market 1 for a thousand units. -/
def feedLedger : Rehearsal.Ledger where
  accounts := ⟨[
    (Address.Place.address .state Address.unset, AccountType.encode .state
      { admin := plain 0, signer := plain 0, quoteAssetMint := plain 0, numberOfMarkets := 2
        numberOfSpotMarkets := 0, signerNonce := 0, exchangeStatus := 0 }),
    (plain 1, AccountType.encode .perpMarket (feedMarket 0 .pythPull)),
    (plain 2, AccountType.encode .perpMarket (feedMarket 1 .pyth1KPull)),
    (plain 7, feedData)]⟩

def feedLoad : Store × Except Failure Unit :=
  (({} : Store).load Address.unset Address.unset).run feedLedger.answer

def unitPrice : Oracle.PriceData := ⟨5000000, 1000000, 3, true, none⟩

def basketPrice : Oracle.PriceData := ⟨5000000000, 1000000000, 3, true, none⟩

theorem feedLedger_steady :
    Reader.Steady feedLedger.answer feedLedger.accounts.get? feedLedger.slot :=
  Rehearsal.Ledger.steady rfl rfl (by decide +kernel)

theorem feedData_read : feedLedger.accounts.get? (plain 7) = some feedData ∧
    Record.decodeOracle .pythPull feedData = .ok unitPrice := by
  decide +kernel

theorem feedLoad_facts : feedLoad.2 = .ok () ∧
    feedLoad.1.perpMarket 0 = .ok (feedMarket 0 .pythPull) ∧
    feedLoad.1.perpOraclePrice 0 = .ok basketPrice := by
  decide +kernel

theorem feedLoad_eq : feedLoad = (feedLoad.1, .ok ()) :=
  (Prod.eta feedLoad).symm.trans (congrArg (Prod.mk feedLoad.1) feedLoad_facts.1)

/-- Under its own source market 0 is at five; it sees five thousand. -/
theorem shared_oracle_other_price :
    Reader.Steady feedLedger.answer feedLedger.accounts.get? feedLedger.slot ∧
    feedLoad.2 = .ok () ∧ feedLoad.1.perpMarket 0 = .ok (feedMarket 0 .pythPull) ∧
    (feedMarket 0 .pythPull).oracle ≠ Address.unset ∧
    feedLedger.accounts.get? (feedMarket 0 .pythPull).oracle = some feedData ∧
    Record.decodeOracle .pythPull feedData = .ok unitPrice ∧
    feedLoad.1.perpOraclePrice 0 ≠ .ok unitPrice := by
  obtain ⟨ok, stored, seen⟩ := feedLoad_facts
  refine ⟨feedLedger_steady, ok, stored, by decide, feedData_read.1, feedData_read.2, ?_⟩
  rw [seen]
  decide

theorem market_prices_of_load_feed :
    Reader.Steady feedLedger.answer feedLedger.accounts.get? feedLedger.slot ∧
    feedLoad.2 = .ok () ∧ feedLoad.1.perpMarket 0 = .ok (feedMarket 0 .pythPull) ∧
    feedLoad.1.Sees (plain 7) feedData unitPrice (feedLoad.1.perpOraclePrice 0) :=
  ⟨feedLedger_steady, feedLoad_facts.1, feedLoad_facts.2.1,
    (market_prices_of_load feedLedger_steady feedLoad_eq).1 0 _ feedData unitPrice
      feedLoad_facts.2.1 (by decide) feedData_read.1 feedData_read.2⟩

end LedgerWatch
