import LedgerWatch.Proofs.Store.AllOrNothing

/-!
# Fetching in one read or one by one

Several keys are fetched in one read, or each by a read of its own. Against a ledger that does not
change both leave the same store, and the count of the one is the number of keys for which the
other gives a record, those left out that are never read (`fetchMany_eq_fetchEach`). This holds of
any keys: repeated ones, oracles named under several sources, absent and undecodable accounts.
-/

namespace LedgerWatch

namespace Store

/-- Fetches the keys one after another. -/
def fetchEach (program : Address) : List RecordKey → Store → Fetch (List (Option Record))
  | [], s => .done s []
  | key :: rest, s => (s.fetchNow program key).bind fun record s =>
    (s.fetchEach program rest).map fun records => record :: records

/-- How many of the keys that are read gave a record. -/
def hits (keys : List RecordKey) (results : List (Option Record)) : Nat :=
  (keys.zip results).countP fun (key, result) => !key.isQuote && result.isSome

section Held

variable {accounts : Address → Option Bytes} {program : Address} {key : RecordKey}
  {rest : List RecordKey}

theorem held_of_isQuote (quote : key.isQuote = true) :
    held accounts program (key :: rest) = held accounts program rest := by
  simp only [held, List.filter_cons, quote, Bool.not_true, Bool.false_eq_true, if_false]

theorem held_of_none (shown : key.isQuote = false) (absent : accounts (key.address program) = none) :
    held accounts program (key :: rest) = held accounts program rest := by
  simp only [held, List.filter_cons, shown, Bool.not_false, if_true, List.map_cons, answered,
    List.zip_cons_cons, List.filterMap_cons, absent, Option.map_none]

theorem held_of_some (shown : key.isQuote = false) {data : Bytes}
    (present : accounts (key.address program) = some data) : held accounts program (key :: rest) =
      decoded [(key.address program, key.kind, data)] ++ held accounts program rest := by
  simp only [held, List.filter_cons, shown, Bool.not_false, if_true, List.map_cons, answered,
    List.zip_cons_cons, List.filterMap_cons, present, Option.map_some]
  exact List.filterMap_append (l := [(key.address program, key.kind, data)])

end Held

section Steady

variable {reader : Reader} {accounts : Address → Option Bytes} {slot : UInt64} {program : Address}
  {key : RecordKey} {entry : Stamped Record}

theorem reads_iff_of_steady (steady : reader.Steady accounts slot) :
    key.Reads program reader entry ↔ entry.slot = slot ∧ ∃ data,
      accounts (key.address program) = some data ∧ Record.decode key.kind data = .ok entry.value := by
  simp only [RecordKey.Reads, steady.one, Except.ok.injEq, Stamped.mk.injEq]
  constructor
  · rintro ⟨data, ⟨present, rfl⟩, decoded⟩
    exact ⟨rfl, data, present, decoded⟩
  · rintro ⟨rfl, data, present, decoded⟩
    exact ⟨data, ⟨present, rfl⟩, decoded⟩

theorem held_of_reads (steady : reader.Steady accounts slot) (shown : key.isQuote = false)
    (reads : key.Reads program reader entry) (rest : List RecordKey) :
    held accounts program (key :: rest) =
      (key.address program, entry.value) :: held accounts program rest := by
  obtain ⟨-, data, present, reads⟩ := (reads_iff_of_steady steady).1 reads
  rw [held_of_some shown present, decoded_cons_of_ok reads]
  rfl

theorem held_of_not_reads (steady : reader.Steady accounts slot) (shown : key.isQuote = false)
    (unread : ∀ entry, ¬ key.Reads program reader entry) (rest : List RecordKey) :
    held accounts program (key :: rest) = held accounts program rest := by
  cases present : accounts (key.address program) with
  | none => exact held_of_none shown present
  | some data =>
    rw [held_of_some shown present]
    cases result : Record.decode key.kind data with
    | error fault =>
      rw [decoded_cons_of_error result]
      rfl
    | ok record =>
      exact absurd ((reads_iff_of_steady steady).2 ⟨rfl, data, present, result⟩)
        (unread ⟨record, slot⟩)

/-- One key more is fetched first, and the rest from the store that it leaves. -/
theorem run_fetchEach_cons (key : RecordKey) (rest : List RecordKey) (s : Store) :
    (s.fetchEach program (key :: rest)).run reader =
      let (s, record) := (s.fetchNow program key).run reader
      let (t, records) := (s.fetchEach program rest).run reader
      (t, record :: records) := by
  rw [fetchEach, Fetch.run_bind, Fetch.map, Fetch.run_bind]
  rfl

theorem run_fetchEach (steady : reader.Steady accounts slot) (program : Address)
    (keys : List RecordKey) (s : Store) : ∃ results,
      (s.fetchEach program keys).run reader = (s.putAll slot (held accounts program keys), results) ∧
      results.length = keys.length ∧
      hits keys results = (held accounts program keys).length := by
  induction keys generalizing s with
  | nil => exact ⟨[], rfl, rfl, rfl⟩
  | cons key rest ih =>
    rw [run_fetchEach_cons]
    by_cases quote : key.isQuote = true
    · obtain ⟨results, ran, length, count⟩ := ih s
      rw [run_fetchNow_of_isQuote quote, held_of_isQuote quote]
      refine ⟨some (.oracle Oracle.quotePrice) :: results, by simp only [ran], by simp [length], ?_⟩
      simp only [hits, List.zip_cons_cons, List.countP_cons, quote, Bool.not_true, Bool.false_and,
        Bool.false_eq_true, if_false, Nat.add_zero]
      exact count
    have shown : key.isQuote = false := Bool.eq_false_iff.2 quote
    by_cases read : ∃ entry, key.Reads program reader entry
    · obtain ⟨entry, reads⟩ := read
      obtain ⟨rfl, -⟩ := (reads_iff_of_steady steady).1 reads
      obtain ⟨results, ran, length, count⟩ :=
        ih (s.put (key.address program) entry.value entry.slot)
      rw [run_fetchNow_of_reads shown reads, held_of_reads steady shown reads]
      refine ⟨some entry.value :: results, ?_, by simp [length], ?_⟩
      · simp only [ran]
        rfl
      · simp only [hits, List.zip_cons_cons, List.countP_cons, shown, Bool.not_false,
          Option.isSome_some, Bool.and_self, if_true, List.length_cons]
        exact congrArg (· + 1) count
    · have unread := not_exists.1 read
      obtain ⟨results, ran, length, count⟩ := ih s
      rw [run_fetchNow_of_not_reads shown unread, held_of_not_reads steady shown unread]
      refine ⟨none :: results, by simp only [ran], by simp [length], ?_⟩
      simp only [hits, List.zip_cons_cons, List.countP_cons, Option.isSome_none, Bool.and_false,
        Bool.false_eq_true, if_false, Nat.add_zero]
      exact count

/-- Against a ledger that does not change a fetch of several keys in one read leaves the store that
fetching them one by one in their order leaves, and it counts those of them for which this gives a
record, except for keys that are never read. -/
theorem fetchMany_eq_fetchEach (steady : reader.Steady accounts slot) (program : Address)
    (keys : List RecordKey) (s : Store) : ∃ t results,
      (s.fetchEach program keys).run reader = (t, results) ∧ results.length = keys.length ∧
      (s.fetchMany program keys).run reader =
        (t, .ok ((keys.zip results).countP fun (key, result) => !key.isQuote && result.isSome)) := by
  obtain ⟨results, ran, length, count⟩ := run_fetchEach steady program keys s
  refine ⟨_, results, ran, length, ?_⟩
  rw [run_fetchMany steady, ← count]
  rfl

end Steady

/-- Keys of all sorts: the feed under two sources, around them the quote asset's price, a key named
twice, an absent account, and a market's account read as a price. -/
def feedKeys : List RecordKey :=
  [.oracle (plain 7) .pythPull, .oracle Address.unset .pythPull, .state,
    .oracle (plain 7) .pyth1KPull, .perpMarket 3, .oracle (plain 1) .pythPull, .state]

theorem fetchMany_eq_fetchEach_feed :
    Reader.Steady feedLedger.answer feedLedger.accounts.get? feedLedger.slot ∧ ∃ t results,
      (({} : Store).fetchEach Address.unset feedKeys).run feedLedger.answer = (t, results) ∧
      (({} : Store).fetchMany Address.unset feedKeys).run feedLedger.answer = (t, .ok 4) ∧
      t.oraclePrice (plain 7) = .ok basketPrice := by
  obtain ⟨t, results, each, -, many⟩ :=
    fetchMany_eq_fetchEach feedLedger_steady Address.unset feedKeys {}
  have four : ((({} : Store).fetchMany Address.unset feedKeys).run feedLedger.answer).2 = .ok 4 ∧
      ((({} : Store).fetchMany Address.unset feedKeys).run feedLedger.answer).1.oraclePrice
        (plain 7) = .ok basketPrice := by decide +kernel
  rw [many] at four
  refine ⟨feedLedger_steady, t, results, each, ?_, four.2⟩
  rw [many]
  exact congrArg _ four.1

end Store

end LedgerWatch
