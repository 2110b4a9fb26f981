import LedgerWatch.Proofs.Account.Codec
import LedgerWatch.Proofs.Store.LastWriter
import LedgerWatch.Proofs.Store.Load

/-!
# The key that a fetch fills

A fetch reads the address that its key names, and stores what it reads under the key that the
record itself names. It fills that one key and changes no other (`Fetched`). The two keys are the
same for the state and for oracles. A market or a user can be misplaced, its account lying at the
address of another: then the key asked for stays as it was and that of the record is filled. So a
fetch fills the key asked for and no other exactly if what it reads is not misplaced
(`fetchNow_fills`).
-/

namespace LedgerWatch

namespace RecordKey

/-- The account of the key is read and holds the record. -/
def Reads (key : RecordKey) (program : Address) (reader : Reader) (entry : Stamped Record) : Prop :=
  ∃ data, reader (.account (key.address program)) = .ok ⟨some data, entry.slot⟩ ∧
    Record.decode key.kind data = .ok entry.value

/-- The record is that of another market or user than the key names. -/
def Misplaced : RecordKey → Record → Prop
  | perpMarket index, .perpMarket m => m.marketIndex ≠ index
  | spotMarket index, .spotMarket m => m.marketIndex ≠ index
  | user key, .user u => u.key ≠ key
  | _, _ => False

end RecordKey

namespace Store

/-- From one store to the other the key was filled, and no other key's entry changed. -/
structure Fills (key : RecordKey) (entry : Stamped Record) (before after : Store) : Prop where
  filled : after.get? key = some entry
  others : ∀ other : RecordKey, other.bare ≠ key.bare → after.get? other = before.get? other

/-- What a fetch of the key comes to. -/
inductive Fetched (program : Address) (key : RecordKey) (reader : Reader) (before : Store) :
    Store × Option Record → Prop
  /-- The quote asset's price is not read, and every store holds it. -/
  | quote (is : key.isQuote = true) (held : before.get? key = some ⟨.oracle Oracle.quotePrice, 0⟩) :
      Fetched program key reader before (before, some (.oracle Oracle.quotePrice))
  | nothing (shown : key.isQuote = false) (unread : ∀ entry, ¬ key.Reads program reader entry) :
      Fetched program key reader before (before, none)
  /-- The record goes under its own key. -/
  | record (shown : key.isQuote = false) {entry : Stamped Record} {after : Store}
      (reads : key.Reads program reader entry)
      (fills : Fills (entry.value.key (key.address program)) entry before after) :
      Fetched program key reader before (after, some entry.value)

/-- The key asked for is filled with what the fetch gives, at the slot of the read, and no other
key's entry changed. -/
structure FillsAsked (program : Address) (key : RecordKey) (reader : Reader) (before : Store)
    (result : Store × Option Record) : Prop where
  filled : ∀ record, result.2 = some record →
    ∃ slot, result.1.get? key = some ⟨record, slot⟩ ∧ (key.isQuote = false →
      ∃ data?, reader (.account (key.address program)) = .ok ⟨data?, slot⟩)
  others : ∀ other : RecordKey, other.bare ≠ key.bare → result.1.get? other = before.get? other

end Store

section Keys

variable {key other : RecordKey} {program : Address} {reader : Reader} {entry : Stamped Record}
  {record : Record} {data : Bytes} {address : Address}

theorem Record.bare_key (record : Record) (address : Address) :
    (record.key address).bare = record.key address := by
  cases record <;> rfl

theorem RecordKey.bare_bare (key : RecordKey) : key.bare.bare = key.bare := by
  cases key <;> rfl

theorem exists_of_map_ok {ε α β : Type} {f : α → β} {x : Except ε α} {b : β}
    (h : x.map f = .ok b) : ∃ a, f a = b := by
  cases x with
  | error e => cases h
  | ok a => exact ⟨a, Except.ok.inj h⟩

/-- What is read as the key's kind has the key for its own, unless it is misplaced. -/
theorem RecordKey.key_eq_bare_iff (read : Record.decode key.kind data = .ok record) :
    record.key (key.address program) = key.bare ↔ ¬ key.Misplaced record := by
  cases key with
  | state | oracle =>
    obtain ⟨value, rfl⟩ := exists_of_map_ok read
    exact iff_of_true rfl not_false
  | perpMarket | spotMarket | user =>
    obtain ⟨value, rfl⟩ := exists_of_map_ok read
    simp [Record.key, bare, Misplaced]

theorem RecordKey.isQuote_key (shown : key.isQuote = false)
    (read : Record.decode key.kind data = .ok record) :
    (record.key (key.address program)).isQuote = false := by
  cases key with
  | oracle =>
    obtain ⟨value, rfl⟩ := exists_of_map_ok read
    exact shown
  | state | perpMarket | spotMarket | user =>
    obtain ⟨value, rfl⟩ := exists_of_map_ok read
    rfl

namespace Store

/-- The source of an oracle does not matter to what is held for it. -/
theorem get?_bare (s : Store) (key : RecordKey) : s.get? key.bare = s.get? key := by
  cases key <;> rfl

theorem get?_of_isQuote (quote : key.isQuote = true) (s : Store) :
    s.get? key = some ⟨.oracle Oracle.quotePrice, 0⟩ := by
  cases key with
  | oracle address source =>
    obtain rfl : address = Address.unset := by simpa [RecordKey.isQuote] using quote
    exact get?_quote s source
  | state | perpMarket | spotMarket | user => cases quote

theorem get?_put_of_ne (apart : other.bare ≠ record.key address) (s : Store) (slot : UInt64) :
    (s.put address record slot).get? other = s.get? other := by
  by_cases quote : other.isQuote = true
  · rw [get?_of_isQuote quote, get?_of_isQuote quote]
  · rw [get?_put (Bool.eq_false_iff.2 quote), if_neg (Ne.symm apart)]

/-- A record fills its own key. -/
theorem fills_put (shown : (record.key address).isQuote = false) (s : Store) (slot : UInt64) :
    Fills (record.key address) ⟨record, slot⟩ s (s.put address record slot) where
  filled := by
    rw [get?_put shown, if_pos (record.bare_key address).symm]
  others other apart := by
    rw [record.bare_key] at apart
    exact get?_put_of_ne apart s slot

/-! ## Fetching -/

theorem absorb_of_reads (reads : key.Reads program reader entry) (s : Store) :
    s.absorb (key.address program) key.kind (reader (.account (key.address program))) =
      (s.put (key.address program) entry.value entry.slot, some entry.value) := by
  obtain ⟨data, answer, decoded⟩ := reads
  simp only [answer, absorb, decoded]

theorem absorb_of_not_reads (unread : ∀ entry, ¬ key.Reads program reader entry) (s : Store) :
    s.absorb (key.address program) key.kind (reader (.account (key.address program))) =
      (s, none) := by
  cases answer : reader (.account (key.address program)) with
  | error fault => rfl
  | ok reply =>
    obtain ⟨_ | data, slot⟩ := reply
    · rfl
    · cases decoded : Record.decode key.kind data with
      | error fault => simp only [absorb, decoded]
      | ok record => exact absurd ⟨data, answer, decoded⟩ (unread ⟨record, slot⟩)

theorem run_fetchNow_of_reads (shown : key.isQuote = false) (reads : key.Reads program reader entry)
    (s : Store) : (s.fetchNow program key).run reader =
      (s.put (key.address program) entry.value entry.slot, some entry.value) := by
  simp only [fetchNow, shown, Bool.false_eq_true, if_false, Fetch.run_read, Fetch.run_done,
    absorb_of_reads reads]

theorem run_fetchNow_of_not_reads (shown : key.isQuote = false)
    (unread : ∀ entry, ¬ key.Reads program reader entry) (s : Store) :
    (s.fetchNow program key).run reader = (s, none) := by
  simp only [fetchNow, shown, Bool.false_eq_true, if_false, Fetch.run_read, Fetch.run_done,
    absorb_of_not_reads unread]

theorem run_fetchNow_of_isQuote (quote : key.isQuote = true) (s : Store) :
    (s.fetchNow program key).run reader = (s, some (.oracle Oracle.quotePrice)) := by
  rw [fetchNow, if_pos quote, Fetch.run_done]

theorem fetched_run (program : Address) (key : RecordKey) (reader : Reader) (s : Store) :
    Fetched program key reader s ((s.fetchNow program key).run reader) := by
  by_cases quote : key.isQuote = true
  · rw [run_fetchNow_of_isQuote quote]
    exact .quote quote (get?_of_isQuote quote s)
  · have shown : key.isQuote = false := Bool.eq_false_iff.2 quote
    by_cases read : ∃ entry, key.Reads program reader entry
    · obtain ⟨entry, reads⟩ := read
      rw [run_fetchNow_of_reads shown reads]
      have ⟨_, _, decoded⟩ := reads
      exact .record shown reads (fills_put (RecordKey.isQuote_key shown decoded) s entry.slot)
    · have unread := not_exists.1 read
      rw [run_fetchNow_of_not_reads shown unread]
      exact .nothing shown unread

/-- As long as nothing misplaced is read, the key asked for is the one that is filled. -/
theorem Fetched.fillsAsked {s : Store} {result : Store × Option Record}
    (fetched : Fetched program key reader s result)
    (placed : ∀ entry, key.Reads program reader entry → ¬ key.Misplaced entry.value) :
    FillsAsked program key reader s result := by
  cases fetched with
  | quote is held =>
    refine ⟨?_, fun _ _ => rfl⟩
    rintro record ⟨⟩
    refine ⟨0, held, ?_⟩
    intro shown
    rw [is] at shown
    cases shown
  | nothing => exact ⟨nofun, fun _ _ => rfl⟩
  | @record shown entry after reads fills =>
    have ⟨data, answer, decoded⟩ := reads
    have own : entry.value.key (key.address program) = key.bare :=
      (RecordKey.key_eq_bare_iff decoded).2 (placed entry reads)
    have filled := fills.filled
    rw [own, get?_bare] at filled
    refine ⟨?_, ?_⟩
    · rintro record ⟨⟩
      exact ⟨entry.slot, filled, fun _ => ⟨some data, answer⟩⟩
    · intro other apart
      apply fills.others other
      rwa [own, key.bare_bare]

/-- What is misplaced does not fill the key asked for, which an empty store shows. -/
theorem not_misplaced_of_fillsAsked (reads : key.Reads program reader entry)
    (asked : FillsAsked program key reader {} ((({} : Store).fetchNow program key).run reader)) :
    ¬ key.Misplaced entry.value := by
  intro misplaced
  have shown : key.isQuote = false := by
    cases key with
    | oracle => exact misplaced.elim
    | _ => rfl
  have ⟨_, _, decoded⟩ := reads
  have apart : entry.value.key (key.address program) ≠ key.bare := by
    intro own
    exact (RecordKey.key_eq_bare_iff decoded).1 own misplaced
  rw [run_fetchNow_of_reads shown reads] at asked
  obtain ⟨slot, held, -⟩ := asked.filled entry.value rfl
  rw [get?_put shown, if_neg apart, get?_empty shown] at held
  cases held

end Store

end Keys

namespace Store

/-- A fetch stores what it reads under the key of the record, and changes no other key's entry; what
cannot be read changes nothing. It fills the key asked for, whatever the store, exactly if the
record it reads is not another market's or user's. -/
theorem fetchNow_fills (program : Address) (key : RecordKey) (reader : Reader) :
    (∀ s : Store, Fetched program key reader s ((s.fetchNow program key).run reader)) ∧
    ((∀ s : Store, FillsAsked program key reader s ((s.fetchNow program key).run reader)) ↔
      ∀ entry, key.Reads program reader entry → ¬ key.Misplaced entry.value) := by
  refine ⟨fetched_run program key reader, ?_, ?_⟩
  · intro asked entry reads
    exact not_misplaced_of_fillsAsked reads (asked {})
  · intro placed s
    exact (fetched_run program key reader s).fillsAsked placed

end Store

/-! ## A market at another one's address -/

/-- The account of perp market 3 holds market 5. -/
def misplacedLedger : Rehearsal.Ledger where
  accounts := ⟨[((RecordKey.perpMarket 3).address Address.unset,
    AccountType.encode .perpMarket (feedMarket 5 .pythPull))]⟩

theorem misplacedLedger_reads : (RecordKey.perpMarket 3).Reads Address.unset misplacedLedger.answer
    ⟨.perpMarket (feedMarket 5 .pythPull), 1⟩ := by
  refine ⟨AccountType.encode .perpMarket (feedMarket 5 .pythPull), ?_, ?_⟩
  · simp [misplacedLedger, Rehearsal.Ledger.answer, Rehearsal.Ledger.reply, Table.get?, Table.find]
  · have decoded := AccountType.decode_encode_append (t := .perpMarket) (feedMarket 5 .pythPull) []
    rw [List.append_nil] at decoded
    rw [RecordKey.kind, Record.decode, decoded]
    rfl

/-- The fetch gives a market and fills another key than the one asked for. -/
theorem misplaced_market_fills_other :
    ((({} : Store).fetchNow Address.unset (.perpMarket 3)).run misplacedLedger.answer).2 =
      some (.perpMarket (feedMarket 5 .pythPull)) ∧
    ((({} : Store).fetchNow Address.unset (.perpMarket 3)).run misplacedLedger.answer).1.get?
      (.perpMarket 3) = none ∧
    ((({} : Store).fetchNow Address.unset (.perpMarket 3)).run misplacedLedger.answer).1.get?
      (.perpMarket 5) = some ⟨.perpMarket (feedMarket 5 .pythPull), 1⟩ ∧
    ¬ Store.FillsAsked Address.unset (.perpMarket 3) misplacedLedger.answer {}
      ((({} : Store).fetchNow Address.unset (.perpMarket 3)).run misplacedLedger.answer) := by
  have run := Store.run_fetchNow_of_reads rfl misplacedLedger_reads {}
  rw [run]
  refine ⟨rfl, by decide, by decide, ?_⟩
  intro asked
  obtain ⟨slot, held, -⟩ := asked.filled _ rfl
  cases held

end LedgerWatch
