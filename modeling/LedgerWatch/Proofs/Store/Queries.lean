import LedgerWatch.Proofs.Store.Writes
import LedgerWatch.Store.Fetch

/-!
# Queries

Every read of several accounts is a query: one request, and what the accounts in its reply are to
be read as (`fetchMany_eq`, `scanMatching_eq`). A query whose read fails changes nothing. One that
is answered puts all that decodes, in the order of the reply and at its slot, and counts it
(`Query.run_fetch_ok`).
-/

namespace LedgerWatch

/-! ## Running a fetch -/

namespace Fetch

variable {α β : Type}

theorem run_done (reader : Reader) (s : Store) (value : α) : (done s value).run reader = (s, value) :=
  rfl

theorem run_read (reader : Reader) (s : Store) (request : Request)
    (resume : request.Outcome → Store → Fetch α) :
    (read s request resume).run reader = (resume (reader request) s).run reader :=
  rfl

theorem run_bind (reader : Reader) (fetch : Fetch α) (next : α → Store → Fetch β) :
    (fetch.bind next).run reader =
      (next (fetch.run reader).2 (fetch.run reader).1).run reader := by
  induction fetch with
  | done s value => rfl
  | read s request resume ih => exact ih _ _

/-- What follows ran only if the first part succeeded. -/
theorem run_andThen_ok {reader : Reader} {first : Fetch (Except Failure α)}
    {next : α → Store → Fetch (Except Failure β)} {t : Store} {value : β}
    (h : (first.andThen next).run reader = (t, .ok value)) :
    ∃ s a, first.run reader = (s, .ok a) ∧ (next a s).run reader = (t, .ok value) := by
  rw [andThen, run_bind] at h
  rcases ran : first.run reader with ⟨s, failure | a⟩
  · simp [ran, run_done] at h
  · exact ⟨s, a, rfl, by simpa only [ran] using h⟩

/-- What follows runs on what the first part gives. -/
theorem run_andThen {reader : Reader} {first : Fetch (Except Failure α)}
    {next : α → Store → Fetch (Except Failure β)} {s : Store} {a : α}
    (ran : first.run reader = (s, .ok a)) :
    (first.andThen next).run reader = (next a s).run reader := by
  rw [andThen, run_bind, ran]

end Fetch

namespace Store

/-! ## Queries and what they store -/

/-- A request, and what the accounts in its reply are to be read as. -/
structure Query where
  request : Request
  accounts : request.Reply → Stamped (List (Address × RecordKind × Bytes))

namespace Query

/-- The keys that are read from the ledger, each account at the place of its key. -/
def several (program : Address) (keys : List RecordKey) : Query :=
  let keys := keys.filter fun key => !key.isQuote
  ⟨.accounts (keys.map (·.address program)), Stamped.map (answered program keys)⟩

/-- All that passes the filters, as one kind of record. -/
def scan (filters : List Window) (kind : RecordKind) : Query :=
  ⟨.scan filters, Stamped.map (List.map fun entry => (entry.1, kind, entry.2))⟩

def put (q : Query) (s : Store) (reply : q.request.Reply) : Store :=
  s.putAll (q.accounts reply).slot (decoded (q.accounts reply).value)

def count (q : Query) (reply : q.request.Reply) : Nat :=
  (decoded (q.accounts reply).value).length

def fetch (q : Query) (s : Store) : Fetch (Except Failure Nat) :=
  .read s q.request fun outcome s =>
    match outcome with
    | .error e => .done s (.error (.ledger e))
    | .ok reply => .done (q.put s reply) (.ok (q.count reply))

end Query

theorem fetchMany_eq (program : Address) (keys : List RecordKey) (s : Store) :
    s.fetchMany program keys = (Query.several program keys).fetch s := by
  rw [fetchMany, Query.fetch]
  congr 1
  funext outcome s
  cases outcome with
  | error e => rfl
  | ok reply =>
    simp only [putDecoded_eq]
    rfl

theorem scanMatching_eq (filters : List Window) (kind : RecordKind) (s : Store) :
    s.scanMatching filters kind = (Query.scan filters kind).fetch s := by
  rw [scanMatching, Query.fetch]
  congr 1
  funext outcome s
  cases outcome with
  | error e => rfl
  | ok reply =>
    simp only [putDecoded_eq]
    rfl

namespace Query

variable {q : Query} {reader : Reader}

theorem run_fetch_error {error : LedgerError} (failed : reader q.request = .error error)
    (s : Store) : (q.fetch s).run reader = (s, .error (.ledger error)) := by
  rw [fetch, Fetch.run_read, failed, Fetch.run_done]

theorem run_fetch_ok {reply : q.request.Reply} (answered : reader q.request = .ok reply)
    (s : Store) : (q.fetch s).run reader = (q.put s reply, .ok (q.count reply)) := by
  rw [fetch, Fetch.run_read, answered, Fetch.run_done]

end Query

/-! ## Scans -/

/-- What a scan read as one kind of record. -/
def scanned (kind : RecordKind) (found : List (Address × Bytes)) : List (Address × Record) :=
  decoded (found.map fun entry => (entry.1, kind, entry.2))

theorem mem_scanned {kind : RecordKind} {found : List (Address × Bytes)} {address : Address}
    {record : Record} : (address, record) ∈ scanned kind found ↔
      ∃ data, (address, data) ∈ found ∧ Record.decode kind data = .ok record := by
  simp only [scanned, mem_decoded, List.mem_map, Prod.mk.injEq]
  constructor
  · rintro ⟨_, _, ⟨entry, mem, rfl, rfl, rfl⟩, ok⟩
    exact ⟨entry.2, mem, ok⟩
  · rintro ⟨data, mem, ok⟩
    exact ⟨kind, data, ⟨_, mem, rfl, rfl, rfl⟩, ok⟩

theorem run_scanMatching {reader : Reader} {filters : List Window} {slot : UInt64}
    {found : List (Address × Bytes)} (answered : reader (.scan filters) = .ok ⟨found, slot⟩)
    (kind : RecordKind) (s : Store) :
    (s.scanMatching filters kind).run reader =
      (s.putAll slot (scanned kind found), .ok (scanned kind found).length) := by
  rw [scanMatching_eq, Query.run_fetch_ok answered]
  rfl

end Store

end LedgerWatch
