import LedgerWatch.Proofs.Account.Windows
import LedgerWatch.Proofs.Store.OneKey

/-!
# Loads are all or nothing

If the read of a load fails, the store stays as it was. Else everything in the reply that decodes
is put, in its order and at its slot, and counted, and an account that does not decode is passed
over (`loads_all_or_nothing`). A scan for an authority's users stores no other's users as long as
the reader answers it with what passes its filters.
-/

namespace LedgerWatch

/-- Scans find only what passes their filters. -/
def Reader.Selects (reader : Reader) : Prop :=
  ∀ filters reply, reader (.scan filters) = .ok reply →
    ∀ entry ∈ reply.value, filters.all (·.accepts entry.2) = true

theorem Rehearsal.Ledger.selects (l : Rehearsal.Ledger) : Reader.Selects l.answer := by
  intro filters reply answered entry mem
  rw [answer] at answered
  split at answered
  · cases answered
  · cases answered
    exact (List.mem_filter.1 mem).2

namespace Store

/-! ## What accounts decode to -/

/-- The records that the accounts hold, in their order. What does not decode is passed over. -/
inductive Decodes : List (Address × RecordKind × Bytes) → List (Address × Record) → Prop
  | nil : Decodes [] []
  | record {address kind data record accounts writes}
      (reads : Record.decode kind data = .ok record) (rest : Decodes accounts writes) :
      Decodes ((address, kind, data) :: accounts) ((address, record) :: writes)
  | passed {address kind data fault accounts writes}
      (refused : Record.decode kind data = .error fault) (rest : Decodes accounts writes) :
      Decodes ((address, kind, data) :: accounts) writes

theorem decodes_iff {accounts : List (Address × RecordKind × Bytes)}
    {writes : List (Address × Record)} : Decodes accounts writes ↔ writes = decoded accounts := by
  constructor
  · intro decodes
    induction decodes with
    | nil => rfl
    | record reads rest ih => rw [decoded_cons_of_ok reads, ih]
    | passed refused rest ih => rw [decoded_cons_of_error refused, ih]
  · rintro rfl
    induction accounts with
    | nil => exact .nil
    | cons account rest ih =>
      obtain ⟨address, kind, data⟩ := account
      cases result : Record.decode kind data with
      | ok record =>
        rw [decoded_cons_of_ok result]
        exact .record result ih
      | error fault =>
        rw [decoded_cons_of_error result]
        exact .passed result ih

/-! ## All or nothing -/

/-- Either the read failed and nothing at all changed, or all that its reply holds was stored at its
slot, and counted. -/
structure AllOrNothing (answer : Except LedgerError (Stamped (List (Address × RecordKind × Bytes))))
    (s : Store) (result : Store × Except Failure Nat) : Prop where
  failed : ∀ failure, result.2 = .error failure →
    result.1 = s ∧ ∃ error, answer = .error error ∧ failure = .ledger error
  stored : ∀ n, result.2 = .ok n → ∃ reply writes, answer = .ok reply ∧
    Decodes reply.value writes ∧ result.1 = s.putAll reply.slot writes ∧ n = writes.length

theorem Query.allOrNothing (q : Query) (reader : Reader) (s : Store) :
    AllOrNothing ((reader q.request).map q.accounts) s ((q.fetch s).run reader) := by
  cases answer : reader q.request with
  | error e =>
    rw [run_fetch_error answer]
    refine ⟨?_, nofun⟩
    rintro failure ⟨⟩
    exact ⟨rfl, e, rfl, rfl⟩
  | ok reply =>
    rw [run_fetch_ok answer]
    refine ⟨nofun, ?_⟩
    rintro n ⟨⟩
    exact ⟨q.accounts reply, _, rfl, decodes_iff.2 rfl, rfl, rfl⟩

/-! ## The loaders -/

/-- Of accounts that passed the filters for an authority's users only its own users are read. -/
theorem authority_of_decodes {authority : Address} {found : List (Address × Bytes)}
    {writes : List (Address × Record)}
    (passed : ∀ entry ∈ found, (userFilters authority).all (·.accepts entry.2) = true)
    (decodes : Decodes (found.map fun entry => (entry.1, .user, entry.2)) writes) :
    ∀ write ∈ writes, ∃ user, write.2 = .user user ∧ user.authority = authority := by
  rintro ⟨address, record⟩ mem
  obtain ⟨data, among, reads⟩ := mem_scanned.1 (decodes_iff.1 decodes ▸ mem)
  cases decoded : AccountType.decode .user data with
  | error fault => simp [Record.decode, decoded, Except.map] at reads
  | ok user =>
    obtain rfl : record = .user user := by
      simpa [Record.decode, decoded, Except.map, eq_comm] using reads
    exact ⟨user, rfl, (userFilters_accept_iff decoded authority).1 (passed _ among)⟩

theorem fetchNow_unchanged (program : Address) (key : RecordKey) (reader : Reader) (s : Store)
    (none : ((s.fetchNow program key).run reader).2 = none) :
    ((s.fetchNow program key).run reader).1 = s := by
  have fetched := fetched_run program key reader s
  revert none
  generalize (s.fetchNow program key).run reader = result at fetched
  intro none
  cases fetched with
  | quote | record => cases none
  | nothing => rfl

/-- Whatever the ledger holds and however a read comes out, a read of one key that gives nothing
leaves the store as it was, and so does a read of several keys, a scan by type or a scan for an
authority's users that fails. If it succeeds, all accounts of the reply that decode are stored in
its order and at its slot, and nothing else; and of users only the authority's own, if the reader
finds only what passes the filters. -/
theorem loads_all_or_nothing (reader : Reader) (program authority : Address) (s : Store) :
    (∀ key, ((s.fetchNow program key).run reader).2 = none →
      ((s.fetchNow program key).run reader).1 = s) ∧
    (∀ keys, AllOrNothing
      ((reader (Query.several program keys).request).map (Query.several program keys).accounts) s
      ((s.fetchMany program keys).run reader)) ∧
    (∀ type kind, AllOrNothing
      ((reader (.scan [⟨0, AccountType.discriminator type⟩])).map
        (Stamped.map (List.map fun entry => (entry.1, kind, entry.2)))) s
      ((s.scanAll type kind).run reader)) ∧
    AllOrNothing
      ((reader (.scan (userFilters authority))).map
        (Stamped.map (List.map fun entry => (entry.1, .user, entry.2)))) s
      ((s.loadUsers authority).run reader) ∧
    (reader.Selects → ∀ reply writes, reader (.scan (userFilters authority)) = .ok reply →
      Decodes (reply.value.map fun entry => (entry.1, .user, entry.2)) writes →
      ∀ write ∈ writes, ∃ user, write.2 = .user user ∧ user.authority = authority) := by
  refine ⟨fun key => fetchNow_unchanged program key reader s, fun keys => ?_,
    fun type kind => ?_, ?_, ?_⟩
  · rw [fetchMany_eq]
    exact (Query.several program keys).allOrNothing reader s
  · rw [scanAll, scanMatching_eq]
    exact (Query.scan _ kind).allOrNothing reader s
  · rw [loadUsers, scanMatching_eq]
    exact (Query.scan _ .user).allOrNothing reader s
  · intro selects reply writes answered decodes
    exact authority_of_decodes (selects _ reply answered) decodes

/-! ## Users of two authorities, and bytes that are none -/

def userOf (authority : Address) (subAccount : UInt16) : User where
  authority
  delegate := plain 0
  name := Vector.replicate 32 0
  subAccountId := subAccount
  perpPositions := Vector.replicate 8 {}
  spotPositions := Vector.replicate 8 {}
  lastActiveSlot := 0

/-- Two users of one authority, between them a user cut short, and a user of another authority. -/
def mixedLedger : Rehearsal.Ledger where
  accounts := ⟨[
    (plain 10, AccountType.encode .user (userOf (plain 9) 0)),
    (plain 11, (AccountType.encode .user (userOf (plain 9) 1)).take 50),
    (plain 12, AccountType.encode .user (userOf (plain 5) 0)),
    (plain 13, AccountType.encode .user (userOf (plain 9) 2))]⟩

theorem loads_all_or_nothing_mixed : Reader.Selects mixedLedger.answer ∧ ∃ reply writes,
    mixedLedger.answer (.scan (userFilters (plain 9))) = .ok reply ∧ reply.value.length = 3 ∧
    Decodes (reply.value.map fun entry => (entry.1, .user, entry.2)) writes ∧ writes.length = 2 ∧
    ((({} : Store).loadUsers (plain 9)).run mixedLedger.answer).2 = .ok 2 ∧
    ∀ write ∈ writes, ∃ user, write.2 = .user user ∧ user.authority = plain 9 := by
  obtain ⟨-, -, -, -, only⟩ :=
    loads_all_or_nothing mixedLedger.answer Address.unset (plain 9) {}
  have selects := mixedLedger.selects
  refine ⟨selects, mixedLedger.reply (.scan (userFilters (plain 9))), decoded _, rfl,
    by decide +kernel, decodes_iff.2 rfl, by decide +kernel, by decide +kernel, ?_⟩
  exact only selects _ _ rfl (decodes_iff.2 rfl)

end Store

end LedgerWatch
