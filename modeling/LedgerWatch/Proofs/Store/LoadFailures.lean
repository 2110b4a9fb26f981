import LedgerWatch.Proofs.Store.OneKey

/-!
# How a load ends

A load is a row of queries: the exchange state, the perp markets, the spot markets, the oracles
that the markets stored by then name, and the authority's users. It makes them in turn, each read
answered on its own, and ends with the first that fails; the store then is the one before the load
with just what the reads before it brought (`load_ends`). A failed read is reported for what it is,
but for the first one: a load that cannot read the state says that there is none, as it does when
the account is absent or does not decode (`load_reports_failures`).
-/

namespace LedgerWatch

namespace Fetch

/-- The requests made when the `n`-th is answered by the `n`-th reader. -/
def requests {α : Type} : (Nat → Reader) → Fetch α → List Request
  | _, done _ _ => []
  | readers, read store request resume =>
    request :: requests (fun n => readers (n + 1)) (resume (readers 0 request) store)

end Fetch

namespace Store

/-! ## Queries in a row -/

/-- Makes one query after another, each as the store by then has it, as long as they succeed. -/
def chain : List (Store → Query) → Store → Fetch (Except Failure Unit)
  | [], s => .done s (.ok ())
  | query :: rest, s => ((query s).fetch s).andThen fun _ t => chain rest t

/-- All the queries are answered, the first by the first reader, with these requests, and what they
bring leads from one store to the other. -/
inductive Answers : (Nat → Reader) → List (Store → Query) → Store → List Request → Store → Prop
  | nil {readers s} : Answers readers [] s [] s
  | cons {readers : Nat → Reader} {query : Store → Query} {rest s reply requests t}
      (answer : readers 0 (query s).request = .ok reply)
      (later : Answers (fun n => readers (n + 1)) rest ((query s).put s reply) requests t) :
      Answers readers (query :: rest) s ((query s).request :: requests) t

/-- How queries in a row end, after which requests: all are answered, or the first that is not ends
them with its error. -/
inductive ChainEnds (readers : Nat → Reader) (queries : List (Store → Query)) (s : Store) :
    List Request → Store × Except Failure Unit → Prop
  | through {requests t} (answers : Answers readers queries s requests t) :
      ChainEnds readers queries s requests (t, .ok ())
  | stops {before query after requests t e} (split : queries = before ++ query :: after)
      (answers : Answers readers before s requests t)
      (fails : readers before.length (query t).request = .error e) :
      ChainEnds readers queries s (requests ++ [(query t).request]) (t, .error (.ledger e))

section Chain

variable {readers : Nat → Reader} {queries rest : List (Store → Query)} {query : Store → Query}
  {s t : Store} {requests : List Request} {e : LedgerError}

theorem chain_cons (query : Store → Query) (rest : List (Store → Query)) (s : Store) :
    chain (query :: rest) s = .read s (query s).request fun outcome t =>
      match outcome with
      | .error e => .done t (.error (.ledger e))
      | .ok reply => chain rest ((query s).put t reply) := by
  rw [chain, Query.fetch, Fetch.andThen, Fetch.bind]
  congr 1
  funext outcome t
  cases outcome <;> rfl

theorem ChainEnds.cons {result : Store × Except Failure Unit} {reply : (query s).request.Reply}
    (answer : readers 0 (query s).request = .ok reply)
    (ends : ChainEnds (fun n => readers (n + 1)) rest ((query s).put s reply) requests result) :
    ChainEnds readers (query :: rest) s ((query s).request :: requests) result := by
  cases ends with
  | through answers => exact .through (.cons answer answers)
  | @stops before query' after _ _ _ split answers fails =>
    have split : query :: rest = (query :: before) ++ query' :: after :=
      congrArg (query :: ·) split
    exact .stops split (.cons answer answers) fails

theorem chain_ends (readers : Nat → Reader) (queries : List (Store → Query)) (s : Store) :
    ChainEnds readers queries s ((chain queries s).requests readers)
      ((chain queries s).runEach readers) := by
  induction queries generalizing readers s with
  | nil => exact .through .nil
  | cons query rest ih =>
    rw [chain_cons, Fetch.requests, Fetch.runEach]
    cases answer : readers 0 (query s).request with
    | error e =>
      have split : query :: rest = [] ++ query :: rest := rfl
      exact .stops split .nil answer
    | ok reply => exact .cons answer (ih _ _)

theorem Answers.length_eq (answers : Answers readers queries s requests t) :
    requests.length = queries.length := by
  induction answers with
  | nil => rfl
  | cons answer later ih => simp [ih]

theorem Answers.answered {n : Nat} {request : Request}
    (answers : Answers readers queries s requests t) (made : requests[n]? = some request) :
    ∃ reply, readers n request = .ok reply := by
  induction answers generalizing n with
  | nil => cases made
  | @cons _ _ _ _ reply _ _ answer later ih =>
    cases n with
    | zero =>
      obtain rfl := Option.some.inj made
      exact ⟨reply, answer⟩
    | succ n => exact ih made

end Chain

/-! ## The queries of a load -/

section Load

/-- The state's account, read alone. -/
def stateQuery (program : Address) : Query where
  request := .account (RecordKey.state.address program)
  accounts := Stamped.map fun data? =>
    data?.toList.map fun data => (RecordKey.state.address program, .state, data)

/-- The markets of both kinds, the oracles that the stored markets name, and the users. -/
def laterQueries (program authority : Address) : List (Store → Query) :=
  [fun _ => .scan [⟨0, AccountType.discriminator .perpMarket⟩] .perpMarket,
    fun _ => .scan [⟨0, AccountType.discriminator .spotMarket⟩] .spotMarket,
    fun s => .several program (s.marketOracles.map fun (address, source) => .oracle address source),
    fun _ => .scan (userFilters authority) .user]

def loadQueries (program authority : Address) : List (Store → Query) :=
  (fun _ => stateQuery program) :: laterQueries program authority

variable {readers : Nat → Reader} {program authority : Address} {s : Store}

theorem load_eq (program authority : Address) (s : Store) : s.load program authority =
    (s.loadState program).andThen fun _ t => chain (laterQueries program authority) t := by
  simp only [load, scanAll, loadUsers, scanMatching_eq, fetchMany_eq]
  rfl

/-- The state's account is read and holds the state. -/
def StateRead (reader : Reader) (program : Address) : Prop :=
  ∃ entry, RecordKey.state.Reads program reader entry

/-- How a load ends, after which requests. -/
inductive LoadEnds (readers : Nat → Reader) (program authority : Address) (s : Store) :
    List Request → Store × Except Failure Unit → Prop
  | loaded {requests t} (state : StateRead (readers 0) program)
      (answers : Answers readers (loadQueries program authority) s requests t) :
      LoadEnds readers program authority s requests (t, .ok ())
  | failed {before query after requests t e} (state : StateRead (readers 0) program)
      (split : loadQueries program authority = before ++ query :: after) (begun : before ≠ [])
      (answers : Answers readers before s requests t)
      (fails : readers before.length (query t).request = .error e) :
      LoadEnds readers program authority s (requests ++ [(query t).request])
        (t, .error (.ledger e))
  | stateless (noState : ¬ StateRead (readers 0) program) :
      LoadEnds readers program authority s [(stateQuery program).request]
        (s, .error (.notLoaded .exchangeState))

theorem put_stateQuery {reader : Reader} {entry : Stamped Record} {reply : Stamped (Option Bytes)}
    (reads : RecordKey.state.Reads program reader entry)
    (answer : reader (stateQuery program).request = .ok reply) (s : Store) :
    (stateQuery program).put s reply =
      s.put (RecordKey.state.address program) entry.value entry.slot := by
  obtain ⟨data, read, decodes⟩ := reads
  obtain rfl := Except.ok.inj (read.symm.trans answer)
  have one : decoded [(RecordKey.state.address program, .state, data)] =
      [(RecordKey.state.address program, entry.value)] := decoded_cons_of_ok decodes
  exact congrArg (s.putAll entry.slot) one

theorem loadState_andThen {β : Type} (next : ExchangeState → Store → Fetch (Except Failure β)) :
    (s.loadState program).andThen next = .read s (stateQuery program).request fun outcome t =>
      match t.absorb (RecordKey.state.address program) RecordKey.state.kind outcome with
      | (t, some (.state value)) => next value t
      | (t, _) => .done t (.error (.notLoaded .exchangeState)) := by
  simp only [loadState, fetchNow, RecordKey.isQuote, Bool.false_eq_true, if_false, Fetch.map,
    Fetch.andThen, Fetch.bind]
  refine congrArg (Fetch.read s (stateQuery program).request) (funext fun outcome => funext fun t => ?_)
  rcases t.absorb (RecordKey.state.address program) RecordKey.state.kind outcome with
    ⟨t, _ | (_ | _ | _ | _ | _)⟩ <;> rfl

/-- If the state is read, the load goes on as its queries do. -/
theorem ChainEnds.loadEnds {requests : List Request} {result : Store × Except Failure Unit}
    (state : StateRead (readers 0) program)
    (ends : ChainEnds readers (loadQueries program authority) s requests result) :
    LoadEnds readers program authority s requests result := by
  cases ends with
  | through answers => exact .loaded state answers
  | @stops before query after _ _ e split answers fails =>
    refine .failed state split ?_ answers fails
    rintro rfl
    obtain ⟨rfl, -⟩ := List.cons.inj split
    obtain ⟨entry, data, answer, -⟩ := state
    cases answer.symm.trans fails

theorem load_ends (readers : Nat → Reader) (program authority : Address) (s : Store) :
    LoadEnds readers program authority s ((s.load program authority).requests readers)
      ((s.load program authority).runEach readers) := by
  rw [load_eq, loadState_andThen, Fetch.requests, Fetch.runEach]
  by_cases state : StateRead (readers 0) program
  · have ⟨entry, reads⟩ := state
    have ⟨data, answer, decodes⟩ := reads
    obtain ⟨value, wrapped⟩ := exists_of_map_ok decodes
    have absorbed := absorb_of_reads reads s
    rw [← put_stateQuery reads answer, ← wrapped] at absorbed
    simp only [stateQuery, absorbed]
    have rest := chain_ends (fun n => readers (n + 1)) (laterQueries program authority)
      ((stateQuery program).put s ⟨some data, entry.slot⟩)
    have all : ChainEnds readers (loadQueries program authority) s _ _ := .cons answer rest
    exact all.loadEnds state
  · have absorbed := absorb_of_not_reads (not_exists.1 state) s
    simp only [stateQuery, absorbed]
    exact .stateless state

namespace LoadEnds

variable {requests : List Request} {result : Store × Except Failure Unit} {e : LedgerError}

/-- The last of the requests is the one that fails. -/
theorem of_fails {n : Nat} {request : Request}
    (ends : LoadEnds readers program authority s requests result)
    (made : requests[n]? = some request) (fails : readers n request = .error e) :
    requests.length = n + 1 ∧ (result.2 = .error (.ledger e) ↔ n ≠ 0) := by
  cases ends with
  | loaded state answers =>
    obtain ⟨reply, answer⟩ := answers.answered made
    cases fails.symm.trans answer
  | @failed before query after earlier t error state split begun answers failed =>
    have length := answers.length_eq
    rw [List.getElem?_append] at made
    split at made
    · obtain ⟨reply, answer⟩ := answers.answered made
      cases fails.symm.trans answer
    · have last : n = before.length := by
        have inside := (List.getElem?_eq_some_iff.1 made).1
        rw [List.length_singleton] at inside
        omega
      rw [last, length, Nat.sub_self] at made
      obtain rfl := Option.some.inj made
      subst last
      obtain rfl := Except.error.inj (failed.symm.trans fails)
      have begun : before.length ≠ 0 := fun none => begun (List.length_eq_zero_iff.1 none)
      exact ⟨by simp [length], iff_of_true rfl begun⟩
  | stateless noState =>
    obtain ⟨inside, -⟩ := List.getElem?_eq_some_iff.1 made
    obtain rfl : n = 0 := by simpa using inside
    exact ⟨rfl, iff_of_false (by simp) (not_not_intro rfl)⟩

theorem notLoaded_iff (ends : LoadEnds readers program authority s requests result) :
    result.2 = .error (.notLoaded .exchangeState) ↔ ¬ StateRead (readers 0) program := by
  cases ends with
  | loaded state => exact iff_of_false nofun (not_not_intro state)
  | failed state => exact iff_of_false (by simp) (not_not_intro state)
  | stateless noState => exact iff_of_true rfl noState

theorem ok_iff (ends : LoadEnds readers program authority s requests result) :
    result.2 = .ok () ↔ StateRead (readers 0) program ∧
      ∀ n request, requests[n]? = some request → ∃ reply, readers n request = .ok reply := by
  cases ends with
  | loaded state answers => exact iff_of_true rfl ⟨state, fun n request => answers.answered⟩
  | @failed before query after earlier t error state split begun answers failed =>
    refine iff_of_false nofun ?_
    rintro ⟨-, answered⟩
    obtain ⟨reply, answer⟩ := answered before.length (query t).request (by
      rw [← answers.length_eq, List.getElem?_concat_length])
    cases failed.symm.trans answer
  | stateless noState => exact iff_of_false nofun fun succeeds => noState succeeds.1

end LoadEnds

/-- Each read of a load is answered by its own reader. If one fails, no further one is made, and the
load fails with its error, unless it is the first, that of the state: then the load says that there
is no state. So it says whenever no state is read, whether the account cannot be read, is absent or
does not decode. It succeeds if the state is read and no read made fails. In every case the store is
the one before with just what the reads that succeeded brought, in their order. -/
theorem load_reports_failures (readers : Nat → Reader) (program authority : Address) (s : Store) :
    LoadEnds readers program authority s ((s.load program authority).requests readers)
      ((s.load program authority).runEach readers) ∧
    (∀ n request e, ((s.load program authority).requests readers)[n]? = some request →
      readers n request = .error e →
      ((s.load program authority).requests readers).length = n + 1 ∧
      (((s.load program authority).runEach readers).2 = .error (.ledger e) ↔ n ≠ 0)) ∧
    (((s.load program authority).runEach readers).2 = .error (.notLoaded .exchangeState) ↔
      ¬ StateRead (readers 0) program) ∧
    (((s.load program authority).runEach readers).2 = .ok () ↔
      StateRead (readers 0) program ∧ ∀ n request,
        ((s.load program authority).requests readers)[n]? = some request →
        ∃ reply, readers n request = .ok reply) := by
  have ends := load_ends readers program authority s
  exact ⟨ends, fun n request e made fails => ends.of_fails made fails, ends.notLoaded_iff,
    ends.ok_iff⟩

/-! ## A ledger that is down, in part or as a whole -/

def oneMarket : ExchangeState where
  admin := plain 0
  signer := plain 0
  quoteAssetMint := plain 0
  numberOfMarkets := 1
  numberOfSpotMarkets := 0
  signerNonce := 0
  exchangeStatus := 0

/-- Answers for the state and one perp market, and cannot read several accounts. -/
def unbatched : Reader
  | .account _ => .ok ⟨some (AccountType.encode .state oneMarket), 5⟩
  | .accounts _ => .error .unavailable
  | .scan filters =>
    if filters = [⟨0, AccountType.discriminator .perpMarket⟩] then
      .ok ⟨[(plain 1, AccountType.encode .perpMarket (feedMarket 0 .pythPull))], 5⟩
    else .ok ⟨[], 5⟩

/-- The oracles cannot be read. The load says so and does not go on to the users. -/
theorem load_reports_failures_oracles :
    ((({} : Store).load Address.unset Address.unset).requests fun _ => unbatched)[3]? =
      some (.accounts [plain 7]) ∧
    unbatched (.accounts [plain 7]) = .error .unavailable ∧
    ((({} : Store).load Address.unset Address.unset).requests fun _ => unbatched).length = 4 ∧
    ((({} : Store).load Address.unset Address.unset).runEach fun _ => unbatched).2 =
      .error (.ledger .unavailable) := by
  obtain ⟨-, reports, -⟩ :=
    load_reports_failures (fun _ => unbatched) Address.unset Address.unset {}
  have made : ((({} : Store).load Address.unset Address.unset).requests fun _ => unbatched)[3]? =
      some (.accounts [plain 7]) := by decide +kernel
  obtain ⟨length, reported⟩ := reports 3 _ .unavailable made rfl
  exact ⟨made, rfl, length, reported.2 (by decide)⟩

def unreachable : Reader := fun _ => .error .unavailable

/-- The state was loaded before. When it cannot be read again, the load says that there is none, not
that the ledger failed. -/
theorem unread_state_passes_for_missing :
    (({ state := some ⟨oneMarket, 5⟩ } : Store).load Address.unset Address.unset).requests
      (fun _ => unreachable) = [(stateQuery Address.unset).request] ∧
    unreachable (stateQuery Address.unset).request = .error .unavailable ∧
    (({ state := some ⟨oneMarket, 5⟩ } : Store).load Address.unset Address.unset).runEach
      (fun _ => unreachable) =
        ({ state := some ⟨oneMarket, 5⟩ }, .error (.notLoaded .exchangeState)) ∧
    ((({ state := some ⟨oneMarket, 5⟩ } : Store).load Address.unset Address.unset).runEach
      fun _ => unreachable).2 ≠ .error (.ledger .unavailable) :=
  ⟨rfl, rfl, rfl, nofun⟩

end Load

end Store

end LedgerWatch
