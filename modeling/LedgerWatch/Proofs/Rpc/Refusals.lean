import LedgerWatch.Proofs.Rpc.Stamps

/-!
# A read in batches is whole or refused

A read of several accounts calls for its batches in order and goes on as long as each is filled,
that is, answered with an entry for each of its addresses. The first batch that is not filled ends
the read with what is wrong with the answer (`run_getBatches_eq_error_iff`), and no later batch is
called for. So the read succeeds exactly if every batch is filled, and what it returns then is
place by place what the transport answered (`getMultipleAccounts_whole_or_refused`).
-/

namespace LedgerWatch

namespace Rpc

/-- The list in consecutive batches of at most a hundred, all of them full but for the last. -/
structure Batched (addresses : List Address) (batches : List (List Address)) : Prop where
  joined : batches.flatten = addresses
  bounded : ∀ batch ∈ batches, 0 < batch.length ∧ batch.length ≤ 100
  full : ∀ batch ∈ batches.dropLast, batch.length = 100

theorem batched_pieces (addresses : List Address) :
    Batched addresses (pieces batchSize addresses) where
  joined := flatten_pieces batchSize_pos addresses
  bounded _ mem := length_of_mem_pieces batchSize_pos mem
  full _ mem := length_of_mem_dropLast_pieces mem

/-- Why the answer to a batch does not fill it: there is none that can be read, or its entries are
more or fewer than the addresses. -/
inductive Refused (batch : List Address) :
    Option (Stamped (List (Option Account))) → LedgerError → Prop
  | unavailable : Refused batch none .unavailable
  | lengthMismatch {reply : Stamped (List (Option Account))}
      (other : reply.value.length ≠ batch.length) :
      Refused batch (some reply) (.lengthMismatch batch.length reply.value.length)

namespace Transport

variable (transport : Transport) (client : Client) (commitment : Commitment) (n : Nat)
  (batch : List Address)

/-- What is read of the `n`-th answer, if the batch is called for. -/
def reply? : Option (Stamped (List (Option Account))) :=
  transport.result? client.accounts? n (client.accountsCall commitment batch)

/-- The `n`-th answer has an entry for each address of the batch. -/
def Fills (reply : Stamped (List (Option Account))) : Prop :=
  transport.reply? client commitment n batch = some reply ∧ reply.value.length = batch.length

def Refuses (error : LedgerError) : Prop :=
  Refused batch (transport.reply? client commitment n batch) error

variable {transport client commitment n batch}

theorem Fills.not_refuses {reply : Stamped (List (Option Account))}
    (fills : transport.Fills client commitment n batch reply) (error : LedgerError) :
    ¬ transport.Refuses client commitment n batch error := by
  rw [Refuses, fills.1]
  intro refused
  cases refused with
  | lengthMismatch other => exact other fills.2

end Transport

variable {client : Client} {transport : Transport} {commitment : Commitment} {calls : List Call}
  {error : LedgerError} {batches : List (List Address)}

/-! ## Exchanges that fail -/

namespace Exchange

variable {α β ε : Type}

theorem run_andThen_eq_error_iff {first : Exchange (Except ε α)}
    {next : α → Exchange (Except ε β)} {e : ε} :
    (first.andThen next).run transport = (calls, .error e) ↔
      first.run transport = (calls, .error e) ∨
      ∃ made value more, first.run transport = (made, .ok value) ∧
        (next value).run (transport.after made.length) = (more, .error e) ∧
        calls = made ++ more := by
  rw [andThen, run_bind]
  rcases first.run transport with ⟨made, failure | value⟩
  · simp [run]
  · simp only [Prod.mk.injEq, reduceCtorEq, and_false, false_or, Except.ok.injEq]
    constructor
    · rintro ⟨rfl, fails⟩
      exact ⟨made, value, _, ⟨rfl, rfl⟩, Prod.ext rfl fails, rfl⟩
    · rintro ⟨_, _, more, ⟨rfl, rfl⟩, went, rfl⟩
      simp [went]

theorem run_request_eq_error_iff {call : Call} {read : Json → Option α} :
    (request call read).run transport = (calls, .error error) ↔
      calls = [call] ∧ transport.result? read 0 call = none ∧ error = .unavailable := by
  rw [request, run, Transport.result?]
  cases (transport 0 call).bind read with
  | none => simp [run, eq_comm]
  | some value => simp [run]

end Exchange

theorem run_getBatch_eq_error_iff {batch : List Address} :
    (getBatch client commitment batch).run transport = (calls, .error error) ↔
      calls = [client.accountsCall commitment batch] ∧
        transport.Refuses client commitment 0 batch error := by
  rw [getBatch_eq, Exchange.run_andThen_eq_error_iff]
  simp only [Exchange.run_request_eq_ok_iff, Exchange.run_request_eq_error_iff,
    Transport.Refuses, Transport.reply?]
  constructor
  · rintro (⟨rfl, unread, rfl⟩ | ⟨_, reply, more, ⟨rfl, read⟩, checked, rfl⟩)
    · rw [unread]
      exact ⟨rfl, .unavailable⟩
    · rw [read]
      split at checked
      · cases checked
      · rename_i other
        cases checked
        exact ⟨rfl, .lengthMismatch other⟩
  · rintro ⟨rfl, refuses⟩
    cases read : transport.result? client.accounts? 0 (client.accountsCall commitment batch) with
    | none =>
      rw [read] at refuses
      cases refuses
      exact .inl ⟨rfl, rfl, rfl⟩
    | some reply =>
      rw [read] at refuses
      cases refuses with
      | lengthMismatch other =>
        exact .inr ⟨_, reply, [], ⟨rfl, rfl⟩, by rw [if_neg other]; rfl, rfl⟩

/-! ## The batch at which a read stops -/

/-- The `n`-th batch is the first that is not filled. -/
structure StopsAt (client : Client) (transport : Transport) (commitment : Commitment)
    (batches : List (List Address)) (n : Nat) (error : LedgerError) : Prop where
  filled : ∀ m < n, ∀ batch, batches[m]? = some batch →
    ∃ reply, transport.Fills client commitment m batch reply
  refused : ∃ batch, batches[n]? = some batch ∧ transport.Refuses client commitment n batch error

theorem not_stopsAt_nil {n : Nat} : ¬ StopsAt client transport commitment [] n error := by
  rintro ⟨-, batch, none, -⟩
  cases none

theorem stopsAt_cons {batch : List Address} {rest : List (List Address)} {n : Nat} :
    StopsAt client transport commitment (batch :: rest) n error ↔
      n = 0 ∧ transport.Refuses client commitment 0 batch error ∨
      ∃ m reply, n = m + 1 ∧ transport.Fills client commitment 0 batch reply ∧
        StopsAt client (transport.after 1) commitment rest m error := by
  cases n with
  | zero =>
    constructor
    · rintro ⟨-, _, first, refused⟩
      obtain rfl := Option.some.inj first
      exact .inl ⟨rfl, refused⟩
    · rintro (⟨-, refused⟩ | ⟨_, _, later, -⟩)
      · exact ⟨fun m earlier => absurd earlier m.not_lt_zero, batch, rfl, refused⟩
      · cases later
  | succ n =>
    constructor
    · rintro ⟨filled, refused⟩
      obtain ⟨reply, fills⟩ := filled 0 (Nat.succ_pos n) batch rfl
      refine .inr ⟨n, reply, rfl, fills, ?_, refused⟩
      exact fun m earlier => filled (m + 1) (Nat.succ_lt_succ earlier)
    · rintro (⟨first, -⟩ | ⟨_, reply, same, fills, filled, refused⟩)
      · cases first
      · obtain rfl := Nat.succ.inj same
        refine ⟨fun m earlier other at_m => ?_, refused⟩
        cases m with
        | zero =>
          obtain rfl := Option.some.inj at_m
          exact ⟨reply, fills⟩
        | succ m => exact filled m (Nat.lt_of_succ_lt_succ earlier) other at_m

/-- A read in batches fails exactly if it stops at one of them, or has none and learns no slot. -/
theorem run_getBatches_eq_error_iff {accounts : List (Option Account)} {slot? : Option UInt64} :
    (getBatches client commitment batches accounts slot?).run transport = (calls, .error error) ↔
      (batches = [] ∧ slot? = none ∧ calls = [client.slotCall commitment] ∧
        transport.result? client.slot? 0 (client.slotCall commitment) = none ∧
        error = .unavailable) ∨
      ∃ n, StopsAt client transport commitment batches n error ∧
        calls = (batches.take (n + 1)).map (client.accountsCall commitment) := by
  induction batches generalizing transport accounts slot? calls with
  | nil =>
    simp only [not_stopsAt_nil, false_and, exists_false, or_false, true_and]
    cases slot? with
    | some slot => simp [getBatches, Exchange.run]
    | none =>
      rw [getBatches, Exchange.run_andThen_eq_error_iff]
      simp only [getSlot, Exchange.run_request_eq_error_iff, Exchange.run, Prod.mk.injEq,
        reduceCtorEq, and_false, false_and, exists_false, or_false, true_and]
  | cons batch rest ih =>
    rw [getBatches, Exchange.run_andThen_eq_error_iff]
    simp only [run_getBatch_eq_error_iff, run_getBatch_eq_ok_iff, ih, stopsAt_cons, reduceCtorEq,
      false_and, and_false, false_or]
    constructor
    · rintro (⟨rfl, refuses⟩ | ⟨_, reply, more, ⟨rfl, fills⟩, ⟨n, stops, rfl⟩, rfl⟩)
      · exact ⟨0, .inl ⟨rfl, refuses⟩, rfl⟩
      · exact ⟨n + 1, .inr ⟨n, reply, rfl, fills, stops⟩, rfl⟩
    · rintro ⟨_, ⟨rfl, refuses⟩ | ⟨n, reply, rfl, fills, stops⟩, rfl⟩
      · exact .inl ⟨rfl, refuses⟩
      · exact .inr ⟨_, reply, _, ⟨rfl, fills⟩, ⟨n, stops, rfl⟩, rfl⟩

/-! ## The whole read -/

theorem Answered.fills {replies : List (Stamped (List (Option Account)))} {n : Nat}
    {batch : List Address} (answered : Answered client transport commitment batches replies)
    (at_n : batches[n]? = some batch) :
    ∃ reply, transport.Fills client commitment n batch reply := by
  obtain ⟨reply, replied, answer⟩ := answered.answer n batch at_n
  have lengths := congrArg (·[n]?) answered.aligned
  simp only [List.getElem?_map, at_n, replied, Option.map_some, Option.some.injEq] at lengths
  exact ⟨reply, answer, lengths⟩

variable {addresses : List Address}

theorem run_getMultipleAccounts_eq_error_iff :
    (getMultipleAccounts commitment addresses client).run transport = (calls, .error error) ↔
      (addresses = [] ∧ calls = [client.slotCall commitment] ∧
        transport.result? client.slot? 0 (client.slotCall commitment) = none ∧
        error = .unavailable) ∨
      ∃ n, StopsAt client transport commitment (pieces batchSize addresses) n error ∧
        calls =
          ((pieces batchSize addresses).take (n + 1)).map (client.accountsCall commitment) := by
  rw [getMultipleAccounts, run_getBatches_eq_error_iff, pieces_eq_nil_iff batchSize_pos]
  simp only [true_and]

/-- A read succeeds exactly if all its batches are filled, and without any if the slot is given. -/
theorem exists_run_eq_ok_iff :
    (∃ calls reply,
      (getMultipleAccounts commitment addresses client).run transport = (calls, .ok reply)) ↔
      (∀ n batch, (pieces batchSize addresses)[n]? = some batch →
        ∃ part, transport.Fills client commitment n batch part) ∧
      (addresses = [] →
        ∃ slot, transport.result? client.slot? 0 (client.slotCall commitment) = some slot) := by
  constructor
  · rintro ⟨calls, reply, ran⟩
    obtain ⟨replies, answered, -⟩ := run_getMultipleAccounts.1 ran
    refine ⟨fun n batch at_n => answered.fills at_n, ?_⟩
    rintro rfl
    exact ⟨_, (run_getMultipleAccounts_nil ran).2⟩
  · rintro ⟨filled, current⟩
    rcases ran : (getMultipleAccounts commitment addresses client).run transport with
      ⟨calls, error | reply⟩
    · exfalso
      rcases run_getMultipleAccounts_eq_error_iff.1 ran with
        ⟨empty, -, unread, -⟩ | ⟨n, ⟨-, batch, at_n, refuses⟩, -⟩
      · obtain ⟨slot, read⟩ := current empty
        rw [unread] at read
        cases read
      · obtain ⟨part, fills⟩ := filled n batch at_n
        exact fills.not_refuses error refuses
    · exact ⟨calls, reply, rfl⟩

theorem asks_of_run (conforms : client.Conforms) {reply : Stamped (List (Option Account))}
    (ran : (getMultipleAccounts commitment addresses client).run transport = (calls, .ok reply)) :
    Asks calls (if addresses = [] then [.slot]
      else (pieces batchSize addresses).map .accounts) := by
  split
  · rename_i empty
    subst empty
    obtain ⟨rfl, -⟩ := run_getMultipleAccounts_nil ran
    exact conforms.asks_slotCall commitment
  · rename_i nonempty
    obtain ⟨rfl, -⟩ := isLowest_of_run conforms nonempty ran
    exact conforms.asks_accountsCall commitment _

/-- Whatever the transport does, a read of some accounts by a conforming client asks for them in
consecutive batches of at most a hundred. It succeeds exactly if each batch is answered with an
entry for each of its addresses, and without any address if the slot is given; then it has asked for
all of them, and returns for each address, in order, what the client makes of the entry at the
address's place in the answer. Else it ends at the first batch that is not answered so, with what is
wrong, and has asked for none of those after it. -/
theorem getMultipleAccounts_whole_or_refused (conforms : client.Conforms) (transport : Transport)
    (commitment : Commitment) (addresses : List Address) : ∃ batches, Batched addresses batches ∧
      ((∃ calls reply,
        (getMultipleAccounts commitment addresses client).run transport = (calls, .ok reply)) ↔
          (∀ n batch, batches[n]? = some batch →
            ∃ part, transport.Fills client commitment n batch part) ∧
          (addresses = [] → ∃ slot,
            transport.result? client.slot? 0 (client.slotCall commitment) = some slot)) ∧
      (∀ calls reply,
        (getMultipleAccounts commitment addresses client).run transport = (calls, .ok reply) →
          Asks calls (if addresses = [] then [.slot] else batches.map .accounts) ∧
          reply.value.length = addresses.length ∧
          ∀ i address account, addresses[i]? = some address → reply.value[i]? = some account →
            ServedAt client transport calls (i / 100) (i % 100) address account) ∧
      (∀ calls error,
        (getMultipleAccounts commitment addresses client).run transport = (calls, .error error) ↔
          (addresses = [] ∧ calls = [client.slotCall commitment] ∧ Asks calls [.slot] ∧
            transport.result? client.slot? 0 (client.slotCall commitment) = none ∧
            error = .unavailable) ∨
          ∃ n, StopsAt client transport commitment batches n error ∧
            calls = (batches.take (n + 1)).map (client.accountsCall commitment) ∧
            Asks calls ((batches.take (n + 1)).map .accounts)) := by
  refine ⟨pieces batchSize addresses, batched_pieces addresses, exists_run_eq_ok_iff, ?_, ?_⟩
  · intro calls reply ran
    exact ⟨asks_of_run conforms ran, length_of_run ran, fun i address account asked given =>
      servedAt_of_run conforms ran asked given⟩
  · intro calls error
    rw [run_getMultipleAccounts_eq_error_iff]
    constructor
    · rintro (⟨empty, rfl, unread, rfl⟩ | ⟨n, stops, rfl⟩)
      · exact .inl ⟨empty, rfl, conforms.asks_slotCall commitment, unread, rfl⟩
      · exact .inr ⟨n, stops, rfl, conforms.asks_accountsCall commitment _⟩
    · rintro (⟨empty, made, -, unread, failed⟩ | ⟨n, stops, made, -⟩)
      · exact .inl ⟨empty, made, unread, failed⟩
      · exact .inr ⟨n, stops, made⟩

/-- The hundred-and-first account is the only one in the second batch, whose answer has it in
compressed form. -/
theorem getMultipleAccounts_whole_or_refused_moving :
    movingRead = (movingRead.1, .ok movingReply) ∧
    (∃ first second, Batched (List.replicate 101 .unset) [first, second] ∧
      Asks movingRead.1 [.accounts first, .accounts second]) ∧
    ServedAt (.standard inflateEmpty) movingNode movingRead.1 1 0 .unset
      (some ⟨1, [], .unset, false, 0⟩) := by
  obtain ⟨batches, batched, -, whole, -⟩ := getMultipleAccounts_whole_or_refused
    (Client.standard_conforms inflateEmpty) movingNode .confirmed (List.replicate 101 .unset)
  obtain ⟨asks, -, place⟩ := whole _ _ movingRead_eq
  rw [if_neg (by decide)] at asks
  have two : batches.length = 2 := by
    have made : movingRead.1.length = 2 := by decide +kernel
    have same := congrArg List.length asks
    simp only [List.length_map, made] at same
    exact same.symm
  obtain ⟨first, second, rfl⟩ := List.length_eq_two.1 two
  exact ⟨movingRead_eq, ⟨first, second, batched, asks⟩, place 100 .unset _ (by decide) (by decide)⟩

end Rpc

end LedgerWatch
