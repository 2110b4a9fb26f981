import LedgerWatch.Proofs.Rpc.Batches
import LedgerWatch.Proofs.Rpc.Client

/-!
# No account is stamped fresher than it is

Replies name in their context the slot at which they were served, except for scans, before which
the slot is asked for, and a conforming client passes that slot on. Against a transport whose slots
never go back, every account that a read returns was served at the slot that the read reports or
later (`slot_le_served`); a read in batches reports the lowest of their slots. What is served for an
address is what the client makes of the entry at its place in the answer (`ServedAt`).
-/

namespace LedgerWatch.Rpc

namespace Transport

/-- The `n`-th answer as a value in its context. -/
def envelope? (transport : Transport) (n : Nat) (call : Call) : Option (Stamped Json) :=
  transport.result? (stamped? some) n call

/-- The slot that the context of the `n`-th answer names. -/
def context? (transport : Transport) (n : Nat) (call : Call) : Option UInt64 :=
  (transport.envelope? n call).map Stamped.slot

/-- The values of the `n`-th answer, which is a list in its context. -/
def entries? (transport : Transport) (n : Nat) (call : Call) : Option (List Json) :=
  (transport.envelope? n call).bind fun envelope => envelope.value.items?

/-- The transport serves its `n`-th call at the slot `clock n`, and these slots never go back: a
context names the slot of its reply, and a call for the slot is answered with it. -/
structure Timed (transport : Transport) (clock : Nat → UInt64) : Prop where
  forward : ∀ {m n}, m ≤ n → clock m ≤ clock n
  context : ∀ {n call slot}, transport.context? n call = some slot → slot = clock n
  current : ∀ {n call slot}, call.query? = some .slot →
    transport.result? Json.u64? n call = some slot → slot = clock n

end Transport

variable {client : Client} {transport : Transport} {clock : Nat → UInt64} {commitment : Commitment}
  {calls : List Call} {n : Nat}

/-! ## What a conforming client returns -/

/-- A value read in its context is that value, read, under the context's slot. -/
theorem exists_envelope_of_stamped? {α : Type} {read : Json → Option α} {json : Json}
    {reply : Stamped α} (value : stamped? read json = some reply) :
    ∃ content, stamped? some json = some ⟨content, reply.slot⟩ ∧
      read content = some reply.value := by
  obtain ⟨fields, named, value⟩ := Option.bind_eq_some_iff.1 value
  rw [stamped?, named]
  split at value
  · obtain ⟨content, given, value⟩ := Option.bind_eq_some_iff.1 value
    obtain ⟨slot, context, value⟩ := Option.bind_eq_some_iff.1 value
    obtain rfl := Option.some.inj value
    exact ⟨_, by simp [context], given⟩
  · cases value

namespace Client.Conforms

variable {call : Call}

theorem exists_value (conforms : client.Conforms) {reply : Stamped (Option Account)}
    (answer : transport.result? client.account? n call = some reply) :
    ∃ content, transport.envelope? n call = some ⟨content, reply.slot⟩ ∧
      client.entry? content = some reply.value := by
  obtain ⟨result, given, answer⟩ := Option.bind_eq_some_iff.1 answer
  rw [Transport.envelope?, Transport.result?, given, Option.bind_some]
  exact exists_envelope_of_stamped? (conforms.account answer)

theorem exists_entries (conforms : client.Conforms) {reply : Stamped (List (Option Account))}
    (answer : transport.result? client.accounts? n call = some reply) :
    transport.context? n call = some reply.slot ∧ ∃ items, transport.entries? n call = some items ∧
      items.mapM client.entry? = some reply.value := by
  obtain ⟨result, given, answer⟩ := Option.bind_eq_some_iff.1 answer
  obtain ⟨content, envelope, read⟩ := exists_envelope_of_stamped? (conforms.accounts answer)
  obtain ⟨items, listed, read⟩ := Option.bind_eq_some_iff.1 read
  rw [Transport.context?, Transport.entries?, Transport.envelope?, Transport.result?, given,
    Option.bind_some, envelope]
  exact ⟨rfl, items, listed, read⟩

end Client.Conforms

/-- What is read of a list at a place is read of the entry there. -/
theorem getElem?_of_mapM {α β : Type} {read : α → Option β} {items : List α} {values : List β}
    (all : items.mapM read = some values) (i : Nat) : values[i]? = items[i]?.bind read := by
  induction items generalizing values i with
  | nil =>
    obtain rfl := Option.some.inj all
    simp
  | cons item rest ih =>
    rw [List.mapM_cons] at all
    obtain ⟨first, read_first, all⟩ := Option.bind_eq_some_iff.1 all
    obtain ⟨more, read_more, all⟩ := Option.bind_eq_some_iff.1 all
    obtain rfl := Option.some.inj all
    cases i with
    | zero => exact read_first.symm
    | succ i => exact ih read_more i

/-- The `n`-th of the calls made asks for several accounts, at place `i` for that at the address,
and this is what the client makes of the entry at that place in the answer. -/
inductive ServedAt (client : Client) (transport : Transport) (calls : List Call) (n i : Nat) :
    Address → Option Account → Prop
  | intro {call batch items address account} (made : calls[n]? = some call)
      (asks : call.query? = some (.accounts batch)) (asked : batch[i]? = some address)
      (answer : transport.entries? n call = some items)
      (given : items[i]?.bind client.entry? = some account) :
      ServedAt client transport calls n i address account

/-- The `n`-th of the calls made asks for the account at an address, alone, with others or by a
scan, and this is what the client makes of the transport's answer, none if there is no account. -/
inductive Served (client : Client) (transport : Transport) (calls : List Call) (n : Nat) :
    Address → Option Account → Prop
  | alone {call address envelope account} (made : calls[n]? = some call)
      (asks : call.query? = some (.account address))
      (answer : transport.envelope? n call = some envelope)
      (given : client.entry? envelope.value = some account) :
      Served client transport calls n address account
  | together {i address account} (place : ServedAt client transport calls n i address account) :
      Served client transport calls n address account
  | found {call program filters accounts address account} (made : calls[n]? = some call)
      (asks : call.query? = some (.scan program filters))
      (answer : transport.result? client.scan? n call = some accounts)
      (listed : (address, account) ∈ accounts) :
      Served client transport calls n address (some account)

/-- One of the calls made named this slot in its context, and none of them a lower one. -/
structure IsLowest (transport : Transport) (calls : List Call) (slot : UInt64) : Prop where
  named : ∃ n call, calls[n]? = some call ∧ transport.context? n call = some slot
  least : ∀ n call, calls[n]? = some call →
    ∃ other, transport.context? n call = some other ∧ slot ≤ other

namespace Answered

variable {batches : List (List Address)} {replies : List (Stamped (List (Option Account)))}
  {slot : UInt64}

theorem length_eq (answered : Answered client transport commitment batches replies) :
    replies.length = batches.length := by
  simpa using congrArg List.length answered.aligned

/-- The reply at a place is what the call with the batch at that place was answered with. -/
theorem of_getElem? (answered : Answered client transport commitment batches replies)
    {reply : Stamped (List (Option Account))} (at_n : replies[n]? = some reply) :
    ∃ batch, batches[n]? = some batch ∧
      transport.result? client.accounts? n (client.accountsCall commitment batch) = some reply := by
  obtain ⟨inside, -⟩ := List.getElem?_eq_some_iff.1 at_n
  have batch_at_n := List.getElem?_eq_getElem (answered.length_eq ▸ inside)
  obtain ⟨_, same, answer⟩ := answered.answer n _ batch_at_n
  obtain rfl := Option.some.inj (at_n.symm.trans same)
  exact ⟨_, batch_at_n, answer⟩

theorem isLowest (answered : Answered client transport commitment batches replies)
    (conforms : client.Conforms) (lowest : (replies.map Stamped.slot).min? = some slot) :
    IsLowest transport (batches.map (client.accountsCall commitment)) slot := by
  obtain ⟨among, least⟩ := List.min?_eq_some_iff.1 lowest
  constructor
  · obtain ⟨reply, listed, rfl⟩ := List.mem_map.1 among
    obtain ⟨n, at_n⟩ := List.mem_iff_getElem?.1 listed
    obtain ⟨batch, batch_at_n, answer⟩ := answered.of_getElem? at_n
    exact ⟨n, _, by rw [List.getElem?_map, batch_at_n]; rfl,
      (conforms.exists_entries answer).1⟩
  · intro n call made
    obtain ⟨batch, batch_at_n, rfl⟩ := Option.map_eq_some_iff.1 (List.getElem?_map ▸ made)
    obtain ⟨reply, at_n, answer⟩ := answered.answer n batch batch_at_n
    exact ⟨reply.slot, (conforms.exists_entries answer).1,
      least _ (List.mem_map_of_mem (List.mem_of_getElem? at_n))⟩

end Answered

/-! ## The three reads -/

theorem run_getMultipleAccounts {addresses : List Address}
    {result : Stamped (List (Option Account))} :
    (getMultipleAccounts commitment addresses client).run transport = (calls, .ok result) ↔
      ∃ replies, Answered client transport commitment (pieces batchSize addresses) replies ∧
        result.value = replies.flatMap Stamped.value ∧
        Stamps client transport commitment (pieces batchSize addresses)
          (replies.map Stamped.slot) calls result.slot :=
  run_getBatches

section Several

variable {addresses : List Address} {reply : Stamped (List (Option Account))}

/-- A read of some accounts calls for one batch after the other, and the lowest of the slots of
the replies is the slot of the whole. -/
theorem run_getMultipleAccounts_of_ne_nil (nonempty : addresses ≠ [])
    (ran : (getMultipleAccounts commitment addresses client).run transport = (calls, .ok reply)) :
    ∃ replies, Answered client transport commitment (pieces batchSize addresses) replies ∧
      reply.value = replies.flatMap Stamped.value ∧
      (replies.map Stamped.slot).min? = some reply.slot ∧
      calls = (pieces batchSize addresses).map (client.accountsCall commitment) := by
  obtain ⟨replies, answered, value, stamps⟩ := run_getMultipleAccounts.1 ran
  have replied : replies.map Stamped.slot ≠ [] := by
    intro empty
    obtain rfl := List.map_eq_nil_iff.1 empty
    have no_batch : pieces batchSize addresses = [] :=
      List.eq_nil_of_length_eq_zero answered.length_eq.symm
    exact nonempty ((pieces_eq_nil_iff batchSize_pos).1 no_batch)
  obtain ⟨lowest, made⟩ := (stamps_of_ne_nil replied).1 stamps
  exact ⟨replies, answered, value, lowest, made⟩

theorem isLowest_of_run (conforms : client.Conforms) (nonempty : addresses ≠ [])
    (ran : (getMultipleAccounts commitment addresses client).run transport = (calls, .ok reply)) :
    calls = (pieces batchSize addresses).map (client.accountsCall commitment) ∧
      IsLowest transport calls reply.slot := by
  obtain ⟨replies, answered, -, lowest, rfl⟩ := run_getMultipleAccounts_of_ne_nil nonempty ran
  exact ⟨rfl, answered.isLowest conforms lowest⟩

theorem length_of_run
    (ran : (getMultipleAccounts commitment addresses client).run transport = (calls, .ok reply)) :
    reply.value.length = addresses.length := by
  obtain ⟨replies, answered, value, -⟩ := run_getMultipleAccounts.1 ran
  rw [value, List.length_flatMap, answered.aligned, ← List.length_flatten,
    flatten_pieces batchSize_pos]

/-- What is returned at a place comes from the reply to the batch around that place, which has
there the address asked for and the account returned. -/
theorem exists_part_of_run {i : Nat} {address : Address} {account : Option Account}
    (ran : (getMultipleAccounts commitment addresses client).run transport = (calls, .ok reply))
    (asked : addresses[i]? = some address) (given : reply.value[i]? = some account) :
    ∃ batch part, (pieces batchSize addresses)[i / batchSize]? = some batch ∧
      transport.result? client.accounts? (i / batchSize) (client.accountsCall commitment batch) =
        some part ∧
      batch[i % batchSize]? = some address ∧ part.value[i % batchSize]? = some account := by
  obtain ⟨replies, answered, value, -⟩ := run_getMultipleAccounts.1 ran
  have aligned : (replies.map Stamped.value).map List.length =
      (pieces batchSize addresses).map List.length := by
    rw [List.map_map]
    exact answered.aligned
  rw [value, List.flatMap_def, getElem?_flatten_parts batchSize_pos aligned] at given
  rw [← flatten_pieces batchSize_pos addresses,
    getElem?_flatten_parts batchSize_pos rfl] at asked
  obtain ⟨batch, batch_at, asked⟩ := Option.bind_eq_some_iff.1 asked
  obtain ⟨values, values_at, given⟩ := Option.bind_eq_some_iff.1 given
  obtain ⟨part, part_at, rfl⟩ := Option.map_eq_some_iff.1 (List.getElem?_map ▸ values_at)
  obtain ⟨_, same, answer⟩ := answered.of_getElem? part_at
  obtain rfl := Option.some.inj (batch_at.symm.trans same)
  exact ⟨batch, part, batch_at, answer, asked, given⟩

/-- Each account was given in reply to the batch around its address, at the same place in it. -/
theorem servedAt_of_run (conforms : client.Conforms) {i : Nat} {address : Address}
    {account : Option Account}
    (ran : (getMultipleAccounts commitment addresses client).run transport = (calls, .ok reply))
    (asked : addresses[i]? = some address) (given : reply.value[i]? = some account) :
    ServedAt client transport calls (i / batchSize) (i % batchSize) address account := by
  have nonempty : addresses ≠ [] := by
    rintro rfl
    cases asked
  obtain ⟨-, -, -, -, rfl⟩ := run_getMultipleAccounts_of_ne_nil nonempty ran
  obtain ⟨batch, part, batch_at, answer, asked, given⟩ := exists_part_of_run ran asked given
  obtain ⟨-, items, listed, read⟩ := conforms.exists_entries answer
  rw [getElem?_of_mapM read] at given
  exact .intro (by rw [List.getElem?_map, batch_at]; rfl) (conforms.asksAccounts _ _) asked listed
    given

theorem run_getMultipleAccounts_nil
    (ran : (getMultipleAccounts commitment [] client).run transport = (calls, .ok reply)) :
    calls = [client.slotCall commitment] ∧
      transport.result? client.slot? 0 (client.slotCall commitment) = some reply.slot := by
  obtain ⟨replies, answered, -, stamps⟩ := run_getMultipleAccounts.1 ran
  rw [pieces_nil, answered_nil] at answered
  subst answered
  rcases stamps with ⟨lowest, -⟩ | ⟨-, made, answer⟩
  · cases lowest
  · exact ⟨made, answer⟩

end Several

theorem run_getProgramAccounts {program : Address} {filters : List Window}
    {result : Stamped (List (Address × Account))} :
    (getProgramAccounts commitment program filters client).run transport = (calls, .ok result) ↔
      calls = [client.slotCall commitment, client.scanCall commitment program filters] ∧
      transport.result? client.slot? 0 (client.slotCall commitment) = some result.slot ∧
      transport.result? client.scan? 1 (client.scanCall commitment program filters) =
        some result.value := by
  have parts : getProgramAccounts commitment program filters client =
      (getSlot commitment client).andThen fun slot =>
        (request (client.scanCall commitment program filters) client.scan?).andThen fun accounts =>
          .done (.ok ⟨accounts, slot⟩) := rfl
  rw [parts, Exchange.run_andThen_eq_ok_iff]
  simp only [getSlot, Exchange.run_andThen_eq_ok_iff, Exchange.run_request_eq_ok_iff]
  constructor
  · rintro ⟨_, slot, _, ⟨rfl, current⟩, ⟨_, accounts, _, ⟨rfl, answer⟩, rest, rfl⟩, rfl⟩
    cases rest
    exact ⟨rfl, current, answer⟩
  · rintro ⟨rfl, current, answer⟩
    exact ⟨_, _, _, ⟨rfl, current⟩, ⟨_, _, [], ⟨rfl, answer⟩, rfl, rfl⟩, rfl⟩

/-- A slot that is the lowest of those named by the calls made is at most the one at which any of
the calls was served. -/
theorem IsLowest.le_clock {slot : UInt64} {call : Call} (lowest : IsLowest transport calls slot)
    (timed : transport.Timed clock) (made : calls[n]? = some call) : slot ≤ clock n := by
  obtain ⟨other, named, le⟩ := lowest.least n call made
  exact timed.context named ▸ le

theorem ServedAt.made {i : Nat} {address : Address} {account : Option Account}
    (served : ServedAt client transport calls n i address account) :
    ∃ call, calls[n]? = some call := by
  obtain ⟨made⟩ := served
  exact ⟨_, made⟩

/-- Against a transport whose slots never go back, a conforming client lets every account be
returned under a slot that is not later than the one at which it was served. Several accounts come
under the lowest of the slots of their batches, none of them under the current slot. -/
theorem slot_le_served (conforms : client.Conforms) (timed : transport.Timed clock)
    (commitment : Commitment) :
    (∀ address reply calls,
      (getAccount commitment address client).run transport = (calls, .ok reply) →
      Served client transport calls 0 address reply.value ∧ reply.slot ≤ clock 0) ∧
    (∀ addresses reply calls,
      (getMultipleAccounts commitment addresses client).run transport = (calls, .ok reply) →
      reply.value.length = addresses.length ∧
      (∀ i address account, addresses[i]? = some address → reply.value[i]? = some account →
        Served client transport calls (i / batchSize) address account ∧
          reply.slot ≤ clock (i / batchSize)) ∧
      (addresses ≠ [] →
        Asks calls ((pieces batchSize addresses).map .accounts) ∧
        IsLowest transport calls reply.slot) ∧
      (addresses = [] → Asks calls [.slot] ∧ reply.slot = clock 0)) ∧
    (∀ program filters reply calls,
      (getProgramAccounts commitment program filters client).run transport = (calls, .ok reply) →
      ∀ address account, (address, account) ∈ reply.value →
        Served client transport calls 1 address (some account) ∧ reply.slot ≤ clock 1) := by
  -- The slot that the client reads of an answer to a call for the slot is the current one.
  have current {slot : UInt64}
      (answer : transport.result? client.slot? 0 (client.slotCall commitment) = some slot) :
      slot = clock 0 := by
    obtain ⟨result, given, read⟩ := Option.bind_eq_some_iff.1 answer
    refine timed.current (conforms.asksSlot commitment) ?_
    rw [Transport.result?, given, Option.bind_some]
    exact conforms.slot read
  refine ⟨?_, ?_, ?_⟩
  · intro address reply calls ran
    obtain ⟨rfl, answer⟩ := Exchange.run_request_eq_ok_iff.1 ran
    obtain ⟨content, envelope, read⟩ := conforms.exists_value answer
    have named : transport.context? 0 (client.accountCall commitment address) =
        some reply.slot := by
      rw [Transport.context?, envelope]
      rfl
    exact ⟨.alone rfl (conforms.asksAccount commitment address) envelope read,
      timed.context named ▸ UInt64.le_refl _⟩
  · intro addresses reply calls ran
    refine ⟨length_of_run ran, ?_, fun nonempty => ?_, ?_⟩
    · intro i address account asked given
      have served := servedAt_of_run conforms ran asked given
      have nonempty : addresses ≠ [] := by
        rintro rfl
        cases asked
      obtain ⟨call, made⟩ := served.made
      exact ⟨.together served, (isLowest_of_run conforms nonempty ran).2.le_clock timed made⟩
    · obtain ⟨rfl, lowest⟩ := isLowest_of_run conforms nonempty ran
      exact ⟨conforms.asks_accountsCall commitment _, lowest⟩
    · rintro rfl
      obtain ⟨rfl, answer⟩ := run_getMultipleAccounts_nil ran
      exact ⟨conforms.asks_slotCall commitment, current answer⟩
  · intro program filters reply calls ran address account listed
    obtain ⟨rfl, read, answer⟩ := run_getProgramAccounts.1 ran
    -- The slot is asked for before the scan.
    have earlier : reply.slot ≤ clock 1 := current read ▸ timed.forward (Nat.zero_le 1)
    exact ⟨.found rfl (conforms.asksScan commitment program filters) answer listed, earlier⟩

/-! A node may move on from one batch to the next, as this one does. -/

/-- A frame of no bytes, as data is compressed. -/
def emptyFrame : Bytes := [0x28, 0xb5, 0x2f, 0xfd, 0x20, 0x00, 0x01, 0x00, 0x00]

/-- Inflates the frame of no bytes. -/
def inflateEmpty : Inflate := fun bytes => if bytes = emptyFrame then some [] else none

def emptyAccount : Json :=
  .object [("lamports", .num "1"), ("data", .arr [.string "KLUv/SAAAQAA", .string "base64+zstd"]),
    ("owner", .string "11111111111111111111111111111111"), ("executable", .bool false),
    ("rentEpoch", .num "0")]

def replyAt (slot : Json) (items : List Json) (call : Call) : Json :=
  if call.method = "getSlot" then slot
  else .object [("context", .object [("slot", slot)]), ("value", .arr items)]

/-- Serves a first batch of a hundred at slot 7, without accounts, and then batches of one at
slot 9. -/
def movingNode : Transport
  | 0, call => some (replyAt (.num "7") (List.replicate 100 .null) call)
  | _ + 1, call => some (replyAt (.num "9") [emptyAccount] call)

def movingClock : Nat → UInt64
  | 0 => 7
  | _ + 1 => 9

theorem movingNode_timed : movingNode.Timed movingClock where
  forward := by
    rintro (_ | m) (_ | n) le
    · exact UInt64.le_refl _
    · show (7 : UInt64) ≤ 9
      decide
    · omega
    · exact UInt64.le_refl _
  context := by
    intro n call slot named
    have given : movingNode.context? n call =
        if call.method = "getSlot" then none else some (movingClock n) := by
      by_cases asked : call.method = "getSlot" <;> cases n <;>
        simp only [Transport.context?, Transport.envelope?, Transport.result?, movingNode, replyAt,
          asked] <;> rfl
    rw [given] at named
    split at named
    · cases named
    · exact (Option.some.inj named).symm
  current := by
    intro n call slot asks answer
    have given : movingNode.result? Json.u64? n call =
        if call.method = "getSlot" then some (movingClock n) else none := by
      by_cases asked : call.method = "getSlot" <;> cases n <;>
        simp only [Transport.result?, movingNode, replyAt, asked] <;> rfl
    rw [given] at answer
    split at answer
    · exact (Option.some.inj answer).symm
    · cases answer

def movingReply : Stamped (List (Option Account)) :=
  ⟨List.replicate 100 none ++ [some ⟨1, [], .unset, false, 0⟩], 7⟩

/-- A read of a hundred and one accounts from the node. -/
def movingRead : List Call × Except LedgerError (Stamped (List (Option Account))) :=
  (getMultipleAccounts .confirmed (List.replicate 101 .unset) (.standard inflateEmpty)).run
    movingNode

theorem movingRead_eq : movingRead = (movingRead.1, .ok movingReply) := by
  refine Prod.ext rfl ?_
  decide +kernel

/-- The account in the second batch was served at slot 9, and is returned under slot 7. -/
theorem slot_le_served_moving : movingNode.Timed movingClock ∧
    movingRead = (movingRead.1, .ok movingReply) ∧
    Asks movingRead.1 [.accounts (List.replicate 100 .unset), .accounts [.unset]] ∧
    Served (.standard inflateEmpty) movingNode movingRead.1 1 .unset
      (some ⟨1, [], .unset, false, 0⟩) ∧
    IsLowest movingNode movingRead.1 7 ∧ movingClock 1 = 9 := by
  have two : pieces batchSize (List.replicate 101 Address.unset) =
      [List.replicate 100 .unset, [.unset]] := by decide +kernel
  obtain ⟨-, served, several, -⟩ := (slot_le_served (Client.standard_conforms inflateEmpty)
    movingNode_timed .confirmed).2.1 _ movingReply _ movingRead_eq
  obtain ⟨asks, lowest⟩ := several (by decide)
  rw [two] at asks
  exact ⟨movingNode_timed, movingRead_eq, asks,
    (served 100 .unset _ (by decide) (by decide)).1, lowest, rfl⟩

end LedgerWatch.Rpc
