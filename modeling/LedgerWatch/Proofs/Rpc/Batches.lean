import LedgerWatch.Rpc.Reader
import Mathlib.Data.List.Basic

/-!
# Reading in batches

A list cut into pieces is read piece after piece. What an exchange does against a transport is
given by its parts (`run_andThen_eq_ok_iff`), and a read in batches that succeeds by the replies
to its batches (`run_getBatches`): their accounts in a row, at the lowest of their slots.
-/

namespace LedgerWatch

/-! ## Pieces of a list -/

section Pieces

variable {α β : Type} {size : Nat}

theorem flatten_pieces (positive : 0 < size) (list : List α) : (pieces size list).flatten = list := by
  fun_induction pieces size list with
  | case1 list cut ih => rw [List.flatten_cons, ih, List.take_append_drop]
  | case2 list whole =>
    have empty : list = [] := List.eq_nil_of_length_eq_zero (by omega)
    rw [empty, List.flatten_nil]

theorem pieces_nil (size : Nat) : pieces size ([] : List α) = [] := by
  simp [pieces]

theorem pieces_eq_nil_iff (positive : 0 < size) {list : List α} :
    pieces size list = [] ↔ list = [] := by
  constructor
  · intro none
    rw [← flatten_pieces positive list, none, List.flatten_nil]
  · rintro rfl
    exact pieces_nil size

theorem length_of_mem_pieces (positive : 0 < size) {list piece : List α}
    (mem : piece ∈ pieces size list) : 0 < piece.length ∧ piece.length ≤ size := by
  fun_induction pieces size list with
  | case1 list cut ih =>
    rcases List.mem_cons.1 mem with rfl | mem
    · rw [List.length_take]
      omega
    · exact ih mem
  | case2 list whole => cases mem

/-- All pieces but the last are of the full size. -/
theorem length_of_mem_dropLast_pieces {list piece : List α}
    (mem : piece ∈ (pieces size list).dropLast) : piece.length = size := by
  fun_induction pieces size list with
  | case1 list cut ih =>
    cases more : pieces size (list.drop size) with
    | nil => simp [more] at mem
    | cons next rest =>
      rw [more] at ih mem
      rw [List.dropLast_cons_cons, List.mem_cons] at mem
      rcases mem with rfl | mem
      · have longer : 0 < (list.drop size).length := by
          rw [pieces] at more
          split at more
          · rename_i room
            exact room.2
          · cases more
        rw [List.length_drop] at longer
        rw [List.length_take]
        omega
      · exact ih mem
  | case2 list whole => cases mem

/-- Parts as long as the pieces of a list have at a place of the whole what the part around that
place has there. -/
theorem getElem?_flatten_parts (positive : 0 < size) {list : List α} {parts : List (List β)}
    (aligned : parts.map List.length = (pieces size list).map List.length) (i : Nat) :
    parts.flatten[i]? = (parts[i / size]?).bind (·[i % size]?) := by
  fun_induction pieces size list generalizing parts i with
  | case1 list cut ih =>
    obtain ⟨part, rest, rfl, long, aligned⟩ := List.map_eq_cons_iff.1 aligned
    rw [List.length_take] at long
    rw [List.flatten_cons, List.getElem?_append]
    by_cases full : part.length = size
    · rw [full]
      by_cases first : i < size
      · rw [if_pos first, Nat.div_eq_of_lt first, Nat.mod_eq_of_lt first]
        rfl
      · have later : i / size = (i - size) / size + 1 := by
          rw [Nat.div_eq_sub_div positive (by omega)]
        rw [if_neg first, ih aligned, later, List.getElem?_cons_succ,
          Nat.mod_eq_sub_mod (by omega : size ≤ i)]
    · -- Only the last piece is shorter.
      have last : list.drop size = [] := List.drop_eq_nil_of_le (by omega)
      rw [last, pieces_nil] at aligned
      obtain rfl := List.map_eq_nil_iff.1 aligned
      by_cases first : i < size
      · rw [Nat.div_eq_of_lt first, Nat.mod_eq_of_lt first]
        by_cases inside : i < part.length <;> simp [inside]
      · have later : 0 < i / size := Nat.div_pos (by omega) positive
        have beyond : ¬ i < part.length := by omega
        simp [beyond, List.getElem?_eq_none (show [part].length ≤ i / size from later)]
  | case2 list whole =>
    obtain rfl := List.map_eq_nil_iff.1 aligned
    simp

end Pieces

namespace Rpc

/-! ## Runs of an exchange -/

/-- Answers the `n`-th call of an exchange. -/
abbrev Transport : Type := Nat → Call → Option Json

namespace Transport

/-- The same transport once `n` calls have been made. -/
def after (transport : Transport) (n : Nat) : Transport := fun m => transport (m + n)

/-- The result read from the answer to the `n`-th call. -/
def result? {α : Type} (transport : Transport) (read : Json → Option α) (n : Nat) (call : Call) :
    Option α :=
  (transport n call).bind read

end Transport

namespace Exchange

variable {α β ε : Type} {transport : Transport} {calls : List Call}

theorem run_bind (first : Exchange α) (next : α → Exchange β) (transport : Transport) :
    (first.bind next).run transport =
      let (made, value) := first.run transport
      let (more, result) := (next value).run (transport.after made.length)
      (made ++ more, result) := by
  induction first generalizing transport with
  | done value => rfl
  | ask call resume ih =>
    rw [bind, run, ih]
    rfl

/-- An exchange that goes on after success succeeds by its parts. -/
theorem run_andThen_eq_ok_iff {first : Exchange (Except ε α)} {next : α → Exchange (Except ε β)}
    {result : β} : (first.andThen next).run transport = (calls, .ok result) ↔
      ∃ made value more, first.run transport = (made, .ok value) ∧
        (next value).run (transport.after made.length) = (more, .ok result) ∧
        calls = made ++ more := by
  rw [andThen, run_bind]
  rcases first.run transport with ⟨made, error | value⟩
  · simp [run]
  · simp only [Prod.mk.injEq, Except.ok.injEq]
    constructor
    · rintro ⟨rfl, succeeds⟩
      exact ⟨made, value, _, ⟨rfl, rfl⟩, Prod.ext rfl succeeds, rfl⟩
    · rintro ⟨_, _, more, ⟨rfl, rfl⟩, went, rfl⟩
      simp [went]

theorem run_request_eq_ok_iff {call : Call} {read : Json → Option α} {result : α} :
    (request call read).run transport = (calls, .ok result) ↔
      calls = [call] ∧ transport.result? read 0 call = some result := by
  rw [request, run, Transport.result?]
  cases (transport 0 call).bind read with
  | none => simp [run]
  | some value => simp [run, eq_comm]

end Exchange

/-! ## Batches -/

variable {client : Client} {transport : Transport} {commitment : Commitment} {calls : List Call}

theorem batchSize_pos : 0 < batchSize := by decide

/-- A batch is a request whose reply is looked at before it is passed on. -/
theorem getBatch_eq (client : Client) (commitment : Commitment) (batch : List Address) :
    getBatch client commitment batch =
      (request (client.accountsCall commitment batch) client.accounts?).andThen fun reply =>
        if reply.value.length = batch.length then .done (.ok reply)
        else .done (.error (.lengthMismatch batch.length reply.value.length)) := by
  rw [getBatch, Exchange.andThen]
  congr 1
  funext result
  cases result <;> rfl

theorem run_getBatch_eq_ok_iff {batch : List Address} {reply : Stamped (List (Option Account))} :
    (getBatch client commitment batch).run transport = (calls, .ok reply) ↔
      calls = [client.accountsCall commitment batch] ∧
      transport.result? client.accounts? 0 (client.accountsCall commitment batch) = some reply ∧
      reply.value.length = batch.length := by
  rw [getBatch_eq, Exchange.run_andThen_eq_ok_iff]
  simp only [Exchange.run_request_eq_ok_iff]
  constructor
  · rintro ⟨made, value, more, ⟨rfl, read⟩, checked, rfl⟩
    split at checked
    · rename_i whole
      cases checked
      exact ⟨rfl, read, whole⟩
    · cases checked
  · rintro ⟨rfl, read, whole⟩
    exact ⟨_, reply, [], ⟨rfl, read⟩, by rw [if_pos whole]; rfl, rfl⟩

/-- Each batch is answered, the first by the first answer, with as many accounts as it has
addresses. -/
structure Answered (client : Client) (transport : Transport) (commitment : Commitment)
    (batches : List (List Address)) (replies : List (Stamped (List (Option Account)))) : Prop where
  aligned : replies.map (·.value.length) = batches.map List.length
  answer : ∀ n batch, batches[n]? = some batch → ∃ reply, replies[n]? = some reply ∧
    transport.result? client.accounts? n (client.accountsCall commitment batch) = some reply

theorem answered_nil {replies : List (Stamped (List (Option Account)))} :
    Answered client transport commitment [] replies ↔ replies = [] := by
  constructor
  · intro answered
    simpa using answered.aligned
  · rintro rfl
    exact ⟨rfl, by simp⟩

theorem answered_cons {batch : List Address} {rest : List (List Address)}
    {replies : List (Stamped (List (Option Account)))} :
    Answered client transport commitment (batch :: rest) replies ↔
      ∃ reply more, replies = reply :: more ∧
        transport.result? client.accounts? 0 (client.accountsCall commitment batch) = some reply ∧
        reply.value.length = batch.length ∧
        Answered client (transport.after 1) commitment rest more := by
  constructor
  · rintro ⟨aligned, answer⟩
    obtain ⟨reply, more, rfl, whole, aligned⟩ := List.map_eq_cons_iff.1 aligned
    obtain ⟨_, at_zero, read⟩ := answer 0 batch rfl
    obtain rfl := Option.some.inj at_zero
    exact ⟨_, _, rfl, read, whole, aligned, fun n => answer (n + 1)⟩
  · rintro ⟨reply, more, rfl, read, whole, aligned, answer⟩
    refine ⟨by simp [whole, aligned], fun n other at_n => ?_⟩
    cases n with
    | zero =>
      obtain rfl := Option.some.inj at_n
      exact ⟨reply, rfl, read⟩
    | succ n => exact answer n other at_n

/-- The slot of a read in batches, with its calls: the lowest of the slots at hand, or without any
the current one. -/
def Stamps (client : Client) (transport : Transport) (commitment : Commitment)
    (batches : List (List Address)) (slots : List UInt64) (calls : List Call) (slot : UInt64) :
    Prop :=
  slots.min? = some slot ∧ calls = batches.map (client.accountsCall commitment) ∨
    slots = [] ∧ calls = [client.slotCall commitment] ∧
      transport.result? client.slot? 0 (client.slotCall commitment) = some slot

theorem stamps_of_ne_nil {batches : List (List Address)} {slots : List UInt64} {slot : UInt64}
    (nonempty : slots ≠ []) : Stamps client transport commitment batches slots calls slot ↔
      slots.min? = some slot ∧ calls = batches.map (client.accountsCall commitment) := by
  simp [Stamps, nonempty]

/-- One batch more lowers the slot to that of its reply, if that is lower. -/
theorem stamps_cons {batch : List Address} {rest : List (List Address)} {slot? : Option UInt64}
    {first : UInt64} {slots : List UInt64} {slot : UInt64} :
    Stamps client transport commitment (batch :: rest) (slot?.toList ++ first :: slots) calls slot ↔
      ∃ more, Stamps client (transport.after 1) commitment rest
        ((some (match slot? with
          | some lowest => min lowest first
          | none => first)).toList ++ slots) more slot ∧
        calls = client.accountsCall commitment batch :: more := by
  generalize next : (match slot? with
    | some lowest => min lowest first
    | none => first) = lower
  have same : (slot?.toList ++ first :: slots).min? = ((some lower).toList ++ slots).min? := by
    rw [← next]
    cases slot? <;> rfl
  rw [stamps_of_ne_nil (by simp), same]
  constructor
  · rintro ⟨lowest, rfl⟩
    exact ⟨_, (stamps_of_ne_nil (by simp)).2 ⟨lowest, rfl⟩, rfl⟩
  · rintro ⟨more, later, rfl⟩
    obtain ⟨lowest, rfl⟩ := (stamps_of_ne_nil (by simp)).1 later
    exact ⟨lowest, rfl⟩

/-- A read in batches succeeds exactly if its batches are answered, and if there is none the call
for the slot. -/
theorem run_getBatches {batches : List (List Address)} {accounts : List (Option Account)}
    {slot? : Option UInt64} {result : Stamped (List (Option Account))} :
    (getBatches client commitment batches accounts slot?).run transport = (calls, .ok result) ↔
      ∃ replies, Answered client transport commitment batches replies ∧
        result.value = accounts ++ replies.flatMap Stamped.value ∧
        Stamps client transport commitment batches (slot?.toList ++ replies.map Stamped.slot) calls
          result.slot := by
  induction batches generalizing transport accounts slot? calls with
  | nil =>
    simp only [answered_nil, exists_eq_left, List.flatMap_nil, List.append_nil, List.map_nil]
    obtain ⟨value, slot⟩ := result
    cases slot? with
    | some lowest =>
      rw [getBatches, Exchange.run, Option.toList_some, stamps_of_ne_nil (List.cons_ne_nil _ _)]
      constructor
      · intro same
        cases same
        exact ⟨rfl, rfl, rfl⟩
      · rintro ⟨rfl, least, rfl⟩
        cases least
        rfl
    | none =>
      rw [getBatches, Exchange.run_andThen_eq_ok_iff]
      simp only [getSlot, Exchange.run_request_eq_ok_iff]
      constructor
      · rintro ⟨_, current, more, ⟨rfl, read⟩, rest, rfl⟩
        cases rest
        exact ⟨rfl, .inr ⟨rfl, rfl, read⟩⟩
      · rintro ⟨rfl, ⟨lowest, -⟩ | ⟨-, rfl, read⟩⟩
        · cases lowest
        · exact ⟨_, slot, [], ⟨rfl, read⟩, rfl, rfl⟩
  | cons batch rest ih =>
    rw [getBatches, Exchange.run_andThen_eq_ok_iff]
    simp only [run_getBatch_eq_ok_iff, answered_cons, ih]
    constructor
    · rintro ⟨_, reply, more, ⟨rfl, read, whole⟩, ⟨replies, answered, value, stamps⟩, rfl⟩
      refine ⟨reply :: replies, ⟨reply, replies, rfl, read, whole, answered⟩, ?_, ?_⟩
      · rw [value, List.flatMap_cons, List.append_assoc]
      · exact stamps_cons.2 ⟨more, stamps, rfl⟩
    · rintro ⟨_, ⟨reply, replies, rfl, read, whole, answered⟩, value, stamps⟩
      obtain ⟨more, later, rfl⟩ := stamps_cons.1 stamps
      refine ⟨_, reply, more, ⟨rfl, read, whole⟩, ⟨replies, answered, ?_, later⟩, rfl⟩
      rw [value, List.flatMap_cons, List.append_assoc]

end Rpc

end LedgerWatch
