import LedgerWatch.Rpc.Client

/-!
# Reading the ledger over JSON-RPC

A read is an exchange: a call that the client makes goes out, and the exchange goes on from what
the client reads of the reply's result, or from nothing when the transport fails. Several accounts
are asked for in consecutive batches of at most a hundred; the answer's slot is the lowest of the
batches' slots, so that no account is stamped fresher than it is. A program scan carries no slot of
its own and takes the one read just before it.
-/

namespace LedgerWatch.Rpc

inductive Exchange (α : Type) : Type
  | done (value : α)
  | ask (call : Call) (next : Option Json → Exchange α)

namespace Exchange

variable {α β : Type}

def bind : Exchange α → (α → Exchange β) → Exchange β
  | done value, next => next value
  | ask call resume, next => ask call fun reply => bind (resume reply) next

/-- Goes on only after success. -/
def andThen {ε : Type} (first : Exchange (Except ε α)) (next : α → Exchange (Except ε β)) :
    Exchange (Except ε β) :=
  first.bind fun result =>
    match result with
    | .error e => done (.error e)
    | .ok value => next value

/-- Runs against a transport that answers the `n`-th call as the function says, and keeps the
calls made. -/
def run : (Nat → Call → Option Json) → Exchange α → List Call × α
  | _, done value => ([], value)
  | transport, ask call resume =>
    let (calls, value) := run (fun n => transport (n + 1)) (resume (transport 0 call))
    (call :: calls, value)

/-- A transport with the given replies, after which it fails. -/
def replying (replies : List (Option Json)) (n : Nat) (_ : Call) : Option Json :=
  (replies[n]?).join

end Exchange

/-- The most addresses one call may name. -/
def batchSize : Nat := 100

/-- Asks and reads the result; a failed transport and a malformed result are one error. -/
def request {α : Type} (call : Call) (read : Json → Option α) :
    Exchange (Except LedgerError α) :=
  .ask call fun reply =>
    match reply.bind read with
    | some value => .done (.ok value)
    | none => .done (.error .unavailable)

def getSlot (commitment : Commitment) (client : Client := .standard) :
    Exchange (Except LedgerError UInt64) :=
  request (client.slotCall commitment) client.slot?

def getAccount (commitment : Commitment) (address : Address) (client : Client := .standard) :
    Exchange (Except LedgerError (Stamped (Option Account))) :=
  request (client.accountCall commitment address) client.account?

/-- One batch; its reply must have as many entries as it has addresses. -/
def getBatch (client : Client) (commitment : Commitment) (batch : List Address) :
    Exchange (Except LedgerError (Stamped (List (Option Account)))) :=
  (request (client.accountsCall commitment batch) client.accounts?).bind fun result =>
    match result with
    | .error e => .done (.error e)
    | .ok reply =>
      if reply.value.length = batch.length then .done (.ok reply)
      else .done (.error (.lengthMismatch batch.length reply.value.length))

/-- Reads batch after batch, after `accounts` already read at the lowest slot `slot?`. -/
def getBatches (client : Client) (commitment : Commitment) :
    List (List Address) → List (Option Account) → Option UInt64 →
      Exchange (Except LedgerError (Stamped (List (Option Account))))
  | [], accounts, some slot => .done (.ok ⟨accounts, slot⟩)
  | [], accounts, none =>
    (getSlot commitment client).andThen fun slot => .done (.ok ⟨accounts, slot⟩)
  | batch :: rest, accounts, slot? =>
    (getBatch client commitment batch).andThen fun reply =>
      let slot := match slot? with
        | some slot => min slot reply.slot
        | none => reply.slot
      getBatches client commitment rest (accounts ++ reply.value) (some slot)

def getMultipleAccounts (commitment : Commitment) (addresses : List Address)
    (client : Client := .standard) :
    Exchange (Except LedgerError (Stamped (List (Option Account)))) :=
  getBatches client commitment (pieces batchSize addresses) [] none

def getProgramAccounts (commitment : Commitment) (program : Address) (filters : List Window)
    (client : Client := .standard) :
    Exchange (Except LedgerError (Stamped (List (Address × Account)))) :=
  (getSlot commitment client).andThen fun slot =>
    (request (client.scanCall commitment program filters) client.scan?).andThen fun accounts =>
      .done (.ok ⟨accounts, slot⟩)

end LedgerWatch.Rpc
