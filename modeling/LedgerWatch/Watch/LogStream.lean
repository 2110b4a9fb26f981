import LedgerWatch.Error
import LedgerWatch.Watch.Tracker

/-!
# The log channel

The channel subscribes to the logs of transactions that mention the program. It reads its filter
once it is subscribed and again after each transaction that succeeded, and passes on what
changed; each transaction, failed or not, is also a sign of life. The first read is finished
even when the channel is cancelled meanwhile; a later one is abandoned.
-/

namespace LedgerWatch

inductive LogPhase
  | unstarted
  | connecting
  | subscribing
  /-- The first read is in flight. -/
  | opening
  | waiting
  | reading
  /-- The subscription is being given back. -/
  | releasing
  | ended
deriving DecidableEq

structure LogStream where
  phase : LogPhase := .unstarted
  tracker : Tracker := {}
  subscription : Nat := 0
  /-- For each transaction that has come in and is not taken up, whether it succeeded. -/
  backlog : List Bool := []
  /-- The endpoint sends nothing more. -/
  closed : Bool := false
  cancelled : Bool := false
deriving DecidableEq

namespace LogStream

def name : String := "logs"

/-- A busy program is never silent for long, so silence is suspicious. -/
def canStall : Bool := true

inductive Input
  | start
  | connected (result : Except EndpointError Unit)
  | subscribed (result : Except EndpointError Nat)
  | answer (read : FilterRead)
  | arrive (succeeded : Bool)
  | close
  /-- The channel's task takes up the next transaction. -/
  | next
  | released
  | cancel
  /-- The channel's task looks whether it has been cancelled. -/
  | look

inductive Output
  | connect
  | subscribe
  | unsubscribe (subscription : Nat)
  | read
  | emit (event : ChannelEvent)
  | started (result : Except SubscriptionError Unit)
  | stopped

/-- Whether a stop has to wait for the task. -/
def hasTask (c : LogStream) : Bool :=
  match c.phase with
  | .opening | .waiting | .reading | .releasing => true
  | _ => false

def fail (c : LogStream) (error : EndpointError) : LogStream × List Output :=
  ({ c with phase := .ended }, [.started (.error (.endpoint error))])

def release (c : LogStream) : LogStream × List Output :=
  ({ c with phase := .releasing }, [.unsubscribe c.subscription])

/-- Passes on the changes a read found; a failed read finds none. -/
def absorb (c : LogStream) : FilterRead → LogStream × List Output
  | .error _ => ({ c with phase := .waiting }, [])
  | .ok read =>
    let (news, tracker) := c.tracker.absorb read
    ({ c with phase := .waiting, tracker }, news.map fun u => .emit (.update u))

def takeUp (c : LogStream) : LogStream × List Output :=
  match c.backlog with
  | true :: backlog => ({ c with backlog, phase := .reading }, [.emit .heartbeat, .read])
  | false :: backlog => ({ c with backlog }, [.emit .heartbeat])
  | [] =>
    if c.closed then
      let (c, outputs) := c.release
      (c, .emit .closed :: outputs)
    else (c, [])

def step (c : LogStream) : Input → LogStream × List Output
  | .start => if c.phase = .unstarted then ({ c with phase := .connecting }, [.connect]) else (c, [])
  | .connected result =>
    match c.phase, result with
    | .connecting, .ok () => ({ c with phase := .subscribing }, [.subscribe])
    | .connecting, .error error => c.fail error
    | _, _ => (c, [])
  | .subscribed result =>
    match c.phase, result with
    | .subscribing, .ok id =>
      ({ c with phase := .opening, subscription := id }, [.started (.ok ()), .read])
    | .subscribing, .error error => c.fail error
    | _, _ => (c, [])
  | .answer read =>
    match c.phase with
    | .opening | .reading => c.absorb read
    | _ => (c, [])
  | .arrive succeeded =>
    (if c.closed then c else { c with backlog := c.backlog ++ [succeeded] }, [])
  | .close => ({ c with closed := true }, [])
  | .next => if c.phase = .waiting then c.takeUp else (c, [])
  | .released =>
    if c.phase = .releasing then
      ({ c with phase := .ended }, if c.cancelled then [.stopped] else [])
    else (c, [])
  | .cancel => ({ c with cancelled := true }, if c.hasTask then [] else [.stopped])
  | .look =>
    if c.cancelled ∧ (c.phase = .waiting ∨ c.phase = .reading) then c.release else (c, [])

def run (c : LogStream) (inputs : List Input) : LogStream × List Output := runInputs step c inputs

end LogStream

end LedgerWatch
