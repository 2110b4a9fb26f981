import LedgerWatch.Error
import LedgerWatch.Watch.Tracker

/-!
# The polling channel

The channel reads its filter once to start, and then at every tick, and passes on what changed.
A tick served more than five milliseconds late moves the schedule; an earlier one does not. Once
cancelled the channel ends when it next looks, at a tick or in the middle of a read, which is
then abandoned. Silence says nothing about it, so it never stalls.
-/

namespace LedgerWatch

/-- Where a polling channel is between its start and its end. -/
inductive PollingPhase
  | unstarted
  | opening
  | waiting
  | reading
  | ended
deriving DecidableEq

structure Polling where
  frequency : Nat
  phase : PollingPhase := .unstarted
  tracker : Tracker := {}
  cancelled : Bool := false
  /-- When the next tick is due, once started. -/
  due : Nat := 0
deriving DecidableEq

namespace Polling

def name : String := "polling"

def canStall : Bool := false

inductive Input
  | start
  | answer (now : Nat) (read : FilterRead)
  | tick (now : Nat)
  | cancel
  /-- The channel's task looks whether it has been cancelled. -/
  | look

inductive Output
  | read
  | emit (event : ChannelEvent)
  | started (result : Except SubscriptionError Unit)
  | stopped

/-- How late a tick may be served without moving the schedule. -/
def leeway : Nat := 5

def nextDue (frequency due now : Nat) : Nat :=
  if due + leeway < now then now + frequency else due + frequency

def hasTask (c : Polling) : Bool := c.phase == .waiting || c.phase == .reading

def passOn (c : Polling) (read : Stamped (List (Address × Bytes))) : Polling × List Output :=
  let (news, tracker) := c.tracker.absorb read
  ({ c with tracker }, news.map fun u => .emit (.update u))

def step (c : Polling) : Input → Polling × List Output
  | .start =>
    if c.phase = .unstarted then ({ c with phase := .opening }, [.read]) else (c, [])
  | .answer now read =>
    match c.phase, read with
    | .opening, .error e => ({ c with phase := .ended }, [.started (.error (.ledger e))])
    | .opening, .ok read =>
      let (c, events) := c.passOn read
      ({ c with phase := .waiting, due := now + c.frequency }, events ++ [.started (.ok ())])
    | .reading, .error _ => ({ c with phase := .waiting }, [])
    | .reading, .ok read =>
      let (c, events) := c.passOn read
      ({ c with phase := .waiting }, events)
    | _, _ => (c, [])
  | .tick now =>
    if c.phase = .waiting ∧ c.due ≤ now then
      ({ c with phase := .reading, due := nextDue c.frequency c.due now }, [.read])
    else (c, [])
  | .cancel =>
    ({ c with cancelled := true }, if c.hasTask then [] else [.stopped])
  | .look =>
    if c.cancelled && c.hasTask then ({ c with phase := .ended }, [.stopped]) else (c, [])

def run (c : Polling) (inputs : List Input) : Polling × List Output := runInputs step c inputs

end Polling

end LedgerWatch
