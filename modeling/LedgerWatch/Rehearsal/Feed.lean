import LedgerWatch.Watch.Polling

/-!
# Feeds

A feed stands for a supervised channel in a rehearsal. A scripted feed starts as its script says
and then delivers what it is told to; a polled feed is the polling channel over the rehearsal's
ledger.
-/

namespace LedgerWatch.Rehearsal

/-- How a scripted channel starts. -/
structure Script where
  failure : Option SubscriptionError := none
  /-- How long the handshake takes. -/
  delay : Nat := 0
  canStall : Bool := true
  /-- What is delivered at the end of a handshake that succeeds. -/
  onStart : List ChannelEvent := []

/-- The name scripted channels have in errors. -/
def Script.channelName : String := "scripted"

inductive Feed
  /-- The handshake is over at `due`. -/
  | scripted (script : Script) (due : Nat)
  /-- The read in flight, if there is one, is over at `due`. -/
  | polled (channel : Polling) (due : Nat)

namespace Feed

/-- A stop of the feed has returned. Scripted channels stop at once. -/
def hasStopped : Feed → Bool
  | scripted _ _ => true
  | polled channel _ => !channel.hasTask

def due : Feed → Nat
  | scripted _ due => due
  | polled _ due => due

end Feed

end LedgerWatch.Rehearsal
