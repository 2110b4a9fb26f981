import LedgerWatch.Error
import LedgerWatch.Rpc.Account
import LedgerWatch.Watch

/-!
# The push channel

The channel connects to an endpoint and subscribes to each account of its filter in order, or to
the program. Each subscription is a stream, which delivers its notifications in order and may
end; the channel takes them up in any order between streams and turns each into one event. When
every stream has ended it reports its closing. However it ends, it gives back what it was
granted, one subscription after another; a refusal too is reported only after that.
-/

namespace LedgerWatch

/-- What one subscription is for. -/
inductive Target
  | account (address : Address)
  | program (windows : List Window)
deriving DecidableEq

def Filter.targets : Filter → List Target
  | .account address => [.account address]
  | .accounts addresses => addresses.map .account
  | .program windows => [.program windows]

/-- An account as an endpoint sends it, uncompressed, for so it is asked for. The subscription to
a program sends the address too, in text. -/
structure Notification where
  address : Option String := none
  account : Rpc.Sent
  slot : UInt64
deriving DecidableEq

namespace Notification

def address? (n : Notification) : Target → Option Address
  | .account address => some address
  | .program _ => n.address.bind fun text => (Address.parse text).toOption

/-- An update when address and account can be decoded, else a sign of life. -/
def event (target : Target) (n : Notification) : ChannelEvent :=
  match n.address? target, n.account.account? with
  | some address, some account => .update ⟨address, account.data, n.slot⟩
  | _, _ => .heartbeat

end Notification

abbrev SubscriptionId := Nat

/-- One granted subscription and what has come in on it. -/
structure Stream where
  target : Target
  subscription : SubscriptionId
  backlog : List Notification := []
  /-- The endpoint sends nothing more. -/
  closed : Bool := false
  /-- The channel knows it, having taken up the whole backlog. -/
  exhausted : Bool := false
deriving DecidableEq

inductive PushPhase
  | unstarted
  | connecting
  /-- The first of these targets is asked for. -/
  | subscribing (targets : List Target)
  | live
  /-- The first of these subscriptions is being given back, after a refusal or at the end. -/
  | releasing (subscriptions : List SubscriptionId) (refusal : Option EndpointError)
  | ended
deriving DecidableEq

structure Push where
  filter : Filter
  phase : PushPhase := .unstarted
  streams : List Stream := []
  cancelled : Bool := false
deriving DecidableEq

namespace Push

def name : String := "websocket"

/-- A push channel is heard from whenever its accounts change, so silence is suspicious. -/
def canStall : Bool := true

inductive Input
  | start
  | connected (result : Except EndpointError Unit)
  | subscribed (result : Except EndpointError SubscriptionId)
  /-- The endpoint sends on a stream, given by its place. -/
  | arrive (stream : Nat) (notification : Notification)
  | close (stream : Nat)
  /-- The channel's task takes up what is next on a stream. -/
  | next (stream : Nat)
  /-- A subscription has been given back. -/
  | released
  | cancel
  /-- The channel's task looks whether it has been cancelled. -/
  | look

inductive Output
  | connect
  | subscribe (target : Target)
  | unsubscribe (subscription : SubscriptionId)
  | emit (event : ChannelEvent)
  | started (result : Except SubscriptionError Unit)
  | stopped

/-- Whether a stop has to wait for the task. -/
def hasTask (c : Push) : Bool :=
  match c.phase with
  | .live | .releasing _ none => true
  | _ => false

/-- Gives back the next subscription, or ends. -/
def release (c : Push) (refusal : Option EndpointError) :
    List SubscriptionId → Push × List Output
  | [] =>
    ({ c with phase := .ended }, match refusal with
      | some error => [.started (.error (.endpoint error))]
      | none => if c.cancelled then [.stopped] else [])
  | id :: rest => ({ c with phase := .releasing (id :: rest) refusal }, [.unsubscribe id])

/-- Every subscription granted so far. -/
def granted (c : Push) : List SubscriptionId := c.streams.map Stream.subscription

/-- Closes once no stream can deliver any more. -/
def closeIfExhausted (c : Push) : Push × List Output :=
  if c.streams.all Stream.exhausted then
    let (c, outputs) := c.release none c.granted
    (c, .emit .closed :: outputs)
  else (c, [])

/-- Asks for the next target, or goes live. -/
def subscribeNext (c : Push) : List Target → Push × List Output
  | [] =>
    let (c, outputs) := closeIfExhausted { c with phase := .live }
    (c, .started (.ok ()) :: outputs)
  | target :: rest => ({ c with phase := .subscribing (target :: rest) }, [.subscribe target])

/-- Takes up the first notification of a stream's backlog, or its end. -/
def takeUp (c : Push) (place : Nat) : Push × List Output :=
  match c.streams[place]? with
  | none => (c, [])
  | some stream =>
    match stream.backlog with
    | n :: rest =>
      ({ c with streams := c.streams.set place { stream with backlog := rest } },
        [.emit (n.event stream.target)])
    | [] =>
      if stream.closed && !stream.exhausted then
        let exhausted := { stream with exhausted := true }
        closeIfExhausted { c with streams := c.streams.set place exhausted }
      else (c, [])

def receive (n : Notification) (stream : Stream) : Stream :=
  if stream.closed then stream else { stream with backlog := stream.backlog ++ [n] }

def step (c : Push) : Input → Push × List Output
  | .start => if c.phase = .unstarted then ({ c with phase := .connecting }, [.connect]) else (c, [])
  | .connected result =>
    match c.phase, result with
    | .connecting, .ok () => c.subscribeNext c.filter.targets
    | .connecting, .error error => c.release (some error) []
    | _, _ => (c, [])
  | .subscribed result =>
    match c.phase, result with
    | .subscribing (target :: rest), .ok id =>
      subscribeNext { c with streams := c.streams ++ [{ target, subscription := id }] } rest
    | .subscribing _, .error error => c.release (some error) c.granted
    | _, _ => (c, [])
  | .arrive place n => ({ c with streams := c.streams.modify place (receive n) }, [])
  | .close place =>
    ({ c with streams := c.streams.modify place fun stream => { stream with closed := true } }, [])
  | .next place => if c.phase = .live then c.takeUp place else (c, [])
  | .released =>
    match c.phase with
    | .releasing (_ :: rest) refusal => c.release refusal rest
    | _ => (c, [])
  | .cancel => ({ c with cancelled := true }, if c.hasTask then [] else [.stopped])
  | .look => if c.cancelled ∧ c.phase = .live then c.release none c.granted else (c, [])

def run (c : Push) (inputs : List Input) : Push × List Output := runInputs step c inputs

end Push

end LedgerWatch
