import LedgerWatch.Error
import LedgerWatch.Store
import LedgerWatch.Watch

/-!
# Supervising watched pairs

A pair is one subscription of a watch key: it owns at most one live channel, decodes what the
channel delivers into the store, and has a watchdog that replaces a channel which closed or went
silent. Subscribe and unsubscribe calls, watchdogs and channels run side by side and are
suspended while a channel starts or stops and while they wait for a pair's channel; a pair's
`line` says who has the channel and who waits for it, in order.

`Supervisor.step` performs one event: a call begins, a party whose turn has come goes on, a
channel finishes starting or stopping or delivers something, a watchdog wakes, time passes. What
happens between two suspensions is one event; the call that registers a pair is suspended once
before it has the pair's channel, and others may come in between. `Supervisor.run` performs a list
of events, and a run is any list.
-/

namespace LedgerWatch

abbrev PairId := Nat
abbrev ChannelId := Nat
abbrev CallId := Nat

/-- The state of a pair, as its subscribers see it. -/
inductive PairState
  | unsubscribed
  | subscribing
  | active
  | stalled
  | resubscribing
deriving DecidableEq

def PairState.text : PairState → String
  | unsubscribed => "Unsubscribed"
  | subscribing => "Subscribing"
  | active => "Active"
  | stalled => "Stalled"
  | resubscribing => "Resubscribing"

/-- Who takes turns with a pair's channel. -/
inductive Party
  | call (id : CallId)
  | watchdog
deriving DecidableEq

inductive Watchdog
  /-- The pair's first handshake has not succeeded. -/
  | unborn
  | idle
  /-- Waits for its turn with the channel. -/
  | queued
  | stopping (old : ChannelId)
  | starting (channel : ChannelId)
  | ended
deriving DecidableEq

def Watchdog.isGone : Watchdog → Bool
  | unborn | ended => true
  | _ => false

structure Pair where
  key : WatchKey
  /-- Names the callback given with the subscription, if there was one. -/
  observer : Option String
  state : PairState := .subscribing
  gateOpen : Bool := true
  cancelled : Bool := false
  lastEvent : Nat
  /-- Replacements begun since something was heard; both counts wrap around. -/
  consecutive : UInt64 := 0
  total : UInt64 := 0
  /-- A channel reported its closing and the watchdog has not taken notice; at most one such
  notice is kept. -/
  notice : Bool := false
  channel : Option ChannelId := none
  /-- Who has the channel, and after it who waits. -/
  line : List Party := []
  watchdog : Watchdog := .unborn
  /-- The longest silence before the channel counts as stalled. -/
  patience : Option Nat := none
  tickDue : Nat := 0
deriving DecidableEq

namespace Pair

/-- Something was heard. -/
def heard (p : Pair) (now : Nat) : Pair :=
  { p with
    lastEvent := now
    consecutive := 0
    state := match p.state with
      | .subscribing | .stalled | .resubscribing => .active
      | other => other }

/-- The channel reported that it closed. -/
def closing (p : Pair) : Pair :=
  { p with
    notice := true
    state := match p.state with
      | .subscribing | .active => .stalled
      | other => other }

/-- Ends the pair for good: nothing passes its gate again. -/
def finish (p : Pair) : Pair :=
  { p with cancelled := true, gateOpen := false, state := .unsubscribed }

end Pair

inductive ChannelStatus
  | starting
  | started
  | failed
deriving DecidableEq

structure Channel where
  pair : PairId
  status : ChannelStatus := .starting
  stops : Nat := 0
deriving DecidableEq

/-- Where a subscribe or unsubscribe call is. -/
inductive Call
  /-- Has registered its pair and comes for its channel. -/
  | arriving (pair : PairId)
  /-- Waits for the handshake of the call that came first. -/
  | following (pair : PairId)
  | starting (pair : PairId) (channel : ChannelId)
  /-- Waits for its turn to take the channel away; `rest` is torn down after it. -/
  | clearing (pair : PairId) (rest : List PairId)
  | stopping (pair : PairId) (channel : ChannelId) (rest : List PairId)
  /-- Waits for the watchdog to end. -/
  | joining (pair : PairId) (rest : List PairId)
  | returned (result : Except SubscriptionError Unit)

/-- What an event asks of the surroundings or shows to them. -/
inductive Effect
  | start (channel : ChannelId)
  | stop (channel : ChannelId)
  /-- A suspended call may go on, or has returned. -/
  | wakeCall (call : CallId)
  | wakeWatchdog (pair : PairId)
  /-- A record was stored and the pair's callback called with it. -/
  | observed (observer : String) (address : Address) (record : Record) (slot : UInt64)
deriving DecidableEq

structure Supervisor where
  store : Store := {}
  now : Nat := 0
  /-- The configured silence before a channel that can stall is replaced. -/
  resubTimeout : Option Nat := none
  checkInterval : Nat := 1000
  registry : Table WatchKey PairId := {}
  pairs : List Pair := []
  channels : List Channel := []
  calls : List Call := []
  /-- What the current event has asked for so far. -/
  effects : List Effect := []

namespace Supervisor

def emit (s : Supervisor) (e : Effect) : Supervisor := { s with effects := s.effects ++ [e] }

def modifyPair (s : Supervisor) (p : PairId) (f : Pair → Pair) : Supervisor :=
  { s with pairs := s.pairs.modify p f }

def modifyChannel (s : Supervisor) (c : ChannelId) (f : Channel → Channel) : Supervisor :=
  { s with channels := s.channels.modify c f }

def setCall (s : Supervisor) (id : CallId) (call : Call) : Supervisor :=
  { s with calls := s.calls.set id call }

def addCall (s : Supervisor) (call : Call) : Supervisor := { s with calls := s.calls ++ [call] }

def answer (s : Supervisor) (id : CallId) (result : Except SubscriptionError Unit) : Supervisor :=
  (s.setCall id (.returned result)).emit (.wakeCall id)

/-- Who has the turn hands it to who waits next. -/
def passTurn (s : Supervisor) (p : PairId) : Supervisor :=
  let s := s.modifyPair p fun pair => { pair with line := pair.line.tail }
  match s.pairs[p]?.bind fun pair => pair.line.head? with
  | none => s
  | some (.call id) => s.emit (.wakeCall id)
  | some .watchdog => s.emit (.wakeWatchdog p)

def joinLine (s : Supervisor) (p : PairId) (party : Party) : Supervisor :=
  s.modifyPair p fun pair => { pair with line := pair.line ++ [party] }

/-- Makes a channel for the pair and asks it to start. -/
def create (s : Supervisor) (p : PairId) : ChannelId × Supervisor :=
  let c := s.channels.length
  let channel : Channel := { pair := p }
  let s := { s with channels := s.channels ++ [channel] }
  (c, s.emit (.start c))

/-! ## Calls -/

/-- What a call that found the pair learns when the first handshake is over. -/
def followerResult (pair : Pair) : Except SubscriptionError Unit :=
  if pair.channel.isNone && pair.cancelled then .error (.notActive pair.key.text) else .ok ()

/-- Begins a call. A key not registered is registered with a new pair, for whose channel this call
then comes; any other call waits for whoever has the channel. -/
def subscribe (s : Supervisor) (key : WatchKey) (observer : Option String) : Supervisor :=
  let id := s.calls.length
  match s.registry.get? key with
  | none =>
    let p := s.pairs.length
    let pair : Pair := { key, observer, lastEvent := s.now }
    let s := { s with
      registry := s.registry.insert key p
      pairs := s.pairs ++ [pair] }
    s.addCall (.arriving p)
  | some p =>
    match s.pairs[p]? with
    | none => s.addCall (.returned (.ok ()))
    | some pair =>
      if pair.line.isEmpty then (s.addCall (.returned (followerResult pair))).emit (.wakeCall id)
      else (s.addCall (.following p)).joinLine p (.call id)

/-- The call that registered a pair has its channel, once nobody else has: it makes one and starts
it, unless the pair ended meanwhile. -/
def enter (s : Supervisor) (id : CallId) : Supervisor :=
  match s.calls[id]? with
  | some (.arriving p) =>
    match s.pairs[p]? with
    | none => s
    | some pair =>
      if !pair.line.isEmpty then s
      else if pair.cancelled then s.answer id (.ok ())
      else
        let (c, s) := (s.joinLine p (.call id)).create p
        s.setCall id (.starting p c)
  | _ => s

/-- Closes the pairs' gates one after another, each time waiting for the channel, its stop, and
the watchdog's end before going on to the next. -/
def tearDown (id : CallId) : List PairId → Supervisor → Supervisor
  | [], s => s.answer id (.ok ())
  | p :: rest, s =>
    let s := (s.modifyPair p Pair.finish).emit (.wakeWatchdog p)
    match s.pairs[p]? with
    | none => tearDown id rest s
    | some pair =>
      if !pair.line.isEmpty then (s.setCall id (.clearing p rest)).joinLine p (.call id)
      else
        match pair.channel with
        | some c =>
          ((s.modifyPair p fun pair => { pair with channel := none }).setCall id
            (.stopping p c rest)).emit (.stop c)
        | none =>
          if pair.watchdog.isGone then tearDown id rest s else s.setCall id (.joining p rest)

/-- Goes on after the pair's channel is out of the way. -/
def awaitWatchdog (s : Supervisor) (id : CallId) (p : PairId) (rest : List PairId) : Supervisor :=
  match s.pairs[p]? with
  | none => tearDown id rest s
  | some pair =>
    if pair.watchdog.isGone then tearDown id rest s else s.setCall id (.joining p rest)

def unsubscribe (s : Supervisor) (key : WatchKey) : Supervisor :=
  let id := s.calls.length
  let s := s.addCall (.returned (.ok ()))
  match s.registry.get? key with
  | none => s.emit (.wakeCall id)
  | some p => tearDown id [p] { s with registry := s.registry.erase key }

/-- Empties the registry at once; the pairs are torn down one after another, in any order. -/
def unsubscribeAll (s : Supervisor) (order : List PairId) : Supervisor :=
  if order.isPerm s.registry.values then
    let id := s.calls.length
    let s := s.addCall (.returned (.ok ()))
    tearDown id order { s with registry := {} }
  else s

/-- A call that waited in line has the turn. -/
def callTurn (s : Supervisor) (id : CallId) : Supervisor :=
  match s.calls[id]? with
  | some (.following p) =>
    match s.pairs[p]? with
    | none => s
    | some pair => (s.passTurn p).answer id (followerResult pair)
  | some (.clearing p rest) =>
    match s.pairs[p]? with
    | none => s
    | some pair =>
      match pair.channel with
      | some c =>
        (((s.modifyPair p fun pair => { pair with channel := none }).passTurn p).setCall id
          (.stopping p c rest)).emit (.stop c)
      | none => (s.passTurn p).awaitWatchdog id p rest
  | _ => s

/-! ## Watchdogs -/

/-- The watchdog has the turn: unless the pair ended meanwhile, it takes the old channel away and
stops it, and starts a new one. -/
def replace (s : Supervisor) (p : PairId) : Supervisor :=
  match s.pairs[p]? with
  | none => s
  | some pair =>
    if pair.cancelled then
      ((s.modifyPair p fun pair => { pair with watchdog := .idle }).passTurn p).emit
        (.wakeWatchdog p)
    else
      let s := s.modifyPair p fun pair =>
        { pair with
          state := .resubscribing
          consecutive := pair.consecutive + 1
          total := pair.total + 1
          channel := none }
      match pair.channel with
      | some old =>
        (s.modifyPair p fun pair => { pair with watchdog := .stopping old }).emit (.stop old)
      | none =>
        let (c, s) := s.create p
        s.modifyPair p fun pair => { pair with watchdog := .starting c }

/-- Waits for the turn, or has it at once. -/
def seekReplacement (s : Supervisor) (p : PairId) : Supervisor :=
  match s.pairs[p]? with
  | none => s
  | some pair =>
    let s := s.joinLine p .watchdog
    if pair.line.isEmpty then s.replace p
    else s.modifyPair p fun pair => { pair with watchdog := .queued }

/-- Whether a pair in this condition has its channel replaced. -/
def needsReplacement (pair : Pair) (now : Nat) : Bool :=
  match pair.state with
  | .active =>
    match pair.patience with
    | none => false
    | some patience => patience < now - pair.lastEvent
  | .stalled | .resubscribing => true
  | .subscribing | .unsubscribed => false

/-- What the watchdog does whenever it wakes. A channel silent for too long is stalled first. -/
def act (s : Supervisor) (p : PairId) : Supervisor :=
  match s.pairs[p]? with
  | none => s
  | some pair =>
    if needsReplacement pair s.now then
      (s.modifyPair p fun pair =>
        { pair with state := if pair.state = .active then .stalled else pair.state })
        |>.seekReplacement p
    else s

def takeNotice (s : Supervisor) (p : PairId) : Supervisor :=
  match s.pairs[p]? with
  | none => s
  | some pair =>
    if pair.watchdog = .idle ∧ pair.notice then
      (s.modifyPair p fun pair => { pair with notice := false }).act p
    else s

/-- Ticks are due at fixed intervals; missed ones are made up one by one. -/
def takeTick (s : Supervisor) (p : PairId) : Supervisor :=
  match s.pairs[p]? with
  | none => s
  | some pair =>
    if pair.watchdog = .idle ∧ pair.tickDue ≤ s.now then
      (s.modifyPair p fun pair => { pair with tickDue := pair.tickDue + s.checkInterval }).act p
    else s

def watchdogTurn (s : Supervisor) (p : PairId) : Supervisor :=
  match s.pairs[p]? with
  | none => s
  | some pair =>
    if pair.watchdog = .queued ∧ pair.line.head? = some .watchdog then s.replace p else s

/-- The call that waits for the pair's watchdog, if one does. -/
def joiner? (s : Supervisor) (p : PairId) : Option CallId :=
  s.calls.findIdx? fun call =>
    match call with
    | .joining q _ => q == p
    | _ => false

/-- An idle watchdog of an ended pair ends. -/
def endWatchdog (s : Supervisor) (p : PairId) : Supervisor :=
  match s.pairs[p]? with
  | none => s
  | some pair =>
    if pair.watchdog = .idle ∧ pair.cancelled then
      let s := s.modifyPair p fun pair => { pair with watchdog := .ended }
      match s.joiner? p with
      | some id => s.emit (.wakeCall id)
      | none => s
    else s

/-- A call that waited for a watchdog goes on once it has ended. -/
def joinWatchdog (s : Supervisor) (id : CallId) : Supervisor :=
  match s.calls[id]? with
  | some (.joining p rest) => s.awaitWatchdog id p rest
  | _ => s

/-! ## Channels -/

/-- The first handshake of a pair is over. -/
def opened (s : Supervisor) (id : CallId) (p : PairId) (c : ChannelId) (canStall : Bool) :
    Except SubscriptionError Unit → Supervisor
  | .ok () =>
    let s := s.modifyPair p fun pair =>
      { pair with
        state := if pair.state = .subscribing then .active else pair.state
        lastEvent := s.now
        channel := some c
        patience := if canStall then s.resubTimeout else none
        watchdog := .idle
        tickDue := s.now }
    ((s.passTurn p).answer id (.ok ())).emit (.wakeWatchdog p)
  | .error e =>
    let s := (s.modifyPair p Pair.finish).passTurn p
    let s := match s.pairs[p]? with
      | some pair =>
        if s.registry.get? pair.key = some p then
          { s with registry := s.registry.erase pair.key }
        else s
      | none => s
    s.answer id (.error e)

/-- The handshake of a replacement is over. A failed one leaves the pair as it is, to be tried
again when the watchdog next wakes. -/
def replaced (s : Supervisor) (p : PairId) (c : ChannelId) :
    Except SubscriptionError Unit → Supervisor
  | .ok () =>
    let s := s.modifyPair p fun pair =>
      { pair with
        lastEvent := s.now
        state := if pair.state = .resubscribing ∧ !pair.cancelled then .active else pair.state
        channel := some c
        watchdog := .idle }
    (s.passTurn p).emit (.wakeWatchdog p)
  | .error _ =>
    ((s.modifyPair p fun pair => { pair with watchdog := .idle }).passTurn p).emit
      (.wakeWatchdog p)

/-- The call that waits for this channel to start. -/
def starter? (s : Supervisor) (c : ChannelId) : Option CallId :=
  s.calls.findIdx? fun call =>
    match call with
    | .starting _ d => d == c
    | _ => false

/-- A channel's start has come to an end. -/
def handshake (s : Supervisor) (c : ChannelId) (canStall : Bool)
    (result : Except SubscriptionError Unit) : Supervisor :=
  match s.channels[c]? with
  | none => s
  | some channel =>
    if channel.status ≠ .starting then s
    else
      let status : ChannelStatus := match result with
        | .ok () => .started
        | .error _ => .failed
      let s := s.modifyChannel c fun channel => { channel with status }
      let p := channel.pair
      match s.starter? c with
      | some id => s.opened id p c canStall result
      | none =>
        match s.pairs[p]? with
        | some pair => if pair.watchdog = .starting c then s.replaced p c result else s
        | none => s

/-- The call that waits for this channel to stop, with its pair and what is left to tear down. -/
def stopper? (s : Supervisor) (c : ChannelId) : Option (CallId × PairId × List PairId) :=
  s.calls.zipIdx.findSome? fun (call, id) =>
    match call with
    | .stopping p d rest => if d = c then some (id, p, rest) else none
    | _ => none

/-- A channel's stop has returned. -/
def stopped (s : Supervisor) (c : ChannelId) : Supervisor :=
  match s.channels[c]? with
  | none => s
  | some channel =>
    let p := channel.pair
    match s.stopper? c with
    | some (id, p, rest) =>
      (s.modifyChannel c fun channel => { channel with stops := channel.stops + 1 }).awaitWatchdog
        id p rest
    | none =>
      match s.pairs[p]? with
      | some pair =>
        if pair.watchdog = .stopping c then
          let s := s.modifyChannel c fun channel => { channel with stops := channel.stops + 1 }
          let (new, s) := s.create p
          s.modifyPair p fun pair => { pair with watchdog := .starting new }
        else s
      | none => s

/-- A channel delivers an event through the gate of its pair. -/
def deliver (s : Supervisor) (c : ChannelId) (event : ChannelEvent) : Supervisor :=
  match s.channels[c]? with
  | none => s
  | some channel =>
    let p := channel.pair
    match s.pairs[p]? with
    | none => s
    | some pair =>
      if !pair.gateOpen then s
      else
        match event with
        | .heartbeat => s.modifyPair p (·.heard s.now)
        | .closed => (s.modifyPair p Pair.closing).emit (.wakeWatchdog p)
        | .update u =>
          let s := s.modifyPair p (·.heard s.now)
          match Record.decode pair.key.kind u.data with
          | .error _ => s
          | .ok record =>
            let s := { s with store := s.store.put u.address record u.slot }
            match pair.observer with
            | some observer => s.emit (.observed observer u.address record u.slot)
            | none => s

/-! ## Events and runs -/

inductive Event
  | subscribe (key : WatchKey) (observer : Option String)
  | unsubscribe (key : WatchKey)
  /-- The pairs registered, in the order in which they are torn down. -/
  | unsubscribeAll (order : List PairId)
  | enter (id : CallId)
  | callTurn (id : CallId)
  | joinWatchdog (id : CallId)
  | watchdogTurn (pair : PairId)
  | takeNotice (pair : PairId)
  | takeTick (pair : PairId)
  | endWatchdog (pair : PairId)
  | handshake (channel : ChannelId) (canStall : Bool) (result : Except SubscriptionError Unit)
  | stopped (channel : ChannelId)
  | deliver (channel : ChannelId) (event : ChannelEvent)
  | pass (time : Nat)

/-- Whether the call has its turn with the channel it waits for. -/
def hasTurn (s : Supervisor) (id : CallId) : Bool :=
  let atHead (p : PairId) := (s.pairs[p]?.bind fun pair => pair.line.head?) == some (.call id)
  match s.calls[id]? with
  | some (.following p) => atHead p
  | some (.clearing p _) => atHead p
  | _ => false

def perform (s : Supervisor) : Event → Supervisor
  | .subscribe key observer => s.subscribe key observer
  | .unsubscribe key => s.unsubscribe key
  | .unsubscribeAll order => s.unsubscribeAll order
  | .enter id => s.enter id
  | .callTurn id => if s.hasTurn id then s.callTurn id else s
  | .joinWatchdog id => s.joinWatchdog id
  | .watchdogTurn p => s.watchdogTurn p
  | .takeNotice p => s.takeNotice p
  | .takeTick p => s.takeTick p
  | .endWatchdog p => s.endWatchdog p
  | .handshake c canStall result => s.handshake c canStall result
  | .stopped c => s.stopped c
  | .deliver c event => s.deliver c event
  | .pass time => { s with now := s.now + time }

/-- Performs one event and leaves its effects. -/
def step (s : Supervisor) (event : Event) : Supervisor :=
  let s := { s with effects := [] }
  s.perform event

def run (s : Supervisor) (events : List Event) : Supervisor := events.foldl step s

/-! ## What subscribers can ask -/

def pair? (s : Supervisor) (key : WatchKey) : Option Pair :=
  (s.registry.get? key).bind fun p => s.pairs[p]?

def state (s : Supervisor) (key : WatchKey) : PairState :=
  match s.pair? key with
  | some pair => pair.state
  | none => .unsubscribed

/-- Replacements begun since the pair was last heard of. -/
def resubscriptions (s : Supervisor) (key : WatchKey) : Nat :=
  match s.pair? key with
  | some pair => pair.consecutive.toNat
  | none => 0

def totalResubscriptions (s : Supervisor) (key : WatchKey) : Nat :=
  match s.pair? key with
  | some pair => pair.total.toNat
  | none => 0

/-- How many keys are registered. -/
def activeCount (s : Supervisor) : Nat := s.registry.size

end Supervisor

end LedgerWatch
