import LedgerWatch.Client
import LedgerWatch.Rehearsal.Feed
import LedgerWatch.Rehearsal.Ledger

/-!
# Rehearsals

A rehearsal runs a client against a ledger in memory and channels that are scripted or poll that
ledger, on a clock that moves only while a step waits. It holds whatever must survive from one
step to the next; `Rehearsal.perform` passes an event to the supervisor and carries out what the
supervisor asks for.
-/

namespace LedgerWatch

namespace Rehearsal

/-- What runs beside the caller: the watchdog of a pair, or the task of a polling channel. -/
inductive Task
  | watchdog (pair : PairId)
  | poller (channel : ChannelId)
deriving DecidableEq

/-- Wakes a task, or the caller, when the clock reaches `due`. -/
structure Alarm where
  due : Nat
  wakes : Option Task
deriving DecidableEq

/-- A callback's call. -/
structure Observation where
  observer : String
  address : Address
  record : Record
  slot : UInt64
  /-- The store held that very record at that moment. -/
  stored : Bool

/-- A pair as its subscribers see it. -/
structure PairReport where
  key : WatchKey
  state : PairState
  resubscriptions : Nat
  total : Nat

/-- A scripted channel, with how often it was stopped. -/
structure ChannelReport where
  key : WatchKey
  started : Bool
  stops : Nat

end Rehearsal

open Rehearsal in
structure Rehearsal where
  client : Client
  ledger : Rehearsal.Ledger := {}
  /-- Channels poll at this frequency; without one they are scripted. -/
  frequency : Option Nat := none
  /-- The script of a channel when none is queued. -/
  script : Script := {}
  scripts : List Script := []
  /-- The feeds of all channels, by number. -/
  feeds : List Feed := []
  /-- Alarms in the order in which they were set. -/
  alarms : List Alarm := []
  /-- The tasks that can run, in the order in which they became able to. -/
  ready : List Task := []
  callerReady : Bool := false
  /-- The keys asked about, in the order in which they first were. -/
  named : List WatchKey := []
  observations : List Observation := []

namespace Rehearsal

def supervisor (r : Rehearsal) : Supervisor := r.client.supervisor

def now (r : Rehearsal) : Nat := r.supervisor.now

def store (r : Rehearsal) : Store := r.supervisor.store

def withStore (r : Rehearsal) (store : Store) : Rehearsal :=
  { r with client := r.client.withStore store }

def setFeed (r : Rehearsal) (c : ChannelId) (feed : Feed) : Rehearsal :=
  { r with feeds := r.feeds.set c feed }

def wake (r : Rehearsal) (task : Task) : Rehearsal :=
  if task ∈ r.ready then r else { r with ready := r.ready ++ [task] }

def setAlarm (r : Rehearsal) (due : Nat) (wakes : Option Task) : Rehearsal :=
  if ⟨due, wakes⟩ ∈ r.alarms then r else { r with alarms := r.alarms ++ [⟨due, wakes⟩] }

/-- A read begins; it is over when the answer is due. -/
def beginRead (r : Rehearsal) : Nat × Rehearsal :=
  (r.now + r.ledger.delay, { r with ledger := { r.ledger with reads := r.ledger.reads + 1 } })

/-- Gives a new channel its feed. -/
def addFeed (r : Rehearsal) : Rehearsal :=
  match r.frequency with
  | none =>
    let script := r.scripts.head?.getD r.script
    { r with
      scripts := r.scripts.tail
      feeds := r.feeds ++ [.scripted script (r.now + script.delay)] }
  | some frequency =>
    let (due, r) := r.beginRead
    let channel : Polling := { frequency }
    { r with feeds := r.feeds ++ [.polled (channel.step .start).1 due] }

/-- Asks a feed to stop. A polling channel's task has to look before it does. -/
def stopFeed (r : Rehearsal) (c : ChannelId) : Rehearsal :=
  match r.feeds[c]? with
  | some (.polled channel due) =>
    (r.setFeed c (.polled (channel.step .cancel).1 due)).wake (.poller c)
  | _ => r

def observe (r : Rehearsal) (observer : String) (address : Address) (record : Record)
    (slot : UInt64) : Rehearsal :=
  let stored := (r.store.get? (record.key address)).map (·.value) == some record
  { r with observations := r.observations ++ [⟨observer, address, record, slot, stored⟩] }

def apply (r : Rehearsal) : Effect → Rehearsal
  | .start _ => r.addFeed
  | .stop c => r.stopFeed c
  | .wakeCall _ => { r with callerReady := true }
  | .wakeWatchdog p => r.wake (.watchdog p)
  | .observed observer address record slot => r.observe observer address record slot

def perform (r : Rehearsal) (event : Supervisor.Event) : Rehearsal :=
  let s := r.supervisor.step event
  s.effects.foldl apply { r with client := { r.client with supervisor := s } }

def deliver (r : Rehearsal) (c : ChannelId) (events : List ChannelEvent) : Rehearsal :=
  events.foldl (fun r event => r.perform (.deliver c event)) r

/-! ## What a step can do at once -/

/-- Has a channel deliver an event, also after it was stopped; whether it ever started, if there
is such a channel. Negative numbers count from the last channel. -/
def emit (r : Rehearsal) (channel : Int) (event : ChannelEvent) : Option Bool × Rehearsal :=
  let count : Int := r.supervisor.channels.length
  let number := if channel < 0 then count + channel else channel
  if r.frequency.isSome ∨ number < 0 then (none, r)
  else
    match r.supervisor.channels[number.toNat]? with
    | none => (none, r)
    | some c =>
      if c.status = .started then (some true, r.perform (.deliver number.toNat event))
      else (some false, r)

/-- Remembers a key that a step named. -/
def name (r : Rehearsal) (key : WatchKey) : Rehearsal :=
  if key ∈ r.named then r else { r with named := r.named ++ [key] }

def pairReport (r : Rehearsal) (key : WatchKey) : PairReport where
  key := key
  state := r.supervisor.state key
  resubscriptions := r.supervisor.resubscriptions key
  total := r.supervisor.totalResubscriptions key

/-- The scripted channels in the order in which they were made. -/
def channelReports (r : Rehearsal) : List ChannelReport :=
  if r.frequency.isSome then []
  else r.supervisor.channels.filterMap fun channel =>
    r.supervisor.pairs[channel.pair]?.map fun pair =>
      ⟨pair.key, channel.status == .started, channel.stops⟩

end Rehearsal

end LedgerWatch
