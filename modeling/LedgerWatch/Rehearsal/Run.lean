import LedgerWatch.Rehearsal

/-!
# Running a rehearsal

The caller takes steps, one after another or several side by side, and the tasks run beside it.
Everything happens on one thread: the caller goes on until it waits, then each task that can run
does so in turn until it waits, and so on until nothing can run. Only then, and only if the step
is not over, the clock moves to the next alarm. Whoever waits, waits for an alarm or for an
effect of the supervisor, and looks at the state when woken.
-/

namespace LedgerWatch.Rehearsal

/-- Something the caller does, which gives an `α` when it is over. -/
inductive Step (α : Type)
  | act (f : Rehearsal → α × Rehearsal)
  /-- Does something at once and goes on with the next step. -/
  | first (f : Rehearsal → Rehearsal) (next : Step α)
  | read (start : Client → Fetch α)
  /-- Subscribes to keys one after another until one fails. -/
  | subscribe (keys : Client → List WatchKey) (observer : Option String)
      (answer : Except Failure Unit → α)
  | unsubscribe (key : WatchKey) (answer : α)
  | unsubscribeAll (answer : α)
  | sleep (time : Nat) (answer : α)

/-- Where a step is. -/
inductive Branch (α : Type)
  | waiting (due : Nat) (step : Step α)
  | reading (due : Nat) (request : Request) (resume : request.Outcome → Store → Fetch α)
  | calling (call : CallId) (keys : List WatchKey) (observer : Option String)
      (answer : Except Failure Unit → α)
  | done (answer : α)

def Branch.answer? {α : Type} : Branch α → Option α
  | done answer => some answer
  | _ => none

/-- More than any loop below takes in a rehearsal of a sensible length. -/
def limit : Nat := 1000000000

/-! ## Channels -/

/-- The channel begins a read. -/
def startRead (r : Rehearsal) (c : ChannelId) : Rehearsal :=
  match r.feeds[c]? with
  | some (.polled channel _) =>
    let (due, r) := r.beginRead
    r.setFeed c (.polled channel due)
  | _ => r

/-- Carries out what a polling channel asks for. -/
def polled (r : Rehearsal) (c : ChannelId) : List Polling.Output → Rehearsal
  | [] => r
  | .emit event :: rest => (r.perform (.deliver c event)).polled c rest
  | .started result :: rest =>
    let r := match result with
      | .ok () => r.wake (.poller c)
      | .error _ => r
    (r.perform (.handshake c Polling.canStall result)).polled c rest
  | .read :: rest => (r.startRead c).polled c rest
  | .stopped :: rest =>
    let r := match r.supervisor.stopper? c, r.supervisor.channels[c]? with
      | some _, _ => { r with callerReady := true }
      | none, some channel => r.wake (.watchdog channel.pair)
      | none, none => r
    r.polled c rest

/-- Lets a polling channel take an input. -/
def poll (r : Rehearsal) (c : ChannelId) (input : Polling.Input) : Rehearsal :=
  match r.feeds[c]? with
  | some (.polled channel due) =>
    let (channel, outputs) := channel.step input
    (r.setFeed c (.polled channel due)).polled c outputs
  | _ => r

/-- What a read of the channel's filter gives now. -/
def readFor (r : Rehearsal) (c : ChannelId) : FilterRead :=
  match r.supervisor.channels[c]?.bind fun channel => r.supervisor.pairs[channel.pair]? with
  | some pair => pair.key.filter.collect (r.ledger.answer pair.key.filter.request)
  | none => .error .unavailable

/-- Ends a handshake that is due. -/
def finishStart (r : Rehearsal) (c : ChannelId) : Rehearsal :=
  match r.feeds[c]? with
  | some (.scripted script _) =>
    match script.failure with
    | some error => r.perform (.handshake c script.canStall (.error error))
    | none =>
      (r.deliver c script.onStart).perform (.handshake c script.canStall (.ok ()))
  | some (.polled _ _) => r.poll c (.answer r.now (r.readFor c))
  | none => r

def startDue (r : Rehearsal) (c : ChannelId) : Nat := (r.feeds[c]?.map Feed.due).getD 0

def hasStopped (r : Rehearsal) (c : ChannelId) : Bool :=
  (r.feeds[c]?.map Feed.hasStopped).getD true

/-! ## Tasks -/

def runWatchdog (p : PairId) : Nat → Rehearsal → Rehearsal
  | 0, r => r
  | fuel + 1, r =>
    match r.supervisor.pairs[p]? with
    | none => r
    | some pair =>
      match pair.watchdog with
      | .unborn | .ended => r
      | .idle =>
        if pair.cancelled then r.perform (.endWatchdog p)
        else if pair.notice then runWatchdog p fuel (r.perform (.takeNotice p))
        else if pair.tickDue ≤ r.now then runWatchdog p fuel (r.perform (.takeTick p))
        else r.setAlarm pair.tickDue (some (.watchdog p))
      | .queued =>
        if pair.line.head? = some .watchdog then runWatchdog p fuel (r.perform (.watchdogTurn p))
        else r
      | .stopping c =>
        if r.hasStopped c then runWatchdog p fuel (r.perform (.stopped c)) else r
      | .starting c =>
        if r.startDue c ≤ r.now then runWatchdog p fuel (r.finishStart c)
        else r.setAlarm (r.startDue c) (some (.watchdog p))

def runPoller (c : ChannelId) : Nat → Rehearsal → Rehearsal
  | 0, r => r
  | fuel + 1, r =>
    match r.feeds[c]? with
    | some (.polled channel due) =>
      if channel.cancelled then r.poll c .look
      else
        match channel.phase with
        | .waiting =>
          if channel.due ≤ r.now then runPoller c fuel (r.poll c (.tick r.now))
          else r.setAlarm channel.due (some (.poller c))
        | .reading =>
          if due ≤ r.now then runPoller c fuel (r.poll c (.answer r.now (r.readFor c)))
          else r.setAlarm due (some (.poller c))
        | _ => r
    | _ => r

def runTask (r : Rehearsal) : Task → Rehearsal
  | .watchdog p => runWatchdog p limit r
  | .poller c => runPoller c limit r

/-! ## The caller -/

variable {α : Type}

/-- Goes on with a fetch up to its next request. -/
def enter (r : Rehearsal) : Fetch α → Rehearsal × Branch α
  | .done store answer => (r.withStore store, .done answer)
  | .read store request resume =>
    let (due, r) := (r.withStore store).beginRead
    (r, .reading due request resume)

def subscribeNext (r : Rehearsal) (observer : Option String) (answer : Except Failure Unit → α) :
    List WatchKey → Rehearsal × Branch α
  | [] => (r, .done (answer (.ok ())))
  | key :: keys =>
    (r.perform (.subscribe key observer), .calling r.supervisor.calls.length keys observer answer)

def begin (r : Rehearsal) : Step α → Rehearsal × Branch α
  | .act f =>
    let (answer, r) := f r
    (r, .done answer)
  | .first f next => begin (f r) next
  | .read start => r.enter (start r.client)
  | .subscribe keys observer answer => r.subscribeNext observer answer (keys r.client)
  | .unsubscribe key answer =>
    (r.perform (.unsubscribe key), .calling r.supervisor.calls.length [] none fun _ => answer)
  | .unsubscribeAll answer =>
    (r.perform (.unsubscribeAll r.supervisor.registry.values),
      .calling r.supervisor.calls.length [] none fun _ => answer)
  | .sleep time answer => (r, .waiting (r.now + time) (.act fun r => (answer, r)))

/-- Goes on with a call, when it can. -/
def runCall (id : CallId) : Nat → Rehearsal → Rehearsal
  | 0, r => r
  | fuel + 1, r =>
    match r.supervisor.calls[id]? with
    | some (.arriving _) => runCall id fuel (r.perform (.enter id))
    | some (.following _) | some (.clearing _ _) =>
      if r.supervisor.hasTurn id then runCall id fuel (r.perform (.callTurn id)) else r
    | some (.starting _ c) =>
      if r.startDue c ≤ r.now then r.finishStart c else r.setAlarm (r.startDue c) none
    | some (.stopping _ c _) =>
      if r.hasStopped c then runCall id fuel (r.perform (.stopped c)) else r
    | some (.joining p _) =>
      match r.supervisor.pairs[p]? with
      | some pair =>
        if pair.watchdog.isGone then runCall id fuel (r.perform (.joinWatchdog id)) else r
      | none => r
    | _ => r

/-- Goes on with a branch until it waits or is done. -/
def runBranch : Nat → Rehearsal → Branch α → Rehearsal × Branch α
  | 0, r, branch => (r, branch)
  | fuel + 1, r, branch =>
    match branch with
    | .done _ => (r, branch)
    | .waiting due step =>
      if due ≤ r.now then
        let (r, branch) := r.begin step
        runBranch fuel r branch
      else (r.setAlarm due none, branch)
    | .reading due request resume =>
      if due ≤ r.now then
        let (r, branch) := r.enter (resume (r.ledger.answer request) r.store)
        runBranch fuel r branch
      else (r.setAlarm due none, branch)
    | .calling id keys observer answer =>
      let r := runCall id limit r
      match r.supervisor.calls[id]? with
      | some (.returned (.error error)) =>
        (r, .done (answer (.error (.subscription error))))
      | some (.returned (.ok ())) =>
        let (r, branch) := r.subscribeNext observer answer keys
        runBranch fuel r branch
      | _ => (r, branch)

/-- Lets every branch go on, in their order. -/
def runCaller (r : Rehearsal) : List (Branch α) → Rehearsal × List (Branch α)
  | [] => (r, [])
  | branch :: rest =>
    let (r, branch) := runBranch limit r branch
    let (r, rest) := runCaller r rest
    (r, branch :: rest)

/-! ## The clock -/

/-- Lets the tasks and the caller run until none can. -/
def settle : Nat → Rehearsal → List (Branch α) → Rehearsal × List (Branch α)
  | 0, r, branches => (r, branches)
  | fuel + 1, r, branches =>
    match r.ready with
    | task :: ready => settle fuel (runTask { r with ready } task) branches
    | [] =>
      if r.callerReady then
        let (r, branches) := runCaller { r with callerReady := false } branches
        settle fuel r branches
      else (r, branches)

def ring (r : Rehearsal) (alarm : Alarm) : Rehearsal :=
  match alarm.wakes with
  | some task => r.wake task
  | none => { r with callerReady := true }

/-- Moves the clock to the next alarm and lets every alarm due by then ring, in the order in
which they were set. -/
def advance (r : Rehearsal) : Option Rehearsal :=
  (r.alarms.map Alarm.due).min?.map fun time =>
    let (due, later) := r.alarms.partition (·.due ≤ time)
    due.foldl ring ({ r with alarms := later }.perform (.pass (time - r.now)))

/-- Lets the caller run first if it can, and then everything. -/
def turn (r : Rehearsal) (branches : List (Branch α)) : Rehearsal × List (Branch α) :=
  let (r, branches) :=
    if r.callerReady then runCaller { r with callerReady := false } branches else (r, branches)
  settle limit r branches

def complete : Nat → Rehearsal → List (Branch α) → Rehearsal × List (Branch α)
  | 0, r, branches => (r, branches)
  | fuel + 1, r, branches =>
    let (r, branches) := r.turn branches
    if branches.all (·.answer?.isSome) then (r, branches)
    else
      match r.advance with
      | some r => complete fuel r branches
      | none => (r, branches)

/-- Takes steps side by side, each after a time, and gives their answers in order; a step that
can never end has none. The observations are those of these steps alone. -/
def run (r : Rehearsal) (steps : List (Nat × Step α)) : Rehearsal × List (Option α) :=
  let branches := steps.map fun (time, step) => Branch.waiting (r.now + time) step
  let (r, branches) := complete limit { r with callerReady := true, observations := [] } branches
  (r, branches.map Branch.answer?)

end LedgerWatch.Rehearsal
