import LedgerWatch.Proofs.Store.LastWriter
import LedgerWatch.Proofs.Supervisor.Moves

/-!
# What arrives

An arrival is an update that a channel delivers through the open gate of its pair and that decodes
as the pair's kind. A step stores what arrives and calls the pair's callback with it, and nothing
else is stored or calls a callback (`step_seen`). Main statement: `deliveries_arrive`.
-/

namespace LedgerWatch

/-- A record that a channel of a pair brings, and the pair's observer. -/
structure Arrival where
  pair : PairId
  observer : Option String
  address : Address
  record : Record
  slot : UInt64
deriving DecidableEq

namespace Arrival

def put (store : Store) (a : Arrival) : Store := store.put a.address a.record a.slot

/-- The call of the observer's callback. -/
def call? (a : Arrival) : Option Effect :=
  a.observer.map fun observer => .observed observer a.address a.record a.slot

/-- What an event of a channel brings: an update that decodes brings the record. -/
def of? (p : PairId) (kind : RecordKind) (observer : Option String) : ChannelEvent → Option Arrival
  | .update u => (Record.decode kind u.data).toOption.map fun record =>
      ⟨p, observer, u.address, record, u.slot⟩
  | .heartbeat | .closed => none

end Arrival

/-- A callback is called. -/
def Effect.isCall : Effect → Bool
  | .observed .. => true
  | _ => false

namespace Supervisor

variable {s : Supervisor} {p : PairId}

/-! ## What the store and the callbacks see -/

/-- What is stored, and the callbacks that the current event has called so far. -/
def seen (s : Supervisor) : Store × List Effect := (s.store, s.effects.filter Effect.isCall)

theorem seen_emit {e : Effect} (quiet : e.isCall = false) (s : Supervisor) :
    (s.emit e).seen = s.seen := by
  simp [seen, emit, quiet]

@[simp]
theorem seen_modifyPair (s : Supervisor) (p : PairId) (f : Pair → Pair) :
    (s.modifyPair p f).seen = s.seen :=
  rfl

@[simp]
theorem seen_modifyChannel (s : Supervisor) (c : ChannelId) (f : Channel → Channel) :
    (s.modifyChannel c f).seen = s.seen :=
  rfl

@[simp]
theorem seen_setCall (s : Supervisor) (id : CallId) (call : Call) :
    (s.setCall id call).seen = s.seen :=
  rfl

@[simp]
theorem seen_addCall (s : Supervisor) (call : Call) : (s.addCall call).seen = s.seen :=
  rfl

@[simp]
theorem seen_joinLine (s : Supervisor) (p : PairId) (party : Party) :
    (s.joinLine p party).seen = s.seen :=
  rfl

@[simp]
theorem seen_stop (s : Supervisor) (c : ChannelId) : (s.emit (.stop c)).seen = s.seen :=
  seen_emit rfl s

@[simp]
theorem seen_wakeCall (s : Supervisor) (id : CallId) : (s.emit (.wakeCall id)).seen = s.seen :=
  seen_emit rfl s

@[simp]
theorem seen_wakeWatchdog (s : Supervisor) (p : PairId) :
    (s.emit (.wakeWatchdog p)).seen = s.seen :=
  seen_emit rfl s

@[simp]
theorem seen_answer (s : Supervisor) (id : CallId) (result : Except SubscriptionError Unit) :
    (s.answer id result).seen = s.seen := by
  simp [answer]

@[simp]
theorem seen_passTurn (s : Supervisor) (p : PairId) : (s.passTurn p).seen = s.seen := by
  unfold passTurn
  dsimp only
  split <;> simp

@[simp]
theorem seen_create (s : Supervisor) (p : PairId) : (s.create p).2.seen = s.seen := by
  unfold create
  exact seen_emit rfl _

@[simp]
theorem seen_tearDown (id : CallId) (ps : List PairId) (s : Supervisor) :
    (tearDown id ps s).seen = s.seen := by
  induction ps generalizing s with
  | nil => simp [tearDown]
  | cons p rest ih =>
    unfold tearDown
    dsimp only
    repeat' split
    all_goals simp [ih]

@[simp]
theorem seen_awaitWatchdog (s : Supervisor) (id : CallId) (p : PairId) (rest : List PairId) :
    (s.awaitWatchdog id p rest).seen = s.seen := by
  unfold awaitWatchdog
  repeat' split
  all_goals simp

theorem seen_subscribe (s : Supervisor) (key : WatchKey) (observer : Option String) :
    (s.subscribe key observer).seen = s.seen := by
  unfold subscribe
  split
  · rfl
  · split
    · rfl
    · dsimp only
      split <;> simp

theorem seen_enter (s : Supervisor) (id : CallId) : (s.enter id).seen = s.seen := by
  unfold enter
  split
  · split
    · rfl
    · split
      · rfl
      · split
        · simp
        · exact seen_create (s.joinLine _ (.call id)) _
  · rfl

@[simp]
theorem seen_replace (s : Supervisor) (p : PairId) : (s.replace p).seen = s.seen := by
  unfold replace
  repeat' split
  all_goals simp

@[simp]
theorem seen_seekReplacement (s : Supervisor) (p : PairId) :
    (s.seekReplacement p).seen = s.seen := by
  unfold seekReplacement
  repeat' split
  all_goals simp

@[simp]
theorem seen_act (s : Supervisor) (p : PairId) : (s.act p).seen = s.seen := by
  unfold act
  repeat' split
  all_goals simp

@[simp]
theorem seen_opened (s : Supervisor) (id : CallId) (p : PairId) (c : ChannelId) (canStall : Bool)
    (result : Except SubscriptionError Unit) : (s.opened id p c canStall result).seen = s.seen := by
  unfold opened
  cases result with
  | ok _ => simp
  | error error =>
    have finished : ((s.modifyPair p Pair.finish).passTurn p).seen = s.seen := by simp
    dsimp only
    rw [seen_answer]
    split
    · split
      · exact finished
      · exact finished
    · exact finished

@[simp]
theorem seen_replaced (s : Supervisor) (p : PairId) (c : ChannelId)
    (result : Except SubscriptionError Unit) : (s.replaced p c result).seen = s.seen := by
  unfold replaced
  split <;> simp

theorem seen_handshake (s : Supervisor) (c : ChannelId) (canStall : Bool)
    (result : Except SubscriptionError Unit) : (s.handshake c canStall result).seen = s.seen := by
  unfold handshake
  split
  · rfl
  · split
    · rfl
    · dsimp only
      split
      · simp
      · split
        · split <;> simp
        · simp

theorem seen_stopped (s : Supervisor) (c : ChannelId) : (s.stopped c).seen = s.seen := by
  unfold stopped
  split
  · rfl
  · dsimp only
    split
    · simp
    · split
      · split <;> simp
      · rfl

/-- Nothing but a delivery is stored or shown. -/
theorem seen_perform (s : Supervisor) (e : Event) (other : ∀ c event, e ≠ .deliver c event) :
    (s.perform e).seen = s.seen := by
  cases e with
  | deliver c event => exact absurd rfl (other c event)
  | pass time => rfl
  | subscribe key observer => exact seen_subscribe s key observer
  | unsubscribe key =>
    dsimp only [perform, unsubscribe]
    split
    · simp
    · exact seen_tearDown _ _ _
  | unsubscribeAll order =>
    dsimp only [perform, unsubscribeAll]
    split
    · exact seen_tearDown _ _ _
    · rfl
  | enter id => exact seen_enter s id
  | callTurn id =>
    dsimp only [perform, callTurn]
    repeat' split
    all_goals simp
  | joinWatchdog id =>
    dsimp only [perform, joinWatchdog]
    split <;> simp
  | watchdogTurn p =>
    dsimp only [perform, watchdogTurn]
    repeat' split
    all_goals simp
  | takeNotice p =>
    dsimp only [perform, takeNotice]
    repeat' split
    all_goals simp
  | takeTick p =>
    dsimp only [perform, takeTick]
    repeat' split
    all_goals simp
  | endWatchdog p =>
    dsimp only [perform, endWatchdog]
    repeat' split
    all_goals simp
  | handshake c canStall result => exact seen_handshake s c canStall result
  | stopped c => exact seen_stopped s c

/-! ## Arrivals of a run -/

/-- What a delivery brings through an open gate. -/
def arrival? (s : Supervisor) : Event → Option Arrival
  | .deliver c event => do
    let p ← s.owner? c
    let pair ← s.pairs[p]?
    if pair.gateOpen then Arrival.of? p pair.key.kind pair.observer event else none
  | _ => none

/-- What arrives in a run, in order. -/
def arrivals (s : Supervisor) : List Event → List Arrival
  | [] => []
  | e :: events => (s.arrival? e).toList ++ (s.step e).arrivals events

/-- The callbacks that a run calls, in order. -/
def called (s : Supervisor) : List Event → List Effect
  | [] => []
  | e :: events => (s.step e).effects.filter Effect.isCall ++ (s.step e).called events

/-- What the channels of a pair deliver in a run, in order. -/
def sent (s : Supervisor) (p : PairId) : List Event → List ChannelEvent
  | [] => []
  | .deliver c event :: events =>
    (if s.owner? c = some p then [event] else []) ++ (s.step (.deliver c event)).sent p events
  | e :: events => (s.step e).sent p events

section Deliver

variable {c : ChannelId} {pair : Pair} {event : ChannelEvent} {a : Arrival}

/-- An arrival is stored first, and then the callback is called with it. -/
theorem step_arrival (own : s.owner? c = some p) (at_p : s.pairs[p]? = some pair)
    (gate : pair.gateOpen = true)
    (brings : Arrival.of? p pair.key.kind pair.observer event = some a) :
    ∃ t : Supervisor, t.store = a.put s.store ∧ t.effects = [] ∧
      s.step (.deliver c event) = a.call?.elim t t.emit := by
  obtain ⟨channel, at_c, rfl⟩ := Option.map_eq_some_iff.1 own
  cases event with
  | heartbeat | closed => cases brings
  | update u =>
    cases decoded : Record.decode pair.key.kind u.data with
    | error => simp [Arrival.of?, decoded, Except.toOption] at brings
    | ok record =>
      obtain rfl : ⟨channel.pair, pair.observer, u.address, record, u.slot⟩ = a := by
        simpa [Arrival.of?, decoded, Except.toOption] using brings
      refine ⟨{ s with
        effects := []
        pairs := s.pairs.modify channel.pair (·.heard s.now)
        store := s.store.put u.address record u.slot }, rfl, rfl, ?_⟩
      cases observer : pair.observer <;>
        simp [step, perform, deliver, at_c, at_p, gate, modifyPair, decoded, observer,
          Arrival.call?]

/-- What does not arrive touches neither the store nor a callback. -/
theorem seen_of_nothing (own : s.owner? c = some p) (at_p : s.pairs[p]? = some pair)
    (gate : pair.gateOpen = true)
    (brings : Arrival.of? p pair.key.kind pair.observer event = none) :
    (s.step (.deliver c event)).seen = (s.store, []) := by
  obtain ⟨channel, at_c, rfl⟩ := Option.map_eq_some_iff.1 own
  cases event with
  | heartbeat | closed => simp [step, perform, deliver, at_c, at_p, gate, modifyPair, seen, emit,
      Effect.isCall]
  | update u =>
    cases decoded : Record.decode pair.key.kind u.data with
    | error => simp [step, perform, deliver, at_c, at_p, gate, modifyPair, decoded, seen]
    | ok record => simp [Arrival.of?, decoded, Except.toOption] at brings

end Deliver

theorem seen_emit_call {t : Supervisor} (a : Arrival) (fresh : t.effects = []) :
    (a.call?.elim t t.emit).seen = (t.store, a.call?.toList) := by
  unfold Arrival.call?
  cases a.observer with
  | none => simp [seen, fresh]
  | some observer => simp [seen, emit, fresh, Effect.isCall]

/-- A step stores what arrives and calls the callback with it. -/
theorem step_seen (s : Supervisor) (e : Event) : (s.step e).seen =
    ((s.arrival? e).elim s.store (·.put s.store), ((s.arrival? e).bind Arrival.call?).toList) := by
  cases e with
  | deliver c event =>
    unfold arrival?
    cases own : s.owner? c with
    | none =>
      have absent : s.channels[c]? = none := Option.map_eq_none_iff.1 own
      simp [step, perform, deliver, own, absent, seen]
    | some p =>
      obtain ⟨channel, at_c, rfl⟩ := Option.map_eq_some_iff.1 own
      cases at_p : s.pairs[channel.pair]? with
      | none => simp [step, perform, deliver, own, at_c, at_p, seen]
      | some pair =>
        cases gate : pair.gateOpen with
        | false => simp [step, perform, deliver, own, at_c, at_p, gate, seen]
        | true =>
          cases brings : Arrival.of? channel.pair pair.key.kind pair.observer event with
          | none => simpa [own, at_p, gate, brings] using seen_of_nothing own at_p gate brings
          | some a =>
            obtain ⟨t, stored, fresh, same⟩ := step_arrival own at_p gate brings
            simpa [own, at_p, gate, brings, same, stored] using seen_emit_call a fresh
  | _ => exact seen_perform { s with effects := [] } _ (by simp)

theorem run_seen (s : Supervisor) (events : List Event) :
    (s.run events).store = (s.arrivals events).foldl Arrival.put s.store ∧
      s.called events = (s.arrivals events).filterMap Arrival.call? := by
  induction events generalizing s with
  | nil => exact ⟨rfl, rfl⟩
  | cons e events ih =>
    obtain ⟨store, called⟩ := ih (s.step e)
    have stored : (s.step e).store = (s.arrival? e).elim s.store (·.put s.store) :=
      congrArg Prod.fst (s.step_seen e)
    have calls : (s.step e).effects.filter Effect.isCall =
        ((s.arrival? e).bind Arrival.call?).toList :=
      congrArg Prod.snd (s.step_seen e)
    change ((s.step e).run events).store = _ ∧ _
    rw [store, stored, Supervisor.called, called, calls, arrivals, List.foldl_append,
      List.filterMap_append]
    cases s.arrival? e with
    | none => exact ⟨rfl, rfl⟩
    | some a =>
      refine ⟨rfl, ?_⟩
      cases a.call? <;> rfl

/-! ## One pair's share -/

theorem pair_of_of? {q : PairId} {kind : RecordKind} {observer : Option String}
    {event : ChannelEvent} {a : Arrival} (brings : Arrival.of? q kind observer event = some a) :
    a.pair = q := by
  cases event with
  | heartbeat | closed => cases brings
  | update u =>
    obtain ⟨record, -, rfl⟩ := Option.map_eq_some_iff.1 brings
    rfl

theorem pair_of_arrival? {c : ChannelId} {event : ChannelEvent} {a : Arrival}
    (arrives : s.arrival? (.deliver c event) = some a) : s.owner? c = some a.pair := by
  obtain ⟨q, own, rest⟩ := Option.bind_eq_some_iff.1 arrives
  obtain ⟨pair, -, through⟩ := Option.bind_eq_some_iff.1 rest
  split at through
  · rw [own, pair_of_of? through]
  · cases through

/-- Gates never open again. -/
theorem gate_before {events : List Event} {pair last : Pair} (at_p : s.pairs[p]? = some pair)
    (at_end : (s.run events).pairs[p]? = some last) (gate : last.gateOpen = true) :
    pair.gateOpen = true ∧ last.key = pair.key ∧ last.observer = pair.observer := by
  obtain ⟨later, at_later, facts⟩ := run_later events at_p
  cases at_end.symm.trans at_later
  refine ⟨?_, facts.key, facts.observer⟩
  cases before : pair.gateOpen with
  | true => rfl
  | false => exact absurd (facts.gate before) (by simp [gate])

/-- What the channels of a pair deliver arrives if it decodes, as long as the gate is open. -/
theorem arrivals_of_pair {events : List Event} {pair last : Pair} (at_p : s.pairs[p]? = some pair)
    (at_end : (s.run events).pairs[p]? = some last) (gate : last.gateOpen = true) :
    (s.arrivals events).filter (·.pair = p) =
      (s.sent p events).filterMap (Arrival.of? p pair.key.kind pair.observer) := by
  induction events generalizing s pair with
  | nil => rfl
  | cons e events ih =>
    obtain ⟨through, -, -⟩ := gate_before at_p at_end gate
    obtain ⟨later, at_later, facts⟩ := (step_transition s e).later at_p
    have rest := ih at_later at_end
    rw [facts.key, facts.observer] at rest
    rw [arrivals, List.filter_append, rest]
    cases e with
    | deliver c event =>
      rw [sent, List.filterMap_append]
      congr 1
      by_cases own : s.owner? c = some p
      · have brings : s.arrival? (.deliver c event) =
            Arrival.of? p pair.key.kind pair.observer event := by
          simp [arrival?, own, at_p, through]
        rw [brings, if_pos own]
        cases here : Arrival.of? p pair.key.kind pair.observer event with
        | none => simp [here]
        | some a => simp [here, pair_of_of? here]
      · rw [if_neg own]
        cases here : s.arrival? (.deliver c event) with
        | none => rfl
        | some a =>
          have other : a.pair ≠ p := by
            rintro rfl
            exact own (pair_of_arrival? here)
          simp [other]
    | _ => rfl

/-- What a delivery through the open gate of a pair does. Any update and any heartbeat is taken for
a sign of life, and a closing is not. An arrival is in the store before the callback is called with
it, under every key of the record. All else touches neither the store nor a callback. -/
structure PassesGate (s : Supervisor) (p : PairId) (kind : RecordKind) (observer : Option String)
    (c : ChannelId) (event : ChannelEvent) : Prop where
  alive : event ≠ .closed → ∃ later, (s.step (.deliver c event)).pairs[p]? = some later ∧
    later.lastEvent = s.now ∧ later.consecutive = 0
  closed : event = .closed → ∃ pair later, s.pairs[p]? = some pair ∧
    (s.step (.deliver c event)).pairs[p]? = some later ∧ later.lastEvent = pair.lastEvent ∧
    later.consecutive = pair.consecutive
  arrives : ∀ a, Arrival.of? p kind observer event = some a → ∃ t : Supervisor,
    t.store = a.put s.store ∧ t.effects = [] ∧
    s.step (.deliver c event) = a.call?.elim t t.emit ∧
    ∀ key, key.bare = a.record.key a.address → key.isQuote = false →
      t.store.get? key = some ⟨a.record, a.slot⟩
  nothing : Arrival.of? p kind observer event = none →
    (s.step (.deliver c event)).store = s.store ∧
      (s.step (.deliver c event)).effects.filter Effect.isCall = []

theorem passesGate {c : ChannelId} {pair : Pair} (own : s.owner? c = some p)
    (at_p : s.pairs[p]? = some pair) (gate : pair.gateOpen = true) (event : ChannelEvent) :
    s.PassesGate p pair.key.kind pair.observer c event where
  alive news := ⟨_, News.heard ⟨c, event, rfl, news, own⟩ at_p gate, rfl, rfl⟩
  closed := by
    rintro rfl
    exact ⟨pair, _, at_p, Closing.closed ⟨c, rfl, own⟩ at_p gate, rfl, rfl⟩
  arrives a brings := by
    obtain ⟨t, stored, fresh, same⟩ := step_arrival own at_p gate brings
    refine ⟨t, stored, fresh, same, ?_⟩
    intro key under shown
    rw [stored, Arrival.put, Store.get?_put shown, if_pos under.symm]
  nothing brings :=
    Prod.mk.inj (seen_of_nothing own at_p gate brings)

/-- As long as its gate is open, the updates that the channels of a pair deliver and that decode as
its kind arrive, once and in order, whatever happens between them: each is stored, and the
observer's callback is called with it. All that is stored and called in a run is what arrives. -/
theorem deliveries_arrive (s : Supervisor) (p : PairId) (events : List Event) (pair last : Pair)
    (at_p : s.pairs[p]? = some pair) (at_end : (s.run events).pairs[p]? = some last)
    (gate : last.gateOpen = true) :
    let mine := (s.sent p events).filterMap (Arrival.of? p pair.key.kind pair.observer)
    (s.run events).store = (s.arrivals events).foldl Arrival.put s.store ∧
    s.called events = (s.arrivals events).filterMap Arrival.call? ∧
    (s.arrivals events).filter (·.pair = p) = mine ∧
    ((∀ a ∈ s.arrivals events, a.pair = p) →
      (s.run events).store = mine.foldl Arrival.put s.store ∧
        s.called events = mine.filterMap Arrival.call?) ∧
    ∀ a c event b, events = a ++ .deliver c event :: b → (s.run a).owner? c = some p →
      (s.run a).PassesGate p pair.key.kind pair.observer c event := by
  intro mine
  obtain ⟨stored, called⟩ := s.run_seen events
  have share : (s.arrivals events).filter (·.pair = p) = mine := arrivals_of_pair at_p at_end gate
  refine ⟨stored, called, share, ?_, ?_⟩
  · intro alone
    have whole : s.arrivals events = mine := by
      rw [← share, List.filter_eq_self.2]
      intro a mem
      exact decide_eq_true (alone a mem)
    rw [← whole]
    exact ⟨stored, called⟩
  · intro a c event b split own
    obtain ⟨held, at_held, facts⟩ := run_later a at_p
    have at_end' : ((s.run a).run (.deliver c event :: b)).pairs[p]? = some last := by
      rw [← run_append, ← split]
      exact at_end
    obtain ⟨through, -, -⟩ := gate_before at_held at_end' gate
    rw [← facts.key, ← facts.observer]
    exact passesGate own at_held through event

/-- What is read of the exchange state. -/
def exchange (markets : UInt16) : ExchangeState where
  admin := Address.unset
  signer := Address.unset
  quoteAssetMint := Address.unset
  numberOfMarkets := markets
  numberOfSpotMarkets := 1
  signerNonce := 0
  exchangeStatus := 0

def exchangeUpdate (markets : UInt16) (slot : UInt64) : ChannelEvent :=
  .update ⟨Address.unset, AccountType.encode .state (exchange markets), slot⟩

def watched : Supervisor :=
  run {} [.subscribe (wholeProgram .state) (some "watch"), .enter 0, .handshake 0 false (.ok ())]

/-- Two updates that decode, among others and a closing. -/
def mixed : List Event :=
  [.deliver 0 (exchangeUpdate 1 5), .deliver 0 (.update ⟨Address.unset, [], 6⟩),
    .deliver 0 .heartbeat, .deliver 0 .closed, .takeNotice 0, .deliver 0 (exchangeUpdate 2 7)]

theorem deliveries_arrive_mixed :
    ∃ pair last, watched.pairs[0]? = some pair ∧ (watched.run mixed).pairs[0]? = some last ∧
      last.gateOpen = true ∧
      watched.called mixed =
        [.observed "watch" Address.unset (.state (exchange 1)) 5,
          .observed "watch" Address.unset (.state (exchange 2)) 7] ∧
      (watched.run mixed).store.get? .state = some ⟨.state (exchange 2), 7⟩ := by
  have arrived : watched.arrivals mixed =
      [⟨0, some "watch", Address.unset, .state (exchange 1), 5⟩,
        ⟨0, some "watch", Address.unset, .state (exchange 2), 7⟩] := by
    decide +kernel
  have opened : ((watched.run mixed).pairs[0]?.map Pair.gateOpen) = some true := by
    decide +kernel
  obtain ⟨last, at_end, gate⟩ := Option.map_eq_some_iff.1 opened
  obtain ⟨stored, called, -⟩ := deliveries_arrive watched 0 mixed _ last rfl at_end gate
  refine ⟨_, last, rfl, at_end, gate, ?_, ?_⟩
  · rw [called, arrived]
    rfl
  · rw [stored, arrived]
    rfl

end Supervisor

end LedgerWatch
