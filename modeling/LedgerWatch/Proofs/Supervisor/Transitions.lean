import LedgerWatch.Watch.Supervisor

/-!
# What one event can do

`Transition s e t` lists, with its guards, each way in which an event `e` can change a supervisor
`s` into `t`; the effects shown to the surroundings are left open. `step_transition` says that a
step is always one of them, so that an invariant needs one case for each way, and no proof about
runs unfolds the steps again. Tearing down can go over several pairs within one event, which
`TornDown` follows.
-/

namespace LedgerWatch.Supervisor

/-- The pair as it is registered. -/
def newPair (s : Supervisor) (key : WatchKey) (observer : Option String) : Pair :=
  { key, observer, lastEvent := s.now }

/-- The channel the supervisor makes next, for the pair `p`. -/
def newChannel (p : PairId) : Channel := { pair := p }

/-- An idle watchdog wakes: it takes the notice, or a tick that is due. -/
inductive Wakes (s : Supervisor) (p : PairId) (pair : Pair) : Event → Pair → Prop
  | notice (idle : pair.watchdog = .idle) (noticed : pair.notice = true) :
      Wakes s p pair (.takeNotice p) { pair with notice := false }
  | tick (idle : pair.watchdog = .idle) (due : pair.tickDue ≤ s.now) :
      Wakes s p pair (.takeTick p) { pair with tickDue := pair.tickDue + s.checkInterval }

/-- A channel that was silent for too long counts as stalled. -/
def stall (pair : Pair) : Pair :=
  { pair with state := if pair.state = .active then .stalled else pair.state }

/-- The watchdog gets the turn with the channel, at once when it wakes or after it waited. The
last pair has the watchdog at the head of its line. -/
inductive GetsTurn (s : Supervisor) (p : PairId) (pair : Pair) : Event → Pair → Prop
  | atOnce {e woken} (wakes : Wakes s p pair e woken) (needed : needsReplacement pair s.now = true)
      (free : pair.line = []) : GetsTurn s p pair e { stall woken with line := [.watchdog] }
  | waited (queued : pair.watchdog = .queued) (first : pair.line.head? = some .watchdog) :
      GetsTurn s p pair (.watchdogTurn p) pair

/-- The pair while its channel is replaced. -/
def replacing (pair : Pair) (watchdog : Watchdog) : Pair :=
  { pair with
    state := .resubscribing
    consecutive := pair.consecutive + 1
    total := pair.total + 1
    channel := none
    watchdog }

/-- The pair after its first handshake. -/
def openedPair (s : Supervisor) (pair : Pair) (c : ChannelId) (canStall : Bool) : Pair :=
  { pair with
    state := if pair.state = .subscribing then .active else pair.state
    lastEvent := s.now
    channel := some c
    patience := if canStall then s.resubTimeout else none
    watchdog := .idle
    tickDue := s.now
    line := pair.line.tail }

/-- The pair after the handshake of a replacement. -/
def replacedPair (s : Supervisor) (pair : Pair) (c : ChannelId) : Pair :=
  { pair with
    lastEvent := s.now
    state := if pair.state = .resubscribing ∧ !pair.cancelled then .active else pair.state
    channel := some c
    watchdog := .idle
    line := pair.line.tail }

/-- A channel with a new status. -/
def setStatus (s : Supervisor) (c : ChannelId) (status : ChannelStatus) : List Channel :=
  s.channels.modify c fun channel => { channel with status }

/-- A channel's stop counted. -/
def countStop (s : Supervisor) (c : ChannelId) : List Channel :=
  s.channels.modify c fun channel => { channel with stops := channel.stops + 1 }

/-- Tearing down pairs one after another, up to the first that has to be waited for. -/
inductive TornDown (id : CallId) : List PairId → Supervisor → Supervisor → Prop
  | done {s fx} :
      TornDown id [] s { s with calls := s.calls.set id (.returned (.ok ())), effects := fx }
  | missing {p rest s t fx} (absent : s.pairs[p]? = none)
      (more : TornDown id rest { s with effects := fx } t) :
      TornDown id (p :: rest) s t
  | passed {p rest s t pair fx} (at_p : s.pairs[p]? = some pair) (free : pair.line = [])
      (slot : pair.channel = none) (gone : pair.watchdog.isGone = true)
      (more : TornDown id rest
        { s with pairs := s.pairs.set p pair.finish, effects := fx } t) :
      TornDown id (p :: rest) s t
  | queued {p rest s pair fx} (at_p : s.pairs[p]? = some pair) (busy : pair.line ≠ []) :
      TornDown id (p :: rest) s { s with
        calls := s.calls.set id (.clearing p rest)
        pairs := s.pairs.set p { pair.finish with line := pair.line ++ [.call id] }
        effects := fx }
  | stops {p rest s pair c fx} (at_p : s.pairs[p]? = some pair) (free : pair.line = [])
      (slot : pair.channel = some c) :
      TornDown id (p :: rest) s { s with
        calls := s.calls.set id (.stopping p c rest)
        pairs := s.pairs.set p { pair.finish with channel := none }
        effects := fx }
  | joins {p rest s pair fx} (at_p : s.pairs[p]? = some pair) (free : pair.line = [])
      (slot : pair.channel = none) (alive : pair.watchdog.isGone = false) :
      TornDown id (p :: rest) s { s with
        calls := s.calls.set id (.joining p rest)
        pairs := s.pairs.set p pair.finish
        effects := fx }

/-- A call whose pair `p` has no channel any more goes on once the watchdog is gone. -/
inductive GoesOn (id : CallId) (p : PairId) (rest : List PairId) (s : Supervisor) :
    Supervisor → Prop
  | onward {t} (gone : ∀ pair, s.pairs[p]? = some pair → pair.watchdog.isGone = true)
      (torn : TornDown id rest s t) : GoesOn id p rest s t
  | joins {pair fx} (at_p : s.pairs[p]? = some pair) (alive : pair.watchdog.isGone = false) :
      GoesOn id p rest s { s with calls := s.calls.set id (.joining p rest), effects := fx }

inductive Transition (s : Supervisor) : Event → Supervisor → Prop
  | idle {e fx} : Transition s e { s with effects := fx }
  | passed {time fx} : Transition s (.pass time) { s with now := s.now + time, effects := fx }
  | registered {key observer fx} (new : s.registry.get? key = none) :
      Transition s (.subscribe key observer) { s with
        registry := s.registry.insert key s.pairs.length
        pairs := s.pairs ++ [s.newPair key observer]
        calls := s.calls ++ [.arriving s.pairs.length]
        effects := fx }
  | entered {id p pair fx} (call : s.calls[id]? = some (.arriving p))
      (at_p : s.pairs[p]? = some pair) (free : pair.line = []) (live : pair.cancelled = false) :
      Transition s (.enter id) { s with
        pairs := s.pairs.set p { pair with line := [.call id] }
        channels := s.channels ++ [newChannel p]
        calls := s.calls.set id (.starting p s.channels.length)
        effects := fx }
  | leftAlone {id p pair fx} (call : s.calls[id]? = some (.arriving p))
      (at_p : s.pairs[p]? = some pair) (free : pair.line = []) (finished : pair.cancelled = true) :
      Transition s (.enter id)
        { s with calls := s.calls.set id (.returned (.ok ())), effects := fx }
  | found {key observer p result fx} (known : s.registry.get? key = some p)
      (settled : ∀ pair, s.pairs[p]? = some pair → pair.line = [] ∧ result = followerResult pair) :
      Transition s (.subscribe key observer)
        { s with calls := s.calls ++ [.returned result], effects := fx }
  | followed {key observer p pair fx} (known : s.registry.get? key = some p)
      (at_p : s.pairs[p]? = some pair) (busy : pair.line ≠ []) :
      Transition s (.subscribe key observer) { s with
        calls := s.calls ++ [.following p]
        pairs := s.pairs.set p { pair with line := pair.line ++ [.call s.calls.length] }
        effects := fx }
  | unknown {key fx} (new : s.registry.get? key = none) :
      Transition s (.unsubscribe key)
        { s with calls := s.calls ++ [.returned (.ok ())], effects := fx }
  | unsubscribed {key p t fx} (known : s.registry.get? key = some p)
      (torn : TornDown s.calls.length [p] { s with
        calls := s.calls ++ [.returned (.ok ())]
        registry := s.registry.erase key
        effects := fx } t) :
      Transition s (.unsubscribe key) t
  | unsubscribedAll {order t fx} (perm : order.Perm s.registry.values)
      (torn : TornDown s.calls.length order { s with
        calls := s.calls ++ [.returned (.ok ())]
        registry := {}
        effects := fx } t) :
      Transition s (.unsubscribeAll order) t
  | answered {id p pair fx} (call : s.calls[id]? = some (.following p))
      (at_p : s.pairs[p]? = some pair) (first : pair.line.head? = some (.call id)) :
      Transition s (.callTurn id) { s with
        calls := s.calls.set id (.returned (followerResult pair))
        pairs := s.pairs.set p { pair with line := pair.line.tail }
        effects := fx }
  | cleared {id p rest pair c fx} (call : s.calls[id]? = some (.clearing p rest))
      (at_p : s.pairs[p]? = some pair) (first : pair.line.head? = some (.call id))
      (slot : pair.channel = some c) :
      Transition s (.callTurn id) { s with
        calls := s.calls.set id (.stopping p c rest)
        pairs := s.pairs.set p { pair with channel := none, line := pair.line.tail }
        effects := fx }
  | foundClear {id p rest pair t fx} (call : s.calls[id]? = some (.clearing p rest))
      (at_p : s.pairs[p]? = some pair) (first : pair.line.head? = some (.call id))
      (slot : pair.channel = none)
      (onward : GoesOn id p rest { s with
        pairs := s.pairs.set p { pair with line := pair.line.tail }
        effects := fx } t) :
      Transition s (.callTurn id) t
  | joined {id p rest t fx} (call : s.calls[id]? = some (.joining p rest))
      (onward : GoesOn id p rest { s with effects := fx } t) :
      Transition s (.joinWatchdog id) t
  | rested {e p pair woken fx} (at_p : s.pairs[p]? = some pair) (wakes : Wakes s p pair e woken)
      (content : needsReplacement pair s.now = false) :
      Transition s e { s with pairs := s.pairs.set p woken, effects := fx }
  | queued {e p pair woken fx} (at_p : s.pairs[p]? = some pair) (wakes : Wakes s p pair e woken)
      (needed : needsReplacement pair s.now = true) (busy : pair.line ≠ []) :
      Transition s e { s with
        pairs := s.pairs.set p
          { stall woken with line := pair.line ++ [.watchdog], watchdog := .queued }
        effects := fx }
  | withdrew {e p pair ready fx} (at_p : s.pairs[p]? = some pair)
      (turn : GetsTurn s p pair e ready) (finished : pair.cancelled = true) :
      Transition s e { s with
        pairs := s.pairs.set p { ready with watchdog := .idle, line := ready.line.tail }
        effects := fx }
  | stopsOld {e p pair ready old fx} (at_p : s.pairs[p]? = some pair)
      (turn : GetsTurn s p pair e ready) (live : pair.cancelled = false)
      (slot : pair.channel = some old) :
      Transition s e { s with
        pairs := s.pairs.set p (replacing ready (.stopping old))
        effects := fx }
  | startsNew {e p pair ready fx} (at_p : s.pairs[p]? = some pair)
      (turn : GetsTurn s p pair e ready) (live : pair.cancelled = false)
      (slot : pair.channel = none) :
      Transition s e { s with
        pairs := s.pairs.set p (replacing ready (.starting s.channels.length))
        channels := s.channels ++ [newChannel p]
        effects := fx }
  | ended {p pair fx} (at_p : s.pairs[p]? = some pair) (idle : pair.watchdog = .idle)
      (finished : pair.cancelled = true) :
      Transition s (.endWatchdog p) { s with
        pairs := s.pairs.set p { pair with watchdog := .ended }
        effects := fx }
  | opened {c canStall id p pair channel fx} (at_c : s.channels[c]? = some channel)
      (starting : channel.status = .starting) (call : s.calls[id]? = some (.starting p c))
      (at_p : s.pairs[channel.pair]? = some pair) :
      Transition s (.handshake c canStall (.ok ())) { s with
        channels := s.setStatus c .started
        pairs := s.pairs.set channel.pair (s.openedPair pair c canStall)
        calls := s.calls.set id (.returned (.ok ()))
        effects := fx }
  | failed {c canStall id p pair channel error fx} (at_c : s.channels[c]? = some channel)
      (starting : channel.status = .starting) (call : s.calls[id]? = some (.starting p c))
      (at_p : s.pairs[channel.pair]? = some pair) :
      Transition s (.handshake c canStall (.error error)) { s with
        channels := s.setStatus c .failed
        pairs := s.pairs.set channel.pair { pair.finish with line := pair.line.tail }
        registry :=
          if s.registry.get? pair.key = some channel.pair then s.registry.erase pair.key
          else s.registry
        calls := s.calls.set id (.returned (.error error))
        effects := fx }
  | replaced {c canStall pair channel fx} (at_c : s.channels[c]? = some channel)
      (starting : channel.status = .starting) (at_p : s.pairs[channel.pair]? = some pair)
      (watchdog : pair.watchdog = .starting c) :
      Transition s (.handshake c canStall (.ok ())) { s with
        channels := s.setStatus c .started
        pairs := s.pairs.set channel.pair (s.replacedPair pair c)
        effects := fx }
  | notReplaced {c canStall pair channel error fx} (at_c : s.channels[c]? = some channel)
      (starting : channel.status = .starting) (at_p : s.pairs[channel.pair]? = some pair)
      (watchdog : pair.watchdog = .starting c) :
      Transition s (.handshake c canStall (.error error)) { s with
        channels := s.setStatus c .failed
        pairs := s.pairs.set channel.pair { pair with watchdog := .idle, line := pair.line.tail }
        effects := fx }
  | unawaited {c canStall result pair channel status fx} (at_c : s.channels[c]? = some channel)
      (starting : channel.status = .starting) (at_p : s.pairs[channel.pair]? = some pair)
      (noCall : ∀ (id : CallId) (p : PairId), s.calls[id]? ≠ some (Call.starting p c))
      (watchdog : pair.watchdog ≠ .starting c) :
      Transition s (.handshake c canStall result)
        { s with channels := s.setStatus c status, effects := fx }
  | stray {c canStall result channel status calls fx} (at_c : s.channels[c]? = some channel)
      (missing : s.pairs[channel.pair]? = none) :
      Transition s (.handshake c canStall result)
        { s with channels := s.setStatus c status, calls := calls, effects := fx }
  | stoppedForCall {c id p rest channel t fx} (at_c : s.channels[c]? = some channel)
      (call : s.calls[id]? = some (.stopping p c rest))
      (onward : GoesOn id p rest { s with channels := s.countStop c, effects := fx } t) :
      Transition s (.stopped c) t
  | stoppedForWatchdog {c pair channel fx} (at_c : s.channels[c]? = some channel)
      (at_p : s.pairs[channel.pair]? = some pair) (watchdog : pair.watchdog = .stopping c) :
      Transition s (.stopped c) { s with
        channels := s.countStop c ++ [newChannel channel.pair]
        pairs := s.pairs.set channel.pair { pair with watchdog := .starting s.channels.length }
        effects := fx }
  | heard {c event channel pair store fx} (at_c : s.channels[c]? = some channel)
      (at_p : s.pairs[channel.pair]? = some pair) (gate : pair.gateOpen = true)
      (news : event ≠ .closed) :
      Transition s (.deliver c event) { s with
        pairs := s.pairs.set channel.pair (pair.heard s.now)
        store := store
        effects := fx }
  | closing {c channel pair fx} (at_c : s.channels[c]? = some channel)
      (at_p : s.pairs[channel.pair]? = some pair) (gate : pair.gateOpen = true) :
      Transition s (.deliver c .closed) { s with
        pairs := s.pairs.set channel.pair pair.closing
        effects := fx }

variable {s : Supervisor} {p : PairId} {pair : Pair}

theorem modify_eq_set {α : Type} {l : List α} {i : Nat} {a : α} (h : l[i]? = some a) (f : α → α) :
    l.modify i f = l.set i (f a) := by
  apply List.ext_getElem?
  intro j
  by_cases hj : i = j
  · subst hj
    obtain ⟨hi, rfl⟩ := List.getElem?_eq_some_iff.1 h
    simp [hi]
  · simp [hj]

theorem set_eq_self {α : Type} {l : List α} {i : Nat} {a : α} (h : l[i]? = some a) :
    l.set i a = l := by
  obtain ⟨hi, rfl⟩ := List.getElem?_eq_some_iff.1 h
  exact List.set_getElem_self hi

theorem of_getElem?_set {α : Type} {l : List α} {i j : Nat} {a b : α}
    (h : (l.set i a)[j]? = some b) : i = j ∧ b = a ∨ i ≠ j ∧ l[j]? = some b := by
  rw [List.getElem?_set] at h
  by_cases hj : i = j
  · rw [if_pos hj] at h
    split at h
    · exact .inl ⟨hj, (Option.some.inj h).symm⟩
    · cases h
  · rw [if_neg hj] at h
    exact .inr ⟨hj, h⟩

theorem getElem?_concat_ne {α : Type} {l : List α} {i : Nat} {a : α} (h : i ≠ l.length) :
    (l ++ [a])[i]? = l[i]? := by
  rcases Nat.lt_or_gt_of_ne h with hi | hi
  · exact List.getElem?_append_left hi
  · rw [List.getElem?_eq_none (Nat.le_of_lt hi)]
    refine List.getElem?_eq_none ?_
    rw [List.length_append]
    exact hi

theorem of_getElem?_concat {α : Type} {l : List α} {i : Nat} {a b : α}
    (h : (l ++ [a])[i]? = some b) : l[i]? = some b ∨ i = l.length ∧ b = a := by
  by_cases hi : i = l.length
  · rw [hi, List.getElem?_concat_length] at h
    exact .inr ⟨hi, (Option.some.inj h).symm⟩
  · rw [getElem?_concat_ne hi] at h
    exact .inl h

theorem modifyPair_eq_set (h : s.pairs[p]? = some pair) (f : Pair → Pair) :
    s.modifyPair p f = { s with pairs := s.pairs.set p (f pair) } := by
  rw [modifyPair, modify_eq_set h]

theorem modifyPair_missing (h : s.pairs[p]? = none) (f : Pair → Pair) : s.modifyPair p f = s := by
  rw [modifyPair, List.modify_eq_self (List.getElem?_eq_none_iff.1 h)]

theorem passTurn_eq_set (h : s.pairs[p]? = some pair) :
    s.passTurn p =
      { s with
        pairs := s.pairs.set p { pair with line := pair.line.tail }
        effects := (s.passTurn p).effects } := by
  rw [passTurn, modifyPair_eq_set h]
  dsimp only
  split
  · rfl
  · rfl
  · rfl

theorem passTurn_modifyPair (h : s.pairs[p]? = some pair) (f : Pair → Pair) :
    (s.modifyPair p f).passTurn p =
      { s with
        pairs := s.pairs.set p { f pair with line := (f pair).line.tail }
        effects := ((s.modifyPair p f).passTurn p).effects } := by
  have hp : p < s.pairs.length := (List.getElem?_eq_some_iff.1 h).1
  have here : (s.modifyPair p f).pairs[p]? = some (f pair) := by
    rw [modifyPair_eq_set h]
    exact List.getElem?_set_self hp
  rw [passTurn_eq_set here, modifyPair_eq_set h, List.set_set]

theorem passTurn_missing (h : s.pairs[p]? = none) :
    s.passTurn p = { s with effects := (s.passTurn p).effects } := by
  rw [passTurn, modifyPair_missing h]
  split
  · rfl
  · rfl
  · rfl

/-! ## Tearing down -/

theorem tearDown_tornDown (id : CallId) (ps : List PairId) (s : Supervisor) :
    TornDown id ps s (tearDown id ps s) := by
  induction ps generalizing s with
  | nil => exact .done
  | cons p rest ih =>
    unfold tearDown
    cases at_p : s.pairs[p]? with
    | none =>
      simp only [modifyPair_missing at_p, emit, at_p]
      exact .missing at_p (ih _)
    | some pair =>
      have hp : p < s.pairs.length := (List.getElem?_eq_some_iff.1 at_p).1
      have here (r : Pair) : (s.pairs.set p r)[p]? = some r := by simp [hp]
      simp only [modifyPair_eq_set at_p, emit, here]
      split
      · rename_i busy
        have busy : pair.line ≠ [] := by simpa [Pair.finish] using busy
        rw [joinLine, modifyPair_eq_set (here pair.finish)]
        simp only [setCall, List.set_set]
        exact .queued at_p busy
      · rename_i free
        have free : pair.line = [] := by simpa [Pair.finish] using free
        split
        · rename_i c slot
          rw [modifyPair_eq_set (here pair.finish)]
          simp only [setCall, List.set_set]
          exact .stops at_p free slot
        · rename_i slot
          split
          · rename_i gone
            exact .passed at_p free slot gone (ih _)
          · rename_i alive
            exact .joins at_p free slot (by simpa [Pair.finish] using alive)

theorem awaitWatchdog_goesOn (s : Supervisor) (id : CallId) (p : PairId) (rest : List PairId) :
    GoesOn id p rest s (awaitWatchdog s id p rest) := by
  unfold awaitWatchdog
  split
  · rename_i absent
    exact .onward (fun pair at_p => by simp [absent] at at_p) (tearDown_tornDown id rest s)
  · rename_i pair at_p
    split
    · rename_i gone
      refine .onward (fun pair' at_p' => ?_) (tearDown_tornDown id rest s)
      cases at_p.symm.trans at_p'
      exact gone
    · rename_i alive
      exact .joins at_p (by simpa using alive)

/-! ## Calls -/

theorem subscribe_transition (s : Supervisor) (fx : List Effect) (key : WatchKey)
    (observer : Option String) :
    Transition s (.subscribe key observer) (subscribe { s with effects := fx } key observer) := by
  unfold subscribe
  dsimp only
  split
  · rename_i new
    exact .registered new
  · rename_i p known
    split
    · rename_i missing
      exact .found known (fun pair at_p => by simp [missing] at at_p)
    · rename_i pair at_p
      split
      · rename_i free
        refine .found known (fun pair' at_p' => ?_)
        cases at_p.symm.trans at_p'
        exact ⟨List.isEmpty_iff.1 free, rfl⟩
      · rename_i busy
        have h : ({ s with effects := fx }.addCall (.following p)).pairs[p]? = some pair := at_p
        rw [joinLine, modifyPair_eq_set h]
        exact .followed known at_p (by simpa using busy)

theorem enter_transition (s : Supervisor) (fx : List Effect) (id : CallId) :
    Transition s (.enter id) (enter { s with effects := fx } id) := by
  unfold enter
  dsimp only
  split
  · rename_i p call
    split
    · exact .idle
    · rename_i pair at_p
      split
      · exact .idle
      · rename_i free
        have free : pair.line = [] := by simpa using free
        split
        · rename_i finished
          exact .leftAlone call at_p free finished
        · rename_i live
          have at_p' : { s with effects := fx }.pairs[p]? = some pair := at_p
          rw [joinLine, modifyPair_eq_set at_p', free]
          exact .entered call at_p free (by simpa using live)
  · exact .idle

theorem unsubscribeAll_transition (s : Supervisor) (fx : List Effect) (order : List PairId) :
    Transition s (.unsubscribeAll order) (unsubscribeAll { s with effects := fx } order) := by
  unfold unsubscribeAll
  split
  · rename_i perm
    exact .unsubscribedAll (List.isPerm_iff.1 perm) (tearDown_tornDown _ _ _)
  · exact .idle

theorem unsubscribe_transition (s : Supervisor) (fx : List Effect) (key : WatchKey) :
    Transition s (.unsubscribe key) (unsubscribe { s with effects := fx } key) := by
  unfold unsubscribe
  dsimp only [addCall]
  split
  · rename_i new
    exact .unknown new
  · rename_i p known
    exact .unsubscribed known (tearDown_tornDown _ _ _)

theorem callTurn_transition (s : Supervisor) (fx : List Effect) (id : CallId)
    (turn : hasTurn s id = true) :
    Transition s (.callTurn id) (callTurn { s with effects := fx } id) := by
  unfold hasTurn at turn
  unfold callTurn
  cases call : s.calls[id]? with
  | none => simpa [call] using Transition.idle
  | some at_id =>
    cases at_id with
    | following p =>
      simp only [call] at turn ⊢
      cases at_p : s.pairs[p]? with
      | none => exact .idle
      | some pair =>
        have at_p' : { s with effects := fx }.pairs[p]? = some pair := at_p
        dsimp only
        rw [passTurn_eq_set at_p', answer]
        exact .answered call at_p (by simpa [at_p] using turn)
    | clearing p rest =>
      simp only [call] at turn ⊢
      cases at_p : s.pairs[p]? with
      | none => exact .idle
      | some pair =>
        have first : pair.line.head? = some (.call id) := by simpa [at_p] using turn
        have at_p' : { s with effects := fx }.pairs[p]? = some pair := at_p
        cases slot : pair.channel with
        | none =>
          simp only [slot]
          rw [passTurn_eq_set at_p']
          exact .foundClear call at_p first slot (awaitWatchdog_goesOn _ _ _ _)
        | some c =>
          simp only [slot]
          rw [passTurn_modifyPair at_p']
          dsimp only [setCall, emit]
          exact .cleared call at_p first slot
    | _ => simp [call] at turn

/-! ## Watchdogs -/

theorem GetsTurn.cancelled_eq {e : Event} {ready : Pair} (h : GetsTurn s p pair e ready) :
    ready.cancelled = pair.cancelled := by
  cases h with
  | atOnce wakes _ _ => cases wakes <;> rfl
  | waited _ _ => rfl

theorem GetsTurn.channel_eq {e : Event} {ready : Pair} (h : GetsTurn s p pair e ready) :
    ready.channel = pair.channel := by
  cases h with
  | atOnce wakes _ _ => cases wakes <;> rfl
  | waited _ _ => rfl

theorem replace_transition {e : Event} {ready : Pair} (fx : List Effect)
    (at_p : s.pairs[p]? = some pair) (turn : GetsTurn s p pair e ready) :
    Transition s e (replace { s with pairs := s.pairs.set p ready, effects := fx } p) := by
  have hp : p < s.pairs.length := (List.getElem?_eq_some_iff.1 at_p).1
  have here (r : Pair) : (s.pairs.set p r)[p]? = some r := by simp [hp]
  unfold replace
  simp only [here]
  split
  · rename_i finished
    rw [passTurn_modifyPair (here ready), emit]
    simp only [List.set_set]
    exact @Transition.withdrew s e p pair ready _ at_p turn (turn.cancelled_eq ▸ finished)
  · rename_i live
    have live' : pair.cancelled = false := by simpa [turn.cancelled_eq] using live
    rw [modifyPair_eq_set (here ready)]
    cases slot : ready.channel with
    | some old =>
      simp only [emit, List.set_set, modify_eq_set (here _), modifyPair]
      exact .stopsOld at_p turn live' (turn.channel_eq ▸ slot)
    | none =>
      simp only [create, emit, List.set_set, modify_eq_set (here _), modifyPair]
      exact .startsNew at_p turn live' (turn.channel_eq ▸ slot)

theorem Wakes.needs {e : Event} {woken : Pair} (h : Wakes s p pair e woken) (now : Nat) :
    needsReplacement woken now = needsReplacement pair now := by
  cases h <;> rfl

theorem Wakes.line_eq {e : Event} {woken : Pair} (h : Wakes s p pair e woken) :
    woken.line = pair.line := by
  cases h <;> rfl

theorem act_transition {e : Event} {woken : Pair} (fx : List Effect)
    (at_p : s.pairs[p]? = some pair) (wakes : Wakes s p pair e woken) :
    Transition s e (act { s with pairs := s.pairs.set p woken, effects := fx } p) := by
  have hp : p < s.pairs.length := (List.getElem?_eq_some_iff.1 at_p).1
  have here (r : Pair) : (s.pairs.set p r)[p]? = some r := by simp [hp]
  unfold act
  simp only [here, wakes.needs]
  split
  · rename_i needed
    change Transition s e (seekReplacement (modifyPair _ p stall) p)
    rw [modifyPair_eq_set (here woken)]
    simp only [List.set_set, seekReplacement, here]
    rw [joinLine, modifyPair_eq_set (here (stall woken))]
    have line_eq : (stall woken).line = pair.line := wakes.line_eq
    simp only [List.set_set, line_eq]
    split
    · rename_i free
      have free : pair.line = [] := List.isEmpty_iff.1 free
      simp only [free, List.nil_append]
      exact replace_transition fx at_p (.atOnce wakes needed free)
    · rename_i busy
      rw [modifyPair_eq_set (here _)]
      simp only [List.set_set]
      exact .queued at_p wakes needed (by simpa using busy)
  · rename_i content
    exact .rested at_p wakes (by simpa using content)

theorem takeNotice_transition (s : Supervisor) (fx : List Effect) (p : PairId) :
    Transition s (.takeNotice p) (takeNotice { s with effects := fx } p) := by
  unfold takeNotice
  dsimp only
  split
  · exact .idle
  · rename_i pair at_p
    split
    · rename_i h
      rw [modifyPair_eq_set (show { s with effects := fx }.pairs[p]? = some pair from at_p)]
      exact act_transition fx at_p (.notice h.1 h.2)
    · exact .idle

theorem takeTick_transition (s : Supervisor) (fx : List Effect) (p : PairId) :
    Transition s (.takeTick p) (takeTick { s with effects := fx } p) := by
  unfold takeTick
  dsimp only
  split
  · exact .idle
  · rename_i pair at_p
    split
    · rename_i h
      rw [modifyPair_eq_set (show { s with effects := fx }.pairs[p]? = some pair from at_p)]
      exact act_transition fx at_p (.tick h.1 h.2)
    · exact .idle

theorem watchdogTurn_transition (s : Supervisor) (fx : List Effect) (p : PairId) :
    Transition s (.watchdogTurn p) (watchdogTurn { s with effects := fx } p) := by
  unfold watchdogTurn
  dsimp only
  split
  · exact .idle
  · rename_i pair at_p
    split
    · rename_i h
      have turn := replace_transition fx at_p (.waited h.1 h.2)
      rwa [set_eq_self at_p] at turn
    · exact .idle

theorem endWatchdog_transition (s : Supervisor) (fx : List Effect) (p : PairId) :
    Transition s (.endWatchdog p) (endWatchdog { s with effects := fx } p) := by
  unfold endWatchdog
  dsimp only
  split
  · exact .idle
  · rename_i pair at_p
    split
    · rename_i h
      rw [modifyPair_eq_set (show { s with effects := fx }.pairs[p]? = some pair from at_p)]
      split
      · exact .ended at_p h.1 h.2
      · exact .ended at_p h.1 h.2
    · exact .idle

/-! ## Channels -/

theorem call_of_starter? {c : ChannelId} {id : CallId} (h : s.starter? c = some id) :
    ∃ p, s.calls[id]? = some (.starting p c) := by
  obtain ⟨hid, found, -⟩ := List.findIdx?_eq_some_iff_getElem.1 h
  split at found
  · rename_i p d at_id
    obtain rfl : d = c := by simpa using found
    exact ⟨p, List.getElem?_eq_some_iff.2 ⟨hid, at_id⟩⟩
  · cases found

theorem no_call_of_starter? {c : ChannelId} (h : s.starter? c = none) (id : CallId) (p : PairId) :
    s.calls[id]? ≠ some (.starting p c) := by
  intro at_id
  have := List.findIdx?_eq_none_iff.1 h _ (List.mem_of_getElem? at_id)
  simp at this

theorem call_of_stopper? {c : ChannelId} {id : CallId} {p : PairId} {rest : List PairId}
    (h : s.stopper? c = some (id, p, rest)) : s.calls[id]? = some (.stopping p c rest) := by
  obtain ⟨⟨call, id'⟩, mem, found⟩ := List.exists_of_findSome?_eq_some h
  have at_id : s.calls[id']? = some call := List.mem_zipIdx_iff_getElem?.1 mem
  dsimp only at found
  split at found
  · rename_i p' d rest'
    split at found
    · rename_i same
      cases found
      rw [at_id, same]
    · cases found
  · cases found

/-- The status of a channel whose start ended with this result. -/
def outcome : Except SubscriptionError Unit → ChannelStatus
  | .ok () => .started
  | .error _ => .failed

theorem opened_transition {c : ChannelId} {channel : Channel} {id : CallId} {q : PairId}
    (fx : List Effect) (canStall : Bool) (result : Except SubscriptionError Unit)
    (at_c : s.channels[c]? = some channel) (starting : channel.status = .starting)
    (call : s.calls[id]? = some (.starting q c)) (at_p : s.pairs[channel.pair]? = some pair) :
    Transition s (.handshake c canStall result)
      (opened { s with channels := s.setStatus c (outcome result), effects := fx } id channel.pair c
        canStall result) := by
  have hp : channel.pair < s.pairs.length := (List.getElem?_eq_some_iff.1 at_p).1
  have at_p' {status : ChannelStatus} :
      { s with channels := s.setStatus c status, effects := fx }.pairs[channel.pair]? = some pair :=
    at_p
  unfold opened
  split
  · dsimp only
    rw [passTurn_modifyPair at_p']
    exact .opened at_c starting call at_p
  · rename_i error
    dsimp only
    rw [passTurn_modifyPair at_p']
    simp only [List.getElem?_set_self hp]
    have out (fx : List Effect) :=
      @Transition.failed s c canStall id q pair channel error fx at_c starting call at_p
    split
    · rename_i known
      replace known : s.registry.get? pair.key = some channel.pair := known
      simp only [if_pos known] at out
      exact out _
    · rename_i replaced
      replace replaced : s.registry.get? pair.key ≠ some channel.pair := replaced
      simp only [if_neg replaced] at out
      exact out _

theorem opened_missing {c : ChannelId} {channel : Channel} (fx : List Effect) (id : CallId)
    (canStall : Bool) (result : Except SubscriptionError Unit)
    (at_c : s.channels[c]? = some channel) (missing : s.pairs[channel.pair]? = none) :
    Transition s (.handshake c canStall result)
      (opened { s with channels := s.setStatus c (outcome result), effects := fx } id channel.pair c
        canStall result) := by
  have missing' {status : ChannelStatus} :
      { s with channels := s.setStatus c status, effects := fx }.pairs[channel.pair]? = none :=
    missing
  unfold opened
  split
  · dsimp only
    rw [modifyPair_missing missing', passTurn_missing missing']
    exact .stray at_c missing
  · dsimp only
    rw [modifyPair_missing missing', passTurn_missing missing']
    simp only [missing]
    exact .stray at_c missing

theorem replaced_transition {c : ChannelId} {channel : Channel} (fx : List Effect) (canStall : Bool)
    (result : Except SubscriptionError Unit) (at_c : s.channels[c]? = some channel)
    (starting : channel.status = .starting) (at_p : s.pairs[channel.pair]? = some pair)
    (watchdog : pair.watchdog = .starting c) :
    Transition s (.handshake c canStall result)
      (replaced { s with channels := s.setStatus c (outcome result), effects := fx } channel.pair c
        result) := by
  have at_p' {status : ChannelStatus} :
      { s with channels := s.setStatus c status, effects := fx }.pairs[channel.pair]? = some pair :=
    at_p
  unfold replaced
  split
  · dsimp only
    rw [passTurn_modifyPair at_p', emit]
    exact .replaced at_c starting at_p watchdog
  · rw [passTurn_modifyPair at_p']
    dsimp only [emit]
    exact .notReplaced at_c starting at_p watchdog

theorem handshake_transition (s : Supervisor) (fx : List Effect) (c : ChannelId) (canStall : Bool)
    (result : Except SubscriptionError Unit) :
    Transition s (.handshake c canStall result)
      (handshake { s with effects := fx } c canStall result) := by
  unfold handshake
  dsimp only [modifyChannel]
  cases at_c : s.channels[c]? with
  | none => exact .idle
  | some channel =>
    dsimp only
    split
    · exact .idle
    · rename_i starting
      have starting : channel.status = .starting := by simpa using starting
      split
      · rename_i id starter
        cases at_p : s.pairs[channel.pair]? with
        | none => exact opened_missing fx id canStall result at_c at_p
        | some pair =>
          obtain ⟨q, call⟩ := call_of_starter? starter
          exact opened_transition fx canStall result at_c starting call at_p
      · rename_i noStarter
        split
        · rename_i pair at_p
          split
          · rename_i watchdog
            exact replaced_transition fx canStall result at_c starting at_p watchdog
          · rename_i watchdog
            exact .unawaited at_c starting at_p (no_call_of_starter? noStarter) watchdog
        · rename_i missing
          exact .stray at_c missing

theorem stopped_transition (s : Supervisor) (fx : List Effect) (c : ChannelId) :
    Transition s (.stopped c) (stopped { s with effects := fx } c) := by
  unfold stopped
  dsimp only [modifyChannel]
  cases at_c : s.channels[c]? with
  | none => exact .idle
  | some channel =>
    dsimp only
    split
    · rename_i id p rest stopper
      exact .stoppedForCall at_c (call_of_stopper? stopper) (awaitWatchdog_goesOn _ _ _ _)
    · split
      · rename_i pair at_p
        split
        · rename_i watchdog
          simp only [create, emit, modifyPair, modify_eq_set at_p, List.length_modify]
          exact .stoppedForWatchdog at_c at_p watchdog
        · exact .idle
      · exact .idle

theorem deliver_transition (s : Supervisor) (fx : List Effect) (c : ChannelId)
    (event : ChannelEvent) :
    Transition s (.deliver c event) (deliver { s with effects := fx } c event) := by
  unfold deliver
  dsimp only
  cases at_c : s.channels[c]? with
  | none => exact .idle
  | some channel =>
    dsimp only
    cases at_p : s.pairs[channel.pair]? with
    | none => exact .idle
    | some pair =>
      dsimp only
      split
      · exact .idle
      · rename_i gate
        have gate : pair.gateOpen = true := by simpa using gate
        cases event with
        | closed =>
          simp only [modifyPair, modify_eq_set at_p, emit]
          exact .closing at_c at_p gate
        | heartbeat =>
          simp only [modifyPair, modify_eq_set at_p]
          exact .heard at_c at_p gate (by simp)
        | update u =>
          simp only [modifyPair, modify_eq_set at_p]
          split
          · exact .heard at_c at_p gate (by simp)
          · split
            · exact .heard at_c at_p gate (by simp)
            · exact .heard at_c at_p gate (by simp)

/-! ## Steps -/

theorem step_transition (s : Supervisor) (e : Event) : Transition s e (s.step e) := by
  unfold step perform
  cases e with
  | subscribe key observer => exact subscribe_transition s [] key observer
  | unsubscribe key => exact unsubscribe_transition s [] key
  | unsubscribeAll order => exact unsubscribeAll_transition s [] order
  | enter id => exact enter_transition s [] id
  | callTurn id =>
    dsimp only
    split
    · rename_i turn
      exact callTurn_transition s [] id turn
    · exact .idle
  | joinWatchdog id =>
    dsimp only [joinWatchdog]
    split
    · rename_i p rest call
      exact .joined call (awaitWatchdog_goesOn _ _ _ _)
    · exact .idle
  | watchdogTurn p => exact watchdogTurn_transition s [] p
  | takeNotice p => exact takeNotice_transition s [] p
  | takeTick p => exact takeTick_transition s [] p
  | endWatchdog p => exact endWatchdog_transition s [] p
  | handshake c canStall result => exact handshake_transition s [] c canStall result
  | stopped c => exact stopped_transition s [] c
  | deliver c event => exact deliver_transition s [] c event
  | pass time => exact .passed

/-- The call that registered a live pair makes its first channel. -/
theorem step_enter {id : CallId} (call : s.calls[id]? = some (.arriving p))
    (at_p : s.pairs[p]? = some pair) (free : pair.line = []) (live : pair.cancelled = false) :
    s.step (.enter id) = { s with
      pairs := s.pairs.set p { pair with line := [.call id] }
      channels := s.channels ++ [newChannel p]
      calls := s.calls.set id (.starting p s.channels.length)
      effects := [.start s.channels.length] } := by
  have at_p' : { s with effects := [] }.pairs[p]? = some pair := at_p
  rw [step, perform, enter]
  simp only [call, at_p, free, live, List.isEmpty_nil, Bool.not_true, Bool.false_eq_true, if_false,
    joinLine, modifyPair_eq_set at_p', List.nil_append]
  rfl

/-- The call that registered a pair makes no channel for it if the pair ended meanwhile. -/
theorem step_enter_finished {id : CallId} (call : s.calls[id]? = some (.arriving p))
    (at_p : s.pairs[p]? = some pair) (free : pair.line = []) (finished : pair.cancelled = true) :
    s.step (.enter id) =
      { s with calls := s.calls.set id (.returned (.ok ())), effects := [.wakeCall id] } := by
  rw [step, perform, enter]
  simp only [call, at_p, free, finished, List.isEmpty_nil, Bool.not_true, Bool.false_eq_true,
    if_false, if_true]
  rfl

end LedgerWatch.Supervisor
