import LedgerWatch.Proofs.Supervisor.Retries

/-!
# The life of a pair

Main statement: `life_cycle`. A pair's cancellation, gate and state agree for as long as it is there,
a registered pair is live and under its own key, and its state changes along `Follows`, with one
exception: a watchdog that waited for its turn replaces the channel even if the pair was heard of
meanwhile. Channels that keep to their contract do not rule that out (`resubscribing_from_active`).
-/

namespace LedgerWatch.Supervisor

variable {s t : Supervisor} {p : PairId} {pair later : Pair} {e : Event}

/-- The changes that a pair's state goes through. -/
inductive Follows : PairState → PairState → Prop
  | opened : Follows .subscribing .active
  | closedEarly : Follows .subscribing .stalled
  | stalled : Follows .active .stalled
  | revived : Follows .stalled .active
  | retried : Follows .stalled .resubscribing
  | replaced : Follows .resubscribing .active
  | ended {state} : Follows state .unsubscribed

theorem follows_stall (pair : Pair) :
    (stall pair).state = pair.state ∨ Follows pair.state (stall pair).state := by
  cases state : pair.state <;> simp only [stall, state] <;> first | exact .inl rfl | exact .inr .stalled

theorem follows_heard (pair : Pair) (now : Nat) :
    (pair.heard now).state = pair.state ∨ Follows pair.state (pair.heard now).state := by
  unfold Pair.heard
  cases pair.state with
  | subscribing => exact .inr .opened
  | stalled => exact .inr .revived
  | resubscribing => exact .inr .replaced
  | _ => exact .inl rfl

theorem follows_closing (pair : Pair) :
    pair.closing.state = pair.state ∨ Follows pair.state pair.closing.state := by
  unfold Pair.closing
  cases pair.state with
  | subscribing => exact .inr .closedEarly
  | active => exact .inr .stalled
  | _ => exact .inl rfl

theorem follows_opened (s : Supervisor) (pair : Pair) (c : ChannelId) (canStall : Bool) :
    (s.openedPair pair c canStall).state = pair.state ∨
      Follows pair.state (s.openedPair pair c canStall).state := by
  unfold openedPair
  cases pair.state with
  | subscribing => exact .inr .opened
  | _ => exact .inl rfl

theorem follows_replaced (s : Supervisor) (pair : Pair) (c : ChannelId) :
    (s.replacedPair pair c).state = pair.state ∨
      Follows pair.state (s.replacedPair pair c).state := by
  unfold replacedPair
  dsimp only
  split
  · rename_i starting
    rw [starting.1]
    exact .inr .replaced
  · exact .inl rfl

/-- A watchdog that has its turn finds the pair active, stalled or resubscribing. -/
theorem GetsTurn.running {ready : Pair} (turn : GetsTurn s p pair e ready) (lawful : s.Lawful)
    (at_p : s.pairs[p]? = some pair) (live : pair.cancelled = false) : Running pair := by
  have resting := turn.resting
  cases state : pair.state with
  | unsubscribed => simp [(lawful.sound.finished p pair at_p).2 state] at live
  | subscribing => simp [(lawful.coherent p pair at_p).subscribing state] at resting
  | _ => simp [Running, state]

/-- One event changes the state as the life of a pair goes, unless a watchdog has its turn with an
active pair. -/
theorem Moves.follows (moves : Moves s p pair e later) (lawful : s.Lawful)
    (at_p : s.pairs[p]? = some pair)
    (finished : later.cancelled = true → later.state = .unsubscribed) :
    (later.state = pair.state ∨ Follows pair.state later.state) ∨
      pair.state = .active ∧ later.state = .resubscribing ∧ ∃ ready, GetsTurn s p pair e ready := by
  cases moves with
  | rests same => exact .inl (.inl same.state)
  | ends cancelled => exact .inl (.inr (finished cancelled ▸ .ended))
  | hears => exact .inl (follows_heard pair s.now)
  | closes => exact .inl (follows_closing pair)
  | @queues _ woken _ wakes =>
    rw [← wakes.state_eq]
    exact .inl (follows_stall woken)
  | begins turn live =>
    rcases turn.running lawful at_p live with state | state | state
    · exact .inr ⟨state, rfl, _, turn⟩
    · exact .inl (.inr (state ▸ .retried))
    · exact .inl (.inl state.symm)
  | opens => exact .inl (follows_opened s pair _ _)
  | replaced => exact .inl (follows_replaced s pair _)
  | notReplaced | exchanges => exact .inl (.inl rfl)

/-- At every moment of a run a pair's cancellation, gate and state agree, and if it is registered
it is live and under its own key. Whatever happens next, it stays cancelled if it was, and its state
changes as `Follows` says or goes from active to resubscribing: when its idle watchdog finds it
silent for too long, and stalls it before it replaces the channel, or when its watchdog waited for
its turn and the pair was heard of meanwhile. -/
theorem life_cycle {s₀ : Supervisor} (initial : s₀.Initial) (events : List Event) (e : Event)
    (p : PairId) (pair : Pair) :
    let s := s₀.run events
    s.pairs[p]? = some pair →
    (pair.cancelled = true ↔ pair.gateOpen = false) ∧
      (pair.cancelled = true ↔ pair.state = .unsubscribed) ∧
      (∀ key, s.registry.get? key = some p → pair.key = key ∧ pair.cancelled = false) ∧
      ∃ later, (s.step e).pairs[p]? = some later ∧
        (pair.cancelled = true → later.cancelled = true) ∧
        ((later.state = pair.state ∨ Follows pair.state later.state) ∨
          pair.state = .active ∧ later.state = .resubscribing ∧
            (pair.watchdog = .idle ∧ needsReplacement pair s.now = true ∨
              pair.watchdog = .queued ∧ s₀.Since (News p) (Setback p) events)) := by
  intro s at_p
  have lawful : s.Lawful := (lawful_initial initial).run events
  have step := step_transition s e
  refine ⟨?_, lawful.sound.finished p pair at_p, fun key known => ?_, ?_⟩
  · rw [lawful.sound.gate p pair at_p]
    cases pair.cancelled <;> simp
  · obtain ⟨pair', at_p', own, live⟩ := lawful.sound.registered key p (Table.mem_of_get? known)
    cases at_p.symm.trans at_p'
    exact ⟨own, live⟩
  · obtain ⟨later, at_p', moves⟩ := step.moves lawful at_p
    obtain ⟨later', at_later, facts⟩ := step.later at_p
    cases at_p'.symm.trans at_later
    have finished := ((lawful.step e).sound.finished p later at_p').1
    refine ⟨later, at_p', facts.cancelled, ?_⟩
    rcases moves.follows lawful at_p finished with follows | ⟨active, replacing, ready, turn⟩
    · exact .inl follows
    · refine .inr ⟨active, replacing, ?_⟩
      cases turn with
      | atOnce wakes needed => exact .inl ⟨wakes.idle.1, needed⟩
      | waited queued =>
        have live : pair.cancelled = false := by
          rw [← Bool.not_eq_true, lawful.sound.finished p pair at_p, active]
          simp
        exact .inr ⟨queued, (run_wanting initial events at_p ⟨live, .inl queued⟩).1.1 active⟩

/-- A silent channel is stopped, and meanwhile it is heard of and closes; the watchdog takes notice
only when the replacement has started, and has to wait behind a call for the same key. The
replacement is heard of before the call goes on. -/
def heardInLine : List Event :=
  let key := wholeProgram .state
  [.subscribe key none, .enter 0, .handshake 0 true (.ok ()), .pass 2, .takeTick 0,
    .deliver 0 .heartbeat, .deliver 0 .closed, .stopped 0, .subscribe key none,
    .handshake 1 true (.ok ()), .takeNotice 0, .deliver 1 .heartbeat, .callTurn 1]

/-- Channels keep to their contract, and a pair goes straight from active to resubscribing. -/
theorem resubscribing_from_active :
    let s₀ : Supervisor := { resubTimeout := some 1 }
    let s := s₀.run heardInLine
    Initial s₀ ∧ Contract s₀ (heardInLine ++ [.watchdogTurn 0]) ∧
      ∃ pair later, s.pairs[0]? = some pair ∧ (s.step (.watchdogTurn 0)).pairs[0]? = some later ∧
        pair.state = .active ∧ pair.watchdog = .queued ∧ later.state = .resubscribing := by
  intro s₀ s
  have active : s.pairs.map (fun pair => (pair.state, pair.watchdog)) = [(.active, .queued)] := by
    simp only [s, s₀]
    decide +kernel
  have replacing : (s.step (.watchdogTurn 0)).pairs.map Pair.state = [.resubscribing] := by
    simp only [s, s₀]
    decide +kernel
  refine ⟨⟨rfl, rfl, rfl, rfl⟩, contract_of_check (by simp only [s₀]; decide +kernel), ?_⟩
  obtain ⟨pair, pairs, eq⟩ := List.map_eq_singleton_iff.1 active
  obtain ⟨later, laters, state⟩ := List.map_eq_singleton_iff.1 replacing
  obtain ⟨was, waited⟩ := Prod.mk.inj eq
  exact ⟨pair, later, by rw [pairs]; rfl, by rw [laters]; rfl, was, waited, state⟩

end LedgerWatch.Supervisor
