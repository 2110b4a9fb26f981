import LedgerWatch.Proofs.Supervisor.Moves

/-!
# Pairs whose replacement failed

Main statement: `empty_slot_active_iff`. A pair whose last replacement failed has an empty slot, and
is active exactly if something was heard of it since that replacement began; the watchdog then does
not try again when it next wakes (`empty_slot_active`).
-/

namespace LedgerWatch.Supervisor

variable {s t : Supervisor} {p : PairId} {pair later : Pair} {e : Event}

/-- The first handshake succeeded or was overtaken by an event, and the pair has not ended. -/
def Running (pair : Pair) : Prop :=
  pair.state = .active ∨ pair.state = .stalled ∨ pair.state = .resubscribing

/-- The pair lives, and its watchdog has set about replacing its channel or failed to. -/
structure Wanting (pair : Pair) : Prop where
  live : pair.cancelled = false
  watchdog : pair.watchdog = .queued ∨ (∃ old, pair.watchdog = .stopping old) ∨
    (∃ new, pair.watchdog = .starting new) ∨ pair.watchdog = .idle ∧ pair.channel = none

/-- A closing, or the beginning of a replacement. -/
def Setback (p : PairId) (s : Supervisor) (e : Event) : Prop := Closing p s e ∨ Attempt p s e

theorem Closing.not_news (closing : Closing p s e) : ¬ News p s e := by
  obtain ⟨c, rfl, -⟩ := closing
  rintro ⟨d, event, eq, news, -⟩
  cases eq
  exact news rfl

theorem not_attempt (at_p : s.pairs[p]? = some pair) (at_p' : (s.step e).pairs[p]? = some later)
    (still : ¬ SetsAbout pair later) : ¬ Attempt p s e := by
  rintro ⟨pair', later', at_q, at_q', about⟩
  cases at_p.symm.trans at_q
  cases at_p'.symm.trans at_q'
  exact still about

/-- The watchdog acts on pairs that are active, stalled or resubscribing only, and stalls an active
one first. -/
theorem stall_settled {now : Nat} (needed : needsReplacement pair now = true) :
    (stall pair).state = .stalled ∨ (stall pair).state = .resubscribing := by
  cases state : pair.state <;> simp [needsReplacement, state] at needed <;> simp [stall, state]

/-- What a step that delivers nothing does to the state of a pair that wants a channel after it. -/
theorem Moves.wanting (moves : Moves s p pair e later) (wanting : Wanting later)
    (silent : ¬ News p s e ∧ ¬ Closing p s e) :
    (later.state = .stalled ∨ later.state = .resubscribing) ∧ SetsAbout pair later ∨
      Wanting pair ∧ later.state = pair.state ∧ ¬ SetsAbout pair later := by
  cases moves with
  | rests same =>
    obtain ⟨live, watchdog⟩ := wanting
    rw [same.watchdog, same.channel] at watchdog
    refine .inr ⟨⟨same.cancelled ▸ live, watchdog⟩, same.state, ?_⟩
    simp [SetsAbout, same.total, same.watchdog]
  | ends finished => simp [wanting.live] at finished
  | hears own _ news => exact absurd ⟨_, _, rfl, news, own⟩ silent.1
  | closes own => exact absurd ⟨_, rfl, own⟩ silent.2
  | queues wakes needed =>
    rw [← wakes.needs] at needed
    exact .inl ⟨stall_settled needed, .inr ⟨by simp [wakes.idle.1], rfl⟩⟩
  | begins turn => exact .inl ⟨.inr rfl, .inl (congrArg (· + 1) turn.same.1)⟩
  | opens => simpa [openedPair] using wanting.watchdog
  | replaced => simpa [replacedPair] using wanting.watchdog
  | notReplaced watchdog =>
    exact .inr ⟨⟨wanting.live, .inr (.inr (.inl ⟨_, watchdog⟩))⟩, rfl, by simp [SetsAbout]⟩
  | exchanges watchdog =>
    exact .inr ⟨⟨wanting.live, .inr (.inl ⟨_, watchdog⟩)⟩, rfl, by simp [SetsAbout]⟩

theorem heard_state (running : Running pair) (now : Nat) : (pair.heard now).state = .active := by
  rcases running with state | state | state <;> simp [Pair.heard, state]

theorem closing_state (running : Running pair) : pair.closing.state ≠ .active ∧
    (pair.closing.state = .stalled ∨ pair.closing.state = .resubscribing) := by
  rcases running with state | state | state <;> simp [Pair.closing, state]

/-- What one step does to a pair that wants a channel after it. -/
theorem step_wanting (lawful : s.Lawful) (at_p : s.pairs[p]? = some pair)
    (at_p' : (s.step e).pairs[p]? = some later) (wanting : Wanting later) :
    News p s e ∧ Wanting pair ∧ later = pair.heard s.now ∨
      Closing p s e ∧ Wanting pair ∧ later = pair.closing ∨
      (Attempt p s e ∧ ¬ News p s e) ∧ (later.state = .stalled ∨ later.state = .resubscribing) ∨
      (¬ News p s e ∧ ¬ Setback p s e) ∧ Wanting pair ∧ later.state = pair.state := by
  have step := step_transition s e
  have live : pair.cancelled = false := by
    obtain ⟨later', at_later, facts⟩ := step.later at_p
    cases at_p'.symm.trans at_later
    exact facts.live wanting.live
  have gate : pair.gateOpen = true := by
    rw [lawful.sound.gate p pair at_p, live]
    rfl
  by_cases news : News p s e
  · obtain rfl := Option.some.inj (at_p'.symm.trans (news.heard at_p gate))
    exact .inl ⟨news, ⟨live, wanting.watchdog⟩, rfl⟩
  by_cases closing : Closing p s e
  · obtain rfl := Option.some.inj (at_p'.symm.trans (closing.closed at_p gate))
    exact .inr (.inl ⟨closing, ⟨live, wanting.watchdog⟩, rfl⟩)
  obtain ⟨later', at_later, moves⟩ := step.moves lawful at_p
  cases at_p'.symm.trans at_later
  rcases moves.wanting wanting ⟨news, closing⟩ with ⟨state, about⟩ | ⟨before, state, still⟩
  · exact .inr (.inr (.inl ⟨⟨⟨pair, later, at_p, at_p', about⟩, news⟩, state⟩))
  · have dull : ¬ Setback p s e := by
      rintro (closed | attempt)
      · exact closing closed
      · exact not_attempt at_p at_p' still attempt
    exact .inr (.inr (.inr ⟨⟨news, dull⟩, before, state⟩))

/-- While a pair wants a channel, its state says whether it was heard of since its watchdog set about
replacing the last one, with no closing later. -/
theorem run_wanting {s₀ : Supervisor} (initial : s₀.Initial) (events : List Event)
    (at_p : (s₀.run events).pairs[p]? = some pair) (wanting : Wanting pair) :
    (pair.state = .active ↔ s₀.Since (News p) (Setback p) events) ∧ Running pair := by
  revert wanting
  refine run_pair (motive := fun events pair => Wanting pair →
    (pair.state = .active ↔ s₀.Since (News p) (Setback p) events) ∧ Running pair)
    initial ?_ ?_ events at_p
  · intro events e key observer registers wanting
    simpa [newPair] using wanting.watchdog
  · intro events e pair later orderlier at_p at_p' _ _ ih wanting
    rw [since_concat]
    rcases step_wanting orderlier.lawful at_p at_p' wanting with
      ⟨news, before, rfl⟩ | ⟨closing, before, rfl⟩ | ⟨⟨attempt, silent⟩, state⟩ |
        ⟨⟨silent, dull⟩, before, state⟩
    · obtain ⟨-, running⟩ := ih before
      have active : (pair.heard (s₀.run events).now).state = .active := heard_state running _
      exact ⟨iff_of_true active (.inl news), .inl active⟩
    · obtain ⟨-, running⟩ := ih before
      obtain ⟨still, state⟩ := closing_state running
      refine ⟨iff_of_false still ?_, .inr state⟩
      rintro (news | ⟨-, dull⟩)
      · exact closing.not_news news
      · exact dull (.inl closing)
    · refine ⟨iff_of_false (by rcases state with state | state <;> simp [state]) ?_, .inr state⟩
      rintro (news | ⟨-, dull⟩)
      · exact silent news
      · exact dull (.inr attempt)
    · obtain ⟨active, running⟩ := ih before
      rw [Running, state]
      refine ⟨active.trans ⟨fun since => .inr ⟨since, dull⟩, ?_⟩, running⟩
      exact fun since => (since.resolve_left silent).1

/-! ## The next wake-up -/

theorem Wakes.step {woken : Pair} (wakes : Wakes s p pair e woken) (at_p : s.pairs[p]? = some pair) :
    s.step e = act { s with pairs := s.pairs.set p woken, effects := [] } p := by
  have at_p' : { s with effects := [] }.pairs[p]? = some pair := at_p
  cases wakes with
  | notice idle noticed =>
    simp [Supervisor.step, perform, takeNotice, at_p, idle, noticed, modifyPair_eq_set at_p']
  | tick idle due =>
    simp [Supervisor.step, perform, takeTick, at_p, idle, due, modifyPair_eq_set at_p']

theorem replace_total (at_p : s.pairs[p]? = some pair) (live : pair.cancelled = false) :
    ∃ later, (s.replace p).pairs[p]? = some later ∧ later.total = pair.total + 1 := by
  unfold replace
  simp only [at_p, live, Bool.false_eq_true, if_false]
  cases pair.channel <;> simp [modifyPair, create, emit, at_p]

/-- A watchdog that acts tries exactly if the pair needs a replacement. -/
theorem act_setsAbout_iff (at_p : s.pairs[p]? = some pair) (idle : pair.watchdog = .idle)
    (live : pair.cancelled = false) :
    ∃ later, (s.act p).pairs[p]? = some later ∧
      (SetsAbout pair later ↔ needsReplacement pair s.now = true) := by
  unfold act
  simp only [at_p]
  split
  · rename_i needed
    have hp := (List.getElem?_eq_some_iff.1 at_p).1
    have here (r : Pair) : (s.pairs.set p r)[p]? = some r := List.getElem?_set_self hp
    simp only [needed, iff_true]
    change ∃ later, ((s.modifyPair p stall).seekReplacement p).pairs[p]? = some later ∧ _
    rw [modifyPair_eq_set at_p]
    simp only [seekReplacement, here, joinLine]
    rw [modifyPair_eq_set (here (stall pair))]
    simp only [List.set_set]
    let ready : Pair := { stall pair with line := (stall pair).line ++ [.watchdog] }
    split
    · let u : Supervisor := { s with pairs := s.pairs.set p ready }
      obtain ⟨later, at_p', more⟩ := replace_total (s := u) (here ready) live
      exact ⟨later, at_p', .inl more⟩
    · rw [modifyPair_eq_set (here ready)]
      exact ⟨{ ready with watchdog := .queued }, by simp only [List.set_set, here],
        .inr ⟨by simp [idle], rfl⟩⟩
  · rename_i content
    exact ⟨pair, at_p, by simp [SetsAbout, idle, content]⟩

theorem needsReplacement_iff (running : Running pair) (now : Nat) :
    needsReplacement pair now = true ↔ pair.state ≠ .active ∨
      ∃ patience, pair.patience = some patience ∧ patience < now - pair.lastEvent := by
  rcases running with state | state | state
  · cases patience : pair.patience <;> simp [needsReplacement, state, patience]
  · simp [needsReplacement, state]
  · simp [needsReplacement, state]

/-! ## Empty slots -/

/-- A registered pair has an empty slot though nobody is at work on it. It is active exactly if an
update or a heartbeat of the pair came since its watchdog set about the last replacement, with no
closing later, and otherwise stalled or resubscribing. When its watchdog next wakes, it tries again
exactly if the pair is not active or was silent for longer than its patience, if it has one. -/
theorem empty_slot_active_iff {s₀ : Supervisor} (initial : s₀.Initial) (events : List Event)
    (p : PairId) (pair : Pair) :
    let t := s₀.run events
    t.pairs[p]? = some pair → t.registry.get? pair.key = some p → pair.watchdog = .idle →
    pair.channel = none →
    (pair.state = .active ↔ s₀.Since (News p) (Setback p) events) ∧
      (pair.state ≠ .active → pair.state = .stalled ∨ pair.state = .resubscribing) ∧
      ∀ (e : Event) (woken : Pair), Wakes t p pair e woken →
        ∃ later, (t.step e).pairs[p]? = some later ∧ (SetsAbout pair later ↔
          pair.state ≠ .active ∨ ∃ patience, pair.patience = some patience ∧
            patience < t.now - pair.lastEvent) := by
  intro t at_p known idle slot
  have lawful : t.Lawful := (lawful_initial initial).run events
  obtain ⟨pair', at_p', -, live⟩ := lawful.sound.registered _ p (Table.mem_of_get? known)
  cases at_p.symm.trans at_p'
  obtain ⟨active, running⟩ :=
    run_wanting initial events at_p ⟨live, .inr (.inr (.inr ⟨idle, slot⟩))⟩
  refine ⟨active, running.resolve_left, fun e woken wakes => ?_⟩
  have hp := (List.getElem?_eq_some_iff.1 at_p).1
  let u : Supervisor := { t with pairs := t.pairs.set p woken, effects := [] }
  obtain ⟨later, at_later, tries⟩ := act_setsAbout_iff (s := u) (List.getElem?_set_self hp)
    wakes.idle.2 (wakes.cancelled_eq.trans live)
  refine ⟨later, wakes.step at_p ▸ at_later, ?_⟩
  rw [← needsReplacement_iff running, ← wakes.needs, ← tries, SetsAbout, SetsAbout,
    wakes.rests.total, wakes.rests.watchdog]

/-- A replacement is heard of while it starts, and then fails to start. -/
def failedReplacement : List Event :=
  replacementStarting ++
    [.deliver 1 .heartbeat, .handshake 1 false (.error (.channelClosed "scripted"))]

/-- The pair that the failed replacement leaves. -/
def unreplaced : Pair :=
  { key := wholeProgram .state, observer := none, state := .active, lastEvent := 0, total := 1,
    watchdog := .idle }

theorem run_failedReplacement :
    let t := run {} failedReplacement
    t.pairs[0]? = some unreplaced ∧ t.registry.get? (wholeProgram .state) = some 0 := by
  decide +kernel

theorem empty_slot_active_iff_failed :
    let t := run {} failedReplacement
    Initial {} ∧ t.pairs[0]? = some unreplaced ∧ t.registry.get? unreplaced.key = some 0 ∧
      unreplaced.watchdog = .idle ∧ unreplaced.channel = none ∧
      Since {} (News 0) (Setback 0) failedReplacement ∧
      ∃ later, (t.step (.takeTick 0)).pairs[0]? = some later ∧ ¬ SetsAbout unreplaced later := by
  intro t
  have initial : Initial {} := ⟨rfl, rfl, rfl, rfl⟩
  obtain ⟨at_p, known⟩ := run_failedReplacement
  obtain ⟨active, -, wakes⟩ :=
    empty_slot_active_iff initial failedReplacement 0 unreplaced at_p known rfl rfl
  obtain ⟨later, at_later, tries⟩ := wakes (.takeTick 0) _ (.tick rfl (Nat.zero_le _))
  refine ⟨initial, at_p, known, rfl, rfl, active.1 rfl, later, at_later, fun tried => ?_⟩
  simpa [unreplaced] using tries.1 tried

/-- The last attempt to replace the channel failed, though channels keep to their contract, and the
pair is active: without a patience it is not tried again. -/
theorem empty_slot_active :
    ¬ ∀ (events : List Event) (p : PairId) (pair : Pair), Contract {} events →
      let t := run {} events
      t.pairs[p]? = some pair → t.registry.get? pair.key = some p → pair.watchdog = .idle →
      pair.channel = none → pair.state = .stalled ∨ pair.state = .resubscribing := by
  intro claim
  obtain ⟨at_p, known⟩ := run_failedReplacement
  have contract : Contract {} failedReplacement := contract_of_check (by decide +kernel)
  have state := claim failedReplacement 0 unreplaced contract at_p known rfl rfl
  simp [unreplaced] at state

end LedgerWatch.Supervisor
