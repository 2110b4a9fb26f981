import LedgerWatch.Proofs.Supervisor.Release

/-!
# No deadlock

Main statement: `never_deadlocks`. Where no channel's start or stop is outstanding and no task can
go on, every call has returned, and of a pair that was torn down nothing is left: its watchdog is
gone, and each of its channels failed to start or was stopped.

The head of a line either waits for a channel or can go on, so in such a state nobody stands in
line (`Quiescent.line_empty`). What is left are calls that wait for a watchdog, and the watchdog
of a pair that ended ends on its own (`Quiescent.call_returned`). A pair that ended is let go: a
call has to finish it, or it is released (`run_letGo`).
-/

namespace LedgerWatch

/-- The event is a task of the supervisor that goes on: a call or a watchdog. -/
def Supervisor.Event.ofTask : Supervisor.Event → Bool
  | .enter _ | .callTurn _ | .joinWatchdog _ | .watchdogTurn _ | .takeNotice _ | .takeTick _
  | .endWatchdog _ => true
  | _ => false

namespace Supervisor

variable {s t : Supervisor} {p q : PairId} {pair : Pair} {id : CallId} {c : ChannelId}
  {ps rest : List PairId}

/-- No start or stop of a channel is outstanding, and no task can go on: if one were to, nothing
but what the event shows to the surroundings would change. The supervisor reads nothing from the
ledger; its channels do, while they start and stop or on their own. -/
structure Quiescent (s : Supervisor) : Prop where
  starts : ∀ c, s.status? c ≠ some .starting
  callStops : ∀ (id : CallId) (p : PairId) (c : ChannelId) (rest : List PairId),
    s.calls[id]? ≠ some (.stopping p c rest)
  watchdogStops : ∀ (p : PairId) (pair : Pair) (c : ChannelId), s.pairs[p]? = some pair →
    pair.watchdog ≠ .stopping c
  tasks : ∀ e, e.ofTask = true → ∃ fx, s.step e = { s with effects := fx }

/-! ## Tasks that can go on -/

theorem TornDown.duties_suffix (torn : TornDown id ps s t) (hid : id < s.calls.length) :
    ∃ call, t.calls[id]? = some call ∧ call.duties <:+ ps := by
  induction torn with
  | done => exact ⟨_, List.getElem?_set_self hid, List.nil_suffix⟩
  | missing _ _ ih =>
    obtain ⟨call, at_id, suffix⟩ := ih hid
    exact ⟨call, at_id, suffix.trans (List.suffix_cons _ _)⟩
  | passed _ _ _ _ _ ih =>
    obtain ⟨call, at_id, suffix⟩ := ih hid
    exact ⟨call, at_id, suffix.trans (List.suffix_cons _ _)⟩
  | queued | stops | joins => exact ⟨_, List.getElem?_set_self hid, List.suffix_refl _⟩

theorem GoesOn.call (onward : GoesOn id p rest s t) (hid : id < s.calls.length) :
    ∃ call, t.calls[id]? = some call ∧ (call = .joining p rest ∨ call.duties <:+ rest) := by
  cases onward with
  | onward _ torn =>
    obtain ⟨call, at_id, suffix⟩ := torn.duties_suffix hid
    exact ⟨call, at_id, .inr suffix⟩
  | joins => exact ⟨_, List.getElem?_set_self hid, .inl rfl⟩

theorem not_suffix_rest (p : PairId) (rest : List PairId) : ¬ (p :: rest) <:+ rest := by
  intro suffix
  have := suffix.length_le
  rw [List.length_cons] at this
  omega

theorem calls_passTurn (s : Supervisor) (p : PairId) : (s.passTurn p).calls = s.calls := by
  unfold passTurn
  dsimp only
  split <;> rfl

/-- A call that comes for a channel that nobody has makes it, or returns. -/
theorem enter_changes (at_id : s.calls[id]? = some (.arriving p)) (at_p : s.pairs[p]? = some pair)
    (free : pair.line = []) : (s.step (.enter id)).calls[id]? ≠ s.calls[id]? := by
  intro same
  have hid := (List.getElem?_eq_some_iff.1 at_id).1
  cases finished : pair.cancelled with
  | true =>
    rw [step_enter_finished at_id at_p free finished, at_id, List.getElem?_set_self hid] at same
    cases same
  | false =>
    rw [step_enter at_id at_p free finished, at_id, List.getElem?_set_self hid] at same
    cases same

/-- A call that has its turn leaves the line. -/
theorem callTurn_changes (turn : s.hasTurn id = true) :
    (s.callTurn id).calls[id]? ≠ s.calls[id]? := by
  intro same
  unfold hasTurn at turn
  cases at_id : s.calls[id]? with
  | none => simp [at_id] at turn
  | some call =>
    have hid := (List.getElem?_eq_some_iff.1 at_id).1
    have hid' (p : PairId) : id < (s.passTurn p).calls.length := by rwa [calls_passTurn]
    rw [at_id] at same
    cases call with
    | following p =>
      cases at_p : s.pairs[p]? with
      | none => simp [at_id, at_p] at turn
      | some pair =>
        simp only [callTurn, at_id, at_p, answer, setCall, emit] at same
        rw [List.getElem?_set_self (hid' p)] at same
        cases same
    | clearing p rest =>
      cases at_p : s.pairs[p]? with
      | none => simp [at_id, at_p] at turn
      | some pair =>
        cases slot : pair.channel with
        | some c =>
          simp only [callTurn, at_id, at_p, slot, setCall, emit] at same
          rw [List.getElem?_set_self (by rw [calls_passTurn]; exact hid)] at same
          cases same
        | none =>
          simp only [callTurn, at_id, at_p, slot] at same
          obtain ⟨call, at_id', next⟩ :=
            (awaitWatchdog_goesOn (s.passTurn p) id p rest).call (hid' p)
          rw [at_id'] at same
          cases same
          exact next.elim (by simp) (not_suffix_rest p rest)
    | _ => simp [at_id] at turn

/-- A call goes on when the watchdog that it waits for is gone. -/
theorem joinWatchdog_changes (at_id : s.calls[id]? = some (.joining p rest))
    (at_p : s.pairs[p]? = some pair) (gone : pair.watchdog.isGone = true) :
    (s.step (.joinWatchdog id)).calls[id]? ≠ s.calls[id]? := by
  intro same
  have hid := (List.getElem?_eq_some_iff.1 at_id).1
  simp only [step, perform, joinWatchdog, awaitWatchdog, at_id, at_p, gone, if_true] at same
  obtain ⟨call, at_id', suffix⟩ :=
    (tearDown_tornDown id rest { s with effects := [] }).duties_suffix hid
  rw [at_id'] at same
  cases same
  exact not_suffix_rest p rest suffix

/-- A watchdog that has its turn waits no longer. -/
theorem watchdogTurn_changes (at_p : s.pairs[p]? = some pair) (queued : pair.watchdog = .queued)
    (first : pair.line.head? = some .watchdog) :
    (s.step (.watchdogTurn p)).pairs[p]? ≠ s.pairs[p]? := by
  intro same
  have hp := (List.getElem?_eq_some_iff.1 at_p).1
  have here : { s with effects := [] }.pairs[p]? = some pair := at_p
  have ready : pair.watchdog = .queued ∧ pair.line.head? = some .watchdog := ⟨queued, first⟩
  simp only [step, perform, watchdogTurn, at_p, if_pos ready, replace] at same
  have stays {later : Pair} (eq : (s.pairs.set p later)[p]? = some pair) :
      later.watchdog = .queued := by
    rw [List.getElem?_set_self hp] at eq
    cases eq
    exact queued
  split at same
  · rw [passTurn_modifyPair here] at same
    cases stays same
  · rw [modifyPair_eq_set here] at same
    cases slot : pair.channel with
    | some old =>
      simp only [slot, modifyPair, emit, modify_eq_set (List.getElem?_set_self hp),
        List.set_set] at same
      cases stays same
    | none =>
      simp only [slot, create, modifyPair, emit, modify_eq_set (List.getElem?_set_self hp),
        List.set_set] at same
      cases stays same

/-- An idle watchdog of a pair that ended ends. -/
theorem endWatchdog_changes (at_p : s.pairs[p]? = some pair) (idle : pair.watchdog = .idle)
    (finished : pair.cancelled = true) :
    (s.step (.endWatchdog p)).pairs[p]? ≠ s.pairs[p]? := by
  intro same
  have hp := (List.getElem?_eq_some_iff.1 at_p).1
  have here : { s with effects := [] }.pairs[p]? = some pair := at_p
  have ready : pair.watchdog = .idle ∧ pair.cancelled = true := ⟨idle, finished⟩
  have ends : (s.step (.endWatchdog p)).pairs =
      s.pairs.set p { pair with watchdog := .ended } := by
    simp only [step, perform, endWatchdog, at_p, if_pos ready, modifyPair_eq_set here]
    split <;> rfl
  rw [ends, List.getElem?_set_self hp, at_p] at same
  have ended : pair.watchdog = .ended := by
    rw [← Option.some.inj same]
  rw [idle] at ended
  cases ended

/-! ## Where nothing can go on -/

theorem Quiescent.calls_eq {e : Event} (quiet : s.Quiescent) (task : e.ofTask = true) :
    (s.step e).calls = s.calls := by
  obtain ⟨fx, same⟩ := quiet.tasks e task
  rw [same]

theorem Quiescent.pairs_eq {e : Event} (quiet : s.Quiescent) (task : e.ofTask = true) :
    (s.step e).pairs = s.pairs := by
  obtain ⟨fx, same⟩ := quiet.tasks e task
  rw [same]

theorem Quiescent.no_turn (quiet : s.Quiescent) (id : CallId) : s.hasTurn id ≠ true := by
  intro turn
  have same := quiet.calls_eq (e := .callTurn id) rfl
  have turn' : hasTurn { s with effects := [] } id = true := turn
  simp only [step, perform, if_pos turn'] at same
  exact callTurn_changes turn' (by rw [same])

/-- Nobody stands in line, since nobody has the channel. -/
theorem Quiescent.line_empty (quiet : s.Quiescent) (orderly : s.OrderlyAt p pair)
    (at_p : s.pairs[p]? = some pair) : pair.line = [] := by
  refine Classical.byContradiction fun busy => ?_
  cases orderly.occupied at_p busy with
  | call waits turn => exact quiet.no_turn _ turn
  | watchdog queued first =>
    have same := quiet.pairs_eq (e := .watchdogTurn p) rfl
    exact watchdogTurn_changes at_p queued first (by rw [same])
  | starts own starting => exact quiet.starts _ starting
  | stops watchdog => exact quiet.watchdogStops p pair _ at_p watchdog

/-- The watchdog of a pair whose slot was emptied for good is gone. -/
theorem Quiescent.sealed_gone (quiet : s.Quiescent) (orderly : s.OrderlyAt p pair)
    (at_p : s.pairs[p]? = some pair) (sealed : pair.Sealed) : pair.watchdog.isGone = true := by
  have free := quiet.line_empty orderly at_p
  cases watchdog : pair.watchdog with
  | unborn | ended => rfl
  | idle =>
    have same := quiet.pairs_eq (e := .endWatchdog p) rfl
    exact absurd (by rw [same]) (endWatchdog_changes at_p watchdog sealed.cancelled)
  | queued =>
    have inLine := orderly.watchdog.2 (by rw [watchdog]; rfl)
    simp [free] at inLine
  | stopping c | starting c =>
    have idle := sealed.watchdog
    simp [watchdog, Watchdog.channel?] at idle

theorem Quiescent.call_returned {call : Call} (quiet : s.Quiescent) (h : s.Orderlier)
    (at_id : s.calls[id]? = some call) : ∃ result, call = .returned result := by
  have orderly := h.lawful.orderly
  have present {p : PairId} (about : call.about? = some p) :
      ∃ pair, s.pairs[p]? = some pair :=
    ⟨_, List.getElem?_eq_getElem (orderly.bounded id p (aboutAt_eq_some.2 ⟨call, at_id, about⟩))⟩
  have waitsNowhere {p : PairId} (waits : call.waits? = some p) : False := by
    obtain ⟨pair, at_p⟩ := present (Call.about?_of_waits? waits)
    have waits := waitsAt_eq_some.2 ⟨call, at_id, waits⟩
    have inLine := ((orderly.pairs p _ at_p).calls id).2 waits
    simp [quiet.line_empty (orderly.pairs p _ at_p) at_p] at inLine
  cases call with
  | arriving p =>
    obtain ⟨pair, at_p⟩ := present rfl
    have free := ((orderly.pairs p pair at_p).arriving id at_id).line
    have same := quiet.calls_eq (e := .enter id) rfl
    exact absurd (by rw [same]) (enter_changes at_id at_p free)
  | following p => exact (waitsNowhere rfl).elim
  | starting p c => exact (waitsNowhere rfl).elim
  | clearing p rest => exact (waitsNowhere rfl).elim
  | stopping p c rest => exact absurd at_id (quiet.callStops id p c rest)
  | joining p rest =>
    obtain ⟨pair, at_p, sealed⟩ := (h.retired id _ p at_id rfl).1
    have gone := quiet.sealed_gone (orderly.pairs p pair at_p) at_p sealed
    have same := quiet.calls_eq (e := .joinWatchdog id) rfl
    exact absurd (by rw [same]) (joinWatchdog_changes at_id at_p gone)
  | returned result => exact ⟨result, rfl⟩

/-! ## Pairs that ended -/

theorem ended_of_set {later : Pair} (at_p : s.pairs[p]? = some pair)
    (pairs : t.pairs = s.pairs.set p later)
    (kept : later.cancelled = true → pair.cancelled = true) (ended : t.Ended q) : s.Ended q := by
  obtain ⟨mine, at_q, finished⟩ := ended
  rw [pairs] at at_q
  rcases of_getElem?_set at_q with ⟨rfl, rfl⟩ | ⟨-, at_q⟩
  · exact ⟨pair, at_p, kept finished⟩
  · exact ⟨mine, at_q, finished⟩

theorem ended_of_set_or {later : Pair} (pairs : t.pairs = s.pairs.set p later)
    (ended : t.Ended q) : q = p ∨ s.Ended q := by
  obtain ⟨mine, at_q, finished⟩ := ended
  rw [pairs] at at_q
  rcases of_getElem?_set at_q with ⟨rfl, -⟩ | ⟨-, at_q⟩
  · exact .inl rfl
  · exact .inr ⟨mine, at_q, finished⟩

/-- Only the pairs to tear down come to their end. -/
theorem TornDown.ended_from (torn : TornDown id ps s t) (ended : t.Ended q) :
    q ∈ ps ∨ s.Ended q := by
  induction torn with
  | done => exact .inr ended
  | missing _ _ ih => exact (ih ended).imp_left (List.mem_cons_of_mem _)
  | passed at_p _ _ _ _ ih =>
    rcases ih ended with mem | before
    · exact .inl (List.mem_cons_of_mem _ mem)
    · rcases ended_of_set_or rfl before with rfl | before
      · exact .inl List.mem_cons_self
      · exact .inr before
  | queued | stops | joins =>
    rcases ended_of_set_or rfl ended with rfl | before
    · exact .inl List.mem_cons_self
    · exact .inr before

theorem GoesOn.ended_from (onward : GoesOn id p rest s t) (ended : t.Ended q) :
    q ∈ rest ∨ s.Ended q := by
  cases onward with
  | onward _ torn => exact torn.ended_from ended
  | joins => exact .inr ended

/-- A pair whose first handshake failed has no channel, and nobody starts one. -/
theorem Orderly.sealedAt_failed {error : SubscriptionError} (h : s.Orderly)
    (call : s.calls[id]? = some (.starting p c)) (at_p : s.pairs[p]? = some pair)
    (pairs : t.pairs = s.pairs.set p { pair.finish with line := pair.line.tail })
    (calls : t.calls = s.calls.set id (.returned (.error error))) : t.SealedAt p := by
  have here := h.pairs p pair at_p
  obtain ⟨first, unborn, newest, starting⟩ := here.opening id c call
  have empty : pair.channel = none := by
    cases slot : pair.channel with
    | none => rfl
    | some d =>
      obtain ⟨newest', started⟩ := here.slot d slot
      obtain rfl := newest.unique newest'
      rw [starting] at started
      cases started
  have idle : pair.watchdog.channel? = none := by rw [unborn]; rfl
  refine sealedAt_set at_p pairs ⟨rfl, empty, idle⟩ (unstarted_set calls (by simp) ?_)
  intro id' d different opening
  have first' := (here.opening id' d opening).1
  rw [first] at first'
  cases first'
  exact different rfl

/-- Every pair that ended has still to be finished by a call, or is released. -/
def LetGo (s : Supervisor) : Prop :=
  ∀ p, s.Ended p → (∃ id, p ∈ s.duties id) ∨ s.Released p

/-- A pair ends when a call sets about tearing it down, when its first handshake fails, or when a
call that tears down several comes to it. -/
theorem Transition.newly_ended {e : Event} (step : Transition s e t) (h : s.Orderlier)
    (ended : t.Ended q) (live : ¬ s.Ended q) :
    s.Ends q e (.ok ()) ∨ s.Awaiting q ∨
      (∃ (id : CallId) (c : ChannelId), s.calls[id]? = some (.starting q c)) ∧ t.SealedAt q ∧
        ∃ pair, t.pairs[q]? = some pair ∧ pair.watchdog.isGone = true := by
  have unchanged {t : Supervisor} {p : PairId} {pair later : Pair} (ended : t.Ended q)
      (at_p : s.pairs[p]? = some pair) (pairs : t.pairs = s.pairs.set p later)
      (cancelled : later.cancelled = pair.cancelled) : False :=
    live (ended_of_set at_p pairs (fun finished => cancelled ▸ finished) ended)
  have comes {u t : Supervisor} {id : CallId} {p : PairId} {rest : List PairId} {call : Call}
      (onward : GoesOn id p rest u t) (ended : t.Ended q) (before : ¬ u.Ended q)
      (at_id : s.calls[id]? = some call) (owed : call.rest = rest) : s.Awaiting q := by
    have mem := (onward.ended_from ended).resolve_right before
    exact ⟨id, by rwa [owes_eq at_id, owed]⟩
  cases step with
  | idle | passed | found | unknown | unawaited | leftAlone => exact absurd ended live
  | registered =>
    obtain ⟨mine, at_q, finished⟩ := ended
    rcases of_getElem?_concat at_q with at_q | ⟨-, rfl⟩
    · exact absurd ⟨mine, at_q, finished⟩ live
    · cases finished
  | unsubscribed known torn =>
    rcases torn.ended_from ended with mem | before
    · obtain rfl := List.mem_singleton.1 mem
      exact .inl (.unsubscribed known)
    · exact absurd before live
  | unsubscribedAll perm torn =>
    rcases torn.ended_from ended with mem | before
    · exact .inl (.unsubscribedAll perm mem)
    · exact absurd before live
  | entered _ at_p | followed _ at_p | answered _ at_p | cleared _ at_p =>
    exact (unchanged ended at_p rfl rfl).elim
  | stoppedForWatchdog _ at_p | heard _ at_p | closing _ at_p | ended at_p =>
    exact (unchanged ended at_p rfl rfl).elim
  | opened _ _ _ at_p => exact (unchanged ended at_p rfl rfl).elim
  | replaced _ _ at_p | notReplaced _ _ at_p => exact (unchanged ended at_p rfl rfl).elim
  | foundClear call at_p _ _ onward =>
    exact .inr (.inl (comes onward ended (fun before => unchanged before at_p rfl rfl) call rfl))
  | joined call onward => exact .inr (.inl (comes onward ended live call rfl))
  | stoppedForCall _ call onward => exact .inr (.inl (comes onward ended live call rfl))
  | rested at_p wakes | queued at_p wakes =>
    exact (unchanged ended at_p rfl wakes.cancelled_eq).elim
  | withdrew at_p turn | stopsOld at_p turn | startsNew at_p turn =>
    exact (unchanged ended at_p rfl turn.cancelled_eq).elim
  | @failed c _ id _ pair channel error _ at_c _ call at_p =>
    obtain rfl := h.lawful.orderly.owner call at_c
    rcases ended_of_set_or rfl ended with rfl | before
    · have unborn := ((h.lawful.orderly.pairs _ _ at_p).opening _ _ call).2.1
      have hq := (List.getElem?_eq_some_iff.1 at_p).1
      refine .inr (.inr ⟨⟨id, c, call⟩, h.lawful.orderly.sealedAt_failed call at_p rfl rfl, ?_⟩)
      exact ⟨_, List.getElem?_set_self hq, by simp [Pair.finish, unborn, Watchdog.isGone]⟩
    · exact absurd before live
  | stray at_c missing => exact absurd missing (h.lawful.sound.present at_c)

theorem owes_subset_duties (mem : q ∈ s.owes id) : q ∈ s.duties id := by
  cases at_id : s.calls[id]? with
  | none => simp [owes, at_id] at mem
  | some call =>
    rw [owes_eq at_id] at mem
    rw [duties_eq at_id]
    cases call with
    | clearing | stopping | joining => exact List.mem_cons_of_mem _ mem
    | _ => cases mem

theorem LetGo.step (each : s.LetGo) (h : s.Orderlier) (e : Event) : (s.step e).LetGo := by
  intro q ended
  have step := step_transition s e
  have duty {id : CallId} (mem : q ∈ s.duties id) :
      (∃ id, q ∈ (s.step e).duties id) ∨ (s.step e).Released q :=
    (step.duty h mem).imp_left fun mem => ⟨id, mem⟩
  by_cases before : s.Ended q
  · rcases each q before with ⟨id, mem⟩ | done
    · exact duty mem
    · exact .inr (step.released h done).1
  · rcases step.newly_ended h ended before with ends | ⟨id, mem⟩ | ⟨-, sealed, pair, at_q, gone⟩
    · exact (ends.duty h).imp_left fun mem => ⟨_, mem⟩
    · exact duty (owes_subset_duties mem)
    · -- A call may already wait to clear the pair; if none does, nobody has a channel of it.
      by_cases busy : ∃ id, q ∈ (s.step e).duties id
      · exact .inl busy
      · obtain ⟨mine, at_q', done⟩ := sealed.1
        cases at_q.symm.trans at_q'
        exact .inr ⟨⟨pair, at_q, done, gone⟩, sealed.idle fun id mem => busy ⟨id, mem⟩⟩

theorem letGo_initial (h : s.Initial) : s.LetGo := by
  rintro p ⟨pair, at_p, -⟩
  simp [h.pairs] at at_p

theorem run_letGo (events : List Event) (h : s.Orderlier) (each : s.LetGo) :
    (s.run events).LetGo := by
  induction events generalizing s with
  | nil => exact each
  | cons e events ih =>
    exact ih ((step_transition s e).orderlier (h.lawful.step e) h) (each.step h e)

/-- A pair that ended is released where every call has returned. -/
theorem Quiescent.released (quiet : s.Quiescent) (h : s.Orderlier) (each : s.LetGo)
    (ended : s.Ended p) : s.Released p := by
  rcases each p ended with ⟨id, mem⟩ | done
  · cases at_id : s.calls[id]? with
    | none => simp [duties, at_id] at mem
    | some call =>
      obtain ⟨result, rfl⟩ := quiet.call_returned h at_id
      simp [duties_eq at_id, Call.duties] at mem
  · exact done

/-- The supervisor never deadlocks. After every run, where no start or stop of a channel is
outstanding and every task that can run has run, no call is pending, and no task of a pair that
was torn down is alive: neither its watchdog nor a channel of it. -/
theorem never_deadlocks {s₀ : Supervisor} (initial : s₀.Initial) (events : List Event) :
    let s := s₀.run events
    s.Quiescent →
    (∀ (id : CallId) (call : Call), s.calls[id]? = some call →
      ∃ result, call = .returned result) ∧
    ∀ (p : PairId) (pair : Pair), s.pairs[p]? = some pair → pair.cancelled = true →
      pair.watchdog.isGone = true ∧
      ∀ (c : ChannelId) (channel : Channel), s.channels[c]? = some channel → channel.pair = p →
        channel.Spent := by
  intro s quiet
  have h : s.Orderlier := (orderlier_initial initial).run events
  have each : s.LetGo := run_letGo events (orderlier_initial initial) (letGo_initial initial)
  constructor
  · intro id call at_id
    exact quiet.call_returned h at_id
  · intro p pair at_p finished
    have done := quiet.released h each ⟨pair, at_p, finished⟩
    obtain ⟨mine, at_p', -, gone⟩ := done.gone
    cases at_p.symm.trans at_p'
    refine ⟨gone, ?_⟩
    intro c channel at_c own
    subst own
    exact h.spent at_c done

/-- The watchdog is gone, or sleeps and has no reason to wake at this instant. -/
def Pair.Asleep (now : Nat) (pair : Pair) : Prop :=
  pair.watchdog.isGone = true ∨
    pair.watchdog = .idle ∧ pair.notice = false ∧ now < pair.tickDue ∧ pair.cancelled = false

theorem quiescent_of_asleep (starts : ∀ c, s.status? c ≠ some .starting)
    (calls : ∀ (id : CallId) (call : Call), s.calls[id]? = some call →
      ∃ result, call = .returned result)
    (pairs : ∀ (p : PairId) (pair : Pair), s.pairs[p]? = some pair → Pair.Asleep s.now pair) :
    s.Quiescent := by
  have watchdog {p : PairId} {pair : Pair} (at_p : s.pairs[p]? = some pair) :
      pair.watchdog ≠ .queued ∧ ∀ c, pair.watchdog ≠ .stopping c := by
    rcases pairs p pair at_p with gone | ⟨idle, -⟩
    · constructor
      · intro queued
        simp [queued, Watchdog.isGone] at gone
      · intro c stopping
        simp [stopping, Watchdog.isGone] at gone
    · simp [idle]
  have waking {p : PairId} {pair : Pair} (at_p : s.pairs[p]? = some pair)
      (idle : pair.watchdog = .idle) :
      pair.notice = false ∧ s.now < pair.tickDue ∧ pair.cancelled = false := by
    rcases pairs p pair at_p with gone | ⟨-, rest⟩
    · simp [idle, Watchdog.isGone] at gone
    · exact rest
  refine ⟨starts, ?_, fun p pair c at_p => (watchdog at_p).2 c, ?_⟩
  · intro id p c rest at_id
    obtain ⟨result, returned⟩ := calls id _ at_id
    cases returned
  · intro e task
    refine ⟨[], ?_⟩
    cases e with
    | enter id =>
      cases at_id : s.calls[id]? with
      | none => simp [step, perform, enter, at_id]
      | some call =>
        obtain ⟨result, rfl⟩ := calls id call at_id
        simp [step, perform, enter, at_id]
    | callTurn id =>
      cases at_id : s.calls[id]? with
      | none => simp [step, perform, hasTurn, at_id]
      | some call =>
        obtain ⟨result, rfl⟩ := calls id call at_id
        simp [step, perform, hasTurn, at_id]
    | joinWatchdog id =>
      cases at_id : s.calls[id]? with
      | none => simp [step, perform, joinWatchdog, at_id]
      | some call =>
        obtain ⟨result, rfl⟩ := calls id call at_id
        simp [step, perform, joinWatchdog, at_id]
    | watchdogTurn p =>
      cases at_p : s.pairs[p]? with
      | none => simp [step, perform, watchdogTurn, at_p]
      | some pair => simp [step, perform, watchdogTurn, at_p, (watchdog at_p).1]
    | takeNotice p =>
      cases at_p : s.pairs[p]? with
      | none => simp [step, perform, takeNotice, at_p]
      | some pair =>
        have dull : ¬ (pair.watchdog = .idle ∧ pair.notice = true) := by
          rintro ⟨idle, noticed⟩
          simp [(waking at_p idle).1] at noticed
        simp only [step, perform, takeNotice, at_p, if_neg dull]
    | takeTick p =>
      cases at_p : s.pairs[p]? with
      | none => simp [step, perform, takeTick, at_p]
      | some pair =>
        have dull : ¬ (pair.watchdog = .idle ∧ pair.tickDue ≤ s.now) := by
          rintro ⟨idle, due⟩
          have := (waking at_p idle).2.1
          omega
        simp only [step, perform, takeTick, at_p, if_neg dull]
    | endWatchdog p =>
      cases at_p : s.pairs[p]? with
      | none => simp [step, perform, endWatchdog, at_p]
      | some pair =>
        have dull : ¬ (pair.watchdog = .idle ∧ pair.cancelled = true) := by
          rintro ⟨idle, finished⟩
          simp [(waking at_p idle).2.2] at finished
        simp only [step, perform, endWatchdog, at_p, if_neg dull]
    | _ => cases task

/-- The key is unsubscribed while the watchdog stops the channel that closed, and subscribed again
before that is over: both calls return, and nothing of the first pair is left. -/
theorem never_deadlocks_during_replacement :
    let key := wholeProgram .state
    let s := run {} [.subscribe key none, .enter 0, .handshake 0 false (.ok ()),
      .deliver 0 .closed, .takeNotice 0, .unsubscribe key, .subscribe key none, .stopped 0,
      .enter 2, .handshake 1 false (.ok ()), .callTurn 1, .stopped 1, .handshake 2 false (.ok ()),
      .endWatchdog 0, .joinWatchdog 1, .takeTick 1]
    Initial {} ∧ s.Quiescent ∧ s.calls.length = 3 ∧
      (∀ (id : CallId) (call : Call), s.calls[id]? = some call →
        ∃ result, call = .returned result) ∧
      ∃ pair, s.pairs[0]? = some pair ∧ pair.cancelled = true ∧ pair.watchdog.isGone = true := by
  intro key s
  have initial : Initial {} := ⟨rfl, rfl, rfl, rfl⟩
  have calls : s.calls = [.returned (.ok ()), .returned (.ok ()), .returned (.ok ())] := by
    simp only [s, key]
    decide +kernel
  have channels : s.channels = [⟨0, .started, 1⟩, ⟨0, .started, 1⟩, ⟨1, .started, 0⟩] := by
    simp only [s, key]
    decide +kernel
  have first : s.pairs[0]?.map (fun pair => (pair.watchdog, pair.cancelled)) =
      some (.ended, true) := by
    simp only [s, key]
    decide +kernel
  have asleep : ∀ pair ∈ s.pairs, pair.watchdog = .ended ∨
      pair.watchdog = .idle ∧ pair.notice = false ∧ s.now < pair.tickDue ∧
        pair.cancelled = false := by
    simp only [s, key]
    decide +kernel
  have quiet : s.Quiescent := by
    apply quiescent_of_asleep
    · intro c starting
      obtain ⟨channel, at_c, status⟩ := Option.map_eq_some_iff.1 starting
      have mem := List.mem_of_getElem? at_c
      rw [channels] at mem
      have started : ∀ channel ∈ [(⟨0, .started, 1⟩ : Channel), ⟨0, .started, 1⟩, ⟨1, .started, 0⟩],
          channel.status = .started := by decide
      rw [started channel mem] at status
      cases status
    · intro id call at_id
      have mem := List.mem_of_getElem? at_id
      simp only [calls, List.mem_cons, List.not_mem_nil, or_false, or_self] at mem
      exact ⟨_, mem⟩
    · intro p pair at_p
      rcases asleep pair (List.mem_of_getElem? at_p) with ended | idle
      · exact .inl (by rw [ended]; rfl)
      · exact .inr idle
  obtain ⟨returned, torn⟩ := never_deadlocks initial _ quiet
  obtain ⟨pair, at_p, facts⟩ := Option.map_eq_some_iff.1 first
  obtain ⟨-, finished⟩ := Prod.mk.inj facts
  exact ⟨initial, quiet, by rw [calls]; rfl, returned, pair, at_p, finished,
    (torn 0 pair at_p finished).1⟩

end Supervisor

end LedgerWatch
