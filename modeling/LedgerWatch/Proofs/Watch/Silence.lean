import LedgerWatch.Proofs.Watch.GivingBack
import LedgerWatch.Proofs.Watch.Stops
import LedgerWatch.Watch.LogStream
import LedgerWatch.Watch.Polling

/-!
# Stopped channels are silent

Once a stop has returned, a channel of any kind answers further stops and puts nothing else out: it
calls nobody, reads nothing and subscribes to nothing (`stopped_channels_silent`). The three kinds
look for a cancellation at different places, and the first read of a log channel is finished in
spite of it; for each kind it is shown that its steps are as they have to be (`settles`).
-/

namespace LedgerWatch

deriving instance DecidableEq for Polling.Input, Push.Input, LogStream.Input

/-! ## The polling channel -/

namespace Polling

variable {c : Polling} {input : Input}

def kind : ChannelKind where
  State := Polling
  Input := Input
  Output := Output
  step := step
  start := .start
  stop := .cancel
  started := .started
  stopped := .stopped
  Fresh c := c.phase = .unstarted
  Running c := c.hasTask = true
  Ended c := c.phase = .ended
  Cancelled c := c.cancelled = true
  togo _ _ := [.look]

/-- A start returns when the first read has been answered. -/
theorem step_started {result : Except SubscriptionError Unit}
    (mem : .started result ∈ (c.step input).2) :
    (c.step input).1.phase = .ended ∨ result = .ok () ∧ (c.step input).1.hasTask = true := by
  cases input with
  | answer now read =>
    cases phase : c.phase <;> cases read <;> simp_all [step, passOn, hasTask]
  | _ => grind [step]

/-- The task goes on unless it looks and is cancelled. -/
theorem step_hasTask (running : c.hasTask = true) (goes : ¬(c.cancelled = true ∧ input = .look)) :
    (c.step input).1.hasTask = true ∧ .stopped ∉ (c.step input).2 := by
  cases input with
  | answer now read =>
    cases phase : c.phase <;> cases read <;> simp_all [step, hasTask, passOn]
  | tick now =>
    simp only [step]
    split
    · simp [hasTask]
    · simp [running]
  | _ => grind [step, hasTask]

theorem step_look (running : c.hasTask = true) (cancelled : c.cancelled = true) :
    (c.step .look).1.phase = .ended ∧ .stopped ∈ (c.step .look).2 := by
  simp [step, running, cancelled]

theorem step_cancelled (cancelled : c.cancelled = true) (input : Input) :
    (c.step input).1.cancelled = true := by
  cases input with
  | answer now read => cases phase : c.phase <;> cases read <;> simpa [step, phase, passOn]
  | _ => grind [step]

theorem settles : kind.Settles where
  rests c input fresh unstarted := by
    cases input <;> simp_all [kind, step, hasTask]
  ended c input ended := by
    cases input <;> simp_all [kind, step, hasTask]
  starts c input result returned := step_started returned
  works c input running := by
    by_cases ends : c.cancelled = true ∧ input = .look
    · obtain ⟨cancelled, rfl⟩ := ends
      obtain ⟨ended, returned⟩ := step_look running cancelled
      exact .inr ⟨ended, fun _ => returned⟩
    · obtain ⟨running', unreturned⟩ := step_hasTask running ends
      left
      constructor
      case running => exact running'
      case unreturned => exact unreturned
      case cancelled =>
        intro cancelled
        exact step_cancelled cancelled input
      case nearer =>
        intro read
        right
        refine ⟨rfl, ?_⟩
        intro cancelled look
        exact ends ⟨cancelled, (Option.some.inj look).symm⟩
  cancels c running := ⟨running, rfl, fun _ => rfl⟩
  waits _ _ _ := List.cons_ne_nil _ _

end Polling

/-! ## The push channel -/

namespace Push

variable {c d : Push} {input : Input} {ids : List SubscriptionId}

/-- The task looks, then it gives back what it was granted, one subscription after another. -/
def togo (c : Push) : List Input :=
  match c.phase with
  | .live => .look :: List.replicate c.granted.length .released
  | .releasing ids none => List.replicate ids.length .released
  | _ => []

def kind : ChannelKind where
  State := Push
  Input := Input
  Output := Output
  step := step
  start := .start
  stop := .cancel
  started := .started
  stopped := .stopped
  Fresh c := c.phase = .unstarted
  Running c := c.Runs
  Ended c := c.phase = .ended
  Cancelled c := c.cancelled = true
  togo _ := togo

theorem togo_live (live : c.phase = .live) :
    c.togo = .look :: List.replicate c.granted.length .released := by
  simp [togo, live]

theorem togo_releasing (releasing : c.phase = .releasing ids none) :
    c.togo = List.replicate ids.length .released := by
  simp [togo, releasing]

/-- A channel that is not started, or is over, only answers stops. -/
theorem step_idle (idle : c.phase = .unstarted ∧ input ≠ .start ∨ c.phase = .ended) :
    (c.step input).1.phase = c.phase ∧
      (c.step input).2 = if input = .cancel then [.stopped] else [] := by
  cases input <;> rcases idle with ⟨phase, unstarted⟩ | phase <;> simp_all [step, hasTask]

/-- The task has come to giving back, or it gives back the next subscription, or it ends. -/
theorem works_of_release {before : List Output} (kept : d.cancelled = c.cancelled)
    (reports : Reports before) (left : c.togo.tail = List.replicate ids.length .released)
    (outcome : c.step input = ((d.release none ids).1, before ++ (d.release none ids).2)) :
    kind.Goes c input ∨ (c.step input).1.phase = .ended ∧
      (c.cancelled = true → .stopped ∈ (c.step input).2) := by
  cases release_none d ids with
  | inr ends =>
    right
    rw [outcome]
    refine ⟨ends.1, ?_⟩
    intro cancelled
    exact List.mem_append_right _ (ends.2 (kept.trans cancelled))
  | inl goes =>
    obtain ⟨id, rest, rfl, releasing, unreturned⟩ := goes
    change kind.step c input = _ at outcome
    left
    constructor
    case running =>
      rw [outcome]
      exact .inr ⟨id, rest, releasing⟩
    case unreturned =>
      rw [outcome]
      exact fun mem => (List.mem_append.1 mem).elim reports.not_stopped unreturned
    case cancelled =>
      intro cancelled
      rw [outcome]
      exact (release_kept d none _).2.trans (kept.trans cancelled)
    case nearer =>
      intro read
      left
      rw [outcome]
      change (d.release none (id :: rest)).1.togo = c.togo.tail
      rw [togo_releasing releasing, left]

theorem goes_live (live : c.phase = .live)
    (stays : c.StaysLive (c.step input) ∧ (c.cancelled = true → input ≠ .look)) :
    kind.Goes c input := by
  obtain ⟨stays, awake⟩ := stays
  constructor
  case running => exact .inl stays.phase
  case unreturned => exact stays.reports.not_stopped
  case cancelled => exact stays.cancelled
  case nearer =>
    intro read
    right
    change (c.step input).1.togo = c.togo ∧ (_ → c.togo.head? ≠ _)
    rw [togo_live live, togo_live stays.phase, stays.granted]
    refine ⟨rfl, ?_⟩
    intro cancelled look
    exact awake cancelled (Option.some.inj look).symm

theorem works_releasing {id : SubscriptionId} {rest : List SubscriptionId}
    (releasing : c.phase = .releasing (id :: rest) none) (input : Input) :
    kind.Goes c input ∨ (c.step input).1.phase = .ended ∧
      (c.cancelled = true → .stopped ∈ (c.step input).2) := by
  by_cases given : input = .released
  · subst given
    have left : c.togo.tail = List.replicate rest.length .released := by
      rw [togo_releasing releasing]
      rfl
    apply works_of_release rfl reports_nil left
    simp [step, releasing]
  · obtain ⟨releasing', silent, cancelled⟩ := step_releasing releasing given
    left
    constructor
    case running => exact .inr ⟨id, rest, releasing'⟩
    case unreturned =>
      change .stopped ∉ (c.step input).2
      simp [silent]
    case cancelled => exact cancelled
    case nearer =>
      intro read
      right
      change (c.step input).1.togo = c.togo ∧ (_ → c.togo.head? ≠ _)
      rw [togo_releasing releasing, togo_releasing releasing']
      refine ⟨rfl, ?_⟩
      intro _ released
      exact given (Option.some.inj released).symm

theorem settles : kind.Settles where
  rests c input fresh unstarted := by
    obtain ⟨same, out⟩ := step_idle (.inl ⟨fresh, unstarted⟩)
    exact ⟨same.trans fresh, out⟩
  ended c input ended := by
    obtain ⟨same, out⟩ := step_idle (.inr ended)
    exact ⟨same.trans ended, out⟩
  starts c input result returned := step_started returned
  works c input running := by
    rcases running with live | ⟨id, rest, releasing⟩
    · cases step_live live input with
      | inl stays => exact .inl (goes_live live stays)
      | inr gives =>
        obtain ⟨d, before, -, kept, reports, outcome⟩ := gives
        apply works_of_release kept reports _ outcome
        rw [togo_live live]
        rfl
    · exact works_releasing releasing input
  cancels c running := ⟨running, rfl, fun _ => rfl⟩
  waits c read running := by
    change c.togo ≠ []
    rcases running with live | ⟨id, rest, releasing⟩
    · rw [togo_live live]
      apply List.cons_ne_nil
    · rw [togo_releasing releasing]
      apply List.cons_ne_nil

end Push

/-! ## The log channel -/

namespace LogStream

variable {c : LogStream} {input : Input}

/-- The first read is finished, then the task looks, then it gives its subscription back. -/
def togo (read : FilterRead) (c : LogStream) : List Input :=
  match c.phase with
  | .opening => [.answer read, .look, .released]
  | .waiting | .reading => [.look, .released]
  | .releasing => [.released]
  | _ => []

def kind : ChannelKind where
  State := LogStream
  Input := Input
  Output := Output
  step := step
  start := .start
  stop := .cancel
  started := .started
  stopped := .stopped
  Fresh c := c.phase = .unstarted
  Running c := c.hasTask = true
  Ended c := c.phase = .ended
  Cancelled c := c.cancelled = true
  togo := togo

/-- The task waits for a transaction, or reads on account of one. -/
def Listens (c : LogStream) : Prop := c.phase = .waiting ∨ c.phase = .reading

theorem hasTask_iff : c.hasTask = true ↔
    c.phase = .opening ∨ c.Listens ∨ c.phase = .releasing := by
  cases phase : c.phase <;> simp [hasTask, Listens, phase]

theorem togo_opening (opening : c.phase = .opening) (read : FilterRead) :
    c.togo read = [.answer read, .look, .released] := by
  simp [togo, opening]

theorem togo_releasing (releasing : c.phase = .releasing) (read : FilterRead) :
    c.togo read = [.released] := by
  simp [togo, releasing]

theorem togo_listens (listens : c.Listens) (read : FilterRead) :
    c.togo read = [.look, .released] := by
  cases listens with
  | inl phase => simp [togo, phase]
  | inr phase => simp [togo, phase]

theorem absorb_waits (c : LogStream) (read : FilterRead) :
    (c.absorb read).1.phase = .waiting ∧ .stopped ∉ (c.absorb read).2 ∧
      ∀ result, .started result ∉ (c.absorb read).2 := by
  cases read <;> simp [absorb]

theorem takeUp_goes (waits : c.phase = .waiting) :
    (c.takeUp.1.Listens ∨ c.takeUp.1.phase = .releasing) ∧ .stopped ∉ c.takeUp.2 := by
  unfold takeUp
  split
  · simp [Listens]
  · simp [Listens, waits]
  · split <;> simp [Listens, release, waits]

theorem step_arrive (c : LogStream) (succeeded : Bool) :
    (c.step (.arrive succeeded)).1.phase = c.phase ∧ (c.step (.arrive succeeded)).2 = [] := by
  rw [step]
  split <;> exact ⟨rfl, rfl⟩

theorem step_cancelled (cancelled : c.cancelled = true) (input : Input) :
    (c.step input).1.cancelled = true := by
  cases input with
  | connected result => cases phase : c.phase <;> cases result <;> simpa [step, phase, fail]
  | subscribed result => cases phase : c.phase <;> cases result <;> simpa [step, phase, fail]
  | answer read => cases phase : c.phase <;> cases read <;> simpa [step, phase, absorb]
  | next =>
    simp only [step, takeUp]
    repeat' split
    all_goals simpa [release]
  | _ => grind [step, release]

/-- A channel that is not started, or is over, only answers stops. -/
theorem step_idle (idle : c.phase = .unstarted ∧ input ≠ .start ∨ c.phase = .ended) :
    (c.step input).1.phase = c.phase ∧
      (c.step input).2 = if input = .cancel then [.stopped] else [] := by
  cases input with
  | arrive succeeded => simp [step_arrive]
  | _ => rcases idle with ⟨phase, unstarted⟩ | phase <;> simp_all [step, hasTask]

/-- A start returns when the subscription is granted, before the first read. -/
theorem step_started {result : Except SubscriptionError Unit}
    (mem : .started result ∈ (c.step input).2) :
    (c.step input).1.phase = .ended ∨ result = .ok () ∧ (c.step input).1.hasTask = true := by
  cases input with
  | connected result =>
    cases phase : c.phase <;> cases result <;> simp_all [step, fail]
  | subscribed result =>
    cases phase : c.phase <;> cases result <;> simp_all [step, fail, hasTask]
  | answer read => cases phase : c.phase <;> simp_all [step, absorb_waits]
  | next =>
    simp only [step, takeUp] at mem
    repeat' split at mem
    all_goals simp [release] at mem
  | _ => grind [step, release]

/-- The first read is finished whatever happens. -/
theorem step_opening (opening : c.phase = .opening) (input : Input) :
    .stopped ∉ (c.step input).2 ∧ ((c.step input).1.phase = .waiting ∨
      (c.step input).1.phase = .opening ∧ ∀ read, input ≠ .answer read) := by
  cases input with
  | answer read =>
    obtain ⟨waits, unreturned, -⟩ := absorb_waits c read
    simp only [step, opening]
    exact ⟨unreturned, .inl waits⟩
  | arrive succeeded => simp [step_arrive, opening]
  | _ => simp [step, hasTask, opening]

theorem step_listens (listens : c.Listens) (input : Input) :
    .stopped ∉ (c.step input).2 ∧ ((c.step input).1.phase = .releasing ∨
      (c.step input).1.Listens ∧ (c.cancelled = true → input ≠ .look)) := by
  have phases : c.phase = .waiting ∨ c.phase = .reading := listens
  cases input with
  | answer read =>
    cases phases with
    | inl waits => simp [step, waits, Listens]
    | inr reads =>
      obtain ⟨waits, unreturned, -⟩ := absorb_waits c read
      simp only [step, reads]
      exact ⟨unreturned, .inr ⟨.inl waits, fun _ => Input.noConfusion⟩⟩
  | next =>
    by_cases waits : c.phase = .waiting
    · obtain ⟨goes, unreturned⟩ := takeUp_goes waits
      simp only [step, if_pos waits]
      exact ⟨unreturned, goes.symm.imp_right fun listens => ⟨listens, fun _ => Input.noConfusion⟩⟩
    · simp [step, waits, listens]
  | look =>
    by_cases cancelled : c.cancelled = true
    · simp [step, cancelled, phases, release]
    · simp [step, cancelled, listens]
  | arrive succeeded => simp [step_arrive, Listens, phases]
  | _ => rcases phases with phase | phase <;> simp [step, hasTask, Listens, phase]

theorem step_releasing (releasing : c.phase = .releasing) (input : Input) :
    (c.step input).1.phase = .releasing ∧ (c.step input).2 = [] ∧ input ≠ .released ∨
      (c.step input).1.phase = .ended ∧ (c.cancelled = true → .stopped ∈ (c.step input).2) := by
  cases input with
  | arrive succeeded => simp [step_arrive, releasing]
  | _ => simp_all [step, hasTask]

theorem goes_opening (opening : c.phase = .opening) (input : Input) : kind.Goes c input := by
  obtain ⟨unreturned, goes⟩ := step_opening opening input
  constructor
  case running =>
    apply hasTask_iff.2
    exact goes.elim (fun waits => .inr (.inl (.inl waits))) fun stays => .inl stays.1
  case unreturned => exact unreturned
  case cancelled => exact fun cancelled => step_cancelled cancelled input
  case nearer =>
    intro read
    cases goes with
    | inl waits =>
      left
      change (c.step input).1.togo read = (c.togo read).tail
      rw [togo_opening opening, togo_listens (.inl waits)]
      rfl
    | inr stays =>
      right
      change (c.step input).1.togo read = c.togo read ∧ (_ → (c.togo read).head? ≠ _)
      rw [togo_opening opening, togo_opening stays.1]
      refine ⟨rfl, ?_⟩
      intro _ answer
      exact stays.2 read (Option.some.inj answer).symm

theorem goes_listens (listens : c.Listens) (input : Input) : kind.Goes c input := by
  obtain ⟨unreturned, goes⟩ := step_listens listens input
  constructor
  case running =>
    apply hasTask_iff.2
    exact .inr (goes.symm.imp_left And.left)
  case unreturned => exact unreturned
  case cancelled => exact fun cancelled => step_cancelled cancelled input
  case nearer =>
    intro read
    cases goes with
    | inl releasing =>
      left
      change (c.step input).1.togo read = (c.togo read).tail
      rw [togo_listens listens, togo_releasing releasing]
      rfl
    | inr stays =>
      right
      change (c.step input).1.togo read = c.togo read ∧ (_ → (c.togo read).head? ≠ _)
      rw [togo_listens listens, togo_listens stays.1]
      refine ⟨rfl, ?_⟩
      intro cancelled look
      exact stays.2 cancelled (Option.some.inj look).symm

theorem goes_releasing (releasing : c.phase = .releasing)
    (stays : (c.step input).1.phase = .releasing ∧ (c.step input).2 = [] ∧ input ≠ .released) :
    kind.Goes c input := by
  obtain ⟨releasing', silent, differs⟩ := stays
  constructor
  case running => exact hasTask_iff.2 (.inr (.inr releasing'))
  case unreturned =>
    change .stopped ∉ (c.step input).2
    simp [silent]
  case cancelled => exact fun cancelled => step_cancelled cancelled input
  case nearer =>
    intro read
    right
    change (c.step input).1.togo read = c.togo read ∧ (_ → (c.togo read).head? ≠ _)
    rw [togo_releasing releasing, togo_releasing releasing']
    refine ⟨rfl, ?_⟩
    intro _ released
    exact differs (Option.some.inj released).symm

theorem settles : kind.Settles where
  rests c input fresh unstarted := by
    obtain ⟨same, out⟩ := step_idle (.inl ⟨fresh, unstarted⟩)
    exact ⟨same.trans fresh, out⟩
  ended c input ended := by
    obtain ⟨same, out⟩ := step_idle (.inr ended)
    exact ⟨same.trans ended, out⟩
  starts c input result returned := step_started returned
  works c input running := by
    rcases hasTask_iff.1 running with opening | listens | releasing
    · exact .inl (goes_opening opening input)
    · exact .inl (goes_listens listens input)
    · apply (step_releasing releasing input).imp_left
      exact goes_releasing releasing
  cancels c running := ⟨running, rfl, fun _ => rfl⟩
  waits c read running := by
    rcases hasTask_iff.1 running with opening | listens | releasing
    all_goals change c.togo read ≠ []
    · rw [togo_opening opening]
      apply List.cons_ne_nil
    · rw [togo_listens listens]
      apply List.cons_ne_nil
    · rw [togo_releasing releasing]
      apply List.cons_ne_nil

end LogStream

/-! ## All kinds of channels -/

/-- Over every run, a channel of any kind and for any filter falls silent when it is stopped. -/
theorem stopped_channels_silent (frequency : Nat) (filter : Filter) :
    Polling.kind.FallsSilent ({ frequency } : Polling) ∧
      Push.kind.FallsSilent ({ filter } : Push) ∧ LogStream.kind.FallsSilent ({} : LogStream) :=
  ⟨Polling.settles.fallsSilent rfl, Push.settles.fallsSilent rfl, LogStream.settles.fallsSilent rfl⟩

/-- A log channel is stopped while its first read is in flight. It reads once more before it looks,
and never after the stop has returned. -/
theorem stopped_channels_silent_opening :
    let opened := LogStream.run {} [.start, .connected (.ok ()), .subscribed (.ok 7)]
    let stopped := LogStream.run opened.1
      [.cancel, .arrive true, .answer (.ok ⟨[], 5⟩), .next, .look, .released]
    opened.2 = [.connect, .subscribe, .started (.ok ()), .read] ∧
      stopped.2 = [.emit .heartbeat, .read, .unsubscribe 7, .stopped] ∧
      stopped.1.phase = .ended ∧ LogStream.kind.Silent stopped.1 := by
  intro opened stopped
  have started : .started (.ok ()) ∈ opened.2 := .tail _ (.tail _ (.head _))
  have returned : .stopped ∈ stopped.2 := .tail _ (.tail _ (.tail _ (.head _)))
  exact ⟨rfl, rfl, (stopped_channels_silent 0 (.accounts [])).2.2.stopped _ _ started returned⟩

end LedgerWatch
