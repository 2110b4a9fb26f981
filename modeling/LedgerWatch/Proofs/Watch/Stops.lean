import LedgerWatch.Watch
import LedgerWatch.Error
import Mathlib.Data.List.Induction

/-!
# Stopping a channel

What a channel of some kind does when it is started and stopped (`ChannelKind.FallsSilent`), and
what the steps of the kind have to show for it (`ChannelKind.Settles`): once the start has returned,
a stop returns when the task ends and not before, and each thing that a cancelled task has to do yet
brings it nearer to its end.
-/

namespace LedgerWatch

/-- A kind of channel, as those see it who start and stop it. -/
structure ChannelKind where
  State : Type
  Input : Type
  Output : Type
  [decEq : DecidableEq Input]
  step : State → Input → State × List Output
  start : Input
  stop : Input
  started (result : Except SubscriptionError Unit) : Output
  stopped : Output
  /-- No start was called. -/
  Fresh : State → Prop
  /-- The start has returned Ok, and the task is at work. -/
  Running : State → Prop
  /-- The task is over. -/
  Ended : State → Prop
  Cancelled : State → Prop
  /-- What a cancelled task has to do yet, if a read that it waits for is answered so. -/
  togo (read : FilterRead) : State → List Input

namespace ChannelKind

variable (k : ChannelKind)

instance : DecidableEq k.Input := k.decEq

def run (s : k.State) (inputs : List k.Input) : k.State × List k.Output :=
  runInputs k.step s inputs

/-- Unless the channel is started, all it does from here is to answer each stop at once. -/
def Silent (s : k.State) : Prop :=
  ∀ later, k.start ∉ later → (k.run s later).2 = List.replicate (later.count k.stop) k.stopped

/-- A channel that begins like this falls silent when it is stopped. -/
structure FallsSilent (begun : k.State) : Prop where
  /-- The start has returned Ok, then a stop is called, and it has returned in the end. -/
  stopped : ∀ first rest, k.started (.ok ()) ∈ (k.run begun first).2 →
    k.stopped ∈ (k.run (k.run begun first).1 (k.stop :: rest)).2 →
    k.Ended (k.run (k.run begun first).1 (k.stop :: rest)).1 ∧
      k.Silent (k.run (k.run begun first).1 (k.stop :: rest)).1
  /-- It has returned when the task is through, whatever happens besides. -/
  returns : ∀ first rest read, k.started (.ok ()) ∈ (k.run begun first).2 →
    (k.togo read (k.run begun first).1).Sublist rest →
    k.stopped ∈ (k.run (k.run begun first).1 (k.stop :: rest)).2
  /-- A start that failed has left nothing at work. -/
  failed : ∀ first error, k.started (.error error) ∈ (k.run begun first).2 →
    k.Ended (k.run begun first).1 ∧ k.Silent (k.run begun first).1
  unstarted : k.Silent begun

/-- A step at which the task stays at work, so that no stop returns. The first thing that it has to
do yet is done, or all is to do yet and the step was not that first thing. -/
structure Goes (s : k.State) (input : k.Input) : Prop where
  running : k.Running (k.step s input).1
  unreturned : k.stopped ∉ (k.step s input).2
  cancelled : k.Cancelled s → k.Cancelled (k.step s input).1
  nearer : ∀ read, k.togo read (k.step s input).1 = (k.togo read s).tail ∨
    k.togo read (k.step s input).1 = k.togo read s ∧
      (k.Cancelled s → (k.togo read s).head? ≠ some input)

/-- What the steps of a kind have to show. -/
structure Settles : Prop where
  rests : ∀ s input, k.Fresh s → input ≠ k.start → k.Fresh (k.step s input).1 ∧
    (k.step s input).2 = if input = k.stop then [k.stopped] else []
  ended : ∀ s input, k.Ended s → k.Ended (k.step s input).1 ∧
    (k.step s input).2 = if input = k.stop then [k.stopped] else []
  /-- A start that leaves a task at work has returned Ok. -/
  starts : ∀ s input result, k.started result ∈ (k.step s input).2 →
    k.Ended (k.step s input).1 ∨ result = .ok () ∧ k.Running (k.step s input).1
  /-- If the task ends then the stop that waited for it returns. -/
  works : ∀ s input, k.Running s → k.Goes s input ∨
    k.Ended (k.step s input).1 ∧ (k.Cancelled s → k.stopped ∈ (k.step s input).2)
  cancels : ∀ s, k.Running s → k.Running (k.step s k.stop).1 ∧ k.Cancelled (k.step s k.stop).1 ∧
    ∀ read, k.togo read (k.step s k.stop).1 = k.togo read s
  waits : ∀ s read, k.Running s → k.togo read s ≠ []

variable {k} {s begun : k.State} {inputs first rest : List k.Input} {input : k.Input}

theorem run_cons : k.run s (input :: rest) =
    ((k.run (k.step s input).1 rest).1, (k.step s input).2 ++ (k.run (k.step s input).1 rest).2) :=
  rfl

theorem holds_run {P : k.State → Prop} (keeps : ∀ s input, P s → P (k.step s input).1) (h : P s)
    (inputs : List k.Input) : P (k.run s inputs).1 := by
  induction inputs generalizing s with
  | nil => exact h
  | cons input rest ih => exact ih (keeps s input h)

/-- What holds after a step that puts something out, and is kept, holds in the end if that was put
out. -/
theorem holds_of_mem {I P : k.State → Prop} {output : k.Output}
    (kept : ∀ s input, I s → I (k.step s input).1)
    (puts : ∀ s input, I s → output ∈ (k.step s input).2 → P (k.step s input).1)
    (keeps : ∀ s input, P s → P (k.step s input).1) (h : I s)
    (mem : output ∈ (k.run s inputs).2) : P (k.run s inputs).1 := by
  induction inputs using List.reverseRecOn with
  | nil => cases mem
  | append_singleton inputs input ih =>
    have before : I (k.run s inputs).1 := holds_run kept h inputs
    rw [run, runInputs_concat] at mem ⊢
    cases List.mem_append.1 mem with
    | inl earlier => exact keeps _ _ (ih earlier)
    | inr now => exact puts _ _ before now

/-- A state in which every input but a start is answered so, and which such inputs keep. -/
theorem silent_of_invariant {P : k.State → Prop}
    (answers : ∀ s input, P s → input ≠ k.start → P (k.step s input).1 ∧
      (k.step s input).2 = if input = k.stop then [k.stopped] else []) (h : P s) :
    k.Silent s := by
  intro later unstarted
  induction later generalizing s with
  | nil => rfl
  | cons input rest ih =>
    rw [List.mem_cons, not_or] at unstarted
    obtain ⟨next, out⟩ := answers s input h (Ne.symm unstarted.1)
    rw [run_cons, List.count_cons, ih next unstarted.2, out]
    by_cases stop : input = k.stop
    · rw [if_pos stop, if_pos (beq_iff_eq.2 stop)]
      rfl
    · rw [if_neg stop, if_neg (mt beq_iff_eq.1 stop)]
      rfl

namespace Settles

variable (h : k.Settles)

include h

theorem silent_of_ended (ended : k.Ended s) : k.Silent s :=
  silent_of_invariant (fun s input ended _ => h.ended s input ended) ended

theorem opened_step (opened : k.Running s ∨ k.Ended s) (input : k.Input) :
    k.Running (k.step s input).1 ∨ k.Ended (k.step s input).1 := by
  cases opened with
  | inl running => exact (h.works s input running).imp Goes.running And.left
  | inr ended => exact .inr (h.ended s input ended).1

/-- Once a start has returned, a task that is not at work is over. -/
theorem opened_run {result : Except SubscriptionError Unit}
    (returned : k.started result ∈ (k.run s inputs).2) :
    k.Running (k.run s inputs).1 ∨ k.Ended (k.run s inputs).1 := by
  refine holds_of_mem (I := fun _ => True) (P := fun s => k.Running s ∨ k.Ended s)
    (fun _ _ _ => trivial) ?_ (fun _ input opened => h.opened_step opened input) trivial returned
  intro s input _ now
  exact (h.starts s input result now).symm.imp_left And.right

/-- After a start that returned Ok, a stop returns only when the task is over. -/
theorem ended_of_stopped (opened : k.Running s ∨ k.Ended s)
    (returned : k.stopped ∈ (k.run s inputs).2) : k.Ended (k.run s inputs).1 := by
  refine holds_of_mem (I := fun s => k.Running s ∨ k.Ended s)
    (fun _ input opened => h.opened_step opened input) ?_
    (fun s input ended => (h.ended s input ended).1) opened returned
  intro s input opened now
  cases opened with
  | inr ended => exact (h.ended s input ended).1
  | inl running =>
    cases h.works s input running with
    | inl goes => exact absurd now goes.unreturned
    | inr ends => exact ends.1

theorem ended_of_failed {error : SubscriptionError}
    (failed : k.started (.error error) ∈ (k.run s inputs).2) : k.Ended (k.run s inputs).1 := by
  refine holds_of_mem (I := fun _ => True) (fun _ _ _ => trivial) ?_
    (fun s input ended => (h.ended s input ended).1) trivial failed
  intro s input _ now
  cases h.starts s input _ now with
  | inl ended => exact ended
  | inr opened => cases opened.1

/-- The task of a cancelled channel ends when it has done what it had to do yet. -/
theorem stopped_of_sublist {read : FilterRead} (running : k.Running s) (cancelled : k.Cancelled s)
    (done : (k.togo read s).Sublist inputs) : k.stopped ∈ (k.run s inputs).2 := by
  induction inputs generalizing s with
  | nil => exact absurd (List.sublist_nil.1 done) (h.waits s read running)
  | cons input rest ih =>
    rw [run_cons]
    cases h.works s input running with
    | inr ends => exact List.mem_append_left _ (ends.2 cancelled)
    | inl goes =>
      apply List.mem_append_right
      apply ih goes.running (goes.cancelled cancelled)
      cases goes.nearer read with
      | inl nearer =>
        rw [nearer]
        exact done.tail
      | inr other =>
        obtain ⟨same, differs⟩ := other
        rw [same]
        cases List.sublist_cons_iff.1 done with
        | inl later => exact later
        | inr now =>
          obtain ⟨left, first, -⟩ := now
          exact absurd (congrArg List.head? first) (differs cancelled)

/-- A kind whose steps are like this falls silent. -/
theorem fallsSilent (fresh : k.Fresh begun) : k.FallsSilent begun where
  stopped first rest opened returned := by
    have ended := h.ended_of_stopped (h.opened_run opened) returned
    exact ⟨ended, h.silent_of_ended ended⟩
  returns first rest read opened done := by
    rw [run_cons]
    cases h.opened_run opened with
    | inr ended =>
      apply List.mem_append_left
      rw [(h.ended _ k.stop ended).2, if_pos rfl]
      exact List.mem_singleton_self _
    | inl running =>
      obtain ⟨running', cancelled, same⟩ := h.cancels _ running
      apply List.mem_append_right
      apply h.stopped_of_sublist running' cancelled
      rw [same read]
      exact done
  failed first error failed := by
    have ended := h.ended_of_failed failed
    exact ⟨ended, h.silent_of_ended ended⟩
  unstarted := silent_of_invariant h.rests fresh

end Settles

end ChannelKind

end LedgerWatch
