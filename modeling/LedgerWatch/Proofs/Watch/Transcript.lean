import LedgerWatch.Watch
import Mathlib.Data.List.Induction

/-!
# What a channel says and hears

A scribe takes down, in its order, what a machine puts out and what it is told in reply. The machine
does one thing after another: each call waits for its reply before anything else is said, so a reply
counts only where it follows the call that it answers. A machine that gave up a call before it was
answered would leave that call at the end of its transcript.
-/

namespace LedgerWatch

/-- Which inputs and outputs of a machine are taken down. -/
structure Scribe (ι ο ε : Type) where
  reply? : ι → Option ε
  output? : ο → Option ε
  /-- The second answers the first. -/
  answers : ε → ε → Bool

namespace Scribe

variable {σ ι ο ε : Type} (w : Scribe ι ο ε) (step : σ → ι → σ × List ο)

/-- The reply that an input is to what was said last. -/
def heard (said : List ε) (input : ι) : List ε :=
  match said.getLast?, w.reply? input with
  | some call, some reply => if w.answers call reply then [reply] else []
  | _, _ => []

/-- What one step adds. -/
def entries (s : σ) (said : List ε) (input : ι) : List ε :=
  w.heard said input ++ (step s input).2.filterMap w.output?

/-- The state after a run, and what was taken down in it. -/
def follow (s : σ) (inputs : List ι) : σ × List ε :=
  inputs.foldl (fun at_ input => ((step at_.1 input).1, at_.2 ++ w.entries step at_.1 at_.2 input))
    (s, [])

def transcript (s : σ) (inputs : List ι) : List ε := (w.follow step s inputs).2

variable {w step} {s : σ} {inputs : List ι} {input : ι} {said : List ε} {call reply : ε}

theorem heard_of_none (none : w.reply? input = none) : w.heard said input = [] := by
  unfold heard
  rw [none]
  cases said.getLast? <;> rfl

theorem heard_concat (replies : w.reply? input = some reply)
    (answers : w.answers call reply = true) : w.heard (said ++ [call]) input = [reply] := by
  simp only [heard, List.getLast?_concat, replies, answers, if_true]

theorem heard_of_not_answers (replies : w.reply? input = some reply)
    (unasked : ∀ call ∈ said.getLast?, w.answers call reply = false) : w.heard said input = [] := by
  unfold heard
  rw [replies]
  cases last : said.getLast? with
  | none => rfl
  | some call => simp [unasked call last]

theorem reply_of_mem_heard {dealing : ε} (mem : dealing ∈ w.heard said input) :
    w.reply? input = some dealing := by
  unfold heard at mem
  split at mem
  · rename_i call reply last replies
    split at mem
    · rw [List.mem_singleton.1 mem, replies]
    · cases mem
  · cases mem

theorem follow_concat : w.follow step s (inputs ++ [input]) =
    ((step (w.follow step s inputs).1 input).1,
      (w.follow step s inputs).2 ++
        w.entries step (w.follow step s inputs).1 (w.follow step s inputs).2 input) := by
  simp only [follow, List.foldl_append, List.foldl_cons, List.foldl_nil]

theorem follow_fst (w : Scribe ι ο ε) (step : σ → ι → σ × List ο) (s : σ) (inputs : List ι) :
    (w.follow step s inputs).1 = (runInputs step s inputs).1 := by
  induction inputs using List.reverseRecOn with
  | nil => rfl
  | append_singleton inputs input ih => rw [follow_concat, runInputs_concat, ih]

theorem transcript_concat : w.transcript step s (inputs ++ [input]) =
    w.transcript step s inputs ++
      w.entries step (runInputs step s inputs).1 (w.transcript step s inputs) input := by
  rw [transcript, follow_concat, follow_fst]
  rfl

/-- Something is taken down of a run with an input to which a machine that has said nothing yet says
something. -/
theorem transcript_ne_nil {word : ι}
    (speaks : ∀ inputs, w.transcript step s inputs = [] →
      ((step (runInputs step s inputs).1 word).2.filterMap w.output?) ≠ [])
    (inputs : List ι) (mem : word ∈ inputs) : w.transcript step s inputs ≠ [] := by
  induction inputs using List.reverseRecOn with
  | nil => cases mem
  | append_singleton inputs input ih =>
    intro nothing
    rw [transcript_concat, List.append_eq_nil_iff, entries, List.append_eq_nil_iff] at nothing
    obtain ⟨before, -, silent⟩ := nothing
    rcases List.mem_append.1 mem with earlier | last
    · exact ih earlier before
    · obtain rfl := List.mem_singleton.1 last
      exact speaks inputs before silent

/-- What holds of state and transcript at first, and is kept by each step, holds in the end. -/
theorem holds_transcript {P : σ → List ε → Prop} (begins : P s [])
    (keeps : ∀ s said input, P s said → P (step s input).1 (said ++ w.entries step s said input))
    (inputs : List ι) : P (runInputs step s inputs).1 (w.transcript step s inputs) := by
  induction inputs using List.reverseRecOn with
  | nil => exact begins
  | append_singleton inputs input ih =>
    rw [runInputs_concat, transcript_concat]
    exact keeps _ _ _ ih

end Scribe

end LedgerWatch
