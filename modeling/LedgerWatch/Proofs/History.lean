import Mathlib.Data.List.Induction
import Mathlib.Data.List.TakeWhile

/-!
# What happened in a history

A history is a list of what happened, the latest last, and a step function says what each event
made of the state. `Occurs` says that something happened in it, `Since` that it happened and that
something else has not happened since; `collectedUntil` gathers from it until something puts an end
to it. All are read from the end (`occurs_concat`, `since_concat`, `collectedUntil_concat`).
-/

namespace LedgerWatch.History

variable {σ ε : Type} {step : σ → ε → σ} {s : σ} {P Q : σ → ε → Prop}
  {history before after : List ε} {last e : ε}

/-- An event of a history is its last one, or stands in what went before. -/
theorem concat_eq_append_cons_iff : history ++ [last] = before ++ e :: after ↔
    history = before ∧ last = e ∧ after = [] ∨
      ∃ between, after = between ++ [last] ∧ history = before ++ e :: between := by
  constructor
  · intro split
    cases after using List.reverseRecOn with
    | nil =>
      obtain ⟨same, here⟩ := List.append_inj' split rfl
      exact .inl ⟨same, List.singleton_inj.1 here, rfl⟩
    | append_singleton between final =>
      rw [← List.cons_append, ← List.append_assoc] at split
      obtain ⟨same, here⟩ := List.append_inj' split rfl
      exact .inr ⟨between, by rw [List.singleton_inj.1 here], same⟩
  · rintro (⟨rfl, rfl, rfl⟩ | ⟨between, rfl, rfl⟩)
    · rfl
    · rw [List.append_assoc, List.cons_append]

theorem takeWhile_ne_concat [DecidableEq ε] (history : List ε) (last e : ε) :
    (history ++ [last]).takeWhile (· ≠ e) =
      if e ∈ history ∨ last = e then history.takeWhile (· ≠ e) else history ++ [last] := by
  induction history with
  | nil => by_cases here : last = e <;> simp [here]
  | cons first rest ih =>
    by_cases here : first = e
    · simp [here]
    · simp only [List.cons_append, List.takeWhile_cons, here, ne_eq, not_false_eq_true, decide_true,
        if_true, List.mem_cons, Ne.symm here, false_or]
      simp only [ne_eq] at ih
      rw [ih]
      split <;> rfl

/-- What is collected of a history until `e` puts an end to it. -/
def collectedUntil [DecidableEq ε] {α : Type} (e : ε) (collect : ε → Option α)
    (history : List ε) : List α :=
  (history.takeWhile (· ≠ e)).filterMap collect

theorem collectedUntil_concat [DecidableEq ε] {α : Type} {e : ε} {collect : ε → Option α}
    (none : collect e = none) (history : List ε) (last : ε) :
    collectedUntil e collect (history ++ [last]) = collectedUntil e collect history ++
      if e ∈ history then [] else (collect last).toList := by
  rw [collectedUntil, takeWhile_ne_concat]
  by_cases finished : e ∈ history
  · rw [if_pos (.inl finished), if_pos finished, List.append_nil, collectedUntil]
  · have all : history.takeWhile (· ≠ e) = history := by
      apply List.takeWhile_eq_self_iff.2
      intro earlier mem
      simp only [ne_eq, decide_eq_true_eq]
      rintro rfl
      exact finished mem
    rw [if_neg finished]
    by_cases ends : last = e
    · subst ends
      rw [if_pos (.inr rfl), collectedUntil, none, Option.toList_none, List.append_nil]
    · rw [if_neg (not_or.2 ⟨finished, ends⟩), collectedUntil, all, List.filterMap_append]
      cases collected : collect last <;> simp [collected]

/-- A `P` happened in the history. -/
def Occurs (step : σ → ε → σ) (s : σ) (P : σ → ε → Prop) (history : List ε) : Prop :=
  ∃ before e after, history = before ++ e :: after ∧ P (before.foldl step s) e

theorem occurs_concat : Occurs step s P (history ++ [last]) ↔
    Occurs step s P history ∨ P (history.foldl step s) last := by
  constructor
  · intro ⟨before, e, after, split, happened⟩
    obtain ⟨rfl, rfl, -⟩ | ⟨between, -, rfl⟩ := concat_eq_append_cons_iff.1 split
    · exact .inr happened
    · exact .inl ⟨before, e, between, rfl, happened⟩
  · rintro (⟨before, e, after, rfl, happened⟩ | happened)
    · exact ⟨before, e, after ++ [last], by simp, happened⟩
    · exact ⟨history, last, [], rfl, happened⟩

/-- A `P` happened in the history and no `Q` after it. -/
def Since (step : σ → ε → σ) (s : σ) (P Q : σ → ε → Prop) (history : List ε) : Prop :=
  ∃ before e after, history = before ++ e :: after ∧ P (before.foldl step s) e ∧
    ∀ between later rest, after = between ++ later :: rest →
      ¬ Q (between.foldl step (step (before.foldl step s) e)) later

theorem not_since_nil : ¬ Since step s P Q [] := by
  rintro ⟨before, e, after, split, -⟩
  simp at split

theorem since_concat : Since step s P Q (history ++ [last]) ↔
    P (history.foldl step s) last ∨
      Since step s P Q history ∧ ¬ Q (history.foldl step s) last := by
  constructor
  · intro ⟨before, e, after, split, happened, quiet⟩
    obtain ⟨rfl, rfl, -⟩ | ⟨between, rfl, rfl⟩ := concat_eq_append_cons_iff.1 split
    · exact .inl happened
    · refine .inr ⟨⟨before, e, between, rfl, happened, ?_⟩, ?_⟩
      · intro earlier later rest split
        exact quiet earlier later (rest ++ [last]) (by simp [split])
      · rw [List.foldl_append]
        exact quiet between last [] rfl
  · rintro (happened | ⟨⟨before, e, after, rfl, happened, quiet⟩, dull⟩)
    · refine ⟨history, last, [], rfl, happened, ?_⟩
      intro between later rest split
      simp at split
    · refine ⟨before, e, after ++ [last], by simp, happened, ?_⟩
      intro between later rest split
      obtain ⟨rfl, rfl, -⟩ | ⟨inner, -, rfl⟩ := concat_eq_append_cons_iff.1 split
      · rwa [List.foldl_append] at dull
      · exact quiet between later inner rfl

end LedgerWatch.History
