import LedgerWatch.Proofs.Watch.Dialogue
import LedgerWatch.Proofs.Watch.Silence

/-!
# What was granted is given back

A push channel and a log channel are in dialogue with their endpoint over every run
(`Push.run_dialogue`, `LogStream.run_dialogue`). So each of them deals fairly with it
(`subscriptions_given_back`): however the task ends, every subscription that it was granted has been
given back once, and a start that is refused at any place returns after that. The channels look for
a cancellation at different places; no place makes a difference to this.
-/

namespace LedgerWatch

open Dealing

/-! ## The push channel -/

namespace Push

variable {c d : Push} {input : Input} {outputs : List Output} {targets left : List Target}
  {said : List (Dealing Target)} {ids : List SubscriptionId}

def reply? : Input → Option (Dealing Target)
  | .connected result => some (.connected result)
  | .subscribed result => some (.subscribed result)
  | .released => some .released
  | _ => none

def dealing? : Output → Option (Dealing Target)
  | .connect => some .connect
  | .subscribe target => some (.subscribe target)
  | .unsubscribe id => some (.unsubscribe id)
  | .started result => some (.started result)
  | .emit _ | .stopped => none

/-- What passes between the channel and its endpoint in a run. -/
def dealings (filter : Filter) (inputs : List Input) : List (Dealing Target) :=
  (scribe reply? dealing?).transcript step { filter } inputs

def position (c : Push) : Position Target :=
  match c.phase with
  | .unstarted => .unstarted c.granted
  | .connecting => .connecting c.granted
  | .subscribing targets => .subscribing c.granted targets
  | .live => .live c.granted
  | .releasing ids refusal => .releasing ids refusal
  | .ended => .ended

theorem release_deals (c : Push) (refusal : Option EndpointError) (ids : List SubscriptionId) :
    (c.release refusal ids).1.position = (returning refusal ids).1 ∧
      (c.release refusal ids).2.filterMap dealing? = (returning refusal ids).2 := by
  cases ids with
  | cons id ids => exact ⟨rfl, rfl⟩
  | nil =>
    refine ⟨rfl, ?_⟩
    cases refusal with
    | some error => rfl
    | none =>
      simp only [release]
      split <;> rfl

theorem Reports.deals (h : Reports outputs) : outputs.filterMap dealing? = [] := by
  apply List.filterMap_eq_nil_iff.2
  intro output mem
  obtain ⟨event, rfl⟩ := h output mem
  rfl

theorem releases_deals {refusal : Option EndpointError} (owes : Owes targets ids refusal said)
    (c : Push) : Dialogue targets (c.release refusal ids).1.position
      (said ++ (c.release refusal ids).2.filterMap dealing?) := by
  obtain ⟨position, outputs⟩ := release_deals c refusal ids
  rw [position, outputs]
  exact owes.returns

theorem GivesBack.deals {outcome : Push × List Output} (h : c.GivesBack outcome)
    (owes : Owes targets c.granted none said) :
    Dialogue targets outcome.1.position (said ++ outcome.2.filterMap dealing?) := by
  obtain ⟨d, before, -, -, reports, rfl⟩ := h
  rw [List.filterMap_append, reports.deals]
  exact releases_deals owes d

theorem closeIfExhausted_deals (live : c.phase = .live) (owes : Owes targets c.granted none said) :
    Dialogue targets c.closeIfExhausted.1.position
      (said ++ c.closeIfExhausted.2.filterMap dealing?) := by
  cases closeIfExhausted_cases c with
  | inr gives => exact gives.deals owes
  | inl stays =>
    rw [stays, List.filterMap_nil, List.append_nil, position, live]
    exact .live owes

theorem subscribeNext_deals (opening : Opening targets c.granted left said) :
    Dialogue targets (c.subscribeNext left).1.position
      (said ++ (c.subscribeNext left).2.filterMap dealing?) := by
  cases left with
  | cons target left => exact opening.asks
  | nil =>
    have owes : Owes targets (granted { c with phase := .live }) none
        (said ++ [started (.ok ())]) := opening.served
    have closes := closeIfExhausted_deals (c := { c with phase := .live }) rfl owes
    rwa [List.append_assoc] at closes

/-- Notifications, stops and replies that nobody waits for are no part of the dialogue. -/
theorem step_unawaited (quiet : c.phase ≠ .live)
    (unstarted : ¬(c.phase = .unstarted ∧ input = .start))
    (unawaited : ∀ reply, reply? input = some reply → ¬ c.position.Awaits reply) :
    (c.step input).1.phase = c.phase ∧ (c.step input).1.granted = c.granted ∧
      (c.step input).2.filterMap dealing? = [] := by
  cases input with
  | start =>
    have elsewhere : c.phase ≠ .unstarted := fun phase => unstarted ⟨phase, rfl⟩
    simp [step, elsewhere]
  | connected result =>
    cases phase : c.phase with
    | connecting => exact absurd (by simp [position, phase, Position.Awaits]) (unawaited _ rfl)
    | _ => simp [step, phase]
  | subscribed result =>
    cases phase : c.phase with
    | subscribing targets =>
      exact absurd (by simp [position, phase, Position.Awaits]) (unawaited _ rfl)
    | _ => simp [step, phase]
  | released =>
    cases phase : c.phase with
    | releasing ids refusal =>
      exact absurd (by simp [position, phase, Position.Awaits]) (unawaited _ rfl)
    | _ => simp [step, phase]
  | arrive place n => exact ⟨rfl, granted_modify c place (subscription_receive n), rfl⟩
  | close place => exact ⟨rfl, granted_modify c place fun _ => rfl, rfl⟩
  | next place => simp [step, quiet]
  | look => simp [step, quiet]
  | cancel =>
    refine ⟨rfl, rfl, ?_⟩
    simp only [step]
    split <;> rfl

/-- The task takes the reply that it waits for, and says what comes next. -/
theorem step_reply {reply : Dealing Target} (h : Dialogue c.filter.targets c.position said)
    (replies : reply? input = some reply) (awaits : c.position.Awaits reply) :
    Dialogue c.filter.targets (c.step input).1.position
      ((said ++ [reply]) ++ (c.step input).2.filterMap dealing?) := by
  cases input with
  | connected result =>
    obtain rfl := Option.some.inj replies
    cases phase : c.phase with
    | connecting =>
      rw [position, phase] at h
      cases result with
      | ok granted =>
        simp only [step, phase]
        exact subscribeNext_deals h.connected
      | error error =>
        simp only [step, phase]
        exact releases_deals (h.unreachable error) c
    | _ => simp [position, phase, Position.Awaits] at awaits
  | subscribed result =>
    obtain rfl := Option.some.inj replies
    cases phase : c.phase with
    | subscribing targets =>
      rw [position, phase] at h
      cases targets with
      | nil => cases h
      | cons target left =>
        cases result with
        | ok id =>
          have more : Opening c.filter.targets
              (granted { c with streams := c.streams ++ [{ target, subscription := id }] }) left
              (said ++ [subscribed (.ok id)]) := by
            have all := h.granted id
            rwa [granted, List.map_append]
          simp only [step, phase]
          exact subscribeNext_deals more
        | error error =>
          simp only [step, phase]
          exact releases_deals (h.refused error) c
    | _ => simp [position, phase, Position.Awaits] at awaits
  | released =>
    obtain rfl := Option.some.inj replies
    cases phase : c.phase with
    | releasing ids refusal =>
      rw [position, phase] at h
      cases ids with
      | nil => cases h
      | cons id ids =>
        simp only [step, phase]
        exact releases_deals h.released c
    | _ => simp [position, phase, Position.Awaits] at awaits
  | _ => cases replies

theorem step_deals_live (live : c.phase = .live) (h : Dialogue targets c.position said)
    (input : Input) : Dialogue targets (c.step input).1.position
      (said ++ (c.step input).2.filterMap dealing?) := by
  rw [position, live] at h
  cases h with
  | live owes =>
    cases step_live live input with
    | inr gives => exact gives.deals owes
    | inl stays =>
      rw [stays.1.reports.deals, List.append_nil, position, stays.1.phase, stays.1.granted]
      exact .live owes

theorem step_deals (h : Dialogue c.filter.targets c.position said) (input : Input) :
    Dialogue c.filter.targets (c.step input).1.position
      (said ++ (scribe reply? dealing?).entries step c said input) := by
  apply h.entries
  · intro reply replies awaits
    exact step_reply h replies awaits
  intro unawaited
  change Dialogue _ _ (_ ++ (c.step input).2.filterMap dealing?)
  by_cases starts : c.phase = .unstarted ∧ input = .start
  · obtain ⟨phase, rfl⟩ := starts
    rw [position, phase] at h
    cases h with
    | unstarted nothing =>
      simp only [step, phase, if_true]
      exact .connecting nothing
  by_cases live : c.phase = .live
  · exact step_deals_live live h input
  · obtain ⟨phase, granted, silent⟩ := step_unawaited live starts unawaited
    rwa [silent, List.append_nil, position, phase, granted]

theorem release_filter (c : Push) (refusal : Option EndpointError) (ids : List SubscriptionId) :
    (c.release refusal ids).1.filter = c.filter := by
  cases ids <;> rfl

theorem closeIfExhausted_filter (c : Push) : c.closeIfExhausted.1.filter = c.filter := by
  unfold closeIfExhausted
  split
  · exact release_filter c none c.granted
  · rfl

theorem subscribeNext_filter (c : Push) (targets : List Target) :
    (c.subscribeNext targets).1.filter = c.filter := by
  cases targets with
  | nil => exact closeIfExhausted_filter { c with phase := .live }
  | cons => rfl

theorem takeUp_filter (c : Push) (place : Nat) : (c.takeUp place).1.filter = c.filter := by
  unfold takeUp
  split
  · rfl
  · split
    · rfl
    · split
      · exact closeIfExhausted_filter _
      · rfl

theorem step_filter (c : Push) (input : Input) : (c.step input).1.filter = c.filter := by
  cases input with
  | start => simp only [step]; split <;> rfl
  | connected result =>
    simp only [step]
    split
    · exact subscribeNext_filter _ _
    · exact release_filter _ _ _
    · rfl
  | subscribed result =>
    simp only [step]
    split
    · exact subscribeNext_filter _ _
    · exact release_filter _ _ _
    · rfl
  | next place =>
    simp only [step]
    split
    · exact takeUp_filter c place
    · rfl
  | released =>
    simp only [step]
    split
    · exact release_filter _ _ _
    · rfl
  | look =>
    simp only [step]
    split
    · exact release_filter _ _ _
    · rfl
  | _ => rfl

/-- Over every run the channel is in dialogue with its endpoint. -/
theorem run_dialogue (filter : Filter) (inputs : List Input) :
    Dialogue filter.targets (run { filter } inputs).1.position (dealings filter inputs) := by
  have invariant : (run { filter } inputs).1.filter = filter ∧
      Dialogue filter.targets (run { filter } inputs).1.position (dealings filter inputs) := by
    apply Scribe.holds_transcript (w := scribe reply? dealing?) (s := { filter })
      (P := fun (c : Push) said => c.filter = filter ∧ Dialogue filter.targets c.position said)
    · exact ⟨rfl, .unstarted rfl⟩
    · rintro c said input ⟨rfl, h⟩
      exact ⟨step_filter c input, step_deals h input⟩
  exact invariant.2

/-- A channel that is started connects. -/
theorem dealings_ne_nil (filter : Filter) (inputs : List Input) (begun : .start ∈ inputs) :
    dealings filter inputs ≠ [] := by
  refine Scribe.transcript_ne_nil (fun inputs nothing => ?_) inputs begun
  have dialogue := run_dialogue filter inputs
  rw [dealings, nothing] at dialogue
  obtain ⟨ids, unstarted⟩ := dialogue.unstarted_of_nil
  have phase : (run { filter } inputs).1.phase = .unstarted := by
    cases phase : (run { filter } inputs).1.phase <;> simp [position, phase] at unstarted ⊢
  rw [run] at phase
  simp [step, phase, scribe, dealing?]

theorem position_eq_ended_iff (c : Push) : c.position = .ended ↔ c.phase = .ended := by
  cases phase : c.phase <;> simp [position, phase]

end Push

/-! ## The log channel -/

namespace LogStream

variable {c d : LogStream} {input : Input} {said : List (Dealing Unit)}

def reply? : Input → Option (Dealing Unit)
  | .connected result => some (.connected result)
  | .subscribed result => some (.subscribed result)
  | .released => some .released
  | _ => none

def dealing? : Output → Option (Dealing Unit)
  | .connect => some .connect
  | .subscribe => some (.subscribe ())
  | .unsubscribe id => some (.unsubscribe id)
  | .started result => some (.started result)
  | .read | .emit _ | .stopped => none

/-- What passes between the channel and its endpoint in a run. -/
def dealings (inputs : List Input) : List (Dealing Unit) :=
  (scribe reply? dealing?).transcript step {} inputs

/-- The one subscription that is asked for is to the logs. -/
def position (c : LogStream) : Position Unit :=
  match c.phase with
  | .unstarted => .unstarted []
  | .connecting => .connecting []
  | .subscribing => .subscribing [] [()]
  | .opening | .waiting | .reading => .live [c.subscription]
  | .releasing => .releasing [c.subscription] none
  | .ended => .ended

theorem news_deals (news : List Update) :
    (news.map fun u => Output.emit (.update u)).filterMap dealing? = [] := by
  induction news with
  | nil => rfl
  | cons u rest ih => exact ih

/-- The channel goes on reading or listening, or it begins to give its subscription back. -/
def GoesOn (c : LogStream) (outcome : LogStream × List Output) : Prop :=
  outcome.1.position = .live [c.subscription] ∧ outcome.2.filterMap dealing? = [] ∨
    outcome.1.position = .releasing [c.subscription] none ∧
      outcome.2.filterMap dealing? = [.unsubscribe c.subscription]

theorem absorb_goesOn (c : LogStream) (read : FilterRead) : c.GoesOn (c.absorb read) := by
  left
  cases read with
  | error error => exact ⟨rfl, rfl⟩
  | ok read => exact ⟨rfl, news_deals _⟩

theorem takeUp_goesOn (waits : c.phase = .waiting) : c.GoesOn c.takeUp := by
  unfold takeUp
  split
  · exact .inl ⟨rfl, rfl⟩
  · exact .inl ⟨by simp only [position, waits], rfl⟩
  · split
    · exact .inr ⟨rfl, rfl⟩
    · exact .inl ⟨by simp only [position, waits], rfl⟩

theorem step_goesOn (live : c.position = .live [c.subscription]) (input : Input) :
    c.GoesOn (c.step input) := by
  have stays : c.GoesOn (c, []) := .inl ⟨live, rfl⟩
  cases input with
  | answer read =>
    simp only [step]
    split
    · exact absorb_goesOn c read
    · exact absorb_goesOn c read
    · exact stays
  | next =>
    by_cases waits : c.phase = .waiting
    · rw [step, if_pos waits]
      exact takeUp_goesOn waits
    · rwa [step, if_neg waits]
  | look =>
    simp only [step]
    split
    · exact .inr ⟨rfl, rfl⟩
    · exact stays
  | arrive succeeded =>
    simp only [step]
    split
    · exact stays
    · exact .inl ⟨live, rfl⟩
  | close => exact .inl ⟨live, rfl⟩
  | cancel =>
    left
    refine ⟨live, ?_⟩
    simp only [step]
    split <;> rfl
  | _ => cases phase : c.phase <;> simp_all [step, position]

theorem GoesOn.deals {outcome : LogStream × List Output} (h : c.GoesOn outcome)
    (owes : Owes [()] [c.subscription] none said) :
    Dialogue [()] outcome.1.position (said ++ outcome.2.filterMap dealing?) := by
  cases h with
  | inl live =>
    rw [live.1, live.2, List.append_nil]
    exact .live owes
  | inr gives =>
    rw [gives.1, gives.2]
    exact .releasing owes

/-- A stop, and replies that nobody waits for, are no part of the dialogue. -/
theorem step_unawaited (quiet : c.position ≠ .live [c.subscription])
    (unstarted : ¬(c.phase = .unstarted ∧ input = .start))
    (unawaited : ∀ reply, reply? input = some reply → ¬ c.position.Awaits reply) :
    (c.step input).1.position = c.position ∧ (c.step input).2.filterMap dealing? = [] := by
  cases input with
  | start =>
    have elsewhere : c.phase ≠ .unstarted := fun phase => unstarted ⟨phase, rfl⟩
    simp [step, elsewhere]
  | connected result =>
    cases phase : c.phase with
    | connecting => exact absurd (by simp [position, phase, Position.Awaits]) (unawaited _ rfl)
    | _ => simp [step, phase]
  | subscribed result =>
    cases phase : c.phase with
    | subscribing => exact absurd (by simp [position, phase, Position.Awaits]) (unawaited _ rfl)
    | _ => simp [step, phase]
  | released =>
    cases phase : c.phase with
    | releasing => exact absurd (by simp [position, phase, Position.Awaits]) (unawaited _ rfl)
    | _ => simp [step, phase]
  | answer read => cases phase : c.phase <;> simp_all [step, position]
  | arrive succeeded =>
    simp only [step]
    split <;> exact ⟨rfl, rfl⟩
  | close => exact ⟨rfl, rfl⟩
  | next => cases phase : c.phase <;> simp_all [step, position]
  | cancel =>
    refine ⟨rfl, ?_⟩
    simp only [step]
    split <;> rfl
  | look => cases phase : c.phase <;> simp_all [step, position]

/-- The task takes the reply that it waits for, and says what comes next. -/
theorem step_reply {reply : Dealing Unit} (h : Dialogue [()] c.position said)
    (replies : reply? input = some reply) (awaits : c.position.Awaits reply) :
    Dialogue [()] (c.step input).1.position
      ((said ++ [reply]) ++ (c.step input).2.filterMap dealing?) := by
  cases input with
  | connected result =>
    obtain rfl := Option.some.inj replies
    cases phase : c.phase with
    | connecting =>
      rw [position, phase] at h
      cases result with
      | ok granted =>
        simp only [step, phase]
        exact h.connected.asks
      | error error =>
        simp only [step, phase]
        exact .ended (h.unreachable error)
    | _ => simp [position, phase, Position.Awaits] at awaits
  | subscribed result =>
    obtain rfl := Option.some.inj replies
    cases phase : c.phase with
    | subscribing =>
      rw [position, phase] at h
      cases result with
      | ok id =>
        simp only [step, phase]
        exact (h.granted id).asks
      | error error =>
        simp only [step, phase]
        exact .ended (h.refused error)
    | _ => simp [position, phase, Position.Awaits] at awaits
  | released =>
    obtain rfl := Option.some.inj replies
    cases phase : c.phase with
    | releasing =>
      rw [position, phase] at h
      simp only [step, phase, if_true]
      have finished : (if c.cancelled then [Output.stopped] else []).filterMap dealing? = [] := by
        split <;> rfl
      rw [finished]
      exact .ended h.released
    | _ => simp [position, phase, Position.Awaits] at awaits
  | _ => cases replies

theorem step_deals (h : Dialogue [()] c.position said) (input : Input) :
    Dialogue [()] (c.step input).1.position
      (said ++ (scribe reply? dealing?).entries step c said input) := by
  apply h.entries
  · intro reply replies awaits
    exact step_reply h replies awaits
  intro unawaited
  change Dialogue _ _ (_ ++ (c.step input).2.filterMap dealing?)
  by_cases starts : c.phase = .unstarted ∧ input = .start
  · obtain ⟨phase, rfl⟩ := starts
    rw [position, phase] at h
    cases h with
    | unstarted nothing =>
      simp only [step, phase, if_true]
      exact .connecting nothing
  by_cases live : c.position = .live [c.subscription]
  · rw [live] at h
    cases h with
    | live owes => exact (step_goesOn live input).deals owes
  · obtain ⟨position, silent⟩ := step_unawaited live starts unawaited
    rwa [silent, List.append_nil, position]

/-- Over every run the channel is in dialogue with its endpoint. -/
theorem run_dialogue (inputs : List Input) :
    Dialogue [()] (run {} inputs).1.position (dealings inputs) := by
  apply Scribe.holds_transcript (w := scribe reply? dealing?) (s := {})
    (P := fun (c : LogStream) said => Dialogue [()] c.position said)
  · exact .unstarted rfl
  · intro c said input h
    exact step_deals h input

/-- A channel that is started connects. -/
theorem dealings_ne_nil (inputs : List Input) (begun : .start ∈ inputs) : dealings inputs ≠ [] := by
  refine Scribe.transcript_ne_nil (fun inputs nothing => ?_) inputs begun
  have dialogue := run_dialogue inputs
  rw [dealings, nothing] at dialogue
  obtain ⟨ids, unstarted⟩ := dialogue.unstarted_of_nil
  have phase : (run {} inputs).1.phase = .unstarted := by
    cases phase : (run {} inputs).1.phase <;> simp [position, phase] at unstarted ⊢
  rw [run] at phase
  simp [step, phase, scribe, dealing?]

theorem position_eq_ended_iff (c : LogStream) : c.position = .ended ↔ c.phase = .ended := by
  cases phase : c.phase <;> simp [position, phase]

end LogStream

/-- Push channels and log channels deal fairly with their endpoint, over every run. -/
theorem subscriptions_given_back :
    (∀ (filter : Filter) (inputs : List Push.Input), FairDealing filter.targets
      (.start ∈ inputs) ((Push.run { filter } inputs).1.phase = .ended)
      (Push.dealings filter inputs)) ∧
    ∀ inputs : List LogStream.Input, FairDealing [()] (.start ∈ inputs)
      ((LogStream.run {} inputs).1.phase = .ended) (LogStream.dealings inputs) := by
  constructor
  · intro filter inputs
    rw [← Push.position_eq_ended_iff]
    exact (Push.run_dialogue filter inputs).fair (Push.dealings_ne_nil filter inputs)
  · intro inputs
    rw [← LogStream.position_eq_ended_iff]
    exact (LogStream.run_dialogue inputs).fair (LogStream.dealings_ne_nil inputs)

/-- An address is refused the second time it is asked for, and a log channel is cancelled after its
first read: all that they were granted has been given back. -/
theorem subscriptions_given_back_refused :
    let twice : List Push.Input := [.start, .connected (.ok ()), .subscribed (.ok 7),
      .subscribed (.error .unreachable), .released]
    let cancelled : List LogStream.Input := [.start, .connected (.ok ()), .subscribed (.ok 3),
      .answer (.error .unavailable), .cancel, .look, .released]
    let refused := Push.dealings (.accounts [Address.unset, Address.unset]) twice
    let stopped := LogStream.dealings cancelled
    (refused = [connect, connected (.ok ()), subscribe (.account Address.unset),
        subscribed (.ok 7), subscribe (.account Address.unset), subscribed (.error .unreachable),
        unsubscribe 7, released, started (.error (.endpoint .unreachable))] ∧
      GivenBack refused ∧ started (.ok ()) ∉ refused) ∧
    (stopped = [connect, connected (.ok ()), subscribe (), subscribed (.ok 3), started (.ok ()),
        unsubscribe 3, released] ∧ GivenBack stopped ∧ started (.ok ()) ∈ stopped) := by
  intro twice cancelled refused stopped
  have pushed := subscriptions_given_back.1 (.accounts [Address.unset, Address.unset]) twice
  have logged := subscriptions_given_back.2 cancelled
  refine ⟨⟨rfl, (pushed.ended rfl).1, fun ok => ?_⟩, rfl, (logged.ended rfl).1,
    logged.started_ok_iff.2 ⟨?_, rfl⟩⟩
  · cases (pushed.started_ok_iff.1 ok).2
  · exact .tail _ (.head _)

end LedgerWatch
