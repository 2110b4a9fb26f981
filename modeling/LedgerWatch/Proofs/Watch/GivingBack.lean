import LedgerWatch.Proofs.Watch.Streams

/-!
# How a push channel gives back what it was granted

A live channel stays live, with what it was granted, until it gives all of it back
(`Push.step_live`). From then on it only waits for one subscription after another to be given back
(`Push.step_releasing`), and with the last it ends (`Push.release_none`).
-/

namespace LedgerWatch.Push

variable {c d : Push} {input : Input} {outputs : List Output} {ids : List SubscriptionId}

/-- The channel is live, or gives back a subscription without having been refused. -/
def Runs (c : Push) : Prop :=
  c.phase = .live ∨ ∃ id rest, c.phase = .releasing (id :: rest) none

/-- Giving back nothing ends the task, and a stop that waited for it returns. -/
theorem release_none (c : Push) (ids : List SubscriptionId) :
    (∃ id rest, ids = id :: rest ∧ (c.release none ids).1.phase = .releasing (id :: rest) none ∧
        .stopped ∉ (c.release none ids).2) ∨
      (c.release none ids).1.phase = .ended ∧
        (c.cancelled = true → .stopped ∈ (c.release none ids).2) := by
  cases ids with
  | nil => simp +contextual [release]
  | cons id rest => simp [release]

theorem release_runs (c : Push) (ids : List SubscriptionId) :
    (c.release none ids).1.Runs ∨ (c.release none ids).1.phase = .ended := by
  apply (release_none c ids).imp _ And.left
  rintro ⟨id, rest, -, releasing, -⟩
  exact .inr ⟨id, rest, releasing⟩

theorem subscription_receive (n : Notification) (stream : Stream) :
    (receive n stream).subscription = stream.subscription := by
  unfold receive
  split <;> rfl

theorem granted_modify (c : Push) (place : Nat) {f : Stream → Stream}
    (same : ∀ stream, (f stream).subscription = stream.subscription) :
    granted { c with streams := c.streams.modify place f } = c.granted :=
  map_modify_of_same Stream.subscription c.streams place same

theorem granted_set {place : Nat} {stream stream' : Stream} (found : c.streams[place]? = some stream)
    (same : stream'.subscription = stream.subscription) :
    granted { c with streams := c.streams.set place stream' } = c.granted :=
  map_set_of_same Stream.subscription found same

theorem not_started_mem_release_none (c : Push) (ids : List SubscriptionId)
    (result : Except SubscriptionError Unit) : .started result ∉ (c.release none ids).2 := by
  cases ids with
  | nil => grind [release]
  | cons id rest => simp [release]

/-- A refused start returns when everything has been given back. -/
theorem started_mem_release {refusal : Option EndpointError}
    {result : Except SubscriptionError Unit}
    (mem : .started result ∈ (c.release refusal ids).2) :
    (c.release refusal ids).1.phase = .ended := by
  cases refusal with
  | none => exact absurd mem (not_started_mem_release_none c ids result)
  | some error =>
    cases ids with
    | cons id rest => simp [release] at mem
    | nil => simp_all [release]

/-- Nothing but events. -/
def Reports (outputs : List Output) : Prop := ∀ output ∈ outputs, ∃ event, output = .emit event

/-- After some events the task gives back what the channel was granted. -/
def GivesBack (c : Push) (outcome : Push × List Output) : Prop :=
  ∃ (d : Push) (before : List Output), d.granted = c.granted ∧ d.cancelled = c.cancelled ∧
    Reports before ∧
    outcome = ((d.release none c.granted).1, before ++ (d.release none c.granted).2)

theorem Reports.not_stopped (h : Reports outputs) : .stopped ∉ outputs := by
  intro mem
  obtain ⟨event, eq⟩ := h _ mem
  cases eq

theorem Reports.not_started (h : Reports outputs) (result : Except SubscriptionError Unit) :
    .started result ∉ outputs := by
  intro mem
  obtain ⟨event, eq⟩ := h _ mem
  cases eq

theorem reports_nil : Reports [] := by
  intro output mem
  cases mem

theorem reports_singleton (event : ChannelEvent) : Reports [.emit event] := by
  intro output mem
  exact ⟨event, List.mem_singleton.1 mem⟩

theorem GivesBack.congr {outcome : Push × List Output} (h : d.GivesBack outcome)
    (granted : d.granted = c.granted) (cancelled : d.cancelled = c.cancelled) :
    c.GivesBack outcome := by
  obtain ⟨e, before, granted', cancelled', reports, eq⟩ := h
  exact ⟨e, before, granted'.trans granted, cancelled'.trans cancelled, reports, granted ▸ eq⟩

theorem closeIfExhausted_cases (c : Push) :
    c.closeIfExhausted = (c, []) ∨ c.GivesBack c.closeIfExhausted := by
  unfold closeIfExhausted
  split
  · exact .inr ⟨c, [.emit .closed], rfl, rfl, reports_singleton .closed, rfl⟩
  · exact .inl rfl

/-- What a step of a live channel leaves as it is. -/
structure StaysLive (c : Push) (outcome : Push × List Output) : Prop where
  phase : outcome.1.phase = .live
  granted : outcome.1.granted = c.granted
  cancelled : c.cancelled = true → outcome.1.cancelled = true
  reports : Reports outcome.2

theorem takeUp_cases (live : c.phase = .live) (place : Nat) :
    c.StaysLive (c.takeUp place) ∨ c.GivesBack (c.takeUp place) := by
  unfold takeUp
  split
  · exact .inl ⟨live, rfl, id, reports_nil⟩
  · rename_i stream found
    split
    · exact .inl ⟨live, granted_set found rfl, id, reports_singleton _⟩
    · split
      · cases closeIfExhausted_cases { c with
            streams := c.streams.set place { stream with exhausted := true } } with
        | inl stays =>
          left
          rw [stays]
          exact ⟨live, granted_set found rfl, id, reports_nil⟩
        | inr gives => exact .inr (gives.congr (granted_set found rfl) rfl)
      · exact .inl ⟨live, rfl, id, reports_nil⟩

theorem step_live_of_ne (live : c.phase = .live) (other : input ≠ .look) :
    c.StaysLive (c.step input) ∨ c.GivesBack (c.step input) := by
  cases input with
  | look => exact absurd rfl other
  | next place =>
    rw [step, if_pos live]
    exact takeUp_cases live place
  | arrive place n =>
    left
    exact ⟨live, granted_modify c place (subscription_receive n), id, reports_nil⟩
  | close place =>
    left
    exact ⟨live, granted_modify c place fun _ => rfl, id, reports_nil⟩
  | cancel =>
    have answer : c.step .cancel = ({ c with cancelled := true }, []) := by
      simp [step, hasTask, live]
    left
    rw [answer]
    exact ⟨live, rfl, fun _ => rfl, reports_nil⟩
  | _ =>
    left
    simp only [step, live, reduceCtorEq, if_false]
    exact ⟨live, rfl, id, reports_nil⟩

/-- A live channel stays live, unless it looks and is cancelled, or gives back what it was granted. -/
theorem step_live (live : c.phase = .live) (input : Input) :
    c.StaysLive (c.step input) ∧ (c.cancelled = true → input ≠ .look) ∨
      c.GivesBack (c.step input) := by
  by_cases looks : input = .look
  · subst looks
    by_cases cancelled : c.cancelled = true
    · right
      rw [step, if_pos ⟨cancelled, live⟩]
      exact ⟨c, [], rfl, rfl, reports_nil, rfl⟩
    · left
      rw [step, if_neg (mt And.left cancelled)]
      exact ⟨⟨live, rfl, id, reports_nil⟩, fun h => absurd h cancelled⟩
  · apply (step_live_of_ne live looks).imp_left
    intro stays
    exact ⟨stays, fun _ => looks⟩

theorem step_releasing {id : SubscriptionId} {rest : List SubscriptionId}
    (releasing : c.phase = .releasing (id :: rest) none) (other : input ≠ .released) :
    (c.step input).1.phase = .releasing (id :: rest) none ∧ (c.step input).2 = [] ∧
      (c.cancelled = true → (c.step input).1.cancelled = true) := by
  cases input with
  | released => exact absurd rfl other
  | _ => simp +contextual [step, releasing, hasTask]

theorem subscribeNext_nil (c : Push) : (c.subscribeNext []).1.Runs ∨
    (c.subscribeNext []).1.phase = .ended := by
  simp only [subscribeNext]
  cases closeIfExhausted_cases { c with phase := .live } with
  | inl stays =>
    rw [stays]
    exact .inl (.inl rfl)
  | inr gives =>
    obtain ⟨d, before, -, -, -, eq⟩ := gives
    rw [eq]
    exact release_runs d _

theorem GivesBack.not_started {outcome : Push × List Output} (h : c.GivesBack outcome)
    (result : Except SubscriptionError Unit) : .started result ∉ outcome.2 := by
  obtain ⟨d, before, -, -, reports, rfl⟩ := h
  rw [List.mem_append, not_or]
  exact ⟨reports.not_started result, not_started_mem_release_none d _ result⟩

theorem started_mem_subscribeNext {targets : List Target} {result : Except SubscriptionError Unit}
    (mem : .started result ∈ (c.subscribeNext targets).2) :
    (c.subscribeNext targets).1.phase = .ended ∨
      result = .ok () ∧ (c.subscribeNext targets).1.Runs := by
  cases targets with
  | cons target rest => simp [subscribeNext] at mem
  | nil =>
    simp only [subscribeNext, List.mem_cons] at mem
    cases mem with
    | inl now =>
      cases now
      exact (subscribeNext_nil c).symm.imp_right (And.intro rfl)
    | inr later =>
      cases closeIfExhausted_cases { c with phase := .live } with
      | inl stays => simp [stays] at later
      | inr gives => exact absurd later (gives.not_started result)

/-- A start returns when everything has been asked for, or when it was refused. -/
theorem step_started {result : Except SubscriptionError Unit}
    (mem : .started result ∈ (c.step input).2) :
    (c.step input).1.phase = .ended ∨ result = .ok () ∧ (c.step input).1.Runs := by
  by_cases live : c.phase = .live
  · cases step_live live input with
    | inl stays => exact absurd mem (stays.1.reports.not_started result)
    | inr gives => exact absurd mem (gives.not_started result)
  revert mem
  cases input with
  | connected granted =>
    simp only [step]
    split
    · exact fun mem => started_mem_subscribeNext mem
    · exact fun mem => .inl (started_mem_release mem)
    · exact fun mem => absurd mem List.not_mem_nil
  | subscribed granted =>
    simp only [step]
    split
    · exact fun mem => started_mem_subscribeNext mem
    · exact fun mem => .inl (started_mem_release mem)
    · exact fun mem => absurd mem List.not_mem_nil
  | released =>
    simp only [step]
    split
    · exact fun mem => .inl (started_mem_release mem)
    · exact fun mem => absurd mem List.not_mem_nil
  | start =>
    simp only [step]
    split <;> simp
  | cancel =>
    simp only [step]
    split <;> simp
  | _ => simp [step, live]

end LedgerWatch.Push
