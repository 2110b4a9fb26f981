import LedgerWatch.Proofs.Watch.News
import LedgerWatch.Proofs.Watch.Silence
import LedgerWatch.Proofs.Watch.Transcript

/-!
# What a log channel makes of its notifications

A log channel takes up its notifications one after another. Of each it tells a heartbeat; after one
of a transaction that succeeded it reads once more, and tells the news of that read before it takes
up the next. `Recount` is what has been done when some notifications have been dealt with, `Follows`
also has what is under way. Every run that is not cancelled follows its notifications, and never
stops short of the next one (`notifications_recounted`).
-/

namespace LedgerWatch.LogStream

/-- What a log channel does with its ledger and its callback, and what it is answered. -/
inductive Deed
  /-- A read has begun. -/
  | began
  | answered (read : FilterRead)
  | told (event : ChannelEvent)
deriving DecidableEq

namespace Deed

def update? : Deed → Option Update
  | told (.update u) => some u
  | _ => none

/-- A read that succeeded. -/
def success? : Deed → Option (Stamped (List (Address × Bytes)))
  | answered (.ok read) => some read
  | _ => none

def isAnswer : Deed → Bool
  | answered _ => true
  | _ => false

end Deed

open Deed

def answer? : Input → Option Deed
  | .answer read => some (.answered read)
  | _ => none

def deed? : Output → Option Deed
  | .read => some .began
  | .emit event => some (.told event)
  | _ => none

def deedScribe : Scribe Input Output Deed where
  reply? := answer?
  output? := deed?
  answers call reply := call = .began && reply.isAnswer

/-- What is done in a run. -/
def deeds (inputs : List Input) : List Deed := deedScribe.transcript step {} inputs

abbrev updates (deeds : List Deed) : List Update := deeds.filterMap update?

abbrev successes (deeds : List Deed) : List (Stamped (List (Address × Bytes))) :=
  deeds.filterMap success?

abbrev heartbeats (deeds : List Deed) : Nat := deeds.count (.told .heartbeat)

def arrival? : Input → Option Bool
  | .arrive succeeded => some succeeded
  | _ => none

/-- The notifications sent until the stream ends, for each whether its transaction succeeded. -/
def arrived (inputs : List Input) : List Bool := History.collectedUntil .close arrival? inputs

/-- One read after these deeds, and the news of it. -/
def reading (deeds : List Deed) (read : FilterRead) : List Deed :=
  [.began, .answered read] ++
    (newsAfter (updates deeds) (found read)).map fun u => .told (.update u)

/-- What is done when these notifications have been dealt with. -/
inductive Recount : List Bool → List Deed → Prop
  | opened (read : FilterRead) : Recount [] (reading [] read)
  | failed {handled : List Bool} {deeds : List Deed} (recount : Recount handled deeds) :
      Recount (handled ++ [false]) (deeds ++ [.told .heartbeat])
  | succeeded {handled : List Bool} {deeds : List Deed} (recount : Recount handled deeds)
      (read : FilterRead) :
      Recount (handled ++ [true]) (deeds ++ [.told .heartbeat] ++ reading deeds read)

/-- What is done while these notifications come in. -/
inductive Follows (arrived : List Bool) (closed : Prop) : List Deed → Prop
  | opening : Follows arrived closed [.began]
  | waiting {handled left : List Bool} {deeds : List Deed} (recount : Recount handled deeds)
      (all : arrived = handled ++ left) : Follows arrived closed deeds
  | reading {handled left : List Bool} {deeds : List Deed} (recount : Recount handled deeds)
      (all : arrived = handled ++ true :: left) :
      Follows arrived closed (deeds ++ [.told .heartbeat, .began])
  | closed {deeds : List Deed} (recount : Recount arrived deeds) (finished : closed) :
      Follows arrived closed (deeds ++ [.told .closed])

/-! ## One step -/

/-- Where a channel stands that was not cancelled. -/
inductive Stands (arrived : List Bool) (c : LogStream) (outputs : List Output) :
    List Deed → Prop
  | unopened (phase : c.phase = .unstarted ∨ c.phase = .connecting ∨ c.phase = .subscribing)
      (fresh : c.tracker = {}) (all : arrived = c.backlog)
      (unstarted : .started (.ok ()) ∉ outputs) : Stands arrived c outputs []
  | refused (phase : c.phase = .ended) (unstarted : .started (.ok ()) ∉ outputs) :
      Stands arrived c outputs []
  | opening (phase : c.phase = .opening) (fresh : c.tracker = {}) (all : arrived = c.backlog)
      (started : .started (.ok ()) ∈ outputs) : Stands arrived c outputs [.began]
  | waiting {handled : List Bool} {deeds : List Deed} (phase : c.phase = .waiting)
      (recount : Recount handled deeds) (recalls : c.tracker.Recalls (updates deeds))
      (all : arrived = handled ++ c.backlog) (started : .started (.ok ()) ∈ outputs) :
      Stands arrived c outputs deeds
  | reading {handled : List Bool} {deeds : List Deed} (phase : c.phase = .reading)
      (recount : Recount handled deeds) (recalls : c.tracker.Recalls (updates deeds))
      (all : arrived = handled ++ true :: c.backlog) (started : .started (.ok ()) ∈ outputs) :
      Stands arrived c outputs (deeds ++ [.told .heartbeat, .began])
  | closed {deeds : List Deed} (phase : c.phase = .releasing ∨ c.phase = .ended)
      (recount : Recount arrived deeds) (finished : c.closed = true)
      (started : .started (.ok ()) ∈ outputs) :
      Stands arrived c outputs (deeds ++ [.told .closed])

variable {c d : LogStream} {input : Input} {inputs : List Input} {outputs new : List Output}
  {arr more handled : List Bool} {said : List Deed} {read : FilterRead}

/-- What the channel's task does not notice. -/
theorem Stands.unnoticed (h : Stands arr c outputs said) (phase : d.phase = c.phase)
    (tracker : d.tracker = c.tracker) (backlog : d.backlog = c.backlog ++ more)
    (ended : c.closed = true → d.closed = true ∧ more = []) (silent : .started (.ok ()) ∉ new) :
    Stands (arr ++ more) d (outputs ++ new) said := by
  have kept (started : .started (.ok ()) ∈ outputs) : .started (.ok ()) ∈ outputs ++ new :=
    List.mem_append_left _ started
  have unkept (unstarted : .started (.ok ()) ∉ outputs) : .started (.ok ()) ∉ outputs ++ new := by
    simp [unstarted, silent]
  cases h with
  | unopened at_phase fresh all unstarted =>
    exact .unopened (phase ▸ at_phase) (tracker.trans fresh) (by rw [all, backlog])
      (unkept unstarted)
  | refused at_phase unstarted => exact .refused (phase.trans at_phase) (unkept unstarted)
  | opening at_phase fresh all started =>
    exact .opening (phase.trans at_phase) (tracker.trans fresh) (by rw [all, backlog])
      (kept started)
  | waiting at_phase recount recalls all started =>
    exact .waiting (phase.trans at_phase) recount (tracker ▸ recalls)
      (by rw [all, backlog, List.append_assoc]) (kept started)
  | reading at_phase recount recalls all started =>
    exact .reading (phase.trans at_phase) recount (tracker ▸ recalls)
      (by rw [all, backlog, List.append_assoc]; rfl) (kept started)
  | closed at_phase recount finished started =>
    obtain ⟨finished', rfl⟩ := ended finished
    rw [List.append_nil]
    exact .closed (phase ▸ at_phase) recount finished' (kept started)

theorem getLast?_reading (deeds : List Deed) (read : FilterRead) :
    ∀ last ∈ (reading deeds read).getLast?, last ≠ .began := by
  have later : ∀ last ∈ .answered read ::
      (newsAfter (updates deeds) (found read)).map fun u => .told (.update u),
      last ≠ Deed.began := by
    simp
  intro last mem
  exact later last (List.mem_of_getLast? mem)

/-- When the last notification has been dealt with, no read is open. -/
theorem Recount.getLast?_ne (h : Recount handled said) : ∀ last ∈ said.getLast?, last ≠ .began := by
  cases h with
  | opened read => exact getLast?_reading [] read
  | failed recount => simp
  | @succeeded _ deeds recount read =>
    rw [List.getLast?_append]
    cases last : (reading deeds read).getLast? with
    | none => simp [LogStream.reading] at last
    | some final => exact last ▸ getLast?_reading deeds read

/-- The news of a read is what its answer makes the channel tell. -/
theorem absorb_tells {told : List Update} (recalls : c.tracker.Recalls told) (read : FilterRead) :
    (c.absorb read).1.phase = .waiting ∧ (c.absorb read).1.backlog = c.backlog ∧
      (c.absorb read).1.tracker.Recalls (told ++ newsAfter told (found read)) ∧
      (c.absorb read).2 = (newsAfter told (found read)).map fun u => .emit (.update u) := by
  cases read with
  | error error =>
    refine ⟨rfl, rfl, ?_, rfl⟩
    rw [found, newsAfter, List.append_nil]
    exact recalls
  | ok read =>
    obtain ⟨news, recalls'⟩ := recalls.absorb read
    exact ⟨rfl, rfl, recalls', congrArg (List.map _) news⟩

theorem updates_reading (deeds : List Deed) (read : FilterRead) :
    updates (reading deeds read) = newsAfter (updates deeds) (found read) := by
  rw [LogStream.reading, updates, List.filterMap_append, List.filterMap_map]
  exact List.filterMap_some

theorem updates_append (a b : List Deed) : updates (a ++ b) = updates a ++ updates b :=
  List.filterMap_append

theorem updates_heartbeat (deeds : List Deed) :
    updates (deeds ++ [.told .heartbeat]) = updates deeds := by
  simp [updates, List.filterMap_cons, update?]

theorem deeds_news (news : List Update) :
    (news.map fun u => Output.emit (.update u)).filterMap deed? =
      news.map fun u => .told (.update u) := by
  rw [List.filterMap_map, ← List.filterMap_eq_map]
  rfl

theorem heard_answer (last : said.getLast? = some .began) (read : FilterRead) :
    deedScribe.heard said (.answer read) = [.answered read] := by
  simp [Scribe.heard, last, deedScribe, answer?, isAnswer]

theorem unheard_answer (shut : ∀ last ∈ said.getLast?, last ≠ .began) (read : FilterRead) :
    deedScribe.heard said (.answer read) = [] := by
  have replies : deedScribe.reply? (.answer read) = some (.answered read) := rfl
  apply Scribe.heard_of_not_answers replies
  intro call last
  simp [deedScribe, shut call last]

/-- What comes in with an input, while the stream is open. -/
def incoming (c : LogStream) (input : Input) : List Bool :=
  if c.closed then [] else (arrival? input).toList

theorem incoming_of_none (none : arrival? input = none) : c.incoming input = [] := by
  rw [incoming, none, Option.toList_none, ite_self]

/-- The next input keeps the channel to its course. -/
def Keeps (arr : List Bool) (c : LogStream) (outputs : List Output) (said : List Deed)
    (input : Input) : Prop :=
  Stands (arr ++ c.incoming input) (c.step input).1 (outputs ++ (c.step input).2)
    (said ++ deedScribe.entries step c said input)

theorem keeps_of {outcome : LogStream × List Output} (step_eq : c.step input = outcome)
    (unsent : arrival? input = none) {heard : List Deed}
    (hears : deedScribe.heard said input = heard)
    (stands : Stands arr outcome.1 (outputs ++ outcome.2)
      (said ++ (heard ++ outcome.2.filterMap deed?))) : Keeps arr c outputs said input := by
  subst step_eq hears
  rwa [Keeps, incoming_of_none unsent, List.append_nil]

/-- A step that leaves the channel as it is. -/
theorem Stands.idle (h : Stands arr c outputs said) (idle : c.step input = (c, []))
    (unsent : arrival? input = none) (unheard : deedScribe.heard said input = []) :
    Keeps arr c outputs said input := by
  apply keeps_of idle unsent unheard
  simpa using h

theorem Stands.start (h : Stands arr c outputs said) : Keeps arr c outputs said .start := by
  by_cases fresh : c.phase = .unstarted
  · cases h with
    | unopened _ tracker all unstarted =>
      have step_eq : c.step .start = ({ c with phase := .connecting }, [.connect]) := if_pos fresh
      apply keeps_of step_eq rfl (Scribe.heard_of_none rfl)
      exact .unopened (.inr (.inl rfl)) tracker all (by simp [unstarted])
    | _ => simp_all
  · exact h.idle (if_neg fresh) rfl (Scribe.heard_of_none rfl)

theorem Stands.connected (h : Stands arr c outputs said) (result : Except EndpointError Unit) :
    Keeps arr c outputs said (.connected result) := by
  by_cases waits : c.phase = .connecting
  · cases h with
    | unopened _ tracker all unstarted =>
      cases result with
      | ok granted =>
        have step_eq : c.step (.connected (.ok granted)) =
            ({ c with phase := .subscribing }, [.subscribe]) := by simp only [step, waits]
        apply keeps_of step_eq rfl (Scribe.heard_of_none rfl)
        exact .unopened (.inr (.inr rfl)) tracker all (by simp [unstarted])
      | error error =>
        have step_eq : c.step (.connected (.error error)) = c.fail error := by
          simp only [step, waits]
        apply keeps_of step_eq rfl (Scribe.heard_of_none rfl)
        exact .refused rfl (by simp [fail, unstarted])
    | _ => simp_all
  · apply h.idle _ rfl (Scribe.heard_of_none rfl)
    cases phase : c.phase <;> simp_all [step]

theorem Stands.subscribed (h : Stands arr c outputs said) (result : Except EndpointError Nat) :
    Keeps arr c outputs said (.subscribed result) := by
  by_cases waits : c.phase = .subscribing
  · cases h with
    | unopened _ tracker all unstarted =>
      cases result with
      | ok id =>
        have step_eq : c.step (.subscribed (.ok id)) =
            ({ c with phase := .opening, subscription := id }, [.started (.ok ()), .read]) := by
          simp only [step, waits]
        apply keeps_of step_eq rfl (Scribe.heard_of_none rfl)
        exact .opening rfl tracker all (by simp)
      | error error =>
        have step_eq : c.step (.subscribed (.error error)) = c.fail error := by
          simp only [step, waits]
        apply keeps_of step_eq rfl (Scribe.heard_of_none rfl)
        exact .refused rfl (by simp [fail, unstarted])
    | _ => simp_all
  · apply h.idle _ rfl (Scribe.heard_of_none rfl)
    cases phase : c.phase <;> simp_all [step]

theorem Stands.released (h : Stands arr c outputs said) (uncancelled : c.cancelled = false) :
    Keeps arr c outputs said .released := by
  by_cases waits : c.phase = .releasing
  · cases h with
    | closed _ recount finished started =>
      have step_eq : c.step .released = ({ c with phase := .ended }, []) := by
        simp [step, waits, uncancelled]
      apply keeps_of step_eq rfl (Scribe.heard_of_none rfl)
      rw [List.append_nil, List.filterMap_nil, List.append_nil, List.append_nil]
      exact .closed (.inr rfl) recount finished started
    | _ => simp_all
  · exact h.idle (if_neg waits) rfl (Scribe.heard_of_none rfl)

theorem Stands.arrive (h : Stands arr c outputs said) (succeeded : Bool) :
    Keeps arr c outputs said (.arrive succeeded) := by
  rw [Keeps, Scribe.entries, Scribe.heard_of_none rfl, incoming, step]
  by_cases closed : c.closed = true
  · rw [if_pos closed, if_pos closed]
    simpa using h
  · rw [if_neg closed, if_neg closed]
    have open_ : c.closed = true → c.closed = true ∧ [succeeded] = [] :=
      fun finished => absurd finished closed
    have noted : Stands (arr ++ [succeeded]) { c with backlog := c.backlog ++ [succeeded] }
        (outputs ++ []) said :=
      h.unnoticed rfl rfl rfl open_ List.not_mem_nil
    simpa [arrival?] using noted

theorem Stands.close (h : Stands arr c outputs said) : Keeps arr c outputs said .close := by
  rw [Keeps, Scribe.entries, Scribe.heard_of_none rfl, incoming_of_none rfl, step]
  have quiet : Stands (arr ++ []) { c with closed := true } (outputs ++ []) said :=
    h.unnoticed rfl rfl (List.append_nil _).symm (fun _ => ⟨rfl, rfl⟩) List.not_mem_nil
  simpa using quiet

theorem step_answer (waits : c.phase = .opening ∨ c.phase = .reading) (read : FilterRead) :
    c.step (.answer read) = c.absorb read := by
  cases waits with
  | inl phase => simp only [step, phase]
  | inr phase => simp only [step, phase]

/-- The answer to the open read completes it. -/
theorem reading_eq (recalls : c.tracker.Recalls (updates said)) (read : FilterRead) :
    [.began] ++ ([.answered read] ++ (c.absorb read).2.filterMap deed?) = reading said read := by
  obtain ⟨-, -, -, tells⟩ := absorb_tells recalls read
  rw [tells, deeds_news]
  rfl

theorem Stands.answer (h : Stands arr c outputs said) (read : FilterRead) :
    Keeps arr c outputs said (.answer read) := by
  have unread (shut : ∀ last ∈ said.getLast?, last ≠ .began)
      (phase : c.phase ≠ .opening ∧ c.phase ≠ .reading) :
      Keeps arr c outputs said (.answer read) := by
    apply h.idle _ rfl (unheard_answer shut read)
    cases at_phase : c.phase <;> simp_all [LogStream.step]
  cases h with
  | opening phase fresh all started =>
    have recalls : c.tracker.Recalls (updates []) := fresh ▸ Tracker.recalls_nil
    obtain ⟨waits, backlog, recalls', -⟩ := absorb_tells recalls read
    apply keeps_of (step_answer (.inl phase) read) rfl (heard_answer rfl read)
    rw [reading_eq recalls]
    apply Stands.waiting waits (.opened read)
    case recalls =>
      rw [updates_reading]
      exact recalls'
    case all =>
      rw [backlog, all]
      rfl
    case started => exact List.mem_append_left _ started
  | @reading handled deeds phase recount recalls all started =>
    have last : (deeds ++ [told .heartbeat, began]).getLast? = some began := by
      rw [List.append_cons, List.getLast?_concat]
    obtain ⟨waits, backlog, recalls', -⟩ := absorb_tells recalls read
    have split : deeds ++ [.told .heartbeat, .began] ++
        ([.answered read] ++ (c.absorb read).2.filterMap deed?) =
          deeds ++ [.told .heartbeat] ++ LogStream.reading deeds read := by
      rw [← reading_eq recalls]
      simp
    apply keeps_of (step_answer (.inr phase) read) rfl (heard_answer last read)
    rw [split]
    apply Stands.waiting waits (.succeeded recount read)
    case recalls =>
      rw [updates_append, updates_heartbeat, updates_reading]
      exact recalls'
    case all => rw [backlog, all, List.append_assoc, List.singleton_append]
    case started => exact List.mem_append_left _ started
  | waiting phase recount => exact unread recount.getLast?_ne (by simp [phase])
  | unopened phase =>
    apply unread (by simp)
    rcases phase with phase | phase | phase <;> simp [phase]
  | refused phase => exact unread (by simp) (by simp [phase])
  | closed phase =>
    apply unread (by simp)
    rcases phase with phase | phase <;> simp [phase]

theorem Stands.next (h : Stands arr c outputs said) : Keeps arr c outputs said .next := by
  by_cases waits : c.phase = .waiting
  · cases h with
    | waiting _ recount recalls all started =>
      have step_eq : c.step .next = c.takeUp := if_pos waits
      apply keeps_of step_eq rfl (Scribe.heard_of_none rfl)
      unfold takeUp
      split
      · rename_i left backlog
        refine .reading ?phase recount ?recalls ?all ?started
        case phase => rfl
        case recalls => exact recalls
        case all => exact all.trans (congrArg _ backlog)
        case started => exact List.mem_append_left _ started
      · rename_i left backlog
        refine .waiting ?phase recount.failed ?recalls ?all ?started
        case phase => exact waits
        case recalls =>
          change c.tracker.Recalls (updates (said ++ [told .heartbeat]))
          rwa [updates_heartbeat]
        case all => simp [all, backlog]
        case started => exact List.mem_append_left _ started
      · rename_i empty
        rw [empty, List.append_nil] at all
        subst all
        split
        · rename_i closed
          exact .closed (.inl rfl) recount closed (List.mem_append_left _ started)
        · rw [List.append_nil, List.filterMap_nil, List.append_nil, List.append_nil]
          apply Stands.waiting waits recount recalls _ started
          rw [empty, List.append_nil]
    | _ => simp_all
  · exact h.idle (if_neg waits) rfl (Scribe.heard_of_none rfl)

theorem Stands.step (h : Stands arr c outputs said) (uncancelled : c.cancelled = false)
    (kept : input ≠ .cancel) : Keeps arr c outputs said input := by
  cases input with
  | start => exact h.start
  | connected result => exact h.connected result
  | subscribed result => exact h.subscribed result
  | answer read => exact h.answer read
  | arrive succeeded => exact h.arrive succeeded
  | close => exact h.close
  | next => exact h.next
  | released => exact h.released uncancelled
  | cancel => exact absurd rfl kept
  | look =>
    apply h.idle _ rfl (Scribe.heard_of_none rfl)
    simp [LogStream.step, uncancelled]

theorem step_closed (c : LogStream) (input : Input) :
    (c.step input).1.closed = true ↔ c.closed = true ∨ .close = input := by
  cases input with
  | connected result => cases phase : c.phase <;> cases result <;> simp [step, phase, fail]
  | subscribed result => cases phase : c.phase <;> cases result <;> simp [step, phase, fail]
  | answer read => cases phase : c.phase <;> cases read <;> simp [step, phase, absorb]
  | next =>
    simp only [step, takeUp]
    repeat' split
    all_goals simp [release]
  | _ => grind [step, release]

theorem step_uncancelled (uncancelled : c.cancelled = false) (kept : input ≠ .cancel) :
    (c.step input).1.cancelled = false := by
  cases input with
  | connected result => cases phase : c.phase <;> cases result <;> simpa [step, phase, fail]
  | subscribed result => cases phase : c.phase <;> cases result <;> simpa [step, phase, fail]
  | answer read => cases phase : c.phase <;> cases read <;> simpa [step, phase, absorb]
  | next =>
    simp only [step, takeUp]
    repeat' split
    all_goals simpa [release]
  | _ => grind [step, release]

theorem arrived_concat (inputs : List Input) (input : Input) : arrived (inputs ++ [input]) =
    arrived inputs ++ if .close ∈ inputs then [] else (arrival? input).toList :=
  History.collectedUntil_concat rfl inputs input

theorem deeds_concat (inputs : List Input) (input : Input) : deeds (inputs ++ [input]) =
    deeds inputs ++ deedScribe.entries step (run {} inputs).1 (deeds inputs) input :=
  Scribe.transcript_concat

theorem run_concat (inputs : List Input) (input : Input) : run {} (inputs ++ [input]) =
    (((run {} inputs).1.step input).1, (run {} inputs).2 ++ ((run {} inputs).1.step input).2) :=
  runInputs_concat ..

/-- Over every run without a cancellation the channel keeps to its course. -/
theorem run_stands (inputs : List Input) (uncancelled : .cancel ∉ inputs) :
    Stands (arrived inputs) (run {} inputs).1 (run {} inputs).2 (deeds inputs) ∧
      (run {} inputs).1.cancelled = false ∧
      ((run {} inputs).1.closed = true ↔ .close ∈ inputs) := by
  induction inputs using List.reverseRecOn with
  | nil => exact ⟨.unopened (.inl rfl) rfl rfl List.not_mem_nil, rfl, by simp [run, runInputs]⟩
  | append_singleton inputs input ih =>
    obtain ⟨before, last⟩ : .cancel ∉ inputs ∧ input ≠ .cancel := by
      simpa [eq_comm] using uncancelled
    obtain ⟨stands, uncancelled, closed⟩ := ih before
    rw [run_concat, arrived_concat, deeds_concat]
    refine ⟨?_, step_uncancelled uncancelled last, ?_⟩
    · have keeps := stands.step uncancelled last
      rw [Keeps, incoming] at keeps
      simpa only [closed] using keeps
    · rw [step_closed, closed, List.mem_append, List.mem_singleton]

/-! ## What a run comes to -/

theorem count_news {deed : Deed} (other : ∀ u, deed ≠ .told (.update u)) (news : List Update) :
    (news.map fun u => told (.update u)).count deed = 0 := by
  rw [List.count_eq_zero, List.mem_map]
  rintro ⟨u, -, eq⟩
  exact other u eq.symm

theorem successes_append (a b : List Deed) : successes (a ++ b) = successes a ++ successes b :=
  List.filterMap_append

theorem successes_heartbeat (deeds : List Deed) :
    successes (deeds ++ [.told .heartbeat]) = successes deeds := by
  simp [successes, List.filterMap_cons, success?]

/-- What has been counted and shown when these notifications have been dealt with. -/
structure Tally (handled : List Bool) (deeds : List Deed) : Prop where
  heartbeats : heartbeats deeds = handled.length
  reads : deeds.count .began = 1 + handled.count true
  unclosed : .told .closed ∉ deeds
  shows : Shows (successes deeds) (updates deeds)

theorem shows_reading (shows : Shows (successes said) (updates said)) (read : FilterRead) :
    Shows (successes said ++ successes (LogStream.reading said read))
      (updates said ++ updates (LogStream.reading said read)) := by
  have silent : successes ((newsAfter (updates said) (found read)).map fun u => told (.update u)) =
      [] := by
    simp [successes, success?]
  rw [updates_reading, LogStream.reading, successes_append, silent]
  cases read with
  | error error => simpa [found, newsAfter, success?, List.filterMap_cons] using shows
  | ok read => exact shows.read read

theorem Recount.tally (h : Recount handled said) : Tally handled said := by
  induction h with
  | opened read =>
    constructor
    case heartbeats => simp [LogStream.heartbeats, LogStream.reading, count_news]
    case reads => simp [LogStream.reading, count_news]
    case unclosed => simp [LogStream.reading]
    case shows =>
      have nothing : Shows (successes []) (updates []) := shows_nil
      exact shows_reading nothing read
  | failed recount ih =>
    constructor
    case heartbeats => simp [ih.heartbeats]
    case reads => simp [ih.reads]
    case unclosed => simp [ih.unclosed]
    case shows =>
      rw [successes_heartbeat, updates_heartbeat]
      exact ih.shows
  | succeeded recount read ih =>
    constructor
    case heartbeats => simp [LogStream.reading, count_news, ih.heartbeats]
    case reads =>
      simp [LogStream.reading, count_news, ih.reads]
      omega
    case unclosed => simp [LogStream.reading, ih.unclosed]
    case shows =>
      rw [successes_append, successes_heartbeat, updates_append, updates_heartbeat]
      exact shows_reading ih.shows read

/-- What the task does when it takes up the first of these, or finds that the stream is over. -/
def upNext (finished : Prop) [Decidable finished] : List Bool → List Deed
  | true :: _ => [.told .heartbeat, .began]
  | false :: _ => [.told .heartbeat]
  | [] => if finished then [.told .closed] else []

/-- What a run does, by the notifications that came in. -/
structure Recounted (inputs : List Input) : Prop where
  /-- What it does is what it puts out. -/
  puts_out : (run {} inputs).2.filterMap deed? = (deeds inputs).filter fun deed => !deed.isAnswer
  /-- Nothing is done before the start has returned Ok. -/
  silent : .started (.ok ()) ∉ (run {} inputs).2 → deeds inputs = []
  follows : .started (.ok ()) ∈ (run {} inputs).2 →
    Follows (arrived inputs) (.close ∈ inputs) (deeds inputs)
  /-- Each notification was told by a heartbeat, and there was one more read than successes. -/
  reads : .started (.ok ()) ∈ (run {} inputs).2 → (deeds inputs).count .began =
    1 + ((arrived inputs).take (heartbeats (deeds inputs))).count true
  /-- When no read is open and the closing has not been told, the next notification is taken up. -/
  goes_on : .started (.ok ()) ∈ (run {} inputs).2 → (deeds inputs).getLast? ≠ some .began →
    .told .closed ∉ deeds inputs → ((run {} inputs).1.step .next).2.filterMap deed? =
      upNext (.close ∈ inputs) ((arrived inputs).drop (heartbeats (deeds inputs)))
  shows : Shows (successes (deeds inputs)) (updates (deeds inputs))

theorem puts_out (inputs : List Input) : (run {} inputs).2.filterMap deed? =
    (deeds inputs).filter fun deed => !deed.isAnswer := by
  induction inputs using List.reverseRecOn with
  | nil => rfl
  | append_singleton inputs input ih =>
    have heard : (deedScribe.heard (deeds inputs) input).filter (fun deed => !deed.isAnswer) =
        [] := by
      apply List.filter_eq_nil_iff.2
      intro deed mem
      have reply : answer? input = some deed := Scribe.reply_of_mem_heard mem
      cases input with
      | answer read =>
        obtain rfl := Option.some.inj reply
        simp [isAnswer]
      | _ => cases reply
    have own : ((run {} inputs).1.step input).2.filterMap deed? =
        (((run {} inputs).1.step input).2.filterMap deed?).filter fun deed => !deed.isAnswer := by
      rw [eq_comm, List.filter_eq_self]
      intro deed mem
      obtain ⟨output, -, eq⟩ := List.mem_filterMap.1 mem
      cases output with
      | read =>
        obtain rfl := Option.some.inj eq
        rfl
      | emit event =>
        obtain rfl := Option.some.inj eq
        rfl
      | _ => cases eq
    rw [run_concat, deeds_concat, List.filterMap_append, List.filter_append, ih, Scribe.entries,
      List.filter_append, heard, own]
    rfl

theorem step_next (waits : c.phase = .waiting) :
    (c.step .next).2.filterMap deed? = upNext (c.closed = true) c.backlog := by
  rw [step, if_pos waits, takeUp]
  cases c.backlog with
  | nil =>
    by_cases closed : c.closed = true
    · simp [upNext, closed, release, deed?, List.filterMap_cons]
    · simp [upNext, closed]
  | cons succeeded left => cases succeeded <;> rfl

theorem Stands.follows (h : Stands arr c outputs said) (started : .started (.ok ()) ∈ outputs) :
    Follows arr (c.closed = true) said := by
  cases h with
  | unopened _ _ _ unstarted => exact absurd started unstarted
  | refused _ unstarted => exact absurd started unstarted
  | opening => exact .opening
  | waiting _ recount _ all => exact .waiting recount all
  | reading _ recount _ all => exact .reading recount all
  | closed _ recount finished => exact .closed recount finished

theorem Stands.silent (h : Stands arr c outputs said) (unstarted : .started (.ok ()) ∉ outputs) :
    said = [] := by
  cases h with
  | unopened | refused => rfl
  | opening _ _ _ started => exact absurd started unstarted
  | waiting _ _ _ _ started => exact absurd started unstarted
  | reading _ _ _ _ started => exact absurd started unstarted
  | closed _ _ _ started => exact absurd started unstarted

theorem Stands.goes_on (h : Stands arr c outputs said) (started : .started (.ok ()) ∈ outputs)
    (shut : said.getLast? ≠ some .began) (unclosed : .told .closed ∉ said) :
    (c.step .next).2.filterMap deed? = upNext (c.closed = true) (arr.drop (heartbeats said)) := by
  cases h with
  | unopened _ _ _ unstarted => exact absurd started unstarted
  | refused _ unstarted => exact absurd started unstarted
  | opening => exact absurd rfl shut
  | waiting phase recount _ all =>
    rw [all, recount.tally.heartbeats, List.drop_left]
    exact step_next phase
  | reading => simp at shut
  | closed => simp at unclosed

theorem Follows.reads {closed : Prop} (h : Follows arr closed said) :
    said.count .began = 1 + (arr.take (heartbeats said)).count true := by
  cases h with
  | opening => rfl
  | waiting recount all =>
    rw [recount.tally.reads, recount.tally.heartbeats, all, List.take_left]
  | @reading handled left deeds recount all =>
    have counted : heartbeats (deeds ++ [.told .heartbeat, .began]) = handled.length + 1 := by
      simp [recount.tally.heartbeats]
    have taken : arr.take (handled.length + 1) = handled ++ [true] := by
      have size : handled.length + 1 = (handled ++ [true]).length := by simp
      rw [size, all, List.append_cons handled true left, List.take_left]
    rw [counted, taken]
    simp [recount.tally.reads]
    omega
  | @closed deeds recount finished =>
    have counted : heartbeats (deeds ++ [.told .closed]) = arr.length := by
      simp [recount.tally.heartbeats]
    rw [counted, List.take_length]
    simp [recount.tally.reads]

theorem Follows.shows {closed : Prop} (h : Follows arr closed said) :
    Shows (successes said) (updates said) := by
  cases h with
  | opening => exact shows_nil
  | waiting recount all => exact recount.tally.shows
  | reading recount all => simpa [success?, update?, List.filterMap_cons] using recount.tally.shows
  | closed recount finished =>
    simpa [success?, update?, List.filterMap_cons] using recount.tally.shows

/-- Over every run without a cancellation, the channel does for its notifications what it has to. -/
theorem notifications_recounted (inputs : List Input) (uncancelled : .cancel ∉ inputs) :
    Recounted inputs := by
  obtain ⟨stands, -, closed⟩ := run_stands inputs uncancelled
  constructor
  case puts_out => exact puts_out inputs
  case silent => exact stands.silent
  case follows =>
    intro started
    rw [← closed]
    exact stands.follows started
  case reads => exact fun started => (stands.follows started).reads
  case goes_on =>
    intro started shut unclosed
    simpa only [closed] using stands.goes_on started shut unclosed
  case shows =>
    by_cases started : .started (.ok ()) ∈ (run {} inputs).2
    · exact (stands.follows started).shows
    · rw [stands.silent started]
      exact shows_nil

def loggedAddress : Address := ⟨Vector.replicate 32 4⟩

/-- A transaction fails and another succeeds; the read after it finds new bytes. Then the stream
ends. -/
def loggedRun : List Input :=
  [.start, .connected (.ok ()), .subscribed (.ok 7), .answer (.ok ⟨[(loggedAddress, [1])], 5⟩),
    .arrive false, .arrive true, .next, .next, .close,
    .answer (.ok ⟨[(loggedAddress, [2])], 6⟩), .next, .released]

theorem notifications_recounted_logged : .cancel ∉ loggedRun ∧ deeds loggedRun =
    [.began, .answered (.ok ⟨[(loggedAddress, [1])], 5⟩), .told (.update ⟨loggedAddress, [1], 5⟩),
      .told .heartbeat, .told .heartbeat, .began, .answered (.ok ⟨[(loggedAddress, [2])], 6⟩),
      .told (.update ⟨loggedAddress, [2], 6⟩), .told .closed] ∧ Recounted loggedRun := by
  have uncancelled : .cancel ∉ loggedRun := by simp [loggedRun]
  exact ⟨uncancelled, by decide +kernel, notifications_recounted _ uncancelled⟩

end LedgerWatch.LogStream
