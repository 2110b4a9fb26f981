import LedgerWatch.Proofs.History
import LedgerWatch.Watch.Push
import Mathlib.Data.List.Induction

/-!
# When a push channel reports its closing

A push channel that is not cancelled reports its closing exactly when it has taken up the end of
every stream, once and last (`closed_iff_exhausted`). So a stream that ends while another goes on
is not reported (`dead_stream_unreported`): the channel stays as it is, and nothing more comes of
the account of that stream.
-/

namespace LedgerWatch.Push

def event? : Output → Option ChannelEvent
  | .emit event => some event
  | _ => none

/-- What the channel's callback was called with. -/
def events (outputs : List Output) : List ChannelEvent := outputs.filterMap event?

@[simp] theorem events_append (a b : List Output) : events (a ++ b) = events a ++ events b :=
  List.filterMap_append

/-- The channel has taken up the end of every stream. -/
def Exhausted (c : Push) : Prop := ∀ stream ∈ c.streams, stream.exhausted = true

/-- How far a channel is that was not cancelled, by what it has put out. -/
inductive Course (c : Push) (outputs : List Output) : Prop
  | opening (phase : c.phase = .unstarted ∨ c.phase = .connecting ∨
        ∃ targets, c.phase = .subscribing targets)
      (silent : events outputs = []) (unstarted : .started (.ok ()) ∉ outputs)
  | live (phase : c.phase = .live) (open_ : ¬ c.Exhausted)
      (unclosed : .closed ∉ events outputs) (started : .started (.ok ()) ∈ outputs)
  | refused (phase : (∃ ids error, c.phase = .releasing ids (some error)) ∨ c.phase = .ended)
      (silent : events outputs = []) (unstarted : .started (.ok ()) ∉ outputs)
  | closed {before : List ChannelEvent}
      (phase : (∃ ids, c.phase = .releasing ids none) ∨ c.phase = .ended)
      (exhausted : c.Exhausted) (last : events outputs = before ++ [.closed])
      (first : .closed ∉ before) (started : .started (.ok ()) ∈ outputs)

variable {c d : Push} {outputs more : List Output} {input : Input}

theorem not_mem_append (first : .started (.ok ()) ∉ outputs) (second : .started (.ok ()) ∉ more) :
    .started (.ok ()) ∉ outputs ++ more := by
  simp [first, second]

/-- What changes neither the phase nor the ends taken up, and reports nothing. -/
theorem Course.congr (course : Course c outputs) (phase : d.phase = c.phase)
    (exhausted : d.Exhausted ↔ c.Exhausted) : Course d outputs := by
  cases course with
  | opening at_phase silent unstarted => exact .opening (phase ▸ at_phase) silent unstarted
  | live at_phase open_ unclosed started =>
    exact .live (phase.trans at_phase) (exhausted.not.2 open_) unclosed started
  | refused at_phase silent unstarted => exact .refused (phase ▸ at_phase) silent unstarted
  | closed at_phase all last first started =>
    exact .closed (phase ▸ at_phase) (exhausted.2 all) last first started

/-! ## Giving back -/

theorem release_kept (c : Push) (refusal : Option EndpointError) (ids : List SubscriptionId) :
    (c.release refusal ids).1.streams = c.streams ∧
      (c.release refusal ids).1.cancelled = c.cancelled := by
  cases ids <;> exact ⟨rfl, rfl⟩

theorem course_refused (silent : events outputs = []) (unstarted : .started (.ok ()) ∉ outputs)
    (error : EndpointError) (ids : List SubscriptionId) :
    Course (c.release (some error) ids).1 (outputs ++ (c.release (some error) ids).2) := by
  cases ids with
  | nil =>
    refine .refused (.inr rfl) ?_ (not_mem_append unstarted (by simp [release]))
    rw [events_append, silent]
    rfl
  | cons id rest =>
    refine .refused (.inl ⟨_, _, rfl⟩) ?_ (not_mem_append unstarted (by simp [release]))
    rw [events_append, silent]
    rfl

theorem course_closed {before : List ChannelEvent} (uncancelled : c.cancelled = false)
    (exhausted : c.Exhausted) (last : events outputs = before ++ [.closed])
    (first : .closed ∉ before) (started : .started (.ok ()) ∈ outputs)
    (ids : List SubscriptionId) :
    Course (c.release none ids).1 (outputs ++ (c.release none ids).2) := by
  have all : (c.release none ids).1.Exhausted := by
    rw [Exhausted, (release_kept c none ids).1]
    exact exhausted
  have silent : events (c.release none ids).2 = [] := by
    cases ids with
    | nil => simp [release, uncancelled, events]
    | cons => rfl
  refine .closed ?_ all (by rw [events_append, silent, last, List.append_nil]) first
    (List.mem_append_left _ started)
  cases ids with
  | nil => exact .inr rfl
  | cons => exact .inl ⟨_, rfl⟩

/-- A live channel goes on unless it has taken up the end of every stream. -/
theorem course_closeIfExhausted (phase : c.phase = .live) (uncancelled : c.cancelled = false)
    (unclosed : .closed ∉ events outputs) (started : .started (.ok ()) ∈ outputs) :
    Course c.closeIfExhausted.1 (outputs ++ c.closeIfExhausted.2) := by
  unfold closeIfExhausted
  split
  · rename_i all
    rw [List.all_eq_true] at all
    dsimp only
    have last : events (outputs ++ [.emit .closed]) = events outputs ++ [.closed] :=
      events_append ..
    rw [List.append_cons]
    exact course_closed uncancelled all last unclosed (List.mem_append_left _ started) _
  · rename_i some_
    rw [List.append_nil]
    exact .live phase (by simpa [Exhausted] using some_) unclosed started

theorem closeIfExhausted_kept (c : Push) :
    c.closeIfExhausted.1.streams = c.streams ∧ c.closeIfExhausted.1.cancelled = c.cancelled := by
  unfold closeIfExhausted
  split
  · exact release_kept c none c.granted
  · exact ⟨rfl, rfl⟩

theorem course_subscribeNext (uncancelled : c.cancelled = false) (silent : events outputs = [])
    (unstarted : .started (.ok ()) ∉ outputs) (targets : List Target) :
    Course (c.subscribeNext targets).1 (outputs ++ (c.subscribeNext targets).2) ∧
      (c.subscribeNext targets).1.cancelled = false := by
  cases targets with
  | cons target rest =>
    refine ⟨.opening (.inr (.inr ⟨_, rfl⟩)) ?_ (not_mem_append unstarted (by simp [subscribeNext])),
      uncancelled⟩
    rw [events_append, silent]
    rfl
  | nil =>
    let live : Push := { c with phase := .live }
    have goes : Course live.closeIfExhausted.1
        ((outputs ++ [.started (.ok ())]) ++ live.closeIfExhausted.2) :=
      course_closeIfExhausted rfl uncancelled (by rw [events_append, silent]; simp [events, event?])
        (by simp)
    refine ⟨?_, (closeIfExhausted_kept live).2.trans uncancelled⟩
    simpa [subscribeNext] using goes

/-! ## Steps and runs -/

theorem exhausted_congr
    (flags : d.streams.map Stream.exhausted = c.streams.map Stream.exhausted) :
    d.Exhausted ↔ c.Exhausted := by
  have all (c : Push) : c.Exhausted ↔ ∀ flag ∈ c.streams.map Stream.exhausted, flag = true := by
    simp [Exhausted]
  rw [all, all, flags]

theorem map_modify_of_same {α : Type} (g : Stream → α) (streams : List Stream) (place : Nat)
    {f : Stream → Stream} (same : ∀ stream, g (f stream) = g stream) :
    (streams.modify place f).map g = streams.map g := by
  apply List.ext_getElem?
  intro i
  rw [List.getElem?_map, List.getElem?_map, List.getElem?_modify]
  split
  · cases streams[i]? <;> simp [same]
  · simp

theorem map_set_of_same {α : Type} (g : Stream → α) {streams : List Stream} {place : Nat}
    {stream stream' : Stream} (found : streams[place]? = some stream)
    (same : g stream' = g stream) : (streams.set place stream').map g = streams.map g := by
  obtain ⟨inside, rfl⟩ := List.getElem?_eq_some_iff.1 found
  rw [List.map_set, same, ← List.getElem_map g, List.set_getElem_self]
  simpa using inside

theorem receive_exhausted (n : Notification) (stream : Stream) :
    (receive n stream).exhausted = stream.exhausted := by
  unfold receive
  split <;> rfl

theorem event_ne_closed (target : Target) (n : Notification) : n.event target ≠ .closed := by
  unfold Notification.event
  split <;> simp

/-- Taking up a notification reports it, and taking up an end may be the last. -/
theorem course_takeUp (phase : c.phase = .live) (uncancelled : c.cancelled = false)
    (open_ : ¬ c.Exhausted) (unclosed : .closed ∉ events outputs)
    (started : .started (.ok ()) ∈ outputs) (place : Nat) :
    Course (c.takeUp place).1 (outputs ++ (c.takeUp place).2) ∧
      (c.takeUp place).1.cancelled = false := by
  have stays : Course c (outputs ++ []) := by
    rw [List.append_nil]
    exact .live phase open_ unclosed started
  unfold takeUp
  split
  · exact ⟨stays, uncancelled⟩
  · rename_i stream at_place
    split
    · rename_i n rest _
      have flags : (c.streams.set place { stream with backlog := rest }).map Stream.exhausted =
          c.streams.map Stream.exhausted := map_set_of_same Stream.exhausted at_place rfl
      refine ⟨.live phase (mt (exhausted_congr flags).1 open_) ?_ (List.mem_append_left _ started),
        uncancelled⟩
      rw [events_append, List.mem_append, not_or]
      exact ⟨unclosed, fun mem => event_ne_closed _ _ (List.mem_singleton.1 mem).symm⟩
    · split
      · exact ⟨course_closeIfExhausted phase uncancelled unclosed started,
          (closeIfExhausted_kept _).2.trans uncancelled⟩
      · exact ⟨stays, uncancelled⟩

/-- Before the channel is live, and once it was refused, it has told nothing. -/
theorem Course.silent (course : Course c outputs) (phase : c.phase ≠ .live ∧ c.phase ≠ .ended ∧
    ∀ ids, c.phase ≠ .releasing ids none) :
    events outputs = [] ∧ .started (.ok ()) ∉ outputs := by
  obtain ⟨unlive, unended, refused⟩ := phase
  cases course with
  | opening _ silent unstarted => exact ⟨silent, unstarted⟩
  | live at_phase => exact absurd at_phase unlive
  | refused _ silent unstarted => exact ⟨silent, unstarted⟩
  | closed at_phase =>
    rcases at_phase with ⟨ids, at_phase⟩ | at_phase
    · exact absurd at_phase (refused ids)
    · exact absurd at_phase unended

/-- Every step of a channel that is not cancelled keeps to its course. -/
theorem step_course (course : Course c outputs) (uncancelled : c.cancelled = false)
    (kept : input ≠ .cancel) :
    Course (c.step input).1 (outputs ++ (c.step input).2) ∧
      (c.step input).1.cancelled = false := by
  have stays : Course c (outputs ++ []) ∧ c.cancelled = false :=
    ⟨by rwa [List.append_nil], uncancelled⟩
  have arrives {f : Stream → Stream} (place : Nat)
      (same : ∀ stream, (f stream).exhausted = stream.exhausted) :
      Course { c with streams := c.streams.modify place f } (outputs ++ []) ∧
        c.cancelled = false := by
    rw [List.append_nil]
    exact ⟨course.congr rfl (exhausted_congr (map_modify_of_same Stream.exhausted _ place same)), uncancelled⟩
  cases input with
  | cancel => exact absurd rfl kept
  | look => simpa [step, uncancelled] using stays
  | arrive place n => exact arrives place (receive_exhausted n)
  | close place => exact arrives place fun _ => rfl
  | start =>
    by_cases fresh : c.phase = .unstarted
    · obtain ⟨silent, unstarted⟩ := course.silent (by simp [fresh])
      simp only [step, fresh, if_true]
      refine ⟨.opening (.inr (.inl rfl)) ?_ (not_mem_append unstarted (by simp)), uncancelled⟩
      rw [events_append, silent]
      rfl
    · simpa [step, fresh] using stays
  | connected result =>
    cases phase : c.phase with
    | connecting =>
      obtain ⟨silent, unstarted⟩ := course.silent (by simp [phase])
      cases result with
      | ok granted =>
        simp only [step, phase]
        exact course_subscribeNext uncancelled silent unstarted _
      | error error =>
        simp only [step, phase]
        exact ⟨course_refused silent unstarted error [], uncancelled⟩
    | _ => simpa [step, phase] using stays
  | subscribed result =>
    cases phase : c.phase with
    | subscribing targets =>
      obtain ⟨silent, unstarted⟩ := course.silent (by simp [phase])
      cases result with
      | error error =>
        simp only [step, phase]
        exact ⟨course_refused silent unstarted error _, (release_kept ..).2.trans uncancelled⟩
      | ok id =>
        cases targets with
        | nil => simpa [step, phase] using stays
        | cons target rest =>
          simp only [step, phase]
          refine course_subscribeNext ?_ silent unstarted rest
          exact uncancelled
    | _ => simpa [step, phase] using stays
  | next place =>
    by_cases phase : c.phase = .live
    · simp only [step, phase, if_true]
      cases course with
      | live _ open_ unclosed started =>
        exact course_takeUp phase uncancelled open_ unclosed started place
      | opening at_phase | refused at_phase | closed at_phase => simp [phase] at at_phase
    · simpa [step, phase] using stays
  | released =>
    cases phase : c.phase with
    | releasing ids refusal =>
      cases ids with
      | nil => simpa [step, phase] using stays
      | cons id rest =>
        simp only [step, phase]
        refine ⟨?_, (release_kept ..).2.trans uncancelled⟩
        cases refusal with
        | some error =>
          obtain ⟨silent, unstarted⟩ := course.silent (by simp [phase])
          exact course_refused silent unstarted error rest
        | none =>
          cases course with
          | closed _ exhausted last first started =>
            exact course_closed uncancelled exhausted last first started rest
          | opening at_phase | live at_phase | refused at_phase => simp [phase] at at_phase
    | _ => simpa [step, phase] using stays

theorem run_course (filter : Filter) (inputs : List Input) (uncancelled : .cancel ∉ inputs) :
    Course (run { filter } inputs).1 (run { filter } inputs).2 ∧
      (run { filter } inputs).1.cancelled = false := by
  induction inputs using List.reverseRecOn with
  | nil => exact ⟨.opening (.inl rfl) rfl (by simp [run, runInputs]), rfl⟩
  | append_singleton inputs input ih =>
    obtain ⟨before, last⟩ : .cancel ∉ inputs ∧ input ≠ .cancel := by
      simpa [eq_comm] using uncancelled
    obtain ⟨course, uncancelled⟩ := ih before
    rw [run, runInputs_concat]
    exact step_course course uncancelled last

/-- Over every run without a cancellation, the closing is reported exactly when the channel has
gone live and has taken up the end of every stream, and it is the last that is reported. -/
theorem closed_iff_exhausted (filter : Filter) (inputs : List Input)
    (uncancelled : .cancel ∉ inputs) :
    (.closed ∈ events (run { filter } inputs).2 ↔
      .started (.ok ()) ∈ (run { filter } inputs).2 ∧ (run { filter } inputs).1.Exhausted) ∧
    ∀ before after, events (run { filter } inputs).2 = before ++ .closed :: after →
      after = [] ∧ .closed ∉ before := by
  obtain ⟨course, -⟩ := run_course filter inputs uncancelled
  generalize (run { filter } inputs).1 = c, (run { filter } inputs).2 = outputs at course
  cases course with
  | opening _ silent unstarted | refused _ silent unstarted => simp [silent, unstarted]
  | live _ open_ unclosed started =>
    refine ⟨iff_of_false unclosed fun all => open_ all.2, fun before after eq => ?_⟩
    simp [eq] at unclosed
  | @closed before _ exhausted last first started =>
    refine ⟨iff_of_true (by simp [last]) ⟨started, exhausted⟩, fun before' after eq => ?_⟩
    rw [last] at eq
    obtain ⟨rfl, -, rfl⟩ | ⟨between, -, rfl⟩ := History.concat_eq_append_cons_iff.1 eq
    · exact ⟨rfl, first⟩
    · simp at first

/-! ## A stream that goes on -/

/-- The endpoint may still send on this stream. -/
def OpenAt (c : Push) (place : Nat) : Prop :=
  ∃ stream, c.streams[place]? = some stream ∧ stream.closed = false ∧ stream.exhausted = false

variable {place : Nat}

theorem OpenAt.congr (h : c.OpenAt place) (streams : d.streams[place]? = c.streams[place]?) :
    d.OpenAt place := by
  rwa [OpenAt, streams]

theorem OpenAt.modify (h : c.OpenAt place) {q : Nat} {f : Stream → Stream}
    (keeps : q = place → ∀ stream, (f stream).closed = stream.closed ∧
      (f stream).exhausted = stream.exhausted) (streams : d.streams = c.streams.modify q f) :
    d.OpenAt place := by
  obtain ⟨stream, at_place, open_, going⟩ := h
  by_cases here : q = place
  · refine ⟨f stream, ?_, (keeps here stream).1.trans open_, (keeps here stream).2.trans going⟩
    rw [streams, List.getElem?_modify, at_place]
    exact congrArg some (if_pos here)
  · refine ⟨stream, ?_, open_, going⟩
    rw [streams, List.getElem?_modify, at_place]
    exact congrArg some (if_neg here)

theorem OpenAt.append (h : c.OpenAt place) {stream : Stream}
    (streams : d.streams = c.streams ++ [stream]) : d.OpenAt place := by
  obtain ⟨own, at_place, going⟩ := h
  refine ⟨own, ?_, going⟩
  rw [streams, List.getElem?_append_left (List.getElem?_eq_some_iff.1 at_place).1, at_place]

theorem subscribeNext_streams (c : Push) (targets : List Target) :
    (c.subscribeNext targets).1.streams = c.streams := by
  cases targets with
  | nil => exact (closeIfExhausted_kept { c with phase := .live }).1
  | cons => rfl

theorem OpenAt.takeUp (h : c.OpenAt place) (q : Nat) : (c.takeUp q).1.OpenAt place := by
  unfold Push.takeUp
  split
  · exact h
  · rename_i other at_q
    obtain ⟨stream, at_place, open_, going⟩ := h
    have set {changed : Stream} {d : Push} (streams : d.streams = c.streams.set q changed)
        (keeps : q = place → changed.closed = false ∧ changed.exhausted = false) :
        d.OpenAt place := by
      by_cases here : q = place
      · refine ⟨changed, ?_, keeps here⟩
        rw [streams, here, List.getElem?_set_self (List.getElem?_eq_some_iff.1 at_place).1]
      · exact ⟨stream, by rw [streams, List.getElem?_set_ne here, at_place], open_, going⟩
    have same (here : q = place) : other = stream :=
      Option.some.inj (at_q.symm.trans (here ▸ at_place))
    split
    · exact set rfl fun here => by rw [same here]; exact ⟨open_, going⟩
    · split
      · rename_i ends
        refine set (closeIfExhausted_kept _).1 fun here => ?_
        simp [same here, open_] at ends
      · exact ⟨stream, at_place, open_, going⟩

theorem OpenAt.step (h : c.OpenAt place) (kept : input ≠ .close place) :
    (c.step input).1.OpenAt place := by
  cases input with
  | arrive q n =>
    refine h.modify (f := receive n) (fun _ stream => ⟨?_, receive_exhausted n stream⟩) rfl
    unfold receive
    split <;> rfl
  | close q =>
    refine h.modify (q := q) (f := fun stream => { stream with closed := true }) ?_ rfl
    rintro rfl
    exact absurd rfl kept
  | next q =>
    by_cases phase : c.phase = .live
    · simpa [Push.step, phase] using h.takeUp q
    · simpa [Push.step, phase] using h
  | subscribed result =>
    simp only [Push.step]
    split
    · refine OpenAt.congr ?_ (congrArg (·[place]?) (subscribeNext_streams _ _))
      exact h.append rfl
    · exact h.congr (congrArg (·[place]?) (release_kept ..).1)
    · exact h
  | connected result =>
    simp only [Push.step]
    split
    · exact h.congr (congrArg (·[place]?) (subscribeNext_streams _ _))
    · exact h.congr (congrArg (·[place]?) (release_kept ..).1)
    · exact h
  | released =>
    simp only [Push.step]
    split
    · exact h.congr (congrArg (·[place]?) (release_kept ..).1)
    · exact h
  | start =>
    simp only [Push.step]
    split
    · exact h
    · exact h
  | cancel => exact h
  | look =>
    simp only [Push.step]
    split
    · exact h.congr (congrArg (·[place]?) (release_kept ..).1)
    · exact h

theorem OpenAt.run (h : c.OpenAt place) (inputs : List Input) (kept : .close place ∉ inputs) :
    (c.run inputs).1.OpenAt place := by
  induction inputs generalizing c with
  | nil => exact h
  | cons input rest ih =>
    obtain ⟨first, rest⟩ : input ≠ .close place ∧ .close place ∉ rest := by
      simpa [eq_comm] using kept
    exact ih (h.step first) rest

/-- Two accounts are watched; the endpoint ends the first stream, and the channel takes this up. -/
def firstEnded : List Input :=
  [.start, .connected (.ok ()), .subscribed (.ok 1), .subscribed (.ok 2), .close 0, .next 0]

/-- The stream of the first account has ended, and the channel never says so, whatever comes on
the second one as long as it goes on. -/
theorem dead_stream_unreported (first second : Address) (later : List Input)
    (open_ : .close 1 ∉ later) (uncancelled : .cancel ∉ later) :
    ((run { filter := .accounts [first, second] } firstEnded).1.streams.map
      Stream.exhausted = [true, false]) ∧
    .closed ∉ events (run { filter := .accounts [first, second] } (firstEnded ++ later)).2 := by
  refine ⟨rfl, fun closed => ?_⟩
  have quiet : .cancel ∉ firstEnded ++ later := by simp [firstEnded, uncancelled]
  obtain ⟨-, all⟩ := ((closed_iff_exhausted _ _ quiet).1).1 closed
  have begun : (run { filter := .accounts [first, second] } firstEnded).1.OpenAt 1 :=
    ⟨_, rfl, rfl, rfl⟩
  obtain ⟨stream, at_place, -, going⟩ := begun.run later open_
  rw [run, runInputs_append] at all
  simp [all stream (List.mem_of_getElem? at_place)] at going

end LedgerWatch.Push
