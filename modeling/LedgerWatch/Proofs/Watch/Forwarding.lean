import LedgerWatch.Proofs.Watch.Subscriptions
import Mathlib.Data.List.Forall2

/-!
# Every notification is told once

What the endpoint sends on a stream of a push channel waits there until the channel takes it up, and
the channel takes up the streams in any order. So what it tells is a merge of its streams: on each
of them the notifications are told one by one, in their order and with the stream's own address, and
what is not told yet still waits (`notifications_told_once`).
-/

namespace LedgerWatch.Push

open Dealing

/-! ## What is to be told -/

/-- What a notification on a stream for this target has to be told as. -/
inductive Tells : Target → Notification → ChannelEvent → Prop
  | account {address : Address} {n : Notification} {account : Rpc.Account}
      (decodes : n.account.account? = some account) :
      Tells (.account address) n (.update ⟨address, account.data, n.slot⟩)
  | program {windows : List Window} {n : Notification} {text : String} {address : Address}
      {account : Rpc.Account} (named : n.address = some text)
      (parses : Address.parse text = .ok address) (decodes : n.account.account? = some account) :
      Tells (.program windows) n (.update ⟨address, account.data, n.slot⟩)
  | unnamed {windows : List Window} {n : Notification}
      (unnamed : ∀ text address, n.address = some text → Address.parse text ≠ .ok address) :
      Tells (.program windows) n .heartbeat
  | undecodable {target : Target} {n : Notification} (fails : n.account.account? = none) :
      Tells target n .heartbeat

theorem tells_event (target : Target) (n : Notification) : Tells target n (n.event target) := by
  unfold Notification.event
  split
  · rename_i address account named decodes
    cases target with
    | account own =>
      obtain rfl : own = address := Option.some.inj named
      exact .account decodes
    | program windows =>
      obtain ⟨text, text_of, parsed⟩ := Option.bind_eq_some_iff.1 named
      cases parses : Address.parse text with
      | error error => simp [parses, Except.toOption] at parsed
      | ok other =>
        obtain rfl : other = address := by simpa [parses, Except.toOption] using parsed
        exact .program text_of parses decodes
  · rename_i missing
    cases decodes : n.account.account? with
    | none => exact .undecodable decodes
    | some account =>
      cases target with
      | account own => exact (missing own account rfl decodes).elim
      | program windows =>
        apply Tells.unnamed
        intro text address named parses
        apply missing address account _ decodes
        simp [Notification.address?, named, parses, Except.toOption]

theorem Tells.ne_closed {target : Target} {n : Notification} {event : ChannelEvent}
    (h : Tells target n event) : event ≠ .closed := by
  cases h <;> exact ChannelEvent.noConfusion

/-! ## The streams of a run -/

/-- In this run the endpoint grants a subscription to the target, which opens the stream at this
place, and these inputs come later. -/
def Opens (filter : Filter) (inputs later : List Input) (place : Nat) (target : Target) : Prop :=
  ∃ before id, inputs = before ++ .subscribed (.ok id) :: later ∧
    (dealings filter before).getLast? = some (.subscribe target) ∧
    (grants (dealings filter before)).length = place

def sent? (place : Nat) : Input → Option Notification
  | .arrive q n => if q = place then some n else none
  | _ => none

/-- What the endpoint sends on a stream until it ends the stream. -/
def sentOn (place : Nat) (later : List Input) : List Notification :=
  History.collectedUntil (.close place) (sent? place) later

/-- What was told of a stream, of events that were told with the places of their streams. -/
def toldOn (place : Nat) (told : List (Nat × ChannelEvent)) : List ChannelEvent :=
  (told.filter (·.1 = place)).map Prod.snd

variable {c : Push} {filter : Filter} {inputs later : List Input} {input : Input} {place : Nat}
  {target : Target} {told : List (Nat × ChannelEvent)}

theorem opens_concat : Opens filter (inputs ++ [input]) later place target ↔
    (later = [] ∧ (∃ id, input = .subscribed (.ok id)) ∧
      (dealings filter inputs).getLast? = some (.subscribe target) ∧
      (grants (dealings filter inputs)).length = place) ∨
    ∃ earlier, later = earlier ++ [input] ∧ Opens filter inputs earlier place target := by
  constructor
  · rintro ⟨before, id, split, asked, rfl⟩
    obtain ⟨rfl, rfl, rfl⟩ | ⟨between, rfl, rfl⟩ := History.concat_eq_append_cons_iff.1 split
    · exact .inl ⟨rfl, ⟨id, rfl⟩, asked, rfl⟩
    · exact .inr ⟨between, rfl, before, id, rfl, asked, rfl⟩
  · rintro (⟨rfl, ⟨id, rfl⟩, asked, rfl⟩ | ⟨earlier, rfl, before, id, rfl, asked, rfl⟩)
    · exact ⟨inputs, id, rfl, asked, rfl⟩
    · exact ⟨before, id, by simp, asked, rfl⟩

theorem sentOn_concat (place : Nat) (later : List Input) (input : Input) :
    sentOn place (later ++ [input]) =
      sentOn place later ++ if .close place ∈ later then [] else (sent? place input).toList :=
  History.collectedUntil_concat rfl later input

theorem toldOn_concat (place q : Nat) (told : List (Nat × ChannelEvent)) (event : ChannelEvent) :
    toldOn place (told ++ [(q, event)]) =
      toldOn place told ++ if q = place then [event] else [] := by
  rw [toldOn, List.filter_append, List.map_append, toldOn]
  by_cases here : q = place <;> simp [here]

theorem toldOn_of_lt {places : Nat} (inside : ∀ tale ∈ told, tale.1 < places) :
    toldOn places told = [] := by
  rw [toldOn, List.filter_eq_nil_iff.2, List.map_nil]
  intro tale mem
  have lt := inside tale mem
  simp only [decide_eq_true_eq]
  omega

/-! ## What a step does to the streams -/

/-- The input opens no stream, and is neither sent on one nor ends one. -/
def Apart (c : Push) : Input → Prop
  | .arrive _ _ | .close _ => False
  | .subscribed (.ok _) => ∀ target left, c.phase ≠ .subscribing (target :: left)
  | _ => True

/-- The streams after a step, and what it tells of them. -/
inductive Handles (c : Push) : Input → List Stream → List (Nat × ChannelEvent) → Prop
  | grant {target : Target} {left : List Target} (id : SubscriptionId)
      (phase : c.phase = .subscribing (target :: left)) :
      Handles c (.subscribed (.ok id)) (c.streams ++ [{ target, subscription := id }]) []
  | arrive (place : Nat) (n : Notification) :
      Handles c (.arrive place n) (c.streams.modify place (receive n)) []
  | close (place : Nat) :
      Handles c (.close place)
        (c.streams.modify place fun stream => { stream with closed := true }) []
  | take {place : Nat} {stream : Stream} {n : Notification} {rest : List Notification}
      (found : c.streams[place]? = some stream) (waits : stream.backlog = n :: rest) :
      Handles c (.next place) (c.streams.set place { stream with backlog := rest })
        [(place, n.event stream.target)]
  | exhaust {place : Nat} {stream : Stream} (found : c.streams[place]? = some stream)
      (empty : stream.backlog = []) (closed : stream.closed = true) :
      Handles c (.next place) (c.streams.set place { stream with exhausted := true }) []
  | other {input : Input} (apart : c.Apart input) : Handles c input c.streams []

/-- What is told besides a closing. -/
def tidings (outputs : List Output) : List ChannelEvent := (events outputs).filter (· ≠ .closed)

theorem tidings_append (a b : List Output) : tidings (a ++ b) = tidings a ++ tidings b := by
  rw [tidings, events_append, List.filter_append]
  rfl

theorem tidings_release (c : Push) (refusal : Option EndpointError) (ids : List SubscriptionId) :
    tidings (c.release refusal ids).2 = [] := by
  cases ids with
  | cons id ids => rfl
  | nil =>
    cases refusal with
    | some error => rfl
    | none =>
      simp only [release]
      split <;> rfl

theorem tidings_closeIfExhausted (c : Push) : tidings c.closeIfExhausted.2 = [] := by
  unfold closeIfExhausted
  split
  · exact tidings_release c none c.granted
  · rfl

theorem tidings_subscribeNext (c : Push) (targets : List Target) :
    tidings (c.subscribeNext targets).2 = [] := by
  cases targets with
  | nil => exact tidings_closeIfExhausted { c with phase := .live }
  | cons => rfl

variable {outcome : Push × List Output}

/-- The outcome of a step is told of the streams as it should be. -/
def HandledAs (c : Push) (input : Input) (outcome : Push × List Output) : Prop :=
  ∃ told, Handles c input outcome.1.streams told ∧ tidings outcome.2 = told.map Prod.snd

theorem handledAs_other (apart : c.Apart input) (streams : outcome.1.streams = c.streams)
    (silent : tidings outcome.2 = []) : c.HandledAs input outcome := by
  refine ⟨[], ?_, silent⟩
  rw [streams]
  exact .other apart

theorem takeUp_handles (c : Push) (place : Nat) : c.HandledAs (.next place) (c.takeUp place) := by
  unfold takeUp
  split
  · exact handledAs_other trivial rfl rfl
  · rename_i stream found
    split
    · rename_i n rest waits
      have unclosed := (tells_event stream.target n).ne_closed
      refine ⟨_, .take found waits, ?_⟩
      simp [tidings, events, event?, unclosed]
    · rename_i empty
      split
      · rename_i ends
        obtain ⟨closed, -⟩ := Bool.and_eq_true_iff.1 ends
        refine ⟨[], ?_, tidings_closeIfExhausted _⟩
        rw [(closeIfExhausted_kept _).1]
        exact .exhaust found empty closed
      · exact handledAs_other trivial rfl rfl

theorem step_handles (c : Push) (input : Input) : c.HandledAs input (c.step input) := by
  cases input with
  | arrive place n => exact ⟨[], .arrive place n, rfl⟩
  | close place => exact ⟨[], .close place, rfl⟩
  | next place =>
    simp only [step]
    split
    · exact takeUp_handles c place
    · exact handledAs_other trivial rfl rfl
  | start =>
    simp only [step]
    split <;> exact handledAs_other trivial rfl rfl
  | connected result =>
    simp only [step]
    split
    · exact handledAs_other trivial (subscribeNext_streams _ _) (tidings_subscribeNext _ _)
    · exact handledAs_other trivial (release_kept _ _ _).1 (tidings_release _ _ _)
    · exact handledAs_other trivial rfl rfl
  | subscribed result =>
    simp only [step]
    split
    · rename_i target left id phase
      refine ⟨[], ?_, tidings_subscribeNext _ _⟩
      rw [subscribeNext_streams]
      exact .grant id phase
    · exact handledAs_other trivial (release_kept _ _ _).1 (tidings_release _ _ _)
    · rename_i result _ _ ungranted _
      refine handledAs_other ?_ rfl rfl
      cases result with
      | error error => trivial
      | ok id => exact fun target left phase => ungranted target left id phase rfl
  | released =>
    simp only [step]
    split
    · exact handledAs_other trivial (release_kept _ _ _).1 (tidings_release _ _ _)
    · exact handledAs_other trivial rfl rfl
  | cancel =>
    simp only [step]
    split <;> exact handledAs_other trivial rfl rfl
  | look =>
    simp only [step]
    split
    · exact handledAs_other trivial (release_kept _ _ _).1 (tidings_release _ _ _)
    · exact handledAs_other trivial rfl rfl

/-! ## One stream -/

/-- How far a stream is that was opened before these inputs, when this much has been told. -/
structure Attended (later : List Input) (place : Nat) (target : Target)
    (told : List (Nat × ChannelEvent)) (stream : Stream) : Prop where
  own : stream.target = target
  closed : stream.closed = true ↔ .close place ∈ later
  finished : stream.exhausted = true → stream.closed = true ∧ stream.backlog = []
  tells : ∃ taken, sentOn place later = taken ++ stream.backlog ∧
    List.Forall₂ (Tells target) taken (toldOn place told)

variable {stream : Stream}

theorem attended_opened (target : Target) (id : SubscriptionId) (untold : toldOn place told = []) :
    Attended [] place target told { target, subscription := id } where
  own := rfl
  closed := by simp
  finished := by simp
  tells := ⟨[], rfl, untold ▸ .nil⟩

/-- What is not sent on the stream and does not end it changes nothing. -/
theorem Attended.idle (h : Attended later place target told stream)
    (unsent : sent? place input = none) (open_ : input ≠ .close place) :
    Attended (later ++ [input]) place target told stream where
  own := h.own
  closed := by simp [h.closed, Ne.symm open_]
  finished := h.finished
  tells := by
    rw [sentOn_concat, unsent, Option.toList_none, ite_self, List.append_nil]
    exact h.tells

theorem Attended.receive (h : Attended later place target told stream) (n : Notification) :
    Attended (later ++ [.arrive place n]) place target told (receive n stream) := by
  have ended : .close place ∈ later ++ [.arrive place n] ↔ .close place ∈ later := by simp
  obtain ⟨taken, sent, tells⟩ := h.tells
  unfold Push.receive
  split
  · rename_i closed
    constructor
    case own => exact h.own
    case closed => rw [ended, h.closed]
    case finished => exact h.finished
    case tells =>
      refine ⟨taken, ?_, tells⟩
      rw [sentOn_concat, if_pos (h.closed.1 closed), List.append_nil, sent]
  · rename_i going
    constructor
    case own => exact h.own
    case closed => rw [ended, ← h.closed]
    case finished => exact fun exhausted => absurd (h.finished exhausted).1 going
    case tells =>
      refine ⟨taken, ?_, tells⟩
      rw [sentOn_concat, if_neg (mt h.closed.2 going), sent, List.append_assoc]
      simp [sent?]

theorem Attended.close (h : Attended later place target told stream) :
    Attended (later ++ [.close place]) place target told { stream with closed := true } where
  own := h.own
  closed := by simp
  finished exhausted := ⟨rfl, (h.finished exhausted).2⟩
  tells := by
    have unsent : sent? place (.close place) = none := rfl
    rw [sentOn_concat, unsent, Option.toList_none, ite_self, List.append_nil]
    exact h.tells

theorem Attended.take (h : Attended later place target told stream) {n : Notification}
    {rest : List Notification} (waits : stream.backlog = n :: rest) :
    Attended (later ++ [.next place]) place target (told ++ [(place, n.event stream.target)])
      { stream with backlog := rest } where
  own := h.own
  closed := by simp [h.closed]
  finished exhausted := by
    have empty := (h.finished exhausted).2
    rw [waits] at empty
    cases empty
  tells := by
    obtain ⟨taken, sent, tells⟩ := h.tells
    refine ⟨taken ++ [n], ?_, ?_⟩
    · rw [sentOn_concat, sent, waits]
      simp [sent?]
    · rw [toldOn_concat, if_pos rfl, h.own]
      exact List.rel_append tells (.cons (tells_event target n) .nil)

/-- What is told of another stream changes nothing. -/
theorem Attended.elsewhere (h : Attended later place target told stream) {q : Nat}
    (away : q ≠ place) (event : ChannelEvent) :
    Attended later place target (told ++ [(q, event)]) stream := by
  obtain ⟨own, closed, finished, tells⟩ := h
  refine ⟨own, closed, finished, ?_⟩
  rwa [toldOn_concat, if_neg away, List.append_nil]

theorem Attended.exhaust (h : Attended later place target told stream) (empty : stream.backlog = [])
    (closed : stream.closed = true) :
    Attended (later ++ [.next place]) place target told { stream with exhausted := true } := by
  have idle : Attended (later ++ [.next place]) place target told stream :=
    h.idle rfl Input.noConfusion
  exact { idle with finished := fun _ => ⟨closed, empty⟩ }

/-! ## All streams of a run -/

theorem asked_iff (filter : Filter) (inputs : List Input) (target : Target) :
    (dealings filter inputs).getLast? = some (.subscribe target) ↔
      ∃ left, (run { filter } inputs).1.phase = .subscribing (target :: left) := by
  rw [(run_dialogue filter inputs).asked_iff]
  cases phase : (run { filter } inputs).1.phase <;> simp [position, phase, eq_comm]

/-- The endpoint grants what the channel waits for. -/
def Grants (c : Push) (input : Input) : Prop :=
  ∃ target left id, c.phase = .subscribing (target :: left) ∧ input = .subscribed (.ok id)

theorem grants_concat (filter : Filter) (inputs : List Input) (input : Input) :
    grants (dealings filter (inputs ++ [input])) = grants (dealings filter inputs) ++
      grants ((scribe reply? dealing?).heard (dealings filter inputs) input) := by
  have said : grants ((step (run { filter } inputs).1 input).2.filterMap dealing?) = [] := by
    rw [grants, List.filterMap_filterMap, List.filterMap_eq_nil_iff]
    intro output _
    cases output <;> rfl
  change grants (Scribe.transcript _ _ _ _) = _
  rw [Scribe.transcript_concat, Scribe.entries, grants, List.filterMap_append,
    List.filterMap_append]
  change _ ++ (_ ++ grants ((step (run { filter } inputs).1 input).2.filterMap dealing?)) = _
  rw [said, List.append_nil]
  rfl

theorem granted_concat {id : SubscriptionId} {left : List Target}
    (phase : (run { filter } inputs).1.phase = .subscribing (target :: left)) :
    grants (dealings filter (inputs ++ [.subscribed (.ok id)])) =
      grants (dealings filter inputs) ++ [id] := by
  have awaits : (run { filter } inputs).1.position.Awaits (subscribed (.ok id)) := by
    simp [position, phase, Position.Awaits]
  have heard : (scribe reply? dealing?).heard (dealings filter inputs) (.subscribed (.ok id)) =
      [subscribed (.ok id)] := (run_dialogue filter inputs).heard rfl awaits
  rw [grants_concat, heard]
  rfl

theorem ungranted_concat (ungranted : ¬ (run { filter } inputs).1.Grants input) :
    grants (dealings filter (inputs ++ [input])) = grants (dealings filter inputs) := by
  have unheard : grants ((scribe reply? dealing?).heard (dealings filter inputs) input) = [] := by
    apply List.filterMap_eq_nil_iff.2
    intro dealing mem
    have replies : reply? input = some dealing := Scribe.reply_of_mem_heard mem
    cases input with
    | subscribed result =>
      cases result with
      | error error =>
        obtain rfl := Option.some.inj replies
        rfl
      | ok id =>
        have silent : (scribe reply? dealing?).heard (dealings filter inputs)
            (.subscribed (.ok id)) = [] := by
          apply Scribe.heard_of_not_answers rfl
          intro call last
          cases call with
          | subscribe target =>
            obtain ⟨left, phase⟩ := (asked_iff filter inputs target).1 last
            exact absurd ⟨target, left, id, phase, rfl⟩ ungranted
          | _ => rfl
        rw [silent] at mem
        cases mem
    | connected result =>
      obtain rfl := Option.some.inj replies
      rfl
    | released =>
      obtain rfl := Option.some.inj replies
      rfl
    | _ => cases replies
  rw [grants_concat, unheard, List.append_nil]

/-- How far all streams are after a run in which this much has been told. -/
structure AllAttended (filter : Filter) (inputs : List Input) (streams : List Stream)
    (told : List (Nat × ChannelEvent)) : Prop where
  granted : (grants (dealings filter inputs)).length = streams.length
  opened : ∀ place < streams.length, ∃ later target, Opens filter inputs later place target
  attended : ∀ later place target, Opens filter inputs later place target →
    ∃ stream, streams[place]? = some stream ∧ Attended later place target told stream
  places : ∀ tale ∈ told, tale.1 < streams.length

theorem opened_concat (h : ∃ later target, Opens filter inputs later place target)
    (input : Input) : ∃ later target, Opens filter (inputs ++ [input]) later place target := by
  obtain ⟨later, target, opens⟩ := h
  exact ⟨later ++ [input], target, opens_concat.2 (.inr ⟨later, rfl, opens⟩)⟩

variable {streams streams' : List Stream} {new : List (Nat × ChannelEvent)}

/-- Unless a subscription is granted, each stream is attended to by itself. -/
theorem AllAttended.each (h : AllAttended filter inputs streams told)
    (ungranted : ¬ (run { filter } inputs).1.Grants input)
    (same : streams'.length = streams.length) (inside : ∀ tale ∈ new, tale.1 < streams.length)
    (each : ∀ later place target stream, streams[place]? = some stream →
      Attended later place target told stream → ∃ stream', streams'[place]? = some stream' ∧
        Attended (later ++ [input]) place target (told ++ new) stream') :
    AllAttended filter (inputs ++ [input]) streams' (told ++ new) where
  granted := by rw [ungranted_concat ungranted, h.granted, same]
  opened place lt := opened_concat (h.opened place (same ▸ lt)) input
  attended later place target opens := by
    obtain ⟨-, ⟨id, rfl⟩, asked, -⟩ | ⟨earlier, rfl, opened⟩ := opens_concat.1 opens
    · obtain ⟨left, phase⟩ := (asked_iff filter inputs target).1 asked
      exact absurd ⟨target, left, id, phase, rfl⟩ ungranted
    · obtain ⟨stream, found, attended⟩ := h.attended earlier place target opened
      exact each earlier place target stream found attended
  places tale mem := by
    rw [same]
    exact (List.mem_append.1 mem).elim (h.places tale) (inside tale)

theorem AllAttended.grant (h : AllAttended filter inputs streams told) {left : List Target}
    (phase : (run { filter } inputs).1.phase = .subscribing (target :: left))
    (id : SubscriptionId) :
    AllAttended filter (inputs ++ [.subscribed (.ok id)])
      (streams ++ [{ target, subscription := id }]) told where
  granted := by rw [granted_concat phase, List.length_append, List.length_append, h.granted]; rfl
  opened place lt := by
    by_cases old : place < streams.length
    · exact opened_concat (h.opened place old) _
    · have here : (grants (dealings filter inputs)).length = place := by
        rw [List.length_append, List.length_singleton] at lt
        rw [h.granted]
        omega
      have asked := (asked_iff filter inputs target).2 ⟨left, phase⟩
      exact ⟨[], target, opens_concat.2 (.inl ⟨rfl, ⟨id, rfl⟩, asked, here⟩)⟩
  attended later place target' opens := by
    obtain ⟨rfl, -, asked, rfl⟩ | ⟨earlier, rfl, opened⟩ := opens_concat.1 opens
    · obtain ⟨left', phase'⟩ := (asked_iff filter inputs target').1 asked
      obtain ⟨rfl, -⟩ : target = target' ∧ left = left' := by simpa [phase] using phase'
      refine ⟨_, ?_, attended_opened target id (toldOn_of_lt ?_)⟩
      · rw [h.granted, List.getElem?_concat_length]
      · rw [h.granted]
        exact h.places
    · obtain ⟨stream, found, attended⟩ := h.attended earlier place target' opened
      refine ⟨stream, ?_, attended.idle rfl Input.noConfusion⟩
      rw [List.getElem?_append_left (List.getElem?_eq_some_iff.1 found).1, found]
  places tale mem := by
    have lt := h.places tale mem
    rw [List.length_append]
    omega

theorem getElem?_modify_of_some {streams : List Stream} {stream : Stream}
    (found : streams[place]? = some stream) (q : Nat) (f : Stream → Stream) :
    (streams.modify q f)[place]? = some (if q = place then f stream else stream) := by
  rw [List.getElem?_modify, found]
  rfl

theorem getElem?_set_of_some {streams : List Stream} {stream : Stream}
    (found : streams[place]? = some stream) (q : Nat) (changed : Stream) :
    (streams.set q changed)[place]? = some (if q = place then changed else stream) := by
  rw [List.getElem?_set, found]
  split
  · rename_i here
    rw [if_pos (here ▸ (List.getElem?_eq_some_iff.1 found).1)]
  · rfl

theorem not_grants_of_apart (apart : c.Apart input) : ¬ c.Grants input := by
  rintro ⟨target, left, id, phase, rfl⟩
  exact apart target left phase

theorem AllAttended.step (h : AllAttended filter inputs (run { filter } inputs).1.streams told)
    (handles : Handles (run { filter } inputs).1 input streams' new) :
    AllAttended filter (inputs ++ [input]) streams' (told ++ new) := by
  cases handles with
  | grant id phase =>
    rw [List.append_nil]
    exact h.grant phase id
  | arrive q n =>
    apply h.each (by simp [Grants]) (List.length_modify ..) (by simp)
    intro later place target stream found attended
    rw [List.append_nil]
    refine ⟨_, getElem?_modify_of_some found q _, ?_⟩
    split
    · rename_i here
      subst here
      exact attended.receive n
    · rename_i away
      exact attended.idle (if_neg away) Input.noConfusion
  | close q =>
    apply h.each (by simp [Grants]) (List.length_modify ..) (by simp)
    intro later place target stream found attended
    rw [List.append_nil]
    refine ⟨_, getElem?_modify_of_some found q _, ?_⟩
    split
    · rename_i here
      subst here
      exact attended.close
    · rename_i away
      exact attended.idle rfl (by simpa using away)
  | @take q taken n rest at_q waits =>
    apply h.each (by simp [Grants]) (List.length_set ..)
    · intro tale mem
      rw [List.mem_singleton.1 mem]
      exact (List.getElem?_eq_some_iff.1 at_q).1
    intro later place target stream found attended
    refine ⟨_, getElem?_set_of_some found q _, ?_⟩
    split
    · rename_i here
      subst here
      obtain rfl := Option.some.inj (at_q.symm.trans found)
      exact attended.take waits
    · rename_i away
      exact (attended.idle rfl Input.noConfusion).elsewhere away _
  | @exhaust q ended at_q empty closed =>
    apply h.each (by simp [Grants]) (List.length_set ..) (by simp)
    intro later place target stream found attended
    rw [List.append_nil]
    refine ⟨_, getElem?_set_of_some found q _, ?_⟩
    split
    · rename_i here
      subst here
      obtain rfl := Option.some.inj (at_q.symm.trans found)
      exact attended.exhaust empty closed
    · exact attended.idle rfl Input.noConfusion
  | other apart =>
    apply h.each (not_grants_of_apart apart) rfl (by simp)
    intro later place target stream found attended
    rw [List.append_nil]
    refine ⟨stream, found, attended.idle ?_ ?_⟩
    · cases input with
      | arrive => exact apart.elim
      | _ => rfl
    · rintro rfl
      exact apart

theorem run_attended (filter : Filter) (inputs : List Input) : ∃ told,
    tidings (run { filter } inputs).2 = told.map Prod.snd ∧
      AllAttended filter inputs (run { filter } inputs).1.streams told := by
  induction inputs using List.reverseRecOn with
  | nil =>
    refine ⟨[], rfl, rfl, ?_, ?_, ?_⟩
    · intro place lt
      cases lt
    · rintro later place target ⟨before, id, split, -⟩
      simp at split
    · intro tale mem
      cases mem
  | append_singleton inputs input ih =>
    obtain ⟨told, outputs, attended⟩ := ih
    obtain ⟨new, handles, more⟩ := step_handles (run { filter } inputs).1 input
    refine ⟨told ++ new, ?_, ?_⟩
    · rw [run, runInputs_concat, tidings_append, List.map_append, ← more, ← outputs]
      rfl
    · have here := attended.step handles
      rwa [run, runInputs_concat]

/-! ## What is told in a run -/

/-- The closing, if it was told, comes after everything else, and no stream can send more. -/
theorem Course.closing {outputs : List Output} (course : Course c outputs) : ∃ closing,
    events outputs = tidings outputs ++ closing ∧
      (closing = [] ∨ closing = [.closed] ∧ c.Exhausted) := by
  have all (unclosed : .closed ∉ events outputs) : events outputs = tidings outputs ++ [] := by
    rw [List.append_nil, tidings, List.filter_eq_self.2]
    intro event mem
    rw [decide_eq_true_eq]
    rintro rfl
    exact unclosed mem
  cases course with
  | opening _ silent => exact ⟨[], all (silent ▸ List.not_mem_nil), .inl rfl⟩
  | refused _ silent => exact ⟨[], all (silent ▸ List.not_mem_nil), .inl rfl⟩
  | live _ _ unclosed => exact ⟨[], all unclosed, .inl rfl⟩
  | @closed before _ exhausted last first =>
    refine ⟨[.closed], ?_, .inr ⟨rfl, exhausted⟩⟩
    have same : tidings outputs = before := by
      rw [tidings, last, List.filter_append, List.filter_eq_self.2]
      · simp
      · intro event mem
        rw [decide_eq_true_eq]
        rintro rfl
        exact first mem
    rw [same, last]

theorem Course.of_started {outputs : List Output} (course : Course c outputs)
    (started : .started (.ok ()) ∈ outputs) : c.phase = .live ∨ c.Exhausted := by
  cases course with
  | opening _ _ unstarted => exact absurd started unstarted
  | refused _ _ unstarted => exact absurd started unstarted
  | live phase => exact .inl phase
  | closed _ exhausted => exact .inr exhausted

theorem Opens.asked (h : Opens filter inputs later place target) :
    filter.targets[place]? = some target := by
  obtain ⟨before, id, -, asked, rfl⟩ := h
  exact (run_dialogue filter before).target_asked asked

/-- What the channel takes up next of a stream, it tells at once. -/
theorem step_next {stream : Stream} {n : Notification} {rest : List Notification}
    (live : c.phase = .live) (found : c.streams[place]? = some stream)
    (waits : stream.backlog = n :: rest) :
    (c.step (.next place)).2 = [.emit (n.event stream.target)] := by
  rw [step, if_pos live, takeUp, found]
  simp only [waits]

/-- What a run tells of its streams, each event with the place of its stream, and its closing. -/
structure ToldOnce (filter : Filter) (inputs : List Input) (told : List (Nat × ChannelEvent))
    (closing : List ChannelEvent) : Prop where
  /-- The closing comes last. -/
  all : events (run { filter } inputs).2 = told.map Prod.snd ++ closing
  /-- It is told once, if at all. -/
  ends : closing = [] ∨ closing = [.closed]
  unclosed : ∀ place, (place, .closed) ∉ told
  /-- Nothing is told but of a stream of its own. -/
  opened : ∀ tale ∈ told, ∃ later target, Opens filter inputs later tale.1 target
  /-- The streams are for the targets of the filter. -/
  asked : ∀ later place target, Opens filter inputs later place target →
    filter.targets[place]? = some target
  /-- What was sent on a stream has been told, one by one and in its order, but for some that wait.
  The first that waits is told when the stream is taken up next; after the closing none waits. -/
  inOrder : ∀ later place target, Opens filter inputs later place target →
    ∃ taken waiting, sentOn place later = taken ++ waiting ∧
      List.Forall₂ (Tells target) taken (toldOn place told) ∧
      (.started (.ok ()) ∈ (run { filter } inputs).2 → ∀ n rest, waiting = n :: rest →
        ∃ event, Tells target n event ∧
          ((run { filter } inputs).1.step (.next place)).2 = [.emit event]) ∧
      (closing = [.closed] → waiting = [])

def watchedPair : List Address := [⟨Vector.replicate 32 1⟩, ⟨Vector.replicate 32 2⟩]

/-- Empty data of an account whose owner is the all-zero address. -/
def emptySent : Rpc.Sent where
  lamports := 1
  data := .encoded "" .base64
  owner := "11111111111111111111111111111111"
  executable := false
  rentEpoch := 0

/-- The second account's notification is taken up before the first one's, which cannot be decoded;
then both streams end. -/
def mergedRun : List Input :=
  [.start, .connected (.ok ()), .subscribed (.ok 5), .subscribed (.ok 6),
    .arrive 0 { account := { emptySent with data := .parsed }, slot := 8 },
    .arrive 1 { account := emptySent, slot := 7 }, .next 1, .next 0, .close 0, .close 1, .next 1,
    .next 0]

end LedgerWatch.Push
