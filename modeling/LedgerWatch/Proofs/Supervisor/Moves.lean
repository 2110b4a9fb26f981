import LedgerWatch.Proofs.History
import LedgerWatch.Proofs.Supervisor.Channels
import Mathlib.Data.List.Induction

/-!
# What one event can do to one pair

`Moves s p pair e later` lists the ways in which an event changes the pair `p` of a supervisor, as
far as its state, its slot, its watchdog and its count of replacements go. `Transition.moves` says
that a step is always one of them, so that a law about one pair over a run needs one case for each
way. `Since` says of a run that something happened in it and something else did not happen later.
-/

namespace LedgerWatch.Supervisor

/-! ## One pair -/

/-- Nothing changed but the pair's line, its notice and the time of its next tick. -/
structure Rests (pair later : Pair) : Prop where
  state : later.state = pair.state
  watchdog : later.watchdog = pair.watchdog
  channel : later.channel = pair.channel
  total : later.total = pair.total
  cancelled : later.cancelled = pair.cancelled
  lastEvent : later.lastEvent = pair.lastEvent
  patience : later.patience = pair.patience
  consecutive : later.consecutive = pair.consecutive

inductive Moves (s : Supervisor) (p : PairId) (pair : Pair) : Event → Pair → Prop
  | rests {e later} (same : Rests pair later) : Moves s p pair e later
  | ends {e later} (finished : later.cancelled = true) (total : later.total = pair.total)
      (queued : later.watchdog = .queued → pair.watchdog = .queued) : Moves s p pair e later
  | hears {c event} (own : s.owner? c = some p) (gate : pair.gateOpen = true)
      (news : event ≠ .closed) : Moves s p pair (.deliver c event) (pair.heard s.now)
  | closes {c} (own : s.owner? c = some p) (gate : pair.gateOpen = true) :
      Moves s p pair (.deliver c .closed) pair.closing
  | queues {e woken line} (wakes : Wakes s p pair e woken)
      (needed : needsReplacement pair s.now = true) (busy : pair.line ≠ []) :
      Moves s p pair e { stall woken with line, watchdog := .queued }
  | begins {e ready watchdog} (turn : GetsTurn s p pair e ready) (live : pair.cancelled = false)
      (work : (∃ old, watchdog = .stopping old) ∨ ∃ new, watchdog = .starting new) :
      Moves s p pair e (replacing ready watchdog)
  | opens {id : CallId} {c canStall} (unborn : pair.watchdog = .unborn)
      (call : s.calls[id]? = some (.starting p c)) :
      Moves s p pair (.handshake c canStall (.ok ())) (s.openedPair pair c canStall)
  | replaced {c canStall} (watchdog : pair.watchdog = .starting c) :
      Moves s p pair (.handshake c canStall (.ok ())) (s.replacedPair pair c)
  | notReplaced {c canStall error} (watchdog : pair.watchdog = .starting c) :
      Moves s p pair (.handshake c canStall (.error error))
        { pair with watchdog := .idle, line := pair.line.tail }
  | exchanges {c new} (watchdog : pair.watchdog = .stopping c) :
      Moves s p pair (.stopped c) { pair with watchdog := .starting new }

variable {s t : Supervisor} {p q : PairId} {pair : Pair} {e : Event}

theorem rests_refl (pair : Pair) : Rests pair pair := ⟨rfl, rfl, rfl, rfl, rfl, rfl, rfl, rfl⟩

theorem Wakes.rests {woken : Pair} (wakes : Wakes s p pair e woken) : Rests pair woken := by
  cases wakes <;> exact ⟨rfl, rfl, rfl, rfl, rfl, rfl, rfl, rfl⟩

theorem GetsTurn.same {ready : Pair} (turn : GetsTurn s p pair e ready) :
    ready.total = pair.total ∧ ready.lastEvent = pair.lastEvent ∧
      ready.patience = pair.patience := by
  cases turn with
  | atOnce wakes => exact ⟨wakes.rests.total, wakes.rests.lastEvent, wakes.rests.patience⟩
  | waited => exact ⟨rfl, rfl, rfl⟩

theorem moves_set {other changed : Pair} (at_q : s.pairs[q]? = some other)
    (pairs : t.pairs = s.pairs.set q changed) (moves : q = p → Moves s p other e changed)
    (at_p : s.pairs[p]? = some pair) :
    ∃ later, t.pairs[p]? = some later ∧ Moves s p pair e later := by
  by_cases same : q = p
  · subst same
    cases at_q.symm.trans at_p
    exact ⟨changed, by rw [pairs, List.getElem?_set_self (List.getElem?_eq_some_iff.1 at_p).1],
      moves rfl⟩
  · exact ⟨pair, by rw [pairs, List.getElem?_set_ne same, at_p], .rests (rests_refl pair)⟩

/-- A pair that is left as it was or ended. -/
theorem moves_kept {before : Pair} (left : Rests pair before)
    (kept : ∃ later, t.pairs[p]? = some later ∧ before.Kept later) :
    ∃ later, t.pairs[p]? = some later ∧ Moves s p pair e later := by
  obtain ⟨later, at_p, rfl | torn⟩ := kept
  · exact ⟨later, at_p, .rests left⟩
  · have watchdog := torn.watchdog.trans left.watchdog
    exact ⟨later, at_p, .ends torn.cancelled (torn.total.trans left.total) (watchdog ▸ ·)⟩

theorem Transition.moves (step : Transition s e t) (lawful : s.Lawful)
    (at_p : s.pairs[p]? = some pair) :
    ∃ later, t.pairs[p]? = some later ∧ Moves s p pair e later := by
  have still {t : Supervisor} (same : t.pairs[p]? = s.pairs[p]?) :
      ∃ later, t.pairs[p]? = some later ∧ Moves s p pair e later :=
    ⟨pair, same.trans at_p, .rests (rests_refl pair)⟩
  cases step with
  | idle | passed | found | unknown | unawaited | leftAlone => exact still rfl
  | registered => exact still (List.getElem?_append_left (List.getElem?_eq_some_iff.1 at_p).1)
  | entered _ at_q | followed _ at_q _ | answered _ at_q _ =>
    exact moves_set at_q rfl (fun _ => .rests ⟨rfl, rfl, rfl, rfl, rfl, rfl, rfl, rfl⟩) at_p
  | unsubscribed _ torn => exact moves_kept (rests_refl pair) (torn.kept at_p)
  | unsubscribedAll _ torn => exact moves_kept (rests_refl pair) (torn.kept at_p)
  | joined _ onward => exact moves_kept (rests_refl pair) (onward.kept at_p)
  | stoppedForCall _ _ onward => exact moves_kept (rests_refl pair) (onward.kept at_p)
  | @foundClear _ q _ other _ fx _ at_q _ _ onward =>
    by_cases same : q = p
    · subst same
      cases at_q.symm.trans at_p
      have left : Rests pair { pair with line := pair.line.tail } :=
        ⟨rfl, rfl, rfl, rfl, rfl, rfl, rfl, rfl⟩
      exact moves_kept left
        (onward.kept (List.getElem?_set_self (List.getElem?_eq_some_iff.1 at_p).1))
    · exact moves_kept (rests_refl pair) (onward.kept ((List.getElem?_set_ne same).trans at_p))
  | @cleared id q rest _ _ _ call at_q _ _ =>
    exact moves_set at_q rfl
      (fun _ => .ends ((lawful.orderly.pairs q _ at_q).clearing id rest call) rfl
        fun queued => queued) at_p
  | @rested _ q _ _ _ at_q wakes _ =>
    refine moves_set at_q rfl (fun same => ?_) at_p
    subst same
    exact .rests wakes.rests
  | queued at_q wakes needed busy =>
    refine moves_set at_q rfl (fun same => ?_) at_p
    subst same
    exact .queues wakes needed busy
  | withdrew at_q turn finished =>
    exact moves_set at_q rfl
      (fun _ => .ends (turn.cancelled_eq.trans finished) turn.same.1 nofun) at_p
  | stopsOld at_q turn live _ =>
    refine moves_set at_q rfl (fun same => ?_) at_p
    subst same
    exact .begins turn live (.inl ⟨_, rfl⟩)
  | startsNew at_q turn live _ =>
    refine moves_set at_q rfl (fun same => ?_) at_p
    subst same
    exact .begins turn live (.inr ⟨_, rfl⟩)
  | ended at_q _ finished => exact moves_set at_q rfl (fun _ => .ends finished rfl nofun) at_p
  | opened at_c _ call at_q =>
    obtain rfl := lawful.orderly.owner call at_c
    refine moves_set at_q rfl (fun same => ?_) at_p
    subst same
    exact .opens ((lawful.orderly.pairs _ _ at_q).opening _ _ call).2.1 call
  | failed _ _ _ at_q => exact moves_set at_q rfl (fun _ => .ends rfl rfl id) at_p
  | replaced _ _ at_q watchdog => exact moves_set at_q rfl (fun _ => .replaced watchdog) at_p
  | notReplaced _ _ at_q watchdog => exact moves_set at_q rfl (fun _ => .notReplaced watchdog) at_p
  | stray at_c missing => exact absurd missing (lawful.sound.present at_c)
  | stoppedForWatchdog _ at_q watchdog =>
    exact moves_set at_q rfl (fun _ => .exchanges watchdog) at_p
  | heard at_c at_q gate news =>
    refine moves_set at_q rfl (fun same => ?_) at_p
    subst same
    exact .hears (by simp [owner?, at_c]) gate news
  | closing at_c at_q gate =>
    refine moves_set at_q rfl (fun same => ?_) at_p
    subst same
    exact .closes (by simp [owner?, at_c]) gate

theorem run_append (s : Supervisor) (a b : List Event) : s.run (a ++ b) = (s.run a).run b :=
  List.foldl_append

theorem run_concat (s : Supervisor) (events : List Event) (e : Event) :
    s.run (events ++ [e]) = (s.run events).step e := by
  rw [run_append]
  rfl

/-- What holds of a pair when its key is registered with it, and is kept by whatever an event does to
the pair, holds of it over every run. -/
theorem run_pair {s₀ : Supervisor} {motive : List Event → Pair → Prop} (initial : s₀.Initial)
    (new : ∀ events e key observer, (s₀.run events).Registers p key e →
      motive (events ++ [e]) ((s₀.run events).newPair key observer))
    (step : ∀ events e pair later, (s₀.run events).Orderlier →
      (s₀.run events).pairs[p]? = some pair → ((s₀.run events).step e).pairs[p]? = some later →
      pair.Later later → Moves (s₀.run events) p pair e later → motive events pair →
      motive (events ++ [e]) later)
    (events : List Event) (at_p : (s₀.run events).pairs[p]? = some pair) : motive events pair := by
  induction events using List.reverseRecOn generalizing pair with
  | nil => simp [run, initial.pairs] at at_p
  | append_singleton events e ih =>
    have orderlier := (orderlier_initial initial).run events
    rw [run_concat] at at_p
    have transition := step_transition (s₀.run events) e
    rcases transition.origin at_p with old | registers
    · have at_old := List.getElem?_eq_getElem old
      obtain ⟨later, at_later, moves⟩ := transition.moves orderlier.lawful at_old
      obtain ⟨later', at_later', facts⟩ := transition.later at_old
      cases at_p.symm.trans at_later
      cases at_p.symm.trans at_later'
      exact step events e _ pair orderlier at_old at_p facts moves (ih at_old)
    · obtain ⟨observer, same⟩ := registers.step
      have here := registers.1
      rw [same, here, List.getElem?_concat_length] at at_p
      exact Option.some.inj at_p ▸ new events e pair.key observer registers

/-- The watchdog sets about replacing the channel: it begins to, or joins the line to. -/
def SetsAbout (pair later : Pair) : Prop :=
  later.total = pair.total + 1 ∨ pair.watchdog ≠ .queued ∧ later.watchdog = .queued

def Attempt (p : PairId) (s : Supervisor) (e : Event) : Prop :=
  ∃ pair later, s.pairs[p]? = some pair ∧ (s.step e).pairs[p]? = some later ∧ SetsAbout pair later

/-! ## Deliveries -/

/-- An update or a heartbeat from a channel of the pair. -/
def News (p : PairId) (s : Supervisor) (e : Event) : Prop :=
  ∃ c event, e = .deliver c event ∧ event ≠ .closed ∧ s.owner? c = some p

/-- The closing of a channel of the pair. -/
def Closing (p : PairId) (s : Supervisor) (e : Event) : Prop :=
  ∃ c, e = .deliver c .closed ∧ s.owner? c = some p

theorem News.heard (news : News p s e) (at_p : s.pairs[p]? = some pair)
    (gate : pair.gateOpen = true) : (s.step e).pairs[p]? = some (pair.heard s.now) := by
  obtain ⟨c, event, rfl, news, own⟩ := news
  obtain ⟨channel, at_c, rfl⟩ := Option.map_eq_some_iff.1 own
  cases event with
  | closed => exact absurd rfl news
  | heartbeat => simp [step, perform, deliver, at_c, at_p, gate, modifyPair]
  | update u =>
    cases decoded : Record.decode pair.key.kind u.data with
    | error => simp [step, perform, deliver, at_c, at_p, gate, modifyPair, decoded]
    | ok record =>
      cases observer : pair.observer <;>
        simp [step, perform, deliver, at_c, at_p, gate, modifyPair, decoded, observer, emit]

theorem Closing.closed (closing : Closing p s e) (at_p : s.pairs[p]? = some pair)
    (gate : pair.gateOpen = true) : (s.step e).pairs[p]? = some pair.closing := by
  obtain ⟨c, rfl, own⟩ := closing
  obtain ⟨channel, at_c, rfl⟩ := Option.map_eq_some_iff.1 own
  simp [step, perform, deliver, at_c, at_p, gate, modifyPair, emit]

/-- In the run channels keep to their contract: nothing is delivered after a closing, a failed start
or a stop. -/
def Contract (s : Supervisor) (events : List Event) : Prop :=
  ∀ a c event b, events = a ++ .deliver c event :: b →
    .deliver c .closed ∉ a ∧ ∃ channel, (s.run a).channels[c]? = some channel ∧ channel.Live

/-- The channel may deliver, if it was not among those that closed before. -/
def mayDeliver (s : Supervisor) (closed : List ChannelId) (c : ChannelId) : Bool :=
  !closed.contains c && s.channels[c]?.any fun channel =>
    decide (channel.status ≠ .failed) && channel.stops == 0

/-- Runs the events and checks the contract on the way. -/
def checkContract (s : Supervisor) (closed : List ChannelId) : List Event → Bool
  | [] => true
  | .deliver c event :: events =>
    s.mayDeliver closed c && checkContract (s.step (.deliver c event))
      (if event = .closed then c :: closed else closed) events
  | e :: events => checkContract (s.step e) closed events

theorem live_of_mayDeliver {closed : List ChannelId} {c : ChannelId}
    (may : s.mayDeliver closed c = true) :
    c ∉ closed ∧ ∃ channel, s.channels[c]? = some channel ∧ channel.Live := by
  simp only [mayDeliver, Bool.and_eq_true, Bool.not_eq_true', Option.any_eq_true,
    decide_eq_true_eq, beq_iff_eq] at may
  obtain ⟨unclosed, channel, at_c, started, unstopped⟩ := may
  exact ⟨by simpa using unclosed, channel, at_c, started, unstopped⟩

theorem of_checkContract {closed : List ChannelId} {events : List Event}
    (keeps : s.checkContract closed events = true) (a : List Event) (c : ChannelId)
    (event : ChannelEvent) (b : List Event) (split : events = a ++ .deliver c event :: b) :
    (c ∉ closed ∧ .deliver c .closed ∉ a) ∧
      ∃ channel, (s.run a).channels[c]? = some channel ∧ channel.Live := by
  induction a generalizing s closed events with
  | nil =>
    subst split
    simp only [List.nil_append, checkContract, Bool.and_eq_true] at keeps
    obtain ⟨unclosed, live⟩ := live_of_mayDeliver keeps.1
    exact ⟨⟨unclosed, List.not_mem_nil⟩, live⟩
  | cons e a ih =>
    subst split
    rw [List.cons_append] at keeps
    cases e with
    | deliver d other =>
      simp only [checkContract, Bool.and_eq_true] at keeps
      obtain ⟨⟨unclosed, silent⟩, live⟩ := ih keeps.2 rfl
      refine ⟨⟨fun mem => unclosed ?_, fun mem => ?_⟩, live⟩
      · split
        · exact List.mem_cons_of_mem _ mem
        · exact mem
      · rcases List.mem_cons.1 mem with eq | mem
        · cases eq
          exact unclosed (by simp)
        · exact silent mem
    | _ =>
      simp only [checkContract] at keeps
      obtain ⟨⟨unclosed, silent⟩, live⟩ := ih keeps rfl
      refine ⟨⟨unclosed, fun mem => ?_⟩, live⟩
      rcases List.mem_cons.1 mem with eq | mem
      · cases eq
      · exact silent mem

theorem contract_of_check {events : List Event} (keeps : s.checkContract [] events = true) :
    Contract s events := by
  intro a c event b split
  obtain ⟨⟨-, silent⟩, live⟩ := of_checkContract keeps a c event b split
  exact ⟨silent, live⟩

/-! ## What happened last -/

variable {P Q : Supervisor → Event → Prop} {events : List Event}

/-- A `P` happened in the run. -/
def Occurs (s : Supervisor) (P : Supervisor → Event → Prop) (events : List Event) : Prop :=
  ∃ a e b, events = a ++ e :: b ∧ P (s.run a) e

theorem occurs_concat :
    s.Occurs P (events ++ [e]) ↔ s.Occurs P events ∨ P (s.run events) e :=
  History.occurs_concat

theorem occurs_append {a b : List Event} :
    s.Occurs P (a ++ b) ↔ s.Occurs P a ∨ (s.run a).Occurs P b := by
  induction b using List.reverseRecOn with
  | nil => simp [Occurs]
  | append_singleton b e ih =>
    rw [← List.append_assoc, occurs_concat, occurs_concat, ih, run_append, or_assoc]

theorem occurs_cons : s.Occurs P (e :: events) ↔ P s e ∨ (s.step e).Occurs P events := by
  have first : s.Occurs P [e] ↔ P s e := by
    rw [← List.nil_append [e], occurs_concat]
    simp [Occurs, run]
  rw [← List.singleton_append, occurs_append, first]
  rfl

theorem Occurs.append {a : List Event} (happened : s.Occurs P a) (b : List Event) :
    s.Occurs P (a ++ b) := by
  obtain ⟨c, e, d, rfl, happened⟩ := happened
  exact ⟨c, e, d ++ b, by simp, happened⟩

/-- A `P` happened in the run and no `Q` after it. -/
def Since (s : Supervisor) (P Q : Supervisor → Event → Prop) (events : List Event) : Prop :=
  ∃ a e b, events = a ++ e :: b ∧ P (s.run a) e ∧
    ∀ a' e' b', b = a' ++ e' :: b' → ¬ Q (((s.run a).step e).run a') e'

theorem Since.occurs (since : s.Since P Q events) : s.Occurs P events := by
  obtain ⟨a, e, b, eq, happened, -⟩ := since
  exact ⟨a, e, b, eq, happened⟩

theorem since_concat :
    s.Since P Q (events ++ [e]) ↔ P (s.run events) e ∨ s.Since P Q events ∧ ¬ Q (s.run events) e :=
  History.since_concat

end LedgerWatch.Supervisor
