import LedgerWatch.Proofs.Supervisor.Gates
import LedgerWatch.Proofs.Supervisor.Turns

/-!
# Closed channels

Main statement: `closed_channel_stays_iff`. A closed channel is replaced or has failed, unless
something made its pair active again after the closing: the channel's own handshake, when it
closed while it was started as a replacement, or news from an earlier channel of the pair
(`Revives`). In both cases the channel stays.

`Coherent` says how a pair's state goes with its notice, its channel and its watchdog, and
`OrderlyAt.idle` what is left of a pair where no task can go on.
-/

namespace LedgerWatch

structure Pair.Coherent (pair : Pair) : Prop where
  subscribing : pair.state = .subscribing → pair.watchdog = .unborn
  unborn : pair.watchdog = .unborn → pair.state ≠ .resubscribing
  resubscribing : pair.state = .resubscribing → pair.channel = none
  stalled : pair.state = .stalled → pair.notice = true ∨ pair.watchdog = .queued
  ended : pair.watchdog = .ended → pair.cancelled = true

/-- The pair has ended, or its watchdog will see that the channel is to be replaced, or is about
to replace it. -/
def Pair.Due (pair : Pair) : Prop :=
  pair.cancelled = true ∨ (pair.state = .stalled ∨ pair.state = .resubscribing) ∧
    (pair.notice = true ∨ pair.watchdog = .queued ∨ ∃ old, pair.watchdog = .stopping old)

/-- The pair was ended, and its watchdog did nothing. -/
structure Pair.Torn (pair later : Pair) : Prop where
  cancelled : later.cancelled = true
  total : later.total = pair.total
  watchdog : later.watchdog = pair.watchdog

/-- The pair was left as it is, or ended. -/
def Pair.Kept (pair later : Pair) : Prop := later = pair ∨ pair.Torn later

theorem Pair.Kept.trans {a b c : Pair} (h : a.Kept b) (k : b.Kept c) : a.Kept c := by
  rcases k with rfl | k
  · exact h
  · rcases h with rfl | h
    · exact .inr k
    · exact .inr ⟨k.cancelled, k.total.trans h.total, k.watchdog.trans h.watchdog⟩

namespace Supervisor

variable {s t : Supervisor} {p q : PairId} {pair : Pair} {id : CallId} {c : ChannelId}
  {ps : List PairId}

/-! ## State, notice and watchdog -/

/-- Every pair is coherent. -/
def Coherent (s : Supervisor) : Prop :=
  ∀ (p : PairId) (pair : Pair), s.pairs[p]? = some pair → pair.Coherent

theorem Coherent.change {later : Pair} (h : s.Coherent) (pairs : t.pairs = s.pairs.set p later)
    (here : later.Coherent) : t.Coherent := by
  intro q other at_q
  rw [pairs] at at_q
  rcases of_getElem?_set at_q with ⟨-, rfl⟩ | ⟨-, at_q⟩
  · exact here
  · exact h q other at_q

theorem coherent_line (h : pair.Coherent) (line : List Party) :
    Pair.Coherent { pair with line } :=
  ⟨h.subscribing, h.unborn, h.resubscribing, h.stalled, h.ended⟩

theorem coherent_finish (pair : Pair) (line : List Party) (channel : Option ChannelId) :
    Pair.Coherent { pair.finish with line, channel } := by
  constructor <;> simp [Pair.finish]

theorem TornDown.coherent (torn : TornDown id ps s t) (h : s.Coherent) : t.Coherent := by
  induction torn with
  | done => exact h
  | missing _ _ ih => exact ih h
  | @passed p rest s t pair _ _ _ _ _ _ ih =>
    exact ih (Coherent.change h rfl (coherent_finish pair pair.line pair.channel))
  | queued => exact Coherent.change h rfl (coherent_finish _ _ _)
  | stops => exact Coherent.change h rfl (coherent_finish _ _ _)
  | joins => exact Coherent.change h rfl (coherent_finish _ _ _)

theorem GoesOn.coherent {rest : List PairId} (onward : GoesOn id p rest s t) (h : s.Coherent) :
    t.Coherent := by
  cases onward with
  | onward _ torn => exact torn.coherent h
  | joins => exact h

theorem Wakes.idle {e : Event} {woken : Pair} (h : Wakes s p pair e woken) :
    pair.watchdog = .idle ∧ woken.watchdog = .idle := by
  cases h with
  | notice idle _ => exact ⟨idle, idle⟩
  | tick idle _ => exact ⟨idle, idle⟩

theorem Wakes.state_eq {e : Event} {woken : Pair} (h : Wakes s p pair e woken) :
    woken.state = pair.state := by
  cases h <;> rfl

/-- A watchdog that wakes and sees no need to act leaves no stalled pair behind. -/
theorem Wakes.coherent_rested {e : Event} {woken : Pair} {now : Nat}
    (wakes : Wakes s p pair e woken) (content : needsReplacement pair now = false)
    (h : pair.Coherent) : woken.Coherent := by
  have quiet : woken.state ≠ .stalled ∧ woken.state ≠ .resubscribing := by
    rw [wakes.state_eq]
    constructor <;> intro state <;> simp [needsReplacement, state] at content
  have idle := wakes.idle
  exact {
    subscribing := fun state => by
      rw [wakes.state_eq] at state
      simp [h.subscribing state] at idle
    unborn := fun unborn => by simp [unborn] at idle
    resubscribing := fun state => absurd state quiet.2
    stalled := fun state => absurd state quiet.1
    ended := fun ended => by simp [ended] at idle }

theorem stall_state (pair : Pair) :
    (stall pair).state = .stalled ∧ pair.state = .active ∨ (stall pair).state = pair.state := by
  unfold stall
  by_cases active : pair.state = .active
  · exact .inl ⟨by simp [active], active⟩
  · exact .inr (by simp [active])

theorem Wakes.coherent_queued {e : Event} {woken : Pair} (wakes : Wakes s p pair e woken)
    (h : pair.Coherent) (line : List Party) :
    Pair.Coherent { stall woken with line, watchdog := .queued } := by
  have channel : (stall woken).channel = pair.channel := by cases wakes <;> rfl
  have state := stall_state woken
  rw [wakes.state_eq] at state
  have idle := wakes.idle.1
  exact {
    subscribing := fun subscribing => by
      rcases state with ⟨stalled, -⟩ | same
      · simp [stalled] at subscribing
      · simp [h.subscribing (same ▸ subscribing)] at idle
    unborn := fun unborn => by cases unborn
    resubscribing := fun resubscribing => by
      rcases state with ⟨stalled, -⟩ | same
      · simp [stalled] at resubscribing
      · exact channel.trans (h.resubscribing (same ▸ resubscribing))
    stalled := fun _ => .inr rfl
    ended := fun ended => by cases ended }

theorem coherent_replacing {watchdog : Watchdog} (born : watchdog ≠ .unborn)
    (runs : watchdog ≠ .ended) : Pair.Coherent (replacing pair watchdog) := by
  constructor <;> simp [replacing, born, runs]

theorem coherent_over {later : Pair} (finished : later.state = .unsubscribed)
    (cancelled : later.cancelled = true) : later.Coherent := by
  constructor <;> simp [finished, cancelled]

theorem coherent_opened {canStall : Bool} (h : pair.Coherent) (unborn : pair.watchdog = .unborn) :
    (s.openedPair pair c canStall).Coherent := by
  have live := h.unborn unborn
  have noticed := h.stalled
  constructor
  · unfold openedPair
    split <;> simp_all
  · simp [openedPair]
  · unfold openedPair
    split <;> simp_all
  · unfold openedPair
    split <;> simp_all
  · simp [openedPair]

theorem coherent_replaced {d : ChannelId} (h : pair.Coherent)
    (starting : pair.watchdog = .starting d)
    (live : pair.state = .resubscribing → pair.cancelled = false) :
    (s.replacedPair pair c).Coherent := by
  have born : pair.state ≠ .subscribing := fun state => by
    simp [h.subscribing state] at starting
  have noticed := h.stalled
  constructor
  · unfold replacedPair
    split <;> simp_all
  · simp [replacedPair]
  · unfold replacedPair
    split <;> simp_all
  · unfold replacedPair
    split <;> simp_all
  · simp [replacedPair]

theorem coherent_heard (h : pair.Coherent) (now : Nat) : (pair.heard now).Coherent := by
  have resubscribing := h.resubscribing
  constructor
  · unfold Pair.heard
    cases state : pair.state <;> simp
  · unfold Pair.heard
    cases state : pair.state <;> simp
  · unfold Pair.heard
    cases state : pair.state <;> simp
  · unfold Pair.heard
    cases state : pair.state <;> simp
  · exact h.ended

theorem coherent_closing (h : pair.Coherent) : pair.closing.Coherent := by
  have resubscribing := h.resubscribing
  have unborn := h.unborn
  constructor
  · unfold Pair.closing
    cases state : pair.state <;> simp
  · unfold Pair.closing
    cases state : pair.state <;> simp_all
  · unfold Pair.closing
    cases state : pair.state <;> simp_all
  · unfold Pair.closing
    cases state : pair.state <;> simp
  · exact h.ended

theorem Transition.coherent {e : Event} (step : Transition s e t) (sound : Sound [] s)
    (orderly : s.Orderly) (h : s.Coherent) : t.Coherent := by
  cases step with
  | idle | passed | found | leftAlone | unknown | unawaited => exact h
  | @registered key observer _ _ =>
    intro q other at_q
    rcases of_getElem?_concat at_q with at_q | ⟨-, rfl⟩
    · exact h q other at_q
    · constructor <;> simp [newPair]
  | entered _ at_p _ _ => exact Coherent.change h rfl (coherent_line (h _ _ at_p) _)
  | followed _ at_p _ => exact Coherent.change h rfl (coherent_line (h _ _ at_p) _)
  | answered _ at_p _ => exact Coherent.change h rfl (coherent_line (h _ _ at_p) _)
  | unsubscribed _ torn => exact torn.coherent h
  | unsubscribedAll _ torn => exact torn.coherent h
  | foundClear _ at_p _ _ onward =>
    exact onward.coherent (Coherent.change h rfl (coherent_line (h _ _ at_p) _))
  | joined _ onward => exact onward.coherent h
  | stoppedForCall _ _ onward => exact onward.coherent h
  | @cleared id p rest _ _ _ call at_p _ _ =>
    have cancelled := (orderly.pairs p _ at_p).clearing id rest call
    exact Coherent.change h rfl
      (coherent_over ((sound.finished p _ at_p).1 cancelled) cancelled)
  | rested at_p wakes content =>
    exact Coherent.change h rfl (wakes.coherent_rested content (h _ _ at_p))
  | queued at_p wakes _ _ => exact Coherent.change h rfl (wakes.coherent_queued (h _ _ at_p) _)
  | withdrew at_p turn finished =>
    refine Coherent.change h rfl (coherent_over ?_ (turn.cancelled_eq.trans finished))
    exact turn.fits.finished.1 ((sound.finished _ _ at_p).1 finished)
  | stopsOld => exact Coherent.change h rfl (coherent_replacing (by simp) (by simp))
  | startsNew => exact Coherent.change h rfl (coherent_replacing (by simp) (by simp))
  | ended at_p _ finished =>
    exact Coherent.change h rfl (coherent_over ((sound.finished _ _ at_p).1 finished) finished)
  | opened at_c _ call at_p =>
    obtain rfl := orderly.owner call at_c
    have unborn := ((orderly.pairs _ _ at_p).opening _ _ call).2.1
    exact Coherent.change h rfl (coherent_opened (h _ _ at_p) unborn)
  | @failed _ _ _ _ pair => exact Coherent.change h rfl (coherent_finish pair _ pair.channel)
  | replaced _ _ at_p watchdog =>
    refine Coherent.change h rfl (coherent_replaced (h _ _ at_p) watchdog (fun state => ?_))
    rw [← Bool.not_eq_true, sound.finished _ _ at_p, state]
    simp
  | notReplaced _ _ at_p watchdog =>
    have pair := h _ _ at_p
    exact Coherent.change h rfl {
      subscribing := fun state => by simp [pair.subscribing state] at watchdog
      unborn := fun unborn => by cases unborn
      resubscribing := pair.resubscribing
      stalled := fun state => (pair.stalled state).imp_right fun queued => by
        simp [queued] at watchdog
      ended := fun ended => by cases ended }
  | stoppedForWatchdog _ at_p watchdog =>
    have pair := h _ _ at_p
    exact Coherent.change h rfl {
      subscribing := fun state => by simp [pair.subscribing state] at watchdog
      unborn := fun unborn => by cases unborn
      resubscribing := pair.resubscribing
      stalled := fun state => (pair.stalled state).imp_right fun queued => by
        simp [queued] at watchdog
      ended := fun ended => by cases ended }
  | stray at_c missing => exact absurd missing (sound.present at_c)
  | heard _ at_p _ _ => exact Coherent.change h rfl (coherent_heard (h _ _ at_p) _)
  | closing _ at_p _ => exact Coherent.change h rfl (coherent_closing (h _ _ at_p))

/-- What every supervisor is between events. -/
structure Lawful (s : Supervisor) : Prop where
  sound : Sound [] s
  orderly : s.Orderly
  coherent : s.Coherent

theorem lawful_initial (h : s.Initial) : s.Lawful :=
  ⟨sound_initial h, orderly_initial h, fun p pair at_p => by simp [h.pairs] at at_p⟩

theorem Lawful.step (h : s.Lawful) (e : Event) : (s.step e).Lawful :=
  have step := step_transition s e
  ⟨step.sound h.sound, step.orderly h.sound h.orderly, step.coherent h.sound h.orderly h.coherent⟩

theorem Lawful.run (h : s.Lawful) (events : List Event) : (s.run events).Lawful := by
  induction events generalizing s with
  | nil => exact h
  | cons e events ih => exact ih (h.step e)

/-! ## Pairs where nothing can go on -/

/-- No task of the pair can go on at this instant, and neither a handshake nor a stop of one of
its channels is in flight. -/
structure SettledAt (s : Supervisor) (p : PairId) (pair : Pair) : Prop where
  comes : ∀ id : CallId, s.calls[id]? ≠ some (.arriving p)
  calls : ∀ id, s.waitsAt id = some p → s.hasTurn id = false
  queued : pair.watchdog = .queued → pair.line.head? ≠ some .watchdog
  idle : pair.watchdog = .idle →
    pair.notice = false ∧ s.now < pair.tickDue ∧ pair.cancelled = false
  starts : ∀ c, s.owner? c = some p → s.status? c ≠ some .starting
  stops : ∀ c, pair.watchdog ≠ .stopping c

theorem SettledAt.free (settled : s.SettledAt p pair) : ¬ s.Occupied p pair := by
  intro occupied
  cases occupied with
  | call waits turn => simp [settled.calls _ waits] at turn
  | watchdog queued first => exact settled.queued queued first
  | starts own starting => exact settled.starts _ own starting
  | stops watchdog => exact settled.stops _ watchdog

/-- Nobody has the channel of a pair where nothing can go on, so its watchdog, if it lives, waits
for nothing. -/
theorem SettledAt.watchdog_idle (settled : s.SettledAt p pair) (at_p : s.pairs[p]? = some pair)
    (orderly : s.OrderlyAt p pair) (coherent : pair.Coherent) (live : pair.cancelled = false) :
    pair.watchdog = .idle := by
  cases watchdog : pair.watchdog with
  | idle => rfl
  | unborn =>
    rcases orderly.unborn watchdog live with ⟨id, call⟩ | ⟨id, c, call⟩
    · exact absurd call (settled.comes id)
    · obtain ⟨-, -, newest, starting⟩ := orderly.opening id c call
      exact absurd starting (settled.starts c newest.1)
  | queued =>
    have inLine := orderly.watchdog.2 (by rw [watchdog]; rfl)
    exact absurd (orderly.occupied at_p (List.ne_nil_of_mem inLine)) settled.free
  | stopping c => exact absurd watchdog (settled.stops c)
  | starting c =>
    obtain ⟨-, -, newest, starting⟩ := orderly.starting c watchdog
    exact absurd starting (settled.starts c newest.1)
  | ended => simp [coherent.ended watchdog] at live

/-! ## What follows a closing -/

theorem TornDown.channels (h : TornDown id ps s t) : t.channels = s.channels := by
  induction h with
  | missing _ _ ih => exact ih
  | passed _ _ _ _ _ ih => exact ih
  | _ => rfl

theorem GoesOn.channels {rest : List PairId} (h : GoesOn id p rest s t) :
    t.channels = s.channels := by
  cases h with
  | onward _ torn => exact torn.channels
  | joins => rfl

theorem owner?_eq (h : t.channels = s.channels) (d : ChannelId) : t.owner? d = s.owner? d := by
  rw [owner?, owner?, h]

/-- A channel belongs to its pair for good. -/
theorem Transition.owner {e : Event} (step : Transition s e t) (own : s.owner? c = some p) :
    t.owner? c = some p := by
  have append {t : Supervisor} {q : PairId} (channels : t.channels = s.channels ++ [newChannel q]) :
      t.owner? c = some p := by
    rw [owner?_append channels, if_neg (Nat.ne_of_lt (length_of_owner? own))]
    exact own
  cases step with
  | entered | startsNew => exact append rfl
  | unsubscribed _ torn => exact owner?_eq torn.channels c ▸ own
  | unsubscribedAll _ torn => exact owner?_eq torn.channels c ▸ own
  | foundClear _ _ _ _ onward => exact owner?_eq onward.channels c ▸ own
  | joined _ onward => exact owner?_eq onward.channels c ▸ own
  | stoppedForCall _ _ onward =>
    exact owner?_eq onward.channels c ▸ (owner?_countStop rfl c).trans own
  | opened | failed | replaced | notReplaced | unawaited | stray =>
    exact (owner?_setStatus rfl c).trans own
  | @stoppedForWatchdog d =>
    let u : Supervisor := { s with channels := s.countStop d }
    have counted : u.owner? c = some p := (owner?_countStop rfl c).trans own
    rw [owner?_append (s := u) rfl, if_neg (Nat.ne_of_lt (length_of_owner? counted))]
    exact counted
  | _ => exact own

theorem run_owner (events : List Event) (own : s.owner? c = some p) :
    (s.run events).owner? c = some p := by
  induction events generalizing s with
  | nil => exact own
  | cons e events ih => exact ih ((step_transition s e).owner own)

/-- A call that tears pairs down leaves each of them as it is or ends it. -/
theorem TornDown.kept (h : TornDown id ps s t) {mine : Pair} (at_q : s.pairs[q]? = some mine) :
    ∃ mine', t.pairs[q]? = some mine' ∧ mine.Kept mine' := by
  have set {p : PairId} {u : Supervisor} {pair other mine : Pair} (at_p : u.pairs[p]? = some pair)
      (at_q : u.pairs[q]? = some mine) (torn : pair.Torn other) :
      ∃ mine', (u.pairs.set p other)[q]? = some mine' ∧ mine.Kept mine' := by
    obtain ⟨hp, -⟩ := List.getElem?_eq_some_iff.1 at_p
    by_cases hq : p = q
    · subst hq
      cases at_p.symm.trans at_q
      exact ⟨other, List.getElem?_set_self hp, .inr torn⟩
    · exact ⟨mine, (List.getElem?_set_ne hq).trans at_q, .inl rfl⟩
  induction h generalizing mine with
  | done => exact ⟨mine, at_q, .inl rfl⟩
  | missing _ _ ih => exact ih at_q
  | @passed p rest s t pair fx at_p free slot gone more ih =>
    obtain ⟨mine', at_q', kept⟩ := set at_p at_q (show pair.Torn pair.finish from ⟨rfl, rfl, rfl⟩)
    obtain ⟨later, at_later, kept'⟩ := ih at_q'
    exact ⟨later, at_later, kept.trans kept'⟩
  | queued at_p | stops at_p | joins at_p => exact set at_p at_q ⟨rfl, rfl, rfl⟩

theorem GoesOn.kept {rest : List PairId} (h : GoesOn id p rest s t) {mine : Pair}
    (at_q : s.pairs[q]? = some mine) :
    ∃ mine', t.pairs[q]? = some mine' ∧ mine.Kept mine' := by
  cases h with
  | onward _ torn => exact torn.kept at_q
  | joins => exact ⟨mine, at_q, .inl rfl⟩

/-- The pair becomes active again although its newest channel sent nothing: the channel's own
handshake as a replacement succeeds, or an earlier channel of the pair is heard of. -/
inductive Revives (s : Supervisor) (p : PairId) (c : ChannelId) : Event → Prop
  | handshake {canStall : Bool} (starting : s.status? c = some .starting)
      (state : s.pairs[p]?.map Pair.state = some .resubscribing) :
      Revives s p c (.handshake c canStall (.ok ()))
  | earlier {d : ChannelId} {event : ChannelEvent} (other : d ≠ c) (own : s.owner? d = some p)
      (news : event ≠ .closed) : Revives s p c (.deliver d event)

/-- Some event of the run revives the pair. -/
def Revived (s : Supervisor) (p : PairId) (c : ChannelId) (events : List Event) : Prop :=
  ∃ a e b, events = a ++ e :: b ∧ (s.run a).Revives p c e

def Due (s : Supervisor) (p : PairId) : Prop := ∃ pair, s.pairs[p]? = some pair ∧ pair.Due

theorem due_of_kept {mine : Pair} (due : mine.Due)
    (kept : ∃ mine', t.pairs[p]? = some mine' ∧ mine.Kept mine') : t.Due p := by
  obtain ⟨mine', at_p, rfl | torn⟩ := kept
  · exact ⟨mine', at_p, due⟩
  · exact ⟨mine', at_p, .inl torn.cancelled⟩

theorem TornDown.due (h : TornDown id ps s t) (due : s.Due p) : t.Due p := by
  obtain ⟨mine, at_p, due⟩ := due
  exact due_of_kept due (h.kept at_p)

theorem GoesOn.due {rest : List PairId} (h : GoesOn id q rest s t) (due : s.Due p) : t.Due p := by
  obtain ⟨mine, at_p, due⟩ := due
  exact due_of_kept due (h.kept at_p)

theorem Due.change {other later : Pair} (h : s.Due p) (at_q : s.pairs[q]? = some other)
    (pairs : t.pairs = s.pairs.set q later) (keep : q = p → other.Due → later.Due) : t.Due p := by
  obtain ⟨mine, at_p, due⟩ := h
  obtain ⟨hq, -⟩ := List.getElem?_eq_some_iff.1 at_q
  by_cases eq : q = p
  · subst eq
    cases at_q.symm.trans at_p
    exact ⟨later, by rw [pairs, List.getElem?_set_self hq], keep rfl due⟩
  · exact ⟨mine, by rw [pairs, List.getElem?_set_ne eq, at_p], due⟩

/-- An idle watchdog of such a pair acts as soon as it wakes. -/
theorem needs_of_due (h : pair.Due) (live : pair.cancelled = false) (now : Nat) :
    needsReplacement pair now = true := by
  rcases h with finished | ⟨state | state, -⟩
  · simp [live] at finished
  · simp [needsReplacement, state]
  · simp [needsReplacement, state]

theorem Wakes.cancelled_eq {e : Event} {woken : Pair} (wakes : Wakes s p pair e woken) :
    woken.cancelled = pair.cancelled := by
  cases wakes <;> rfl

theorem Wakes.due_rested {e : Event} {woken : Pair} {now : Nat} (wakes : Wakes s p pair e woken)
    (content : needsReplacement pair now = false) (h : pair.Due) : woken.Due := by
  cases finished : pair.cancelled with
  | true => exact .inl (wakes.cancelled_eq.trans finished)
  | false => simp [needs_of_due h finished now] at content

theorem Wakes.due_queued {e : Event} {woken : Pair} {line : List Party}
    (wakes : Wakes s p pair e woken) (h : pair.Due) :
    Pair.Due { stall woken with line, watchdog := .queued } := by
  rcases h with finished | ⟨state | state, -⟩
  · exact .inl (wakes.cancelled_eq.trans finished)
  · exact .inr ⟨.inl (by simp [stall, wakes.state_eq, state]), .inr (.inl rfl)⟩
  · exact .inr ⟨.inr (by simp [stall, wakes.state_eq, state]), .inr (.inl rfl)⟩

/-- What a pair is due survives what its watchdog does without a channel to stop. -/
theorem due_keeps {later : Pair} (h : pair.Due)
    (cancelled : pair.cancelled = true → later.cancelled = true)
    (state : pair.state = .stalled ∨ pair.state = .resubscribing → later.state = pair.state)
    (notice : later.notice = pair.notice)
    (busy : pair.watchdog ≠ .queued ∧ ∀ old, pair.watchdog ≠ .stopping old) : later.Due := by
  rcases h with finished | ⟨wanting, noticed | queued | ⟨old, stopping⟩⟩
  · exact .inl (cancelled finished)
  · exact .inr ⟨by rwa [state wanting], .inl (notice.trans noticed)⟩
  · exact absurd queued busy.1
  · exact absurd stopping (busy.2 old)

theorem due_closing (h : pair.Due) : pair.closing.Due := by
  rcases h with finished | ⟨state | state, -⟩
  · exact .inl finished
  · exact .inr ⟨.inl (by simp [Pair.closing, state]), .inl rfl⟩
  · exact .inr ⟨.inr (by simp [Pair.closing, state]), .inl rfl⟩

/-- A pair stays due a new channel while it gets none, its newest one is silent and nothing
revives it. -/
theorem Transition.due {e : Event} (step : Transition s e t) (lawful : s.Lawful)
    (own : s.owner? c = some p) (newest : t.Newest p c) (silent : ∀ event, e ≠ .deliver c event)
    (dull : ¬ s.Revives p c e) (h : s.Due p) : t.Due p := by
  have before : s.Newest p c := ⟨own, fun d k => newest.2 d (step.owner k)⟩
  have unmade {u : Supervisor} (made : t.Newest p u.channels.length)
      (own : u.owner? c = some p) : False := by
    have hc := length_of_owner? own
    rw [newest.unique made] at hc
    exact Nat.lt_irrefl _ hc
  cases step with
  | idle | passed | found | leftAlone | unknown | unawaited => exact h
  | registered =>
    obtain ⟨mine, at_p, due⟩ := h
    obtain ⟨hp, -⟩ := List.getElem?_eq_some_iff.1 at_p
    exact ⟨mine, (List.getElem?_append_left hp).trans at_p, due⟩
  | entered _ at_q _ _ => exact h.change at_q rfl (fun _ due => due)
  | followed _ at_q _ => exact h.change at_q rfl (fun _ due => due)
  | unsubscribed _ torn => exact torn.due h
  | unsubscribedAll _ torn => exact torn.due h
  | answered _ at_q _ => exact h.change at_q rfl (fun _ due => due)
  | cleared _ at_q _ _ => exact h.change at_q rfl (fun _ due => due)
  | foundClear _ at_q _ _ onward => exact onward.due (h.change at_q rfl (fun _ due => due))
  | joined _ onward => exact onward.due h
  | stoppedForCall _ _ onward => exact onward.due h
  | rested at_q wakes content =>
    exact h.change at_q rfl (fun _ due => wakes.due_rested content due)
  | queued at_q wakes _ _ => exact h.change at_q rfl (fun _ due => wakes.due_queued due)
  | withdrew at_q turn finished =>
    exact h.change at_q rfl (fun _ _ => .inl (turn.cancelled_eq.trans finished))
  | stopsOld at_q _ _ _ =>
    exact h.change at_q rfl (fun _ _ => .inr ⟨.inr rfl, .inr (.inr ⟨_, rfl⟩)⟩)
  | startsNew at_q _ _ _ =>
    refine h.change at_q rfl (fun eq _ => ?_)
    subst eq
    exact (unmade (newest_append rfl) own).elim
  | ended at_q _ finished => exact h.change at_q rfl (fun _ _ => .inl finished)
  | opened at_d _ call at_q =>
    obtain rfl := lawful.orderly.owner call at_d
    have unborn := ((lawful.orderly.pairs _ _ at_q).opening _ _ call).2.1
    refine h.change at_q rfl (fun _ due => ?_)
    refine due_keeps due id (fun state => ?_) rfl (by simp [unborn])
    rcases state with state | state <;> simp [openedPair, state]
  | failed _ _ _ at_q => exact h.change at_q rfl (fun _ _ => .inl rfl)
  | @replaced d _ pair channel _ _ _ at_q watchdog =>
    refine h.change at_q rfl (fun eq due => ?_)
    subst eq
    -- The watchdog starts the pair's newest channel, so the handshake is that of `c`.
    obtain ⟨-, -, last, starting⟩ := (lawful.orderly.pairs _ _ at_q).starting d watchdog
    obtain rfl := before.unique last
    refine due_keeps due id (fun state => ?_) rfl (by simp [watchdog])
    rcases state with state | state
    · simp [replacedPair, state]
    · exact absurd (.handshake starting (by simp [at_q, state])) dull
  | notReplaced _ _ at_q watchdog =>
    exact h.change at_q rfl (fun _ due => due_keeps due id (fun _ => rfl) rfl (by simp [watchdog]))
  | stray at_c missing => exact absurd missing (lawful.sound.present at_c)
  | @stoppedForWatchdog d pair channel _ _ at_q _ =>
    refine h.change at_q rfl (fun eq _ => ?_)
    subst eq
    let u : Supervisor := { s with channels := s.countStop d }
    exact (unmade (newest_append (s := u) rfl) ((owner?_countStop rfl c).trans own)).elim
  | @heard d event channel _ _ _ at_d at_q _ news =>
    refine h.change at_q rfl (fun eq _ => ?_)
    have other : d ≠ c := by
      rintro rfl
      exact silent event rfl
    exact absurd (.earlier other (by simp [owner?, at_d, eq]) news) dull
  | closing _ at_q _ => exact h.change at_q rfl (fun _ due => due_closing due)

theorem run_due (events : List Event) (lawful : s.Lawful) (own : s.owner? c = some p)
    (newest : (s.run events).Newest p c) (silent : ∀ event, .deliver c event ∉ events)
    (dull : ¬ s.Revived p c events) (h : s.Due p) : (s.run events).Due p := by
  induction events generalizing s with
  | nil => exact h
  | cons e events ih =>
    have step := step_transition s e
    have own' := step.owner own
    refine ih (lawful.step e) own' newest
      (fun event mem => silent event (List.mem_cons_of_mem _ mem)) ?_ ?_
    · rintro ⟨a, e', b, rfl, revives⟩
      exact dull ⟨e :: a, e', b, rfl, revives⟩
    · refine step.due lawful own ⟨own', fun d k => newest.2 d (run_owner events k)⟩
        (fun event eq => ?_) (fun revives => ?_) h
      · exact silent event (eq ▸ List.mem_cons_self)
      · exact dull ⟨[], e, events, rfl, revives⟩

/-! ## Closed channels -/

/-- A pair that is told of a closing is due a new channel, unless it has ended. -/
theorem due_of_closing (lawful : s.Lawful) (own : s.owner? c = some p) :
    (s.step (.deliver c .closed)).Due p := by
  obtain ⟨channel, at_c, rfl⟩ := Option.map_eq_some_iff.1 own
  have hp := lawful.sound.owned c channel.pair own
  have at_p := List.getElem?_eq_getElem hp
  cases finished : s.pairs[channel.pair].cancelled with
  | true =>
    obtain ⟨later, at_later, facts⟩ := (step_transition s (.deliver c .closed)).later at_p
    exact ⟨later, at_later, .inl (facts.cancelled finished)⟩
  | false =>
    have gate : s.pairs[channel.pair].gateOpen = true := by
      rw [lawful.sound.gate _ _ at_p, finished]
      rfl
    refine ⟨Pair.closing s.pairs[channel.pair], ?_, ?_⟩
    · simp [step, perform, deliver, at_c, gate, modifyPair, emit, hp]
    · refine .inr ⟨?_, .inl rfl⟩
      cases state : s.pairs[channel.pair].state with
      | unsubscribed => simp [(lawful.sound.finished _ _ at_p).2 state] at finished
      | subscribing | active | stalled => exact .inl (by simp [Pair.closing, state])
      | resubscribing => exact .inr (by simp [Pair.closing, state])

/-- Where nothing can go on, a live pair is active with its newest channel if that has started. -/
theorem SettledAt.active_of_started (settled : s.SettledAt p pair) (lawful : s.Lawful)
    (at_p : s.pairs[p]? = some pair) (live : pair.cancelled = false) (newest : s.Newest p c)
    (started : s.status? c = some .started) : pair.state = .active ∧ pair.channel = some c := by
  have orderly := lawful.orderly.pairs p pair at_p
  have coherent := lawful.coherent p pair at_p
  have idle := settled.watchdog_idle at_p orderly coherent live
  rcases orderly.resting (.inl idle) live c newest with ⟨-, slot⟩ | ⟨failed, -⟩
  · refine ⟨?_, slot⟩
    cases state : pair.state with
    | active => rfl
    | unsubscribed =>
      have finished := (lawful.sound.finished p pair at_p).2 state
      simp [live] at finished
    | subscribing => simp [coherent.subscribing state] at idle
    | stalled =>
      rcases coherent.stalled state with noticed | queued
      · simp [(settled.idle idle).1] at noticed
      · simp [queued] at idle
    | resubscribing => simp [coherent.resubscribing state] at slot
  · simp [started] at failed

/-- A channel of a registered pair closed and sent nothing after it. Where nothing can go on for
the pair, a later channel has taken its place, unless something made the pair active again after
the closing. The pair is left active with the closed channel exactly if that happened and no later
channel was made, when the channel's own handshake succeeded. -/
theorem closed_channel_stays_iff {s₀ : Supervisor} (initial : s₀.Initial)
    (before after : List Event) (p : PairId) (c : ChannelId) (pair : Pair)
    (sent : (s₀.run before).owner? c = some p) (last : ∀ event, .deliver c event ∉ after) :
    let u := (s₀.run before).step (.deliver c .closed)
    let t := u.run after
    t.pairs[p]? = some pair → t.registry.get? pair.key = some p → t.SettledAt p pair →
    (t.Newest p c → u.Revived p c after) ∧
      (pair.state = .active ∧ pair.channel = some c ↔
        u.Revived p c after ∧ t.Newest p c ∧ t.status? c = some .started) := by
  intro u t at_p known settled
  have lawful₀ := (lawful_initial initial).run before
  have lawful : u.Lawful := lawful₀.step _
  have lawful' : t.Lawful := lawful.run after
  obtain ⟨pair', at_p', -, live⟩ := lawful'.sound.registered _ p (Table.mem_of_get? known)
  cases at_p.symm.trans at_p'
  have orderly := lawful'.orderly.pairs p pair at_p
  have idle := settled.watchdog_idle at_p orderly (lawful'.coherent p pair at_p) live
  have revived (newest : t.Newest p c) : u.Revived p c after := by
    refine Classical.byContradiction (fun dull => ?_)
    have own : u.owner? c = some p := (step_transition _ _).owner sent
    obtain ⟨pair', at_p', due⟩ := run_due after lawful own newest last dull
      (due_of_closing lawful₀ sent)
    cases at_p.symm.trans at_p'
    rcases due with finished | ⟨-, noticed | queued | ⟨old, stopping⟩⟩
    · simp [live] at finished
    · simp [(settled.idle idle).1] at noticed
    · simp [queued] at idle
    · simp [stopping] at idle
  refine ⟨revived, ?_, ?_⟩
  · rintro ⟨-, slot⟩
    obtain ⟨newest, started⟩ := orderly.slot c slot
    exact ⟨revived newest, newest, started⟩
  · rintro ⟨-, newest, started⟩
    exact settled.active_of_started lawful' at_p live newest started

/-- A closed channel is replaced; its replacement is being started. -/
def replacementStarting : List Event :=
  [.subscribe (wholeProgram .state) none, .enter 0, .handshake 0 false (.ok ()),
    .deliver 0 .closed, .takeNotice 0, .stopped 0]

/-- The replacement's handshake succeeds, and the watchdog does all that it can. -/
def replacementStarted : List Event := [.handshake 1 false (.ok ()), .takeNotice 0, .takeTick 0]

theorem replacement_settles :
    let t := ((run {} replacementStarting).step (.deliver 1 .closed)).run replacementStarted
    ∃ pair, t.pairs[0]? = some pair ∧ t.registry.get? pair.key = some 0 ∧ t.SettledAt 0 pair ∧
      t.Newest 0 1 ∧ pair.state = .active ∧ pair.channel = some 1 := by
  intro t
  have calls : t.calls = [.returned (.ok ())] := by
    simp only [t]
    decide +kernel
  have channels : t.channels = [⟨0, .started, 1⟩, ⟨0, .started, 0⟩] := by
    simp only [t]
    decide +kernel
  have pairs : t.pairs = [{ t.newPair (wholeProgram .state) none with
      state := .active, lastEvent := 0, consecutive := 1, total := 1, channel := some 1,
      line := [], watchdog := .idle, tickDue := 1000 }] := by
    simp only [t]
    decide +kernel
  have now : t.now = 0 := by
    simp only [t]
    decide +kernel
  refine ⟨_, by rw [pairs]; rfl, ?_, ?_, ?_, rfl, rfl⟩
  · simp only [t]
    decide +kernel
  · constructor
    · intro id
      cases id with
      | zero => simp [calls]
      | succ id => simp [calls]
    · intro id waits
      cases id with
      | zero => simp [waitsAt, calls, Call.waits?] at waits
      | succ id => simp [waitsAt, calls] at waits
    · simp
    · simp [now, newPair]
    · intro c own
      have hc : c < 2 := by simpa [channels] using length_of_owner? own
      rcases Nat.lt_succ_iff_lt_or_eq.1 hc with hc | rfl
      · obtain rfl := Nat.lt_one_iff.1 hc
        simp [status?, channels]
      · simp [status?, channels]
    · simp
  · refine ⟨by simp [owner?, channels], fun d own => ?_⟩
    have hd : d < 2 := by simpa [channels] using length_of_owner? own
    exact Nat.le_of_lt_succ hd

theorem closed_channel_stays_iff_replacement :
    let u := (run {} replacementStarting).step (.deliver 1 .closed)
    let t := u.run replacementStarted
    Initial {} ∧ (run {} replacementStarting).owner? 1 = some 0 ∧
      (∃ pair, t.pairs[0]? = some pair ∧ t.registry.get? pair.key = some 0 ∧ t.SettledAt 0 pair) ∧
      u.Revived 0 1 replacementStarted := by
  intro u t
  have initial : Initial {} := ⟨rfl, rfl, rfl, rfl⟩
  have sent : (run {} replacementStarting).owner? 1 = some 0 := by decide +kernel
  obtain ⟨pair, at_p, known, settled, newest, -⟩ := replacement_settles
  obtain ⟨revived, -⟩ := closed_channel_stays_iff initial replacementStarting replacementStarted 0 1
    pair sent (by simp [replacementStarted]) at_p known settled
  exact ⟨initial, sent, ⟨pair, at_p, known, settled⟩, revived newest⟩

/-- A channel that closes while it is started as a replacement is left in place. -/
theorem closed_replacement_stays :
    ¬ ∀ (before after : List Event) (p : PairId) (c : ChannelId) (pair : Pair),
      (run {} before).owner? c = some p → (∀ event, .deliver c event ∉ after) →
      let t := ((run {} before).step (.deliver c .closed)).run after
      t.pairs[p]? = some pair → t.registry.get? pair.key = some p → t.Newest p c →
      t.SettledAt p pair → ¬ (pair.state = .active ∧ pair.channel = some c) := by
  intro claim
  obtain ⟨pair, at_p, known, settled, newest, active⟩ := replacement_settles
  have sent : (run {} replacementStarting).owner? 1 = some 0 := by decide +kernel
  exact claim replacementStarting replacementStarted 0 1 pair sent (by simp [replacementStarted])
    at_p known newest settled active

end Supervisor

end LedgerWatch
