import LedgerWatch.Proofs.Supervisor.Handshakes
import LedgerWatch.Proofs.Supervisor.Moves

/-!
# Why a channel is replaced

Main statement: `replacements_justified`. A watchdog that wakes sets about replacing the pair's
channel only if a channel of the pair closed since the last replacement began, or that replacement
failed, or the pair was silent for longer than the configured time and its first channel can stall.
A replacement begins before the old channel is stopped, and a closing that the old channel reports
while it is being stopped can cost the new one: `replaced_for_stopped_channel`.

`Grounds` ties what the watchdog looks at, the pair's state, its patience and the time it was last
heard of, to what happened in the run.
-/

namespace LedgerWatch.Supervisor

variable {s t s₀ : Supervisor} {p : PairId} {pair later : Pair} {id : CallId} {c : ChannelId}
  {e : Event} {events : List Event} {T : Nat}

/-! ## What happens to a pair's channels -/

/-- The pair's first handshake succeeds, with a channel that can stall or cannot. -/
def Opens (p : PairId) (canStall : Bool) (s : Supervisor) (e : Event) : Prop :=
  ∃ (id : CallId) (c : ChannelId), e = .handshake c canStall (.ok ()) ∧
    s.calls[id]? = some (.starting p c)

/-- A handshake of a channel of the pair succeeds. -/
def Connects (p : PairId) (s : Supervisor) (e : Event) : Prop :=
  ∃ c canStall, e = .handshake c canStall (.ok ()) ∧ s.owner? c = some p ∧
    s.status? c = some .starting

/-- The pair is heard of: an update, a heartbeat or a successful handshake. -/
def Activity (p : PairId) (s : Supervisor) (e : Event) : Prop := News p s e ∨ Connects p s e

/-- The watchdog decides to replace the channel: it has not waited for its turn, and begins to
replace the channel or joins the line to. -/
def Decides (p : PairId) (s : Supervisor) (e : Event) : Prop :=
  ∃ pair later, s.pairs[p]? = some pair ∧ (s.step e).pairs[p]? = some later ∧
    pair.watchdog ≠ .queued ∧ SetsAbout pair later

/-- The watchdog has its turn, and the replacement begins: its handshake comes next, after the stop
of the old channel if there is one. -/
def Begins (p : PairId) (s : Supervisor) (e : Event) : Prop :=
  ∃ pair later, s.pairs[p]? = some pair ∧ (s.step e).pairs[p]? = some later ∧
    later.total = pair.total + 1

/-- The handshake of a replacement fails. -/
def Fails (p : PairId) (s : Supervisor) (e : Event) : Prop :=
  ∃ c canStall error pair, e = .handshake c canStall (.error error) ∧ s.pairs[p]? = some pair ∧
    pair.watchdog = .starting c

/-- The pair opened with a channel that can stall, and for longer than `T` it was not heard of. -/
def Overdue (s₀ : Supervisor) (p : PairId) (T : Nat) (events : List Event) : Prop :=
  s₀.Occurs (Opens p true) events ∧
    s₀.Since (fun s e => Activity p s e ∧ s.now + T < (s₀.run events).now) (Activity p) events

theorem not_begins (at_p : s.pairs[p]? = some pair) (at_p' : (s.step e).pairs[p]? = some later)
    (same : later.total = pair.total) : ¬ Begins p s e := by
  rintro ⟨pair', later', at_q, at_q', more⟩
  cases at_p.symm.trans at_q
  cases at_p'.symm.trans at_q'
  simp [same] at more

/-- A channel that starts is waited for by a call or by the watchdog of its pair. -/
theorem Orderlier.starts_for (h : s.Orderlier) (own : s.owner? c = some p)
    (starting : s.status? c = some .starting) :
    (∃ id : CallId, s.calls[id]? = some (.starting p c)) ∨
      ∃ pair, s.pairs[p]? = some pair ∧ pair.watchdog = .starting c := by
  obtain ⟨channel, at_c, rfl, starting⟩ := channel_of_starting own starting
  rcases h.accounted.all c channel at_c with ⟨party, had⟩ | ⟨failed, -⟩ | ⟨started, -⟩
  · rw [starting] at had
    cases inHand_of_hand had with
    | opens call => exact .inl ⟨_, call⟩
    | replaces at_p watchdog => exact .inr ⟨_, at_p, watchdog⟩
  · cases starting.symm.trans failed
  · cases starting.symm.trans started

theorem Connects.lastEvent (connects : Connects p s e) (h : s.Orderlier)
    (at_p : s.pairs[p]? = some pair) (at_p' : (s.step e).pairs[p]? = some later) :
    later.lastEvent = s.now := by
  obtain ⟨c, canStall, rfl, own, starting⟩ := connects
  have hp := (List.getElem?_eq_some_iff.1 at_p).1
  rcases h.starts_for own starting with ⟨id, call⟩ | ⟨pair', at_p'', watchdog⟩
  · obtain ⟨fx, same⟩ := step_handshake_opened h.lawful.orderly call at_p canStall
    rw [same] at at_p'
    cases (List.getElem?_set_self hp).symm.trans at_p'
    rfl
  · cases at_p.symm.trans at_p''
    obtain ⟨fx, same⟩ := step_handshake_replaced h.lawful.orderly at_p watchdog canStall
    rw [same] at at_p'
    cases (List.getElem?_set_self hp).symm.trans at_p'
    rfl

/-! ## The configured time -/

theorem TornDown.resubTimeout {ps : List PairId} (torn : TornDown id ps s t) :
    t.resubTimeout = s.resubTimeout := by
  induction torn with
  | done | queued | stops | joins => rfl
  | missing _ _ ih | passed _ _ _ _ _ ih => exact ih

theorem GoesOn.resubTimeout {rest : List PairId} (onward : GoesOn id p rest s t) :
    t.resubTimeout = s.resubTimeout := by
  cases onward with
  | onward _ torn => exact torn.resubTimeout
  | joins => rfl

theorem Transition.resubTimeout (step : Transition s e t) : t.resubTimeout = s.resubTimeout := by
  cases step with
  | unsubscribed _ torn => exact torn.resubTimeout
  | unsubscribedAll _ torn => exact torn.resubTimeout
  | foundClear _ _ _ _ onward => exact onward.resubTimeout
  | joined _ onward => exact onward.resubTimeout
  | stoppedForCall _ _ onward => exact onward.resubTimeout
  | _ => rfl

theorem run_resubTimeout (s : Supervisor) (events : List Event) :
    (s.run events).resubTimeout = s.resubTimeout := by
  induction events generalizing s with
  | nil => rfl
  | cons e events ih => exact (ih (s.step e)).trans (step_transition s e).resubTimeout

/-! ## What the watchdog looks at, step by step -/

theorem Moves.queued (moves : Moves s p pair e later) (live : later.cancelled = false)
    (queued : later.watchdog = .queued) (waited : pair.watchdog = .queued) :
    later.total = pair.total := by
  cases moves with
  | rests same => exact same.total
  | ends finished => simp [live] at finished
  | queues wakes => simp [wakes.idle.1] at waited
  | begins _ _ work => rcases work with ⟨old, rfl⟩ | ⟨new, rfl⟩ <;> simp [replacing] at queued
  | opens | replaced | notReplaced | exchanges | hears | closes => rfl

theorem heard_state_cases (pair : Pair) (now : Nat) :
    (pair.heard now).state = .active ∨ (pair.heard now).state = .unsubscribed := by
  cases state : pair.state <;> simp [Pair.heard, state]

/-- A pair that is stalled, and whose watchdog does not wait, just closed or was so before. -/
theorem Moves.stalled (moves : Moves s p pair e later) (live : later.cancelled = false)
    (stalled : later.state = .stalled) (unqueued : later.watchdog ≠ .queued) :
    Closing p s e ∨
      later.total = pair.total ∧ pair.state = .stalled ∧ pair.watchdog ≠ .queued := by
  cases moves with
  | rests same => exact .inr ⟨same.total, same.state ▸ stalled, same.watchdog ▸ unqueued⟩
  | ends finished => simp [live] at finished
  | hears =>
    rcases heard_state_cases pair s.now with state | state <;> simp [state] at stalled
  | closes own => exact .inl ⟨_, rfl, own⟩
  | queues => exact absurd rfl unqueued
  | begins => simp [replacing] at stalled
  | opens unborn =>
    refine .inr ⟨rfl, ?_, by simp [unborn]⟩
    simp only [openedPair] at stalled
    split at stalled
    · cases stalled
    · exact stalled
  | replaced watchdog =>
    refine .inr ⟨rfl, ?_, by simp [watchdog]⟩
    simp only [replacedPair] at stalled
    split at stalled
    · cases stalled
    · exact stalled
  | notReplaced watchdog | exchanges watchdog => exact .inr ⟨rfl, stalled, by simp [watchdog]⟩

/-- A pair that is resubscribing began a replacement, and its watchdog is idle only after that
failed. -/
theorem Moves.resubscribing (moves : Moves s p pair e later) (at_p : s.pairs[p]? = some pair)
    (coherent : pair.Coherent) (live : later.cancelled = false)
    (state : later.state = .resubscribing) :
    later.total = pair.total + 1 ∧ later.watchdog ≠ .idle ∨
      later.total = pair.total ∧ pair.state = .resubscribing ∧
        (later.watchdog = .idle → Fails p s e ∨ pair.watchdog = .idle) := by
  cases moves with
  | rests same =>
    exact .inr ⟨same.total, same.state ▸ state, fun idle => .inr (same.watchdog ▸ idle)⟩
  | ends finished => simp [live] at finished
  | hears =>
    rcases heard_state_cases pair s.now with heard | heard <;> simp [heard] at state
  | closes =>
    refine .inr ⟨rfl, ?_, .inr⟩
    cases before : pair.state <;> simp [Pair.closing, before] at state ⊢
  | @queues _ woken _ wakes =>
    refine .inr ⟨wakes.rests.total, ?_, fun idle => by cases idle⟩
    rw [← wakes.state_eq]
    simp only [stall] at state
    split at state
    · cases state
    · exact state
  | begins turn _ work =>
    refine .inl ⟨congrArg (· + 1) turn.same.1, ?_⟩
    rcases work with ⟨old, rfl⟩ | ⟨new, rfl⟩ <;> simp [replacing]
  | opens unborn =>
    simp only [openedPair] at state
    split at state
    · cases state
    · exact absurd state (coherent.unborn unborn)
  | replaced =>
    have live : pair.cancelled = false := live
    simp only [replacedPair, live] at state
    split at state
    · cases state
    · rename_i other
      exact absurd ⟨state, rfl⟩ other
  | notReplaced watchdog =>
    exact .inr ⟨rfl, state, fun _ => .inl ⟨_, _, _, pair, rfl, at_p, watchdog⟩⟩
  | exchanges => exact .inr ⟨rfl, state, fun idle => by cases idle⟩

theorem Moves.patience (moves : Moves s p pair e later) (live : later.cancelled = false)
    (patient : later.patience = some T) :
    s.resubTimeout = some T ∧ Opens p true s e ∨ pair.patience = some T := by
  cases moves with
  | rests same => exact .inr (same.patience ▸ patient)
  | ends finished => simp [live] at finished
  | queues wakes => exact .inr (wakes.rests.patience ▸ patient)
  | begins turn => exact .inr (turn.same.2.2 ▸ patient)
  | @opens id c canStall _ call =>
    cases canStall with
    | false => cases patient
    | true => exact .inl ⟨patient, id, c, rfl, call⟩
  | hears | closes | replaced | notReplaced | exchanges => exact .inr patient

/-- A pair is last heard of when an activity of it happens, and at no other time. -/
theorem step_lastEvent (h : s.Orderlier) (at_p : s.pairs[p]? = some pair)
    (at_p' : (s.step e).pairs[p]? = some later) (live : later.cancelled = false)
    (born : later.watchdog ≠ .unborn) :
    Activity p s e ∧ s.now = later.lastEvent ∨
      ¬ Activity p s e ∧ later.lastEvent = pair.lastEvent ∧ pair.watchdog ≠ .unborn := by
  obtain ⟨later', at_later, moves⟩ := (step_transition s e).moves h.lawful at_p
  cases at_p'.symm.trans at_later
  have orderly := h.lawful.orderly.pairs p pair at_p
  by_cases active : Activity p s e
  · refine .inl ⟨active, ?_⟩
    rcases active with news | connects
    · have gate : pair.gateOpen = true := by
        obtain ⟨later', at_later, facts⟩ := (step_transition s e).later at_p
        cases at_p'.symm.trans at_later
        rw [h.lawful.sound.gate p pair at_p, facts.live live]
        rfl
      cases at_p'.symm.trans (news.heard at_p gate)
      rfl
    · exact (connects.lastEvent h at_p at_p').symm
  · refine .inr ⟨active, ?_⟩
    cases moves with
    | rests same => exact ⟨same.lastEvent, same.watchdog ▸ born⟩
    | ends finished => simp [live] at finished
    | hears own _ news => exact absurd (.inl ⟨_, _, rfl, news, own⟩) active
    | closes => exact ⟨rfl, born⟩
    | queues wakes => exact ⟨wakes.rests.lastEvent, by simp [wakes.idle.1]⟩
    | begins turn =>
      refine ⟨turn.same.2.1, ?_⟩
      cases turn with
      | atOnce wakes => simp [wakes.idle.1]
      | waited queued => simp [queued]
    | opens _ call =>
      obtain ⟨-, -, newest, starting⟩ := orderly.opening _ _ call
      exact absurd (.inr ⟨_, _, rfl, newest.1, starting⟩) active
    | replaced watchdog =>
      obtain ⟨-, -, newest, starting⟩ := orderly.starting _ watchdog
      exact absurd (.inr ⟨_, _, rfl, newest.1, starting⟩) active
    | notReplaced watchdog | exchanges watchdog => exact ⟨rfl, by simp [watchdog]⟩

/-! ## What the watchdog looks at, over a run -/

/-- What happened in the run to a pair that lives and is as it is now. -/
structure Grounds (s₀ : Supervisor) (p : PairId) (events : List Event) (pair : Pair) : Prop where
  queued : pair.watchdog = .queued → s₀.Since (Decides p) (Begins p) events
  stalled : pair.state = .stalled → pair.watchdog ≠ .queued →
    s₀.Since (Closing p) (Begins p) events
  resubscribing : pair.state = .resubscribing → s₀.Occurs (Begins p) events ∧
    (pair.watchdog = .idle → s₀.Since (Fails p) (Begins p) events)
  patience : ∀ T, pair.patience = some T →
    s₀.resubTimeout = some T ∧ s₀.Occurs (Opens p true) events
  lastEvent : pair.watchdog ≠ .unborn →
    s₀.Since (fun s e => Activity p s e ∧ s.now = pair.lastEvent) (Activity p) events

theorem Grounds.step (h : s₀.Grounds p events pair) (orderlier : (s₀.run events).Orderlier)
    (at_p : (s₀.run events).pairs[p]? = some pair)
    (at_p' : ((s₀.run events).step e).pairs[p]? = some later)
    (moves : Moves (s₀.run events) p pair e later) (live : later.cancelled = false) :
    s₀.Grounds p (events ++ [e]) later := by
  have lawful := orderlier.lawful
  have dull (same : later.total = pair.total) : ¬ Begins p (s₀.run events) e :=
    not_begins at_p at_p' same
  constructor
  · intro queued
    rw [since_concat]
    by_cases waited : pair.watchdog = .queued
    · exact .inr ⟨h.queued waited, dull (moves.queued live queued waited)⟩
    · exact .inl ⟨pair, later, at_p, at_p', waited, .inr ⟨waited, queued⟩⟩
  · -- A silent pair is stalled as well, but then the watchdog waits or the replacement begins.
    intro stalled unqueued
    rw [since_concat]
    rcases moves.stalled live stalled unqueued with closing | ⟨same, stalled, unqueued⟩
    · exact .inl closing
    · exact .inr ⟨h.stalled stalled unqueued, dull same⟩
  · intro state
    rw [since_concat, occurs_concat]
    rcases moves.resubscribing at_p (lawful.coherent p pair at_p) live state with
      ⟨more, busy⟩ | ⟨same, state, idle⟩
    · exact ⟨.inr ⟨pair, later, at_p, at_p', more⟩, fun idle => absurd idle busy⟩
    · obtain ⟨begun, failed⟩ := h.resubscribing state
      refine ⟨.inl begun, fun now_idle => ?_⟩
      rcases idle now_idle with fails | idle
      · exact .inl fails
      · exact .inr ⟨failed idle, dull same⟩
  · intro T patient
    rw [occurs_concat]
    rcases moves.patience live patient with ⟨timeout, opens⟩ | patient
    · exact ⟨run_resubTimeout s₀ events ▸ timeout, .inr opens⟩
    · obtain ⟨timeout, opened⟩ := h.patience T patient
      exact ⟨timeout, .inl opened⟩
  · intro born
    rw [since_concat]
    rcases step_lastEvent orderlier at_p at_p' live born with active | ⟨silent, same, born⟩
    · exact .inl active
    · exact .inr ⟨same ▸ h.lastEvent born, silent⟩

theorem run_grounds (initial : s₀.Initial) (events : List Event)
    (at_p : (s₀.run events).pairs[p]? = some pair) (live : pair.cancelled = false) :
    s₀.Grounds p events pair := by
  revert live
  refine run_pair (motive := fun events pair => pair.cancelled = false → s₀.Grounds p events pair)
    initial ?_ ?_ events at_p
  · -- A new pair is not yet in any of the conditions that need grounds.
    intro events e key observer _ _
    constructor <;> simp [newPair]
  · intro events e pair later orderlier at_p at_p' facts moves ih live
    exact (ih (facts.live live)).step orderlier at_p at_p' moves live

/-! ## Decisions -/

/-- A watchdog decides only when it wakes, for a pair that needs a replacement. -/
theorem Decides.wakes (decides : Decides p s e) (lawful : s.Lawful) :
    ∃ pair woken, s.pairs[p]? = some pair ∧ Wakes s p pair e woken ∧
      needsReplacement pair s.now = true := by
  obtain ⟨pair, later, at_p, at_p', unqueued, about⟩ := decides
  have still {later : Pair} (total : later.total = pair.total)
      (queued : later.watchdog = .queued → pair.watchdog = .queued) : ¬ SetsAbout pair later := by
    rintro (more | ⟨-, waits⟩)
    · simp [total] at more
    · exact unqueued (queued waits)
  obtain ⟨later', at_later, moves⟩ := (step_transition s e).moves lawful at_p
  cases at_p'.symm.trans at_later
  cases moves with
  | rests same => exact absurd about (still same.total (same.watchdog ▸ id))
  | ends _ total queued => exact absurd about (still total queued)
  | queues wakes needed => exact ⟨pair, _, at_p, wakes, needed⟩
  | begins turn =>
    cases turn with
    | atOnce wakes needed => exact ⟨pair, _, at_p, wakes, needed⟩
    | waited queued => exact absurd queued unqueued
  | hears | closes => exact absurd about (still rfl id)
  | opens | replaced | notReplaced | exchanges =>
    refine absurd about (still rfl ?_)
    intro waits
    cases waits

theorem Wakes.event {woken : Pair} (wakes : Wakes s p pair e woken) :
    e = .takeNotice p ∨ e = .takeTick p := by
  cases wakes with
  | notice => exact .inl rfl
  | tick => exact .inr rfl

/-- A pair that needs a replacement lives. -/
theorem Lawful.live_of_needed (h : s.Lawful) (at_p : s.pairs[p]? = some pair)
    (needed : needsReplacement pair s.now = true) : pair.cancelled = false := by
  rw [← Bool.not_eq_true, h.sound.finished p pair at_p]
  intro state
  simp [needsReplacement, state] at needed

theorem run_decides (initial : s₀.Initial) (events : List Event)
    (decides : Decides p (s₀.run events) e) :
    s₀.Since (Closing p) (Begins p) events ∨
      (s₀.Occurs (Begins p) events ∧ s₀.Since (Fails p) (Begins p) events) ∨
      ∃ T, s₀.resubTimeout = some T ∧ s₀.Overdue p T events := by
  have lawful := (lawful_initial initial).run events
  obtain ⟨pair, woken, at_p, wakes, needed⟩ := decides.wakes lawful
  obtain ⟨idle, -⟩ := wakes.idle
  have grounds := run_grounds initial events at_p (lawful.live_of_needed at_p needed)
  unfold needsReplacement at needed
  split at needed
  · split at needed
    · cases needed
    · rename_i T patient
      obtain ⟨timeout, opened⟩ := grounds.patience T patient
      refine .inr (.inr ⟨T, timeout, opened, ?_⟩)
      obtain ⟨a, e, b, split, ⟨active, last⟩, quiet⟩ := grounds.lastEvent (by simp [idle])
      have late := of_decide_eq_true needed
      exact ⟨a, e, b, split, ⟨active, by omega⟩, quiet⟩
  · rename_i stalled
    exact .inl (grounds.stalled stalled (by simp [idle]))
  · rename_i state
    obtain ⟨begun, failed⟩ := grounds.resubscribing state
    exact .inr (.inl ⟨begun, failed idle⟩)
  · cases needed
  · cases needed

/-! ## Replacements -/

theorem Moves.total (moves : Moves s p pair e later) : later.total = pair.total ∨
    later.total = pair.total + 1 ∧ pair.cancelled = false ∧
      ∃ ready, GetsTurn s p pair e ready := by
  cases moves with
  | rests same => exact .inl same.total
  | ends _ total => exact .inl total
  | queues wakes => exact .inl wakes.rests.total
  | begins turn live => exact .inr ⟨congrArg (· + 1) turn.same.1, live, _, turn⟩
  | hears | closes | opens | replaced | notReplaced | exchanges => exact .inl rfl

/-- A replacement begins when the watchdog decides on it, or after the watchdog decided on it and
waited for its turn. -/
theorem run_begins (initial : s₀.Initial) (events : List Event)
    (begins : Begins p (s₀.run events) e) :
    Decides p (s₀.run events) e ∨ s₀.Since (Decides p) (Begins p) events := by
  obtain ⟨pair, later, at_p, at_p', more⟩ := begins
  obtain ⟨later', at_later, moves⟩ :=
    (step_transition _ e).moves ((lawful_initial initial).run events) at_p
  cases at_p'.symm.trans at_later
  rcases moves.total with same | ⟨-, live, ready, turn⟩
  · simp [same] at more
  · cases turn with
    | atOnce wakes =>
      exact .inl ⟨pair, later, at_p, at_p', by simp [wakes.idle.1], .inl more⟩
    | waited queued => exact .inr ((run_grounds initial events at_p live).queued queued)

theorem run_total (initial : s₀.Initial) (events : List Event)
    (at_p : (s₀.run events).pairs[p]? = some pair) (unbegun : ¬ s₀.Occurs (Begins p) events) :
    pair.total = 0 := by
  revert unbegun
  refine run_pair (motive := fun events pair => ¬ s₀.Occurs (Begins p) events → pair.total = 0)
    initial ?_ ?_ events at_p
  · intro events e key observer _ _
    rfl
  · intro events e pair later _ at_p at_p' _ moves ih unbegun
    rw [occurs_concat, not_or] at unbegun
    rcases moves.total with same | ⟨more, -⟩
    · exact same.trans (ih unbegun.1)
    · exact absurd ⟨pair, later, at_p, at_p', more⟩ unbegun.2

/-- Without a closing and without a silence nothing is replaced. -/
theorem run_unprovoked (initial : s₀.Initial) (events : List Event)
    (unclosed : ¬ s₀.Occurs (Closing p) events)
    (lively : ∀ T a b, s₀.resubTimeout = some T → events = a ++ b → ¬ s₀.Overdue p T a) :
    ¬ s₀.Occurs (Begins p) events := by
  induction events using List.reverseRecOn with
  | nil =>
    rintro ⟨a, e, b, eq, -⟩
    simp at eq
  | append_singleton events e ih =>
    rw [occurs_concat, not_or] at unclosed
    have unbegun : ¬ s₀.Occurs (Begins p) events :=
      ih unclosed.1 fun T a b timeout split => lively T a (b ++ [e]) timeout (by simp [split])
    -- A decision on a first replacement could have only a closing or a silence as its reason.
    have undecided (a b : List Event) (split : events = a ++ b) (e : Event) :
        ¬ Decides p (s₀.run a) e := by
      intro decides
      rcases run_decides initial a decides with closed | ⟨begun, -⟩ | ⟨T, timeout, overdue⟩
      · exact unclosed.1 (split ▸ closed.occurs.append b)
      · exact unbegun (split ▸ begun.append b)
      · exact lively T a (b ++ [_]) timeout (by rw [split, List.append_assoc]) overdue
    rw [occurs_concat]
    rintro (begun | begins)
    · exact unbegun begun
    · rcases run_begins initial events begins with decides | ⟨a, e, b, split, decides, -⟩
      · exact undecided events [] (by simp) e decides
      · exact undecided a (e :: b) split e decides

/-- No channel is replaced without a reason. Over every run, a watchdog decides on a replacement
only when it wakes, and only if a channel of the pair closed and no replacement began since, or the
replacement that began last failed, or a time is configured, the pair's first channel can stall, and
the last update, heartbeat or successful handshake of the pair is longer ago than that. Every
replacement that begins was decided on, at once or before the watchdog waited for its turn. Stopping
the old channel is part of a replacement: a closing reported meanwhile came after it began.

So a pair of which no channel closed has had no replacement, if no time is configured, or its first
channel cannot stall, or no silence of the pair was ever longer. -/
theorem replacements_justified (initial : s₀.Initial) (p : PairId) (events : List Event) :
    (∀ e, Decides p (s₀.run events) e →
      (e = .takeNotice p ∨ e = .takeTick p) ∧
        (s₀.Since (Closing p) (Begins p) events ∨ s₀.Since (Fails p) (Begins p) events ∨
          ∃ T, s₀.resubTimeout = some T ∧ s₀.Overdue p T events)) ∧
    (∀ e, Begins p (s₀.run events) e →
      Decides p (s₀.run events) e ∨ s₀.Since (Decides p) (Begins p) events) ∧
    ∀ pair, (s₀.run events).pairs[p]? = some pair → ¬ s₀.Occurs (Closing p) events →
      (s₀.resubTimeout = none ∨ ¬ s₀.Occurs (Opens p true) events ∨
        ∃ T, s₀.resubTimeout = some T ∧ ∀ a b, events = a ++ b → ¬ s₀.Overdue p T a) →
      pair.total = 0 := by
  refine ⟨fun e decides => ⟨?_, ?_⟩, fun e begins => run_begins initial events begins, ?_⟩
  · obtain ⟨pair, woken, -, wakes, -⟩ := decides.wakes ((lawful_initial initial).run events)
    exact wakes.event
  · exact (run_decides initial events decides).imp_right (.imp_left And.right)
  · intro pair at_p unclosed calm
    refine run_total initial events at_p (run_unprovoked initial events unclosed ?_)
    intro T a b timeout split overdue
    rcases calm with unset | steady | ⟨T', timeout', lively⟩
    · simp [unset] at timeout
    · exact steady (split ▸ overdue.1.append b)
    · cases timeout.symm.trans timeout'
      exact lively a b split overdue

/-- A pair opens with a channel that can stall or cannot, and nothing is heard of it. -/
def unheard (canStall : Bool) : List Event :=
  [.subscribe (wholeProgram .state) none, .enter 0, .handshake 0 canStall (.ok ()), .pass 2]

/-- The watchdog decides to replace a channel that can stall; one that cannot stays. -/
theorem replacements_justified_unheard :
    let s₀ : Supervisor := { resubTimeout := some 1 }
    Initial s₀ ∧ Decides 0 (s₀.run (unheard true)) (.takeTick 0) ∧
      s₀.Overdue 0 1 (unheard true) ∧
      ∃ pair, (s₀.run (unheard false ++ [.takeTick 0])).pairs[0]? = some pair ∧
        pair.total = 0 := by
  intro s₀
  have initial : Initial s₀ := ⟨rfl, rfl, rfl, rfl⟩
  have decides : Decides 0 (s₀.run (unheard true)) (.takeTick 0) :=
    ⟨_, _, rfl, rfl, by decide, .inl rfl⟩
  obtain ⟨justified, -⟩ := replacements_justified initial 0 (unheard true)
  obtain ⟨-, -, calm⟩ := replacements_justified initial 0 (unheard false ++ [.takeTick 0])
  refine ⟨initial, decides, ?_, _, rfl, calm _ rfl ?_ (.inr (.inl ?_))⟩
  · obtain ⟨-, closed | failed | ⟨T, timeout, overdue⟩⟩ := justified _ decides
    · obtain ⟨a, e, b, eq, c, rfl, -⟩ := closed.occurs
      have mem : Event.deliver c .closed ∈ unheard true := by simp [eq]
      simp [unheard] at mem
    · obtain ⟨a, e, b, eq, c, canStall, error, pair, rfl, -⟩ := failed.occurs
      have mem : Event.handshake c canStall (.error error) ∈ unheard true := by simp [eq]
      simp [unheard] at mem
    · cases timeout
      exact overdue
  · rintro ⟨a, e, b, eq, c, rfl, -⟩
    have mem : Event.deliver c .closed ∈ unheard false ++ [.takeTick 0] := by simp [eq]
    simp [unheard] at mem
  · rintro ⟨a, e, b, eq, id, c, rfl, -⟩
    have mem : Event.handshake c true (.ok ()) ∈ unheard false ++ [.takeTick 0] := by simp [eq]
    simp [unheard] at mem

/-- A channel is made for the pair, and its handshake begins. -/
def Makes (p : PairId) (s : Supervisor) (e : Event) : Prop :=
  ∃ c, s.owner? c = none ∧ (s.step e).owner? c = some p

/-- A silent channel is stopped, and meanwhile it is heard of and closes. -/
def closedWhileStopped : List Event :=
  unheard true ++ [.takeTick 0, .deliver 0 .heartbeat, .deliver 0 .closed]

/-- Channels keep to their contract and no handshake fails, and yet the watchdog decides to replace
a channel although no channel of the pair closed since the handshake of that one began, and the pair
was not silent. -/
theorem replaced_for_stopped_channel :
    let s₀ : Supervisor := { resubTimeout := some 1 }
    let events := closedWhileStopped ++ [.stopped 0] ++ [.handshake 1 true (.ok ())]
    Initial s₀ ∧ Contract s₀ events ∧ Decides 0 (s₀.run events) (.takeNotice 0) ∧
      ¬ s₀.Since (Closing 0) (Makes 0) events ∧
      (∀ c canStall error, .handshake c canStall (.error error) ∉ events) ∧
      ¬ s₀.Overdue 0 1 events := by
  intro s₀ events
  let s := s₀.run events
  have stalled : s.pairs.map (fun pair => (pair.watchdog, pair.total)) = [(.idle, 1)] := by
    simp only [s, events, s₀]
    decide +kernel
  have replaced : (s.step (.takeNotice 0)).pairs.map Pair.total = [2] := by
    simp only [s, events, s₀]
    decide +kernel
  obtain ⟨pair, pairs, eq⟩ := List.map_eq_singleton_iff.1 stalled
  obtain ⟨later, laters, more⟩ := List.map_eq_singleton_iff.1 replaced
  obtain ⟨idle, once⟩ := Prod.mk.inj eq
  have at_p : s.pairs[0]? = some pair := by rw [pairs]; rfl
  have at_p' : (s.step (.takeNotice 0)).pairs[0]? = some later := by rw [laters]; rfl
  have decides : Decides 0 s (.takeNotice 0) :=
    ⟨pair, later, at_p, at_p', by simp [idle], .inl (by rw [more, once]; rfl)⟩
  have makes : Makes 0 (s₀.run closedWhileStopped) (.stopped 0) := ⟨1, by decide +kernel⟩
  have connects : Activity 0 (s₀.run (closedWhileStopped ++ [.stopped 0]))
      (.handshake 1 true (.ok ())) := .inr ⟨1, true, rfl, by decide +kernel⟩
  refine ⟨⟨rfl, rfl, rfl, rfl⟩, contract_of_check (by simp only [s₀]; decide +kernel), decides, ?_,
    by simp [events, closedWhileStopped, unheard], ?_⟩
  · intro closed
    rcases since_concat.1 closed with ⟨c, here, -⟩ | ⟨closed, -⟩
    · cases here
    rcases since_concat.1 closed with ⟨c, here, -⟩ | ⟨-, unmade⟩
    · cases here
    · exact unmade makes
  · rintro ⟨-, silent⟩
    rcases since_concat.1 silent with ⟨-, long⟩ | ⟨-, unheard⟩
    · exact absurd long (by decide +kernel)
    · exact unheard connects

end LedgerWatch.Supervisor
