import LedgerWatch.Proofs.Supervisor.Handshakes
import LedgerWatch.Proofs.Supervisor.Moves
import LedgerWatch.Proofs.Supervisor.Quiescence

/-!
# Calls that subscribe to one key

Main statement: `subscribes_agree`. As long as nobody unsubscribes a key, each pair of the key is
begun by one call, which makes its first channel, and the end of that handshake is what all calls
that waited for it are told. After a success no call begins another pair of the key; after a
failure the key is free, and the next call begins with a new pair and a new channel.

`Unharmed` is the invariant: a pair of the key ends only when its first handshake fails. A call
that found the pair waits in its line, or was told how the handshake ended (`Served`); or it came
before the call that registered the pair had the pair's channel, and did not wait (`Overtakes`).
-/

namespace LedgerWatch.Supervisor

variable {s t s₀ : Supervisor} {p q : PairId} {pair : Pair} {id : CallId} {c d : ChannelId}
  {key : WatchKey} {e : Event} {events : List Event} {P : Supervisor → Event → Prop}
  {result : Except SubscriptionError Unit}

/-- The event does not unsubscribe the key. -/
def Event.Spares (key : WatchKey) (e : Event) : Prop :=
  e ≠ .unsubscribe key ∧ ∀ order, e ≠ .unsubscribeAll order

/-! ## Calls of a run -/

/-- The call `id` finds the key not registered: it begins the pair `p`. -/
def Initiates (key : WatchKey) (id : CallId) (p : PairId) (s : Supervisor) (e : Event) : Prop :=
  s.Registers p key e ∧ id = s.calls.length

/-- The call `id`, which comes for the channel of the pair `p` that it began, makes the pair's
first channel `c`. -/
def Undertakes (id : CallId) (p : PairId) (c : ChannelId) (s : Supervisor) (e : Event) : Prop :=
  e = .enter id ∧ s.calls[id]? = some (.arriving p) ∧
    (s.step e).calls[id]? = some (.starting p c)

/-- The call `id` for the key finds the pair `p`. -/
def Joins (key : WatchKey) (id : CallId) (p : PairId) (s : Supervisor) (e : Event) : Prop :=
  s.registry.get? key = some p ∧ id = s.calls.length ∧ ∃ observer, e = .subscribe key observer

/-- The call `id` finds the pair `p` before the call that began it has come for its channel. -/
def Overtakes (key : WatchKey) (id : CallId) (p : PairId) (s : Supervisor) (e : Event) : Prop :=
  Joins key id p s e ∧ ∃ first : CallId, s.calls[first]? = some (.arriving p)

/-- Pairs are begun by calls for their key. -/
theorem run_begun (initial : s₀.Initial) (events : List Event)
    (at_p : (s₀.run events).pairs[p]? = some pair) :
    ∃ id, s₀.Occurs (Initiates pair.key id p) events := by
  refine run_pair (motive := fun events pair =>
    ∃ id, s₀.Occurs (Initiates pair.key id p) events) initial ?_ ?_ events at_p
  · intro events e key observer registers
    exact ⟨_, occurs_concat.mpr (.inr ⟨registers, rfl⟩)⟩
  · rintro events e pair later - - - facts - ⟨id, begun⟩
    exact ⟨id, occurs_concat.mpr (.inl (facts.key ▸ begun))⟩

/-- A pair that was begun is there, under its key. -/
theorem run_present (begun : s₀.Occurs (Initiates key id p) events) :
    ∃ pair, (s₀.run events).pairs[p]? = some pair ∧ pair.key = key := by
  obtain ⟨a, e, b, rfl, new, -⟩ := begun
  obtain ⟨observer, same⟩ := new.step
  have at_p : ((s₀.run a).step e).pairs[p]? = some ((s₀.run a).newPair key observer) := by
    rw [same, new.1]
    simp
  obtain ⟨later, at_later, facts⟩ := run_later b at_p
  refine ⟨later, ?_, facts.key⟩
  rw [run_append]
  exact at_later

/-- No two calls begin the same pair. -/
theorem run_begun_once {id' : CallId} (events : List Event)
    (mine : s₀.Occurs (Initiates key id p) events)
    (yours : s₀.Occurs (Initiates key id' p) events) : id' = id := by
  induction events using List.reverseRecOn with
  | nil =>
    obtain ⟨a, e, b, eq, -⟩ := mine
    simp at eq
  | append_singleton events e ih =>
    have apart {id : CallId} (old : s₀.Occurs (Initiates key id p) events)
        (new : (s₀.run events).Registers p key e) : False := by
      obtain ⟨pair, at_p, -⟩ := run_present old
      have hp := (List.getElem?_eq_some_iff.1 at_p).1
      rw [new.1] at hp
      omega
    rcases occurs_concat.mp mine with mine | ⟨new, rfl⟩
    · rcases occurs_concat.mp yours with yours | ⟨new, -⟩
      · exact ih mine yours
      · exact (apart mine new).elim
    · rcases occurs_concat.mp yours with yours | ⟨-, rfl⟩
      · exact (apart yours new).elim
      · rfl

/-- A call that comes for a pair's first channel, or has it, began the pair. -/
theorem run_opening {call : Call} (initial : s₀.Initial) (events : List Event)
    (at_id : (s₀.run events).calls[id]? = some call) (opens : call.opens? = some p) :
    ∃ key, s₀.Occurs (Initiates key id p) events := by
  induction events using List.reverseRecOn generalizing call with
  | nil => simp [run, initial.calls] at at_id
  | append_singleton events e ih =>
    rw [run_concat] at at_id
    have sound := run_sound (sound_initial initial) events
    rcases (step_transition _ e).opening_from sound opens at_id with before | opening
    · obtain ⟨key, begun⟩ := ih before opens
      exact ⟨key, begun.append [e]⟩
    · cases opening with
      | arriving new registers => exact ⟨_, occurs_concat.2 (.inr ⟨registers, new⟩)⟩
      | starting _ came =>
        obtain ⟨key, begun⟩ := ih came rfl
        exact ⟨key, begun.append [e]⟩

/-- A pair for whose first channel a call still comes is there and has no channel. -/
theorem Orderly.untouched (h : s.Orderly) (came : s.calls[id]? = some (.arriving p)) :
    ∃ pair, s.pairs[p]? = some pair ∧ s.Untouched p pair id := by
  have at_p := List.getElem?_eq_getElem (h.bounded id p (aboutAt_eq_some.2 ⟨_, came, rfl⟩))
  exact ⟨_, at_p, (h.pairs p _ at_p).arriving id came⟩

theorem Undertakes.owner (undertakes : Undertakes id p c s e) (lawful : s.Lawful) :
    (s.step e).owner? c = some p := by
  obtain ⟨rfl, -, starts⟩ := undertakes
  have orderly := (lawful.step (.enter id)).orderly
  have at_p :=
    List.getElem?_eq_getElem (orderly.bounded id p (aboutAt_eq_some.2 ⟨_, starts, rfl⟩))
  exact ((orderly.pairs p _ at_p).opening id c starts).2.2.1.1

/-- The first channel of a pair is made once. -/
theorem run_undertaken_once {id' : CallId} (initial : s₀.Initial) (events : List Event)
    (mine : s₀.Occurs (Undertakes id p c) events) (yours : s₀.Occurs (Undertakes id' p d) events) :
    d = c := by
  induction events using List.reverseRecOn with
  | nil =>
    obtain ⟨a, e, b, eq, -⟩ := mine
    simp at eq
  | append_singleton events e ih =>
    -- A channel that was made belongs to the pair, and then no call comes for the first one.
    have apart {id id' : CallId} {c d : ChannelId} (old : s₀.Occurs (Undertakes id p c) events)
        (new : Undertakes id' p d (s₀.run events) e) : False := by
      obtain ⟨-, came, -⟩ := new
      obtain ⟨pair, -, untouched⟩ := ((lawful_initial initial).run events).orderly.untouched came
      obtain ⟨a, e', b, rfl, undertakes⟩ := old
      have own := run_owner b (undertakes.owner ((lawful_initial initial).run a))
      refine untouched.channels c ?_
      rw [run_append]
      exact own
    rcases occurs_concat.mp mine with mine | mine
    · rcases occurs_concat.mp yours with yours | yours
      · exact ih mine yours
      · exact (apart mine yours).elim
    · rcases occurs_concat.mp yours with yours | yours
      · exact (apart yours mine).elim
      · obtain ⟨rfl, -, starts⟩ := mine
        obtain ⟨same, -, starts'⟩ := yours
        cases same
        cases starts.symm.trans starts'
        rfl

/-- The first channel of a pair is made by the call that began the pair. -/
theorem run_undertaken_by {id' : CallId} (initial : s₀.Initial) (events : List Event)
    (begun : s₀.Occurs (Initiates key id p) events)
    (undertaken : s₀.Occurs (Undertakes id' p c) events) : id' = id := by
  obtain ⟨a, e, b, rfl, -, came, -⟩ := undertaken
  obtain ⟨other, began⟩ := run_opening initial a came rfl
  have began := began.append (e :: b)
  obtain ⟨pair, at_p, own⟩ := run_present begun
  obtain ⟨pair', at_p', own'⟩ := run_present began
  cases at_p.symm.trans at_p'
  exact run_begun_once _ begun ((own.symm.trans own') ▸ began)

/-- A call that comes for a pair's first channel does so until it has its turn. -/
theorem run_arriving (events : List Event) (lawful : s.Lawful)
    (came : s.calls[id]? = some (.arriving p)) (unentered : .enter id ∉ events) :
    (s.run events).calls[id]? = some (.arriving p) := by
  induction events generalizing s with
  | nil => exact came
  | cons e events ih =>
    rw [List.mem_cons, not_or] at unentered
    refine ih (lawful.step e) ?_ unentered.2
    rcases (step_transition s e).call lawful.sound lawful.orderly came with same | proceeds
    · exact same
    · cases proceeds with
      | entered event | leftAlone event => exact absurd event.symm unentered.1

/-- The call that began a pair is there. -/
theorem run_initiator (initial : s₀.Initial) (begun : s₀.Occurs (Initiates key id p) events) :
    ∃ call, (s₀.run events).calls[id]? = some call := by
  obtain ⟨a, e, b, rfl, new, rfl⟩ := begun
  obtain ⟨observer, same⟩ := new.step
  have lawful := ((lawful_initial initial).run a).step e
  have starts : ((s₀.run a).step e).Starts (s₀.run a).calls.length p := by
    rw [same]
    exact .inl List.getElem?_concat_length
  rw [run_append]
  rcases run_starts b lawful.sound lawful.orderly starts with
    came | ⟨c, starting⟩ | told | ⟨error, told, -⟩
  · exact ⟨_, came⟩
  · exact ⟨_, starting⟩
  · exact ⟨_, told⟩
  · exact ⟨_, told⟩

/-! ## Pairs of a key that nobody unsubscribes -/

/-- What holds as long as nobody unsubscribes the key: a pair of the key that ended has no channel
and gets none, because its first handshake failed. -/
structure Unharmed (key : WatchKey) (s : Supervisor) : Prop where
  orderlier : s.Orderlier
  prompt : s.Prompt
  failed : ∀ (p : PairId) (pair : Pair), s.pairs[p]? = some pair → pair.key = key →
    pair.cancelled = true → s.SealedAt p
  came : ∀ (p : PairId) (pair : Pair), s.pairs[p]? = some pair → pair.key = key →
    pair.cancelled = true → ∀ id : CallId, s.calls[id]? ≠ some (.arriving p)

theorem unharmed_initial (initial : s.Initial) : s.Unharmed key where
  orderlier := orderlier_initial initial
  prompt id := by simp [owes, initial.calls]
  failed p pair at_p := by simp [initial.pairs] at at_p
  came p pair at_p := by simp [initial.pairs] at at_p

/-- A live pair of the key is registered. -/
theorem Unharmed.registered (h : s.Unharmed key) (at_p : s.pairs[p]? = some pair)
    (own : pair.key = key) (live : pair.cancelled = false) : s.registry.get? key = some p := by
  rcases h.orderlier.lawful.sound.live p pair at_p live with known | held | ⟨id, mem⟩
  · exact own ▸ known
  · cases held
  · simp [h.prompt id] at mem

/-- A pair of the key ends in one way only. -/
theorem Unharmed.ends (h : s.Unharmed key) (spares : e.Spares key)
    (at_p : (s.step e).pairs[p]? = some pair) (own : pair.key = key)
    (finished : pair.cancelled = true) (live : ¬ s.Ended p) :
    (∃ (id : CallId) (c : ChannelId), s.calls[id]? = some (.starting p c)) ∧
      (s.step e).SealedAt p := by
  have step := step_transition s e
  rcases step.newly_ended h.orderlier ⟨pair, at_p, finished⟩ live with ends | ⟨id, mem⟩ |
    ⟨starting, sealed, -⟩
  · cases ends with
    | @unsubscribed other _ known =>
      obtain ⟨mine, at_mine, same, -⟩ :=
        h.orderlier.lawful.sound.registered other p (Table.mem_of_get? known)
      obtain ⟨later, at_later, facts⟩ := step.later at_mine
      cases at_p.symm.trans at_later
      have same : other = key := same.symm.trans (facts.key.symm.trans own)
      exact absurd (by rw [same]) spares.1
    | unsubscribedAll => exact absurd rfl (spares.2 _)
  · simp [h.prompt id] at mem
  · exact ⟨starting, sealed⟩

theorem Unharmed.step (h : s.Unharmed key) (e : Event) (spares : e.Spares key) :
    (s.step e).Unharmed key where
  orderlier := (step_transition s e).orderlier (h.orderlier.lawful.step e) h.orderlier
  prompt := (step_transition s e).prompt h.orderlier.lawful.sound spares.2 h.prompt
  failed p pair at_p own finished := by
    have step := step_transition s e
    have lawful := h.orderlier.lawful
    by_cases before : s.Ended p
    · obtain ⟨mine, at_mine, dead⟩ := before
      obtain ⟨later, at_later, facts⟩ := step.later at_mine
      cases at_p.symm.trans at_later
      have sealed := h.failed p mine at_mine (facts.key.symm.trans own) dead
      exact step.sealedAt lawful.sound lawful.orderly sealed
    · exact (h.ends spares at_p own finished before).2
  came p pair at_p own finished id arriving := by
    have step := step_transition s e
    have lawful := h.orderlier.lawful
    rcases step.opening_from lawful.sound rfl arriving with came | opening
    · obtain ⟨mine, at_mine, untouched⟩ := lawful.orderly.untouched came
      by_cases before : s.Ended p
      · obtain ⟨mine', at_mine', dead⟩ := before
        cases at_mine.symm.trans at_mine'
        obtain ⟨later, at_later, facts⟩ := step.later at_mine
        cases at_p.symm.trans at_later
        exact h.came p mine at_mine (facts.key.symm.trans own) dead id came
      · obtain ⟨⟨id', c, starting⟩, -⟩ := h.ends spares at_p own finished before
        have newest := ((lawful.orderly.pairs p mine at_mine).opening id' c starting).2.2.1
        exact untouched.channels c newest.1
    · cases opening with
      | arriving _ registers =>
        obtain ⟨observer, same⟩ := registers.step
        rw [same, registers.1, List.getElem?_concat_length] at at_p
        cases at_p
        cases finished

theorem Unharmed.run (h : s.Unharmed key) (events : List Event)
    (kept : ∀ e ∈ events, e.Spares key) : (s.run events).Unharmed key := by
  induction events generalizing s with
  | nil => exact h
  | cons e events ih =>
    rw [List.forall_mem_cons] at kept
    exact ih (h.step e kept.1) kept.2

/-- The pair's first handshake succeeded, and the pair did not end. -/
def Open (s : Supervisor) (p : PairId) : Prop :=
  ∃ pair, s.pairs[p]? = some pair ∧ pair.cancelled = false ∧ pair.watchdog ≠ .unborn

theorem Moves.stays_born {later : Pair} (moves : Moves s p pair e later)
    (born : pair.watchdog ≠ .unborn) (live : later.cancelled = false) :
    later.watchdog ≠ .unborn := by
  cases moves with
  | rests same => rwa [same.watchdog]
  | ends finished =>
    rw [finished] at live
    cases live
  | hears | closes => exact born
  | begins _ _ work =>
    rcases work with ⟨old, rfl⟩ | ⟨new, rfl⟩ <;> simp [replacing]
  | queues | opens | replaced | notReplaced | exchanges => simp [openedPair, replacedPair]

theorem Unharmed.stays_open (h : s.Unharmed key) (spares : e.Spares key)
    (at_p : s.pairs[p]? = some pair) (own : pair.key = key) (opened : s.Open p) :
    (s.step e).Open p := by
  obtain ⟨mine, at_mine, live, born⟩ := opened
  cases at_p.symm.trans at_mine
  have step := step_transition s e
  obtain ⟨later, at_later, moves⟩ := step.moves h.orderlier.lawful at_p
  obtain ⟨later', at_later', facts⟩ := step.later at_p
  cases at_later.symm.trans at_later'
  have alive : ¬ s.Ended p := by
    rintro ⟨mine, at_mine, finished⟩
    cases at_p.symm.trans at_mine
    rw [live] at finished
    cases finished
  have stays : later.cancelled = false := by
    rw [← Bool.not_eq_true]
    intro finished
    obtain ⟨⟨id, c, starting⟩, -⟩ := h.ends spares at_later (facts.key.trans own) finished alive
    exact born ((h.orderlier.lawful.orderly.pairs p pair at_p).opening id c starting).2.1
  exact ⟨later, at_later, stays, moves.stays_born born stays⟩

theorem Open.not_sealed (opened : s.Open p) : ¬ s.SealedAt p := by
  rintro ⟨⟨mine, at_mine, done⟩, -⟩
  obtain ⟨pair, at_p, live, -⟩ := opened
  cases at_p.symm.trans at_mine
  rw [done.cancelled] at live
  cases live

/-! ## What calls are told -/

theorem run_returned (events : List Event) (lawful : s.Lawful)
    (at_id : s.calls[id]? = some (.returned result)) :
    (s.run events).calls[id]? = some (.returned result) := by
  induction events generalizing s with
  | nil => exact at_id
  | cons e events ih =>
    exact ih (lawful.step e)
      ((step_transition s e).returned lawful.sound lawful.orderly at_id)

/-- The pair's first handshake is over, and this is what a call that waited for it is told. -/
def Answers (s : Supervisor) (key : WatchKey) (p : PairId)
    (result : Except SubscriptionError Unit) : Prop :=
  s.Open p ∧ result = .ok () ∨ s.SealedAt p ∧ result = .error (.notActive key.text)

theorem Answers.unique {other : Except SubscriptionError Unit} (mine : s.Answers key p result)
    (yours : s.Answers key p other) : other = result := by
  rcases mine with ⟨opened, rfl⟩ | ⟨sealed, rfl⟩
  · exact yours.elim And.right fun yours => absurd yours.1 opened.not_sealed
  · exact yours.elim (fun yours => absurd sealed yours.1.not_sealed) And.right

theorem Unharmed.answers (h : s.Unharmed key) (spares : e.Spares key)
    (at_p : s.pairs[p]? = some pair) (own : pair.key = key) (answers : s.Answers key p result) :
    (s.step e).Answers key p result := by
  have lawful := h.orderlier.lawful
  exact answers.imp (And.imp_left (h.stays_open spares at_p own))
    (And.imp_left ((step_transition s e).sealedAt lawful.sound lawful.orderly))

/-- A call that found the pair waits in its line, or was told how the first handshake ended. -/
def Served (s : Supervisor) (key : WatchKey) (id : CallId) (p : PairId) : Prop :=
  s.calls[id]? = some (.following p) ∨
    ∃ result, s.Answers key p result ∧ s.calls[id]? = some (.returned result)

/-- A live pair has had its first handshake if nobody comes for its first channel, nor stands at the
head of its line and starts it. -/
theorem OrderlyAt.first_over (orderly : s.OrderlyAt p pair) (at_p : s.pairs[p]? = some pair)
    (live : pair.cancelled = false) (came : ∀ id : CallId, s.calls[id]? ≠ some (.arriving p))
    (past : ∀ id c, s.calls[id]? = some (.starting p c) → pair.line.head? ≠ some (.call id)) :
    s.Open p := by
  refine ⟨pair, at_p, live, ?_⟩
  intro unborn
  rcases orderly.unborn unborn live with ⟨id, arriving⟩ | ⟨id, c, starting⟩
  · exact came id arriving
  · exact past id c starting (orderly.opening id c starting).1

theorem Unharmed.serves (h : s.Unharmed key) (spares : e.Spares key)
    (at_p : s.pairs[p]? = some pair) (own : pair.key = key) (served : s.Served key id p) :
    (s.step e).Served key id p := by
  have step := step_transition s e
  have lawful := h.orderlier.lawful
  have orderly := lawful.orderly.pairs p pair at_p
  rcases served with waits | ⟨result, answers, told⟩
  · rcases step.call lawful.sound lawful.orderly waits with still | proceeds
    · exact .inl still
    cases proceeds with
    | answered at_p' first told =>
      cases at_p.symm.trans at_p'
      refine .inr ⟨_, h.answers spares at_p own ?_, told⟩
      cases cancelled : pair.cancelled with
      | false =>
        refine .inl ⟨orderly.first_over at_p cancelled ?_ ?_, by simp [followerResult, cancelled]⟩
        · intro id' arriving
          simp [(orderly.arriving id' arriving).line] at first
        · intro id' c starting first'
          rw [first] at first'
          cases first'
          cases waits.symm.trans starting
      | true =>
        have sealed := h.failed p pair at_p own cancelled
        obtain ⟨mine, at_mine, done⟩ := sealed.1
        cases at_p.symm.trans at_mine
        exact .inr ⟨sealed, by simp [followerResult, cancelled, done.slot, own]⟩
  · exact .inr ⟨result, h.answers spares at_p own answers,
      step.returned lawful.sound lawful.orderly told⟩

/-- A call that finds the pair waits in its line if somebody is there, and else is told at once:
how the first handshake ended, or that there is nothing to wait for yet. -/
theorem Joins.served (h : s.Unharmed key) (joins : Joins key id p s e) :
    (s.step e).Served key id p ∨
      Overtakes key id p s e ∧ (s.step e).calls[id]? = some (.returned (.ok ())) := by
  have joined := joins
  obtain ⟨known, rfl, observer, rfl⟩ := joins
  have lawful := h.orderlier.lawful
  obtain ⟨pair, at_p, own, live⟩ := lawful.sound.registered key p (Table.mem_of_get? known)
  by_cases free : pair.line = []
  · have result : followerResult pair = .ok () := by simp [followerResult, live]
    have told : (s.step (.subscribe key observer)).calls[s.calls.length]? =
        some (.returned (.ok ())) := by
      simp [step, perform, subscribe, known, at_p, free, addCall, emit, result]
    by_cases came : ∃ first : CallId, s.calls[first]? = some (.arriving p)
    · exact .inr ⟨⟨joined, came⟩, told⟩
    · have opened : s.Open p := by
        apply (lawful.orderly.pairs p pair at_p).first_over at_p live (not_exists.1 came)
        intro id c starting
        simp [free]
      exact .inl (.inr ⟨_, .inl ⟨h.stays_open (by simp [Event.Spares]) at_p own opened, rfl⟩, told⟩)
  · left; left
    simp [step, perform, subscribe, known, at_p, free, addCall, joinLine, modifyPair]

theorem run_joined (initial : s₀.Initial) (joined : s₀.Occurs (Joins key id p) events) :
    ∃ pair, (s₀.run events).pairs[p]? = some pair ∧ pair.key = key := by
  obtain ⟨a, e, b, rfl, known, -⟩ := joined
  have sound : Sound [] (s₀.run a) := run_sound (sound_initial initial) a
  obtain ⟨pair, at_p, own, -⟩ := sound.registered key p (Table.mem_of_get? known)
  obtain ⟨later, at_later, facts⟩ := run_later (e :: b) at_p
  refine ⟨later, ?_, facts.key.trans own⟩
  rw [run_append]
  exact at_later

theorem run_served (initial : s₀.Initial) (events : List Event)
    (kept : ∀ e ∈ events, e.Spares key) (joined : s₀.Occurs (Joins key id p) events) :
    (s₀.run events).Served key id p ∨ s₀.Occurs (Overtakes key id p) events ∧
      (s₀.run events).calls[id]? = some (.returned (.ok ())) := by
  induction events using List.reverseRecOn with
  | nil =>
    obtain ⟨a, e, b, eq, -⟩ := joined
    simp at eq
  | append_singleton events e ih =>
    rw [List.forall_mem_append, List.forall_mem_singleton] at kept
    have h : (s₀.run events).Unharmed key := (unharmed_initial initial).run events kept.1
    have lawful := h.orderlier.lawful
    rw [run_concat]
    rcases occurs_concat.mp joined with joined | joins
    · obtain ⟨pair, at_p, own⟩ := run_joined initial joined
      rcases ih kept.1 joined with served | ⟨overtook, told⟩
      · exact .inl (h.serves kept.2 at_p own served)
      · exact .inr ⟨overtook.append [e],
          (step_transition _ e).returned lawful.sound lawful.orderly told⟩
    · exact (joins.served h).imp_right
        (And.imp_left fun overtakes => occurs_concat.2 (.inr overtakes))

/-- What becomes of a call that found the pair. It has returned the result, or waits in the line of
the pair, whose channel somebody has. Whatever happens next, as long as nobody unsubscribes the key,
when the call has its turn it returns the result, and where nothing can go on it has returned it. -/
structure Told (s : Supervisor) (key : WatchKey) (id : CallId) (p : PairId)
    (result : Except SubscriptionError Unit) : Prop where
  now : s.calls[id]? = some (.returned result) ∨
    s.calls[id]? = some (.following p) ∧ ∃ pair, s.pairs[p]? = some pair ∧ s.Occupied p pair
  turn : ∀ after : List Event, (∀ e ∈ after, e.Spares key) → (s.run after).hasTurn id = true →
    ((s.run after).step (.callTurn id)).calls[id]? = some (.returned result)
  settled : ∀ after : List Event, (∀ e ∈ after, e.Spares key) → (s.run after).Quiescent →
    (s.run after).calls[id]? = some (.returned result)

theorem hasTurn_returned (told : s.calls[id]? = some (.returned result)) :
    s.hasTurn id = false := by
  simp [hasTurn, told]

theorem told_returned (lawful : s.Lawful) (told : s.calls[id]? = some (.returned result)) :
    s.Told key id p result where
  now := .inl told
  turn after _ turn := by simp [hasTurn_returned (run_returned after lawful told)] at turn
  settled after _ _ := run_returned after lawful told

theorem Unharmed.run_serves (h : s.Unharmed key) (events : List Event)
    (kept : ∀ e ∈ events, e.Spares key) (at_p : s.pairs[p]? = some pair) (own : pair.key = key)
    (answers : s.Answers key p result) (served : s.Served key id p) :
    (s.run events).Answers key p result ∧ (s.run events).Served key id p := by
  induction events generalizing s pair with
  | nil => exact ⟨answers, served⟩
  | cons e events ih =>
    rw [List.forall_mem_cons] at kept
    obtain ⟨later, at_later, facts⟩ := (step_transition s e).later at_p
    exact ih (h.step e kept.1) kept.2 at_later (facts.key.trans own)
      (h.answers kept.1 at_p own answers) (h.serves kept.1 at_p own served)

theorem Served.returned (served : s.Served key id p) (answers : s.Answers key p result)
    (past : s.calls[id]? ≠ some (.following p)) : s.calls[id]? = some (.returned result) := by
  obtain ⟨other, answers', told⟩ := served.resolve_left past
  exact answers.unique answers' ▸ told

theorem Unharmed.told (h : s.Unharmed key) (at_p : s.pairs[p]? = some pair) (own : pair.key = key)
    (answers : s.Answers key p result) (served : s.Served key id p) :
    s.Told key id p result where
  now := by
    by_cases waits : s.calls[id]? = some (.following p)
    · have orderly := h.orderlier.lawful.orderly.pairs p pair at_p
      have inLine := (orderly.calls id).2 (waitsAt_eq_some.2 ⟨_, waits, rfl⟩)
      exact .inr ⟨waits, pair, at_p, orderly.occupied at_p (List.ne_nil_of_mem inLine)⟩
    · exact .inl (served.returned answers waits)
  turn after kept turn := by
    obtain ⟨answers', served'⟩ := h.run_serves after kept at_p own answers served
    obtain ⟨later, at_later, facts⟩ := run_later after at_p
    have h' := h.run after kept
    have spares : Event.Spares key (.callTurn id) := by simp [Event.Spares]
    have own' := facts.key.trans own
    -- A call that returned has no turn, so this one waits, and its turn takes it out of the line.
    have waits : (s.run after).calls[id]? = some (.following p) := by
      refine served'.resolve_right ?_
      rintro ⟨other, -, told⟩
      simp [hasTurn_returned told] at turn
    refine (h'.serves spares at_later own' served').returned
      (h'.answers spares at_later own' answers') ?_
    rw [← waits]
    have turn' : hasTurn { s.run after with effects := [] } id = true := turn
    simp only [Supervisor.step, perform, if_pos turn']
    exact callTurn_changes turn'
  settled after kept quiet := by
    obtain ⟨answers', served'⟩ := h.run_serves after kept at_p own answers served
    refine served'.returned answers' fun waits => ?_
    obtain ⟨result, returned⟩ := quiet.call_returned (h.run after kept).orderlier waits
    cases returned

/-! ## Handshakes -/

/-- A channel is made by the call that began its pair, as the pair's first, or for the watchdog that
replaces one. -/
theorem Transition.makes (step : Transition s e t) (sound : Sound [] s)
    (new : s.owner? d = none) (own : t.owner? d = some q) :
    (∃ id, e = .enter id ∧ s.calls[id]? = some (.arriving q) ∧
      t.calls[id]? = some (.starting q d)) ∨
    ∃ pair, t.pairs[q]? = some pair ∧ pair.watchdog = .starting d := by
  have same {t : Supervisor} (kept : t.owner? d = s.owner? d) (own : t.owner? d = some q) :
      False := by
    rw [kept, new] at own
    cases own
  cases step with
  | @entered id p pair _ came =>
    rw [owner?_append rfl] at own
    split at own
    · rename_i last
      cases own
      have hid := (List.getElem?_eq_some_iff.1 came).1
      exact .inl ⟨id, rfl, came, last ▸ List.getElem?_set_self hid⟩
    · exact (same rfl own).elim
  | unsubscribed _ torn => exact (same (owner?_eq torn.channels d) own).elim
  | unsubscribedAll _ torn => exact (same (owner?_eq torn.channels d) own).elim
  | foundClear _ _ _ _ onward => exact (same (owner?_eq onward.channels d) own).elim
  | joined _ onward => exact (same (owner?_eq onward.channels d) own).elim
  | stoppedForCall _ _ onward =>
    exact (same ((owner?_eq onward.channels d).trans (owner?_countStop rfl d)) own).elim
  | @startsNew _ p pair ready _ at_p =>
    rw [owner?_append rfl] at own
    split at own
    · rename_i last
      cases own
      have hp := (List.getElem?_eq_some_iff.1 at_p).1
      exact .inr ⟨_, List.getElem?_set_self hp, by rw [last]; rfl⟩
    · exact (same rfl own).elim
  | @stoppedForWatchdog c pair channel _ _ at_p =>
    let u : Supervisor := { s with channels := s.countStop c }
    rw [owner?_append (s := u) rfl] at own
    split at own
    · rename_i last
      cases own
      have hp := (List.getElem?_eq_some_iff.1 at_p).1
      have length : u.channels.length = s.channels.length := by simp [u, countStop]
      exact .inr ⟨_, List.getElem?_set_self hp, by rw [last, length]⟩
    · exact (same (owner?_countStop (s := s) (t := u) rfl d) own).elim
  | opened | failed | replaced | notReplaced | unawaited =>
    exact (same (owner?_setStatus rfl d) own).elim
  | stray at_c missing => exact absurd missing (sound.present at_c)
  | _ => exact (same rfl own).elim

theorem state_of_free (free : s.registry.get? key = none) : s.state key = .unsubscribed := by
  simp [state, pair?, free]

/-- A pair that waits for its first handshake is live. -/
theorem Unharmed.starting_live (h : s.Unharmed key) (at_p : s.pairs[p]? = some pair)
    (own : pair.key = key) (call : s.calls[id]? = some (.starting p c)) :
    pair.cancelled = false := by
  rw [← Bool.not_eq_true]
  intro finished
  exact (h.failed p pair at_p own finished).2 id c call

/-- Nobody is told anything while the first handshake runs. -/
theorem Orderly.unanswered (h : s.Orderly) (at_p : s.pairs[p]? = some pair)
    (call : s.calls[id]? = some (.starting p c)) : ¬ s.Answers key p result := by
  rintro (⟨⟨mine, at_mine, -, born⟩, -⟩ | ⟨sealed, -⟩)
  · cases at_p.symm.trans at_mine
    exact born ((h.pairs p pair at_p).opening id c call).2.1
  · exact sealed.2 id c call

/-- The call that began a pair of the key makes a new channel when it has its turn. -/
theorem Unharmed.undertakes (h : s.Unharmed key) (at_p : s.pairs[p]? = some pair)
    (own : pair.key = key) (came : s.calls[id]? = some (.arriving p)) :
    Undertakes id p s.channels.length s (.enter id) ∧
      (s.step (.enter id)).effects = [.start s.channels.length] := by
  have live : pair.cancelled = false := by
    rw [← Bool.not_eq_true]
    intro finished
    exact h.came p pair at_p own finished id came
  have untouched := (h.orderlier.lawful.orderly.pairs p pair at_p).arriving id came
  have hid := (List.getElem?_eq_some_iff.1 came).1
  rw [Undertakes, step_enter came at_p untouched.line live]
  exact ⟨⟨rfl, came, List.getElem?_set_self hid⟩, rfl⟩

theorem Unharmed.opens (h : s.Unharmed key) (at_p : s.pairs[p]? = some pair)
    (own : pair.key = key) (call : s.calls[id]? = some (.starting p c)) (canStall : Bool) :
    let u := s.step (.handshake c canStall (.ok ()))
    u.Open p ∧ u.calls[id]? = some (.returned (.ok ())) := by
  intro u
  obtain ⟨fx, same⟩ := step_handshake_opened h.orderlier.lawful.orderly call at_p canStall
  have live := h.starting_live at_p own call
  have hp := (List.getElem?_eq_some_iff.1 at_p).1
  have hid := (List.getElem?_eq_some_iff.1 call).1
  simp only [u, same]
  refine ⟨⟨_, List.getElem?_set_self hp, live, ?_⟩, List.getElem?_set_self hid⟩
  simp [openedPair]

theorem Unharmed.fails (h : s.Unharmed key) (at_p : s.pairs[p]? = some pair)
    (own : pair.key = key) (call : s.calls[id]? = some (.starting p c)) (canStall : Bool)
    (error : SubscriptionError) :
    let u := s.step (.handshake c canStall (.error error))
    u.SealedAt p ∧ u.calls[id]? = some (.returned (.error error)) ∧
      u.registry.get? key = none ∧ u.activeCount + 1 = s.activeCount := by
  intro u
  have sound := h.orderlier.lawful.sound
  have known := h.registered at_p own (h.starting_live at_p own call)
  subst own
  obtain ⟨fx, same⟩ :=
    step_handshake_failed h.orderlier.lawful.orderly call at_p known canStall error
  have hid := (List.getElem?_eq_some_iff.1 call).1
  have once : s.registry.values.count p ≤ 1 := by
    have all := h.orderlier.exclusive p
    split at all <;> omega
  have unique (other : PairId) (mem : (pair.key, other) ∈ s.registry.entries) : other = p := by
    rw [sound.unique _ other mem] at known
    exact Option.some.inj known
  simp only [u, same]
  refine ⟨?_, List.getElem?_set_self hid, by rw [Table.get?_erase, if_pos rfl], ?_⟩
  · exact h.orderlier.lawful.orderly.sealedAt_failed call at_p rfl rfl
  · exact Table.size_erase known unique once

theorem Unharmed.run_open (h : s.Unharmed key) (events : List Event)
    (kept : ∀ e ∈ events, e.Spares key) (at_p : s.pairs[p]? = some pair) (own : pair.key = key)
    (opened : s.Open p) : (s.run events).Open p := by
  induction events generalizing s pair with
  | nil => exact opened
  | cons e events ih =>
    rw [List.forall_mem_cons] at kept
    obtain ⟨later, at_later, facts⟩ := (step_transition s e).later at_p
    exact ih (h.step e kept.1) kept.2 at_later (facts.key.trans own)
      (h.stays_open kept.1 at_p own opened)

theorem run_sealedAt (events : List Event) (lawful : s.Lawful) (h : s.SealedAt p) :
    (s.run events).SealedAt p := by
  induction events generalizing s with
  | nil => exact h
  | cons e events ih =>
    exact ih (lawful.step e)
      ((step_transition s e).sealedAt lawful.sound lawful.orderly h)

/-- An open pair is the registered one of its key. -/
theorem Unharmed.open_registered (h : s.Unharmed key) (at_p : s.pairs[p]? = some pair)
    (own : pair.key = key) (opened : s.Open p) : s.registry.get? key = some p := by
  obtain ⟨mine, at_mine, live, -⟩ := opened
  cases at_p.symm.trans at_mine
  exact h.registered at_p own live

/-- An open pair of the key stays open and registered. -/
theorem Unharmed.run_registered (h : s.Unharmed key) (events : List Event)
    (kept : ∀ e ∈ events, e.Spares key) (at_p : s.pairs[p]? = some pair) (own : pair.key = key)
    (opened : s.Open p) : (s.run events).Unharmed key ∧ (s.run events).Open p ∧
      (s.run events).registry.get? key = some p := by
  have h' := h.run events kept
  have opened' := h.run_open events kept at_p own opened
  obtain ⟨later, at_later, facts⟩ := run_later events at_p
  exact ⟨h', opened', h'.open_registered at_later (facts.key.trans own) opened'⟩

/-- A sealed pair is not registered. -/
theorem SealedAt.unregistered (sealed : s.SealedAt p) (sound : Sound [] s) :
    s.registry.get? key ≠ some p := by
  intro known
  obtain ⟨mine, at_mine, -, live⟩ := sound.registered key p (Table.mem_of_get? known)
  obtain ⟨⟨pair, at_p, done⟩, -⟩ := sealed
  cases at_mine.symm.trans at_p
  rw [done.cancelled] at live
  cases live

/-- Nobody finds a pair that is sealed. -/
theorem SealedAt.not_joined (sealed : s.SealedAt p) (lawful : s.Lawful) :
    ¬ s.Occurs (Joins key id p) events := by
  rintro ⟨a, e, b, -, known, -⟩
  exact (run_sealedAt a lawful sealed).unregistered (lawful.run a).sound known

/-- A call that found the pair before its first handshake fails waits for it, and is told that the
key is not active. -/
theorem Unharmed.told_failed {after : List Event} {id' : CallId} (h : s.Unharmed key)
    (at_p : s.pairs[p]? = some pair) (own : pair.key = key)
    (call : s.calls[id]? = some (.starting p c)) (canStall : Bool) (error : SubscriptionError)
    (kept : ∀ e ∈ after, e.Spares key) (served : s.Served key id' p) :
    s.calls[id']? = some (.following p) ∧
      ((s.step (.handshake c canStall (.error error))).run after).Told key id' p
        (.error (.notActive key.text)) := by
  have waits := served.resolve_right fun ⟨other, answers, _⟩ =>
    h.orderlier.lawful.orderly.unanswered at_p call answers
  have spares : Event.Spares key (.handshake c canStall (.error error)) := by simp [Event.Spares]
  have h' := h.step _ spares
  obtain ⟨later, at_later, facts⟩ := (step_transition s _).later at_p
  have own' := facts.key.trans own
  obtain ⟨sealed, -⟩ := h.fails at_p own call canStall error
  obtain ⟨answers, served'⟩ := h'.run_serves after kept at_later own' (.inr ⟨sealed, rfl⟩)
    (h.serves spares at_p own served)
  obtain ⟨last, at_last, facts'⟩ := run_later after at_later
  exact ⟨waits, (h'.run after kept).told at_last (facts'.key.trans own') answers served'⟩

/-! ## Channels made for the key -/

/-- A channel made for a key whose pair is open is a replacement. -/
theorem Unharmed.makes_replacement (h : s.Unharmed key) (opened : s.Open p)
    (known : s.registry.get? key = some p) (new : s.owner? d = none)
    (made : (s.step e).owner? d = some q) (at_q : (s.step e).pairs[q]? = some pair)
    (own : pair.key = key) : pair.watchdog = .starting d := by
  have step := step_transition s e
  rcases step.makes h.orderlier.lawful.sound new made with
    ⟨id, -, came, -⟩ | ⟨mine, at_mine, starting⟩
  · obtain ⟨mine, at_mine, untouched⟩ := h.orderlier.lawful.orderly.untouched came
    obtain ⟨later, at_later, facts⟩ := step.later at_mine
    cases at_q.symm.trans at_later
    have own' := facts.key.symm.trans own
    have live : mine.cancelled = false := by
      rw [← Bool.not_eq_true]
      intro finished
      exact h.came q mine at_mine own' finished id came
    obtain rfl : p = q := Option.some.inj (known.symm.trans (h.registered at_mine own' live))
    obtain ⟨other, at_other, -, born⟩ := opened
    cases at_mine.symm.trans at_other
    exact absurd untouched.watchdog born
  · cases at_q.symm.trans at_mine
    exact starting

/-- The next call for a key that is free begins a new pair, and a new channel when it has its
turn. -/
theorem Unharmed.begins_afresh {during rest : List Event} {observer : Option String}
    (h : s.Unharmed key) (free : s.registry.get? key = none)
    (kept : ∀ e ∈ during ++ .subscribe key observer :: rest, e.Spares key)
    (fresh : ∀ other, .subscribe key other ∉ during) :
    let v := s.run during
    let next := v.calls.length
    Initiates key next v.pairs.length v (.subscribe key observer) ∧
      ∀ between final, rest = between ++ .enter next :: final → .enter next ∉ between →
        let w := (v.step (.subscribe key observer)).run between
        Undertakes next v.pairs.length w.channels.length w (.enter next) ∧
          (w.step (.enter next)).effects = [.start w.channels.length] := by
  intro v next
  rw [List.forall_mem_append, List.forall_mem_cons] at kept
  obtain ⟨kept_during, spares, kept_rest⟩ := kept
  have free_v : v.registry.get? key = none := run_unregistered during fresh free
  refine ⟨⟨⟨rfl, free_v, observer, rfl⟩, rfl⟩, ?_⟩
  rintro between final rfl unentered w
  rw [List.forall_mem_append] at kept_rest
  have hv : (v.step (.subscribe key observer)).Unharmed key :=
    (h.run during kept_during).step _ spares
  have hw : w.Unharmed key := hv.run between kept_rest.1
  have subscribed := step_subscribe_new free_v observer
  have came : w.calls[next]? = some (.arriving v.pairs.length) := by
    refine run_arriving between hv.orderlier.lawful ?_ unentered
    rw [subscribed]
    exact List.getElem?_concat_length
  have at_new : (v.step (.subscribe key observer)).pairs[v.pairs.length]? =
      some (v.newPair key observer) := by
    rw [subscribed]
    exact List.getElem?_concat_length
  obtain ⟨new, at_w, facts⟩ := run_later between at_new
  exact hw.undertakes at_w facts.key came

/-! ## Agreement -/

/-- Calls that subscribe to one key agree, as long as nobody unsubscribes it. Each pair of the key
is begun by exactly one call, which has returned where nothing can go on, and every channel is made
by the call that began its pair, once and as the pair's first, or by a watchdog as a replacement.
When the first handshake ends, the call returns its result.

If it succeeded, every call that found the pair returns without an error, at once or when it has
had its turn in the pair's line, the pair stays registered and no call begins another one: a channel
made for the key later is one that a watchdog starts as a replacement. If it failed, every call that
waited for it is told in the same way that the key is not active; the only other calls that found
the pair came before the handshake began, and were told at once. The key is then free and is not
counted any more, and the next call for it begins with a new pair and, when it has its turn, with a
new channel. -/
theorem subscribes_agree (initial : s₀.Initial) (key : WatchKey) (events : List Event)
    (kept : ∀ e ∈ events, e.Spares key) :
    let t := s₀.run events
    (∀ (p : PairId) (pair : Pair), t.pairs[p]? = some pair → pair.key = key →
      ∃ id, s₀.Occurs (Initiates key id p) events ∧
        (∀ id', s₀.Occurs (Initiates key id' p) events → id' = id) ∧
        (t.Quiescent → ∃ result, t.calls[id]? = some (.returned result)) ∧
        ∀ id' c, s₀.Occurs (Undertakes id' p c) events →
          id' = id ∧ ∀ d, s₀.Occurs (Undertakes id p d) events → d = c) ∧
    (∀ before e after, events = before ++ e :: after →
      ∀ (d : ChannelId) (q : PairId), (s₀.run before).owner? d = none →
        ((s₀.run before).step e).owner? d = some q →
        (∃ id, Undertakes id q d (s₀.run before) e) ∨
          ∃ pair, ((s₀.run before).step e).pairs[q]? = some pair ∧ pair.watchdog = .starting d) ∧
    ∀ (before after : List Event) (id : CallId) (p : PairId) (c : ChannelId) (canStall : Bool)
      (result : Except SubscriptionError Unit),
      events = before ++ .handshake c canStall result :: after →
      s₀.Occurs (Initiates key id p) before →
      (s₀.run before).calls[id]? = some (.starting p c) →
      let s := s₀.run before
      let u := s.step (.handshake c canStall result)
      t.calls[id]? = some (.returned result) ∧
      (result = .ok () →
        t.registry.get? key = some p ∧
        (∀ id', s₀.Occurs (Joins key id' p) events → t.Told key id' p (.ok ())) ∧
        (∀ id' p', ¬ u.Occurs (Initiates key id' p') after) ∧
        ∀ during e rest, after = during ++ e :: rest →
          ∀ (d : ChannelId) (q : PairId) (pair : Pair), (u.run during).owner? d = none →
            ((u.run during).step e).owner? d = some q →
            ((u.run during).step e).pairs[q]? = some pair → pair.key = key →
            pair.watchdog = .starting d) ∧
      ∀ error, result = .error error →
        (∀ id', s₀.Occurs (Joins key id' p) events →
          s.calls[id']? = some (.following p) ∧
            t.Told key id' p (.error (.notActive key.text)) ∨
          s₀.Occurs (Overtakes key id' p) before ∧ t.calls[id']? = some (.returned (.ok ()))) ∧
        u.registry.get? key = none ∧ u.state key = .unsubscribed ∧
        u.activeCount + 1 = s.activeCount ∧
        ∀ during observer rest, after = during ++ .subscribe key observer :: rest →
          (∀ other, .subscribe key other ∉ during) →
          let v := u.run during
          let next := v.calls.length
          Initiates key next v.pairs.length v (.subscribe key observer) ∧ p < v.pairs.length ∧
            ∀ between final, rest = between ++ .enter next :: final → .enter next ∉ between →
              let w := (v.step (.subscribe key observer)).run between
              Undertakes next v.pairs.length w.channels.length w (.enter next) ∧
                c < w.channels.length ∧
                (w.step (.enter next)).effects = [.start w.channels.length] := by
  intro t
  have unharmed : t.Unharmed key := (unharmed_initial initial).run events kept
  refine ⟨?_, ?_, ?_⟩
  · rintro p pair at_p rfl
    obtain ⟨id, begun⟩ := run_begun initial events at_p
    refine ⟨id, begun, fun id' yours => run_begun_once events begun yours, fun quiet => ?_, ?_⟩
    · obtain ⟨call, at_id⟩ := run_initiator initial begun
      obtain ⟨result, rfl⟩ := quiet.call_returned unharmed.orderlier at_id
      exact ⟨result, at_id⟩
    · intro id' c undertaken
      exact ⟨run_undertaken_by initial events begun undertaken,
        fun d yours => run_undertaken_once initial events undertaken yours⟩
  · intro before e after _ d q new made
    have lawful := (lawful_initial initial).run before
    exact (step_transition _ e).makes lawful.sound new made
  rintro before after id p c canStall result rfl begun call s u
  have whole := kept
  rw [List.forall_mem_append, List.forall_mem_cons] at kept
  obtain ⟨kept_before, spares, kept_after⟩ := kept
  have h : s.Unharmed key := (unharmed_initial initial).run before kept_before
  have h' : u.Unharmed key := h.step _ spares
  have runs : t = u.run after := run_append s₀ before (.handshake c canStall result :: after)
  obtain ⟨pair, at_p, own⟩ := run_present begun
  obtain ⟨pair', at_p', facts⟩ := (step_transition s (.handshake c canStall result)).later at_p
  have own' : pair'.key = key := facts.key.trans own
  refine ⟨?_, ?_, ?_⟩
  · rw [runs]
    apply run_returned after h'.orderlier.lawful
    cases result with
    | ok => exact (h.opens at_p own call canStall).2
    | error error => exact (h.fails at_p own call canStall error).2.1
  · rintro rfl
    obtain ⟨opened, -⟩ := h.opens at_p own call canStall
    obtain ⟨-, open_t, known_t⟩ := h'.run_registered after kept_after at_p' own' opened
    have stays (during rest : List Event) (split : after = during ++ rest) :=
      h'.run_registered during
        (fun e mem => kept_after e (split ▸ List.mem_append_left _ mem)) at_p' own' opened
    refine ⟨runs ▸ known_t, ?_, ?_, ?_⟩
    · intro id' joined
      rcases run_served initial _ whole joined with served | ⟨-, told⟩
      · obtain ⟨last, at_last, facts'⟩ := run_later after at_p'
        exact unharmed.told (runs ▸ at_last) (facts'.key.trans own') (.inl ⟨runs ▸ open_t, rfl⟩)
          served
      · exact told_returned unharmed.orderlier.lawful told
    · rintro id' p' ⟨a, e, b, split, ⟨-, new, -⟩, -⟩
      rw [(stays a (e :: b) split).2.2] at new
      cases new
    · intro during e rest split d q other new made at_q own_q
      obtain ⟨h'', opened', known⟩ := stays during (e :: rest) split
      exact h''.makes_replacement opened' known new made at_q own_q
  · rintro error rfl
    obtain ⟨sealed, -, free, fewer⟩ := h.fails at_p own call canStall error
    refine ⟨?_, free, state_of_free free, fewer, ?_⟩
    · intro id' joined
      rcases occurs_append.1 joined with joined | joined
      · rcases run_served initial before kept_before joined with served | ⟨overtook, told⟩
        · exact .inl (runs ▸ h.told_failed at_p own call canStall error kept_after served)
        · exact .inr ⟨overtook, runs ▸ run_returned (_ :: after) h.orderlier.lawful told⟩
      · rcases occurs_cons.1 joined with ⟨-, -, observer, here⟩ | later
        · cases here
        · exact (sealed.not_joined h'.orderlier.lawful later).elim
    · rintro during observer rest rfl fresh v next
      obtain ⟨initiates, afresh⟩ := h'.begins_afresh free kept_after fresh
      obtain ⟨later, at_later, -⟩ := run_later during at_p'
      refine ⟨initiates, (List.getElem?_eq_some_iff.1 at_later).1, ?_⟩
      intro between final split unentered w
      obtain ⟨undertakes, starts⟩ := afresh between final split unentered
      have newest := ((h.orderlier.lawful.orderly.pairs p pair at_p).opening id c call).2.2.1
      have own_c : w.owner? c = some p :=
        run_owner between ((step_transition v _).owner
          (run_owner during ((step_transition s _).owner newest.1)))
      exact ⟨undertakes, length_of_owner? own_c, starts⟩

/-- Two calls share a handshake that fails, and the next two one that succeeds. A fifth one came
before the first handshake began. -/
theorem subscribes_agree_twice :
    let key := wholeProgram .state
    let refused : SubscriptionError := .endpoint .unreachable
    let t := run {} [.subscribe key none, .subscribe key none, .enter 0, .subscribe key none,
      .handshake 0 false (.error refused), .callTurn 2, .subscribe key none, .enter 3,
      .subscribe key none, .handshake 1 false (.ok ()), .callTurn 4]
    Initial {} ∧ t.calls[0]? = some (.returned (.error refused)) ∧
      t.calls[1]? = some (.returned (.ok ())) ∧
      t.calls[2]? = some (.returned (.error (.notActive key.text))) ∧
      t.calls[3]? = some (.returned (.ok ())) ∧ t.calls[4]? = some (.returned (.ok ())) ∧
      t.registry.get? key = some 1 := by
  intro key refused t
  have initial : Initial {} := ⟨rfl, rfl, rfl, rfl⟩
  let early : List Event := [.subscribe key none, .subscribe key none]
  let first : List Event := early ++ [.enter 0, .subscribe key none]
  let failed : List Event := first ++ [.handshake 0 false (.error refused), .callTurn 2]
  let second : List Event := failed ++ [.subscribe key none, .enter 3, .subscribe key none]
  let whole : List Event := second ++ [.handshake 1 false (.ok ()), .callTurn 4]
  obtain ⟨-, -, agree⟩ := subscribes_agree initial key whole
    (by simp [whole, second, failed, first, early, Event.Spares])
  have begun : Occurs {} (Initiates key 0 0) first :=
    ⟨[], _, _, rfl, ⟨rfl, by decide, none, rfl⟩, rfl⟩
  have overtook : Occurs {} (Joins key 1 0) whole :=
    ⟨[.subscribe key none], _, _, rfl, by decide, by decide, none, rfl⟩
  have joined : Occurs {} (Joins key 2 0) whole :=
    ⟨early ++ [.enter 0], _, _, rfl, by decide, by decide, none, rfl⟩
  have begun' : Occurs {} (Initiates key 3 1) second :=
    ⟨failed, _, _, rfl, ⟨by decide, by decide, none, rfl⟩, by decide⟩
  have joined' : Occurs {} (Joins key 4 1) whole :=
    ⟨failed ++ [.subscribe key none, .enter 3], _, _, rfl, by decide, by decide, none, rfl⟩
  obtain ⟨returned, -, after_failure⟩ := agree first ([.callTurn 2, .subscribe key none, .enter 3,
    .subscribe key none, .handshake 1 false (.ok ()), .callTurn 4]) 0 0 0 false (.error refused) rfl
    begun (by decide)
  obtain ⟨returned', after_success, -⟩ := agree second [.callTurn 4] 3 1 1 false (.ok ()) rfl begun'
    (by decide)
  obtain ⟨told, -⟩ := after_failure refused rfl
  obtain ⟨known, told', -⟩ := after_success rfl
  have fails : ∀ id', (run {} first).calls[id']? = some (.following 0) → id' = 2 := by
    intro id' waits
    have calls : (run {} first).calls =
        [.starting 0 0, .returned (.ok ()), .following 0] := by decide
    rw [calls] at waits
    match id', waits with
    | 2, _ => rfl
  have past : t.calls[2]? ≠ some (.following 0) := by decide
  have past' : t.calls[4]? ≠ some (.following 1) := by decide
  have second_told : t.calls[1]? = some (.returned (.ok ())) := by
    rcases told 1 overtook with ⟨waits, -⟩ | ⟨-, told⟩
    · cases fails 1 waits
    · exact told
  have third_told : t.calls[2]? = some (.returned (.error (.notActive key.text))) := by
    rcases told 2 joined with ⟨-, told⟩ | ⟨-, told⟩
    · exact told.now.resolve_right fun waits => past waits.1
    · exact absurd told (by decide)
  exact ⟨initial, returned, second_told, third_told, returned',
    (told' 4 joined').now.resolve_right fun waits => past' waits.1, known⟩

end LedgerWatch.Supervisor
