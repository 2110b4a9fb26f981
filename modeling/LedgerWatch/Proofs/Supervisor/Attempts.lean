import LedgerWatch.Proofs.Supervisor.Moves

/-!
# What the counters count

A pair has two counts of its replacements: of all, and of those since it was last heard of. An
attempt to replace the channel is seen at the watchdog, which gets to work on it (`begun`). Both
counts take it in at once, before the old channel stops, so that news of either channel can come
while it is under way; they are words of 64 bits and start again at their size. A step makes a
channel for a pair exactly if the pair's watchdog comes to start one, or if it is the first that
the call that registered the pair makes (`Transition.asks`). Main statement: `counters_count`.
-/

namespace LedgerWatch

def Watchdog.isStarting : Watchdog → Bool
  | .starting _ => true
  | _ => false

def Watchdog.isStopping : Watchdog → Bool
  | .stopping _ => true
  | _ => false

namespace Supervisor

variable {s t s₀ : Supervisor} {p q : PairId} {pair later : Pair} {e : Event} {events : List Event}

/-! ## Channels made for a pair -/

/-- How many channels were made for the pair. -/
def asked (s : Supervisor) (p : PairId) : Nat := (s.channels.map Channel.pair).count p

theorem asked_of_owners (same : ∀ c, t.owner? c = s.owner? c) (p : PairId) :
    t.asked p = s.asked p := by
  have owners : t.channels.map Channel.pair = s.channels.map Channel.pair := by
    apply List.ext_getElem?
    intro c
    rw [List.getElem?_map, List.getElem?_map]
    exact same c
  rw [asked, owners, asked]

theorem asked_append (h : t.channels = s.channels ++ [newChannel q]) (p : PairId) :
    t.asked p = s.asked p + if q = p then 1 else 0 := by
  rw [asked, h, List.map_append, List.count_append, asked]
  simp [newChannel, List.count_singleton]

theorem asked_new (sound : Sound [] s) (absent : s.pairs[p]? = none) : s.asked p = 0 := by
  apply List.count_eq_zero.2
  intro owned
  obtain ⟨channel, made, rfl⟩ := List.mem_map.1 owned
  obtain ⟨c, at_c⟩ := List.getElem?_of_mem made
  exact sound.present at_c absent

/-- One if the watchdog comes to start a channel. -/
def comesToStart (pair later : Pair) : Nat :=
  if later.watchdog.isStarting && !pair.watchdog.isStarting then 1 else 0

theorem comesToStart_of_same (same : later.watchdog = pair.watchdog) :
    comesToStart pair later = 0 := by
  simp [comesToStart, same]

theorem comesToStart_of_not (other : later.watchdog.isStarting = false) :
    comesToStart pair later = 0 := by
  simp [comesToStart, other]

theorem comesToStart_of_comes (now : later.watchdog.isStarting = true)
    (before : pair.watchdog.isStarting = false) : comesToStart pair later = 1 := by
  simp [comesToStart, now, before]

theorem asks_set {other changed : Pair} {n : Nat} (at_q : s.pairs[q]? = some other)
    (pairs : t.pairs = s.pairs.set q changed)
    (asked : t.asked p = s.asked p + if q = p then n else 0)
    (new : comesToStart other changed = n) (at_p : s.pairs[p]? = some pair)
    (at_p' : t.pairs[p]? = some later) : t.asked p = s.asked p + comesToStart pair later := by
  rw [asked]
  rw [pairs] at at_p'
  by_cases same : q = p
  · subst same
    cases at_q.symm.trans at_p
    rw [List.getElem?_set_self (List.getElem?_eq_some_iff.1 at_p).1] at at_p'
    cases at_p'
    rw [if_pos rfl, new]
  · rw [List.getElem?_set_ne same] at at_p'
    cases at_p.symm.trans at_p'
    rw [if_neg same, comesToStart_of_same rfl]

theorem GetsTurn.unworked {ready : Pair} (turn : GetsTurn s p pair e ready) :
    pair.watchdog.isStarting = false ∧ pair.watchdog.isStopping = false := by
  cases turn with
  | atOnce wakes => exact wakes.idle.1 ▸ ⟨rfl, rfl⟩
  | waited queued => exact queued ▸ ⟨rfl, rfl⟩

theorem Untouched.asked {id : CallId} (h : s.Untouched p pair id) : s.asked p = 0 := by
  apply List.count_eq_zero.2
  intro owned
  obtain ⟨channel, made, own⟩ := List.mem_map.1 owned
  obtain ⟨c, at_c⟩ := List.getElem?_of_mem made
  exact h.channels c (by rw [owner?, at_c, Option.map_some, own])

theorem asked_pos {c : ChannelId} (own : s.owner? c = some p) : 0 < s.asked p := by
  obtain ⟨channel, at_c, own⟩ := Option.map_eq_some_iff.1 own
  exact List.count_pos_iff.2 (List.mem_map.2 ⟨channel, List.mem_of_getElem? at_c, own⟩)

/-- The first channel was made for the pair, whose watchdog there is none yet. -/
structure MakesFirst (s : Supervisor) (p : PairId) (pair later : Pair) (t : Supervisor) : Prop where
  before : s.asked p = 0
  after : t.asked p = 1
  unborn : pair.watchdog = .unborn
  watchdog : later.watchdog = pair.watchdog

/-- A step makes a channel for a pair exactly if the pair's watchdog comes to start one, or if it is
the pair's first. -/
theorem Transition.asks (step : Transition s e t) (lawful : s.Lawful)
    (at_p : s.pairs[p]? = some pair) (at_p' : t.pairs[p]? = some later) :
    t.asked p = s.asked p + comesToStart pair later ∨ s.MakesFirst p pair later t := by
  have same (owners : ∀ c, t.owner? c = s.owner? c) (watchdog : later.watchdog = pair.watchdog) :
      t.asked p = s.asked p + comesToStart pair later ∨ s.MakesFirst p pair later t := by
    rw [asked_of_owners owners, comesToStart_of_same watchdog]
    exact .inl rfl
  have still (owners : ∀ c, t.owner? c = s.owner? c) (pairs : t.pairs[p]? = s.pairs[p]?) :
      t.asked p = s.asked p + comesToStart pair later ∨ s.MakesFirst p pair later t := by
    cases (pairs.trans at_p).symm.trans at_p'
    exact same owners rfl
  have kept {before : Pair} (watchdog : before.watchdog = pair.watchdog)
      (owners : ∀ c, t.owner? c = s.owner? c)
      (kept : ∃ mine, t.pairs[p]? = some mine ∧ before.Kept mine) :
      t.asked p = s.asked p + comesToStart pair later ∨ s.MakesFirst p pair later t := by
    obtain ⟨mine, at_mine, rfl | torn⟩ := kept
    · cases at_mine.symm.trans at_p'
      exact same owners watchdog
    · cases at_mine.symm.trans at_p'
      exact same owners (torn.watchdog.trans watchdog)
  have set {t : Supervisor} {q : PairId} {other changed : Pair} (at_q : s.pairs[q]? = some other)
      (owners : ∀ c, t.owner? c = s.owner? c) (pairs : t.pairs = s.pairs.set q changed)
      (none : comesToStart other changed = 0) (at_p' : t.pairs[p]? = some later) :
      t.asked p = s.asked p + comesToStart pair later ∨ s.MakesFirst p pair later t :=
    .inl (asks_set at_q pairs (by simp [asked_of_owners owners]) none at_p at_p')
  have hp := (List.getElem?_eq_some_iff.1 at_p).1
  cases step with
  | idle | passed | found | unknown | leftAlone => exact still (fun _ => rfl) rfl
  | unawaited => exact still (owner?_setStatus rfl) rfl
  | registered => exact still (fun _ => rfl) (List.getElem?_append_left hp)
  | @entered id q other _ call at_q =>
    by_cases here : q = p
    · subst here
      cases at_q.symm.trans at_p
      rw [List.getElem?_set_self hp] at at_p'
      cases at_p'
      have untouched := (lawful.orderly.pairs q pair at_p).arriving id call
      refine .inr ⟨untouched.asked, ?_, untouched.watchdog, rfl⟩
      rw [asked_append rfl, if_pos rfl]
      exact congrArg (· + 1) untouched.asked
    · refine .inl (asks_set at_q rfl ?_ (comesToStart_of_same rfl) at_p at_p')
      rw [asked_append rfl, if_neg here, if_neg here]
  | followed _ at_q | answered _ at_q | cleared _ at_q =>
    exact set at_q (fun _ => rfl) rfl (comesToStart_of_same rfl) at_p'
  | unsubscribed _ torn => exact kept rfl (owner?_eq torn.channels) (torn.kept at_p)
  | unsubscribedAll _ torn => exact kept rfl (owner?_eq torn.channels) (torn.kept at_p)
  | joined _ onward => exact kept rfl (owner?_eq onward.channels) (onward.kept at_p)
  | stoppedForCall _ _ onward =>
    have owners (c : ChannelId) : t.owner? c = s.owner? c :=
      (owner?_eq onward.channels c).trans (owner?_countStop rfl c)
    exact kept rfl owners (onward.kept at_p)
  | @foundClear _ q _ other _ _ _ at_q _ _ onward =>
    by_cases here : q = p
    · subst here
      cases at_q.symm.trans at_p
      have watchdog : ({ pair with line := pair.line.tail } : Pair).watchdog = pair.watchdog := rfl
      exact kept watchdog (owner?_eq onward.channels) (onward.kept (List.getElem?_set_self hp))
    · exact kept rfl (owner?_eq onward.channels)
        (onward.kept ((List.getElem?_set_ne here).trans at_p))
  | rested at_q wakes _ =>
    exact set at_q (fun _ => rfl) rfl (comesToStart_of_not (wakes.idle.2 ▸ rfl)) at_p'
  | queued at_q | withdrew at_q | stopsOld at_q | ended at_q =>
    exact set at_q (fun _ => rfl) rfl (comesToStart_of_not rfl) at_p'
  | startsNew at_q turn =>
    exact .inl (asks_set at_q rfl (asked_append rfl p)
      (comesToStart_of_comes rfl turn.unworked.1) at_p at_p')
  | opened _ _ _ at_q | replaced _ _ at_q | notReplaced _ _ at_q =>
    exact set at_q (owner?_setStatus rfl) rfl (comesToStart_of_not rfl) at_p'
  | failed _ _ _ at_q =>
    exact set at_q (owner?_setStatus rfl) rfl (comesToStart_of_same rfl) at_p'
  | stray at_c missing => exact absurd missing (lawful.sound.present at_c)
  | @stoppedForWatchdog c other channel _ _ at_q watchdog =>
    let u : Supervisor := { s with channels := s.countStop c }
    have counted : u.asked p = s.asked p := asked_of_owners (owner?_countStop rfl) p
    refine .inl (asks_set at_q rfl ?_ (comesToStart_of_comes rfl (watchdog ▸ rfl)) at_p at_p')
    rw [← counted]
    exact asked_append rfl p
  | heard _ at_q | closing _ at_q =>
    exact set at_q (fun _ => rfl) rfl (comesToStart_of_same rfl) at_p'

/-! ## Attempts -/

/-- The watchdog is at work on a replacement: it stops the old channel or starts a new one. -/
def atWork (s : Supervisor) (p : PairId) : Bool :=
  (s.pairs[p]?.bind fun pair => pair.watchdog.channel?).isSome

/-- One if the event begins a replacement: the watchdog gets to work. -/
def begun (s : Supervisor) (p : PairId) (e : Event) : Nat :=
  if !s.atWork p && (s.step e).atWork p then 1 else 0

/-- How many replacements of the pair's channel a run begins. -/
def attempts (s : Supervisor) (p : PairId) : List Event → Nat
  | [] => 0
  | e :: events => s.begun p e + (s.step e).attempts p events

theorem attempts_append (s : Supervisor) (p : PairId) (a b : List Event) :
    s.attempts p (a ++ b) = s.attempts p a + (s.run a).attempts p b := by
  induction a generalizing s with
  | nil => exact (Nat.zero_add _).symm
  | cons e a ih =>
    rw [List.cons_append, attempts, attempts, ih, Nat.add_assoc]
    rfl

theorem attempts_concat (s : Supervisor) (p : PairId) (events : List Event) (e : Event) :
    s.attempts p (events ++ [e]) = s.attempts p events + (s.run events).begun p e :=
  attempts_append s p events [e]

theorem atWork_eq (at_p : s.pairs[p]? = some pair) :
    s.atWork p = pair.watchdog.channel?.isSome := by
  simp [atWork, at_p]

theorem atWork_absent (absent : s.pairs[p]? = none) : s.atWork p = false := by
  simp [atWork, absent]

theorem absent_before (absent : (s.run events).pairs[p]? = none) : s.pairs[p]? = none := by
  cases at_p : s.pairs[p]? with
  | none => rfl
  | some pair =>
    obtain ⟨later, at_later, -⟩ := run_later events at_p
    simp [absent] at at_later

/-- Nothing begins for a pair that does not exist. -/
theorem attempts_absent (absent : (s.run events).pairs[p]? = none) : s.attempts p events = 0 := by
  induction events generalizing s with
  | nil => rfl
  | cons e events ih =>
    have later : ((s.step e).run events).pairs[p]? = none := absent
    have next := absent_before later
    rw [attempts, ih absent, begun, atWork_absent next]
    simp

/-- An update or a heartbeat of the pair passes its gate. -/
def Heard (p : PairId) (s : Supervisor) (e : Event) : Prop :=
  News p s e ∧ ∃ pair, s.pairs[p]? = some pair ∧ pair.gateOpen = true

theorem GetsTurn.consecutive {ready : Pair} (turn : GetsTurn s p pair e ready) :
    ready.consecutive = pair.consecutive := by
  cases turn with
  | atOnce wakes => exact wakes.rests.consecutive
  | waited => rfl

/-- One if the watchdog gets to work. -/
def getsToWork (pair later : Pair) : Nat :=
  if pair.watchdog.channel?.isNone && later.watchdog.channel?.isSome then 1 else 0

theorem begun_eq (at_p : s.pairs[p]? = some pair) (at_p' : (s.step e).pairs[p]? = some later) :
    s.begun p e = getsToWork pair later := by
  rw [begun, atWork_eq at_p, atWork_eq at_p', Option.not_isSome, getsToWork]

theorem getsToWork_of_idle (idle : later.watchdog.channel? = none) : getsToWork pair later = 0 := by
  simp [getsToWork, idle]

theorem getsToWork_of_busy (busy : pair.watchdog.channel?.isSome = true) :
    getsToWork pair later = 0 := by
  rw [getsToWork, ← Option.not_isSome, busy]
  rfl

theorem getsToWork_of_same (same : later.watchdog = pair.watchdog) :
    getsToWork pair later = 0 := by
  rw [getsToWork, same]
  cases pair.watchdog.channel? <;> rfl

theorem GetsTurn.getsToWork {ready : Pair} {watchdog : Watchdog} (turn : GetsTurn s p pair e ready)
    (work : (∃ old, watchdog = .stopping old) ∨ ∃ new, watchdog = .starting new) :
    getsToWork pair (replacing ready watchdog) = 1 := by
  rw [Supervisor.getsToWork, turn.watchdog_channel?]
  rcases work with ⟨old, rfl⟩ | ⟨new, rfl⟩ <;> rfl

/-- An event that begins a replacement counts it, and news starts the second count anew. -/
theorem Moves.counts (moves : Moves s p pair e later) (live : later.cancelled = false)
    (at_p : s.pairs[p]? = some pair) (at_p' : (s.step e).pairs[p]? = some later) :
    later.total = pair.total + .ofNat (getsToWork pair later) ∧
      (Heard p s e → later.consecutive = 0) ∧
      (¬Heard p s e → later.consecutive = pair.consecutive + .ofNat (getsToWork pair later)) := by
  have reset (heard : Heard p s e) : later.consecutive = 0 := by
    obtain ⟨news, pair', at_p'', gate⟩ := heard
    cases at_p'.symm.trans (news.heard at_p'' gate)
    rfl
  have none (nothing : getsToWork pair later = 0) (total : later.total = pair.total)
      (consecutive : later.consecutive = pair.consecutive ∨ Heard p s e) :
      later.total = pair.total + .ofNat (getsToWork pair later) ∧
        (Heard p s e → later.consecutive = 0) ∧
        (¬Heard p s e → later.consecutive = pair.consecutive + .ofNat (getsToWork pair later)) := by
    rw [nothing]
    exact ⟨total.trans (UInt64.add_zero _).symm, reset,
      fun unheard => (consecutive.resolve_right unheard).trans (UInt64.add_zero _).symm⟩
  cases moves with
  | rests same => exact none (getsToWork_of_same same.watchdog) same.total (.inl same.consecutive)
  | ends finished => simp [live] at finished
  | hears own gate news =>
    exact none (getsToWork_of_same rfl) rfl (.inr ⟨⟨_, _, rfl, news, own⟩, pair, at_p, gate⟩)
  | closes => exact none (getsToWork_of_same rfl) rfl (.inl rfl)
  | queues wakes =>
    exact none (getsToWork_of_idle rfl) wakes.rests.total (.inl wakes.rests.consecutive)
  | opens | replaced | notReplaced => exact none (getsToWork_of_idle rfl) rfl (.inl rfl)
  | exchanges watchdog => exact none (getsToWork_of_busy (watchdog ▸ rfl)) rfl (.inl rfl)
  | begins turn _ work =>
    rw [turn.getsToWork work, UInt64.ofNat_one]
    exact ⟨congrArg (· + 1) turn.same.1, reset, fun _ => congrArg (· + 1) turn.consecutive⟩

/-- One if the watchdog waits for the old channel's stop, so that the new one is still to be made. -/
def owing (pair : Pair) : Nat := if pair.watchdog.isStopping then 1 else 0

theorem owing_eq_zero (other : pair.watchdog.isStopping = false) : owing pair = 0 := by
  simp [owing, other]

/-- A replacement that begins makes its channel, or owes it until the old one has stopped. -/
theorem Moves.balance (moves : Moves s p pair e later) (live : later.cancelled = false) :
    comesToStart pair later + owing later = owing pair + getsToWork pair later := by
  have same (watchdog : later.watchdog = pair.watchdog) :
      comesToStart pair later + owing later = owing pair + getsToWork pair later := by
    rw [comesToStart_of_same watchdog, getsToWork_of_same watchdog, owing, watchdog, ← owing,
      Nat.zero_add, Nat.add_zero]
  have free (before : pair.watchdog.isStopping = false) (now : later.watchdog.isStopping = false)
      (idle : later.watchdog.channel? = none) (unstarted : later.watchdog.isStarting = false) :
      comesToStart pair later + owing later = owing pair + getsToWork pair later := by
    rw [comesToStart_of_not unstarted, owing_eq_zero before, owing_eq_zero now,
      getsToWork_of_idle idle]
  cases moves with
  | rests rests => exact same rests.watchdog
  | ends finished => simp [live] at finished
  | hears | closes => exact same rfl
  | queues wakes => exact free (wakes.idle.1 ▸ rfl) rfl rfl rfl
  | opens unborn => exact free (unborn ▸ rfl) rfl rfl rfl
  | replaced starting | notReplaced starting => exact free (starting ▸ rfl) rfl rfl rfl
  | exchanges stopping =>
    rw [comesToStart_of_comes rfl (stopping ▸ rfl), owing_eq_zero rfl,
      getsToWork_of_busy (stopping ▸ rfl), owing, stopping]
    rfl
  | begins turn _ work =>
    obtain ⟨unstarted, unstopped⟩ := turn.unworked
    rw [turn.getsToWork work, owing_eq_zero unstopped]
    rcases work with ⟨old, rfl⟩ | ⟨new, rfl⟩
    · rw [comesToStart_of_not rfl]
      rfl
    · rw [comesToStart_of_comes rfl unstarted]
      rfl

/-- The watchdog of a pair comes with the end of the first handshake. -/
theorem Moves.unborn (moves : Moves s p pair e later) (live : later.cancelled = false)
    (unborn : pair.watchdog = .unborn) :
    later.watchdog = .unborn ∨ ∃ (id : CallId) (c : ChannelId),
      s.calls[id]? = some (.starting p c) := by
  cases moves with
  | rests same => exact .inl (same.watchdog.trans unborn)
  | ends finished => simp [live] at finished
  | hears | closes => exact .inl unborn
  | queues wakes => exact absurd unborn (wakes.idle.1 ▸ nofun)
  | begins turn =>
    cases turn with
    | atOnce wakes => exact absurd unborn (wakes.idle.1 ▸ nofun)
    | waited queued => exact absurd unborn (queued ▸ nofun)
  | opens _ call => exact .inr ⟨_, _, call⟩
  | replaced starting | notReplaced starting => simp [unborn] at starting
  | exchanges stopping => simp [unborn] at stopping

/-! ## Counters of a run -/

/-- What the counters of a pair say of the run. -/
structure Counted (s₀ : Supervisor) (p : PairId) (events : List Event) (pair : Pair) : Prop where
  total : pair.total = .ofNat (s₀.attempts p events)
  consecutive : ∃ a b, events = a ++ b ∧ (a = [] ∨ ∃ c e, a = c ++ [e] ∧ Heard p (s₀.run c) e) ∧
    ¬(s₀.run a).Occurs (Heard p) b ∧ pair.consecutive = .ofNat ((s₀.run a).attempts p b)
  /-- The first channel is still to be made, or it was made and so was one for each attempt. -/
  asked : (s₀.run events).asked p = 0 ∧ s₀.attempts p events = 0 ∧ pair.watchdog = .unborn ∨
    (s₀.run events).asked p + owing pair = 1 + s₀.attempts p events

theorem counted_new (initial : s₀.Initial) {key : WatchKey} {observer : Option String}
    (registers : (s₀.run events).Registers p key e) :
    Counted s₀ p (events ++ [e]) ((s₀.run events).newPair key observer) := by
  have absent : (s₀.run events).pairs[p]? = none := by
    rw [registers.1, List.getElem?_eq_none (Nat.le_refl _)]
  obtain ⟨observer', made⟩ := registers.step
  have here : p = (s₀.run events).pairs.length := registers.1
  have none : s₀.attempts p (events ++ [e]) = 0 := by
    have unborn : ((s₀.run events).step e).atWork p = false := by
      rw [made, here]
      simp [atWork, newPair, Watchdog.channel?]
    rw [attempts_concat, attempts_absent absent, begun, unborn]
    simp
  have unheard : ¬s₀.Occurs (Heard p) (events ++ [e]) := by
    rw [occurs_concat]
    rintro (⟨a, e', b, rfl, -, pair, at_p, -⟩ | ⟨⟨c, event, rfl, -⟩, -⟩)
    · rw [run_append] at absent
      simp [absent_before absent] at at_p
    · obtain ⟨-, -, observer, subscribes⟩ := registers
      cases subscribes
  have asked : (s₀.run (events ++ [e])).asked p = 0 := by
    rw [run_concat, made]
    exact asked_new (s := s₀.run events) (run_sound (sound_initial initial) events) absent
  have zero : (0 : UInt64) = .ofNat (s₀.attempts p (events ++ [e])) := by
    rw [none]
    rfl
  exact ⟨zero, ⟨[], events ++ [e], rfl, .inl rfl, unheard, zero⟩, .inl ⟨asked, none, rfl⟩⟩

theorem Counted.step (h : Counted s₀ p events pair) (orderlier : (s₀.run events).Orderlier)
    (at_p : (s₀.run events).pairs[p]? = some pair)
    (at_p' : ((s₀.run events).step e).pairs[p]? = some later)
    (moves : Moves (s₀.run events) p pair e later) (live : later.cancelled = false) :
    Counted s₀ p (events ++ [e]) later := by
  obtain ⟨total, reset, counts⟩ := moves.counts live at_p at_p'
  have begun : (s₀.run events).begun p e = getsToWork pair later := begun_eq at_p at_p'
  constructor
  · rw [attempts_concat, UInt64.ofNat_add, begun, ← h.total, total]
  · by_cases heard : Heard p (s₀.run events) e
    · refine ⟨events ++ [e], [], by simp, .inr ⟨events, e, rfl, heard⟩, ?_, reset heard⟩
      rintro ⟨a, e', b, split, -⟩
      simp at split
    · obtain ⟨a, b, rfl, start, quiet, same⟩ := h.consecutive
      have run_b : (s₀.run a).run b = s₀.run (a ++ b) := (run_append s₀ a b).symm
      refine ⟨a, b ++ [e], by simp, start, ?_, ?_⟩
      · rw [occurs_concat, run_b]
        exact not_or.2 ⟨quiet, heard⟩
      · rw [attempts_concat, run_b, UInt64.ofNat_add, ← same, begun, counts heard]
  · rw [attempts_concat, begun, run_concat]
    have balance := moves.balance live
    rcases (step_transition (s₀.run events) e).asks orderlier.lawful at_p at_p' with asks | first
    · rcases h.asked with ⟨unasked, none, unborn⟩ | made
      · rcases moves.unborn live unborn with unborn' | ⟨id, c, call⟩
        · have idle : getsToWork pair later = 0 := getsToWork_of_same (unborn'.trans unborn.symm)
          have rests : comesToStart pair later = 0 := comesToStart_of_not (unborn' ▸ rfl)
          exact .inl ⟨by omega, by omega, unborn'⟩
        · have newest := ((orderlier.lawful.orderly.pairs p pair at_p).opening id c call).2.2.1
          exact absurd unasked (Nat.ne_of_gt (asked_pos newest.1))
      · exact .inr (by omega)
    · have idle : getsToWork pair later = 0 := getsToWork_of_same first.watchdog
      have before : owing pair = 0 := owing_eq_zero (first.unborn ▸ rfl)
      have after : owing later = 0 := owing_eq_zero (first.watchdog ▸ first.unborn ▸ rfl)
      have unasked := first.before
      have asked := first.after
      rcases h.asked with ⟨-, none, -⟩ | made
      · exact .inr (by omega)
      · exact absurd made (by omega)

theorem run_counted (initial : s₀.Initial) (events : List Event)
    (at_p : (s₀.run events).pairs[p]? = some pair) (live : pair.cancelled = false) :
    Counted s₀ p events pair := by
  refine run_pair (motive := fun events pair => pair.cancelled = false → Counted s₀ p events pair)
    initial ?_ ?_ events at_p live
  · intro events e key observer registers _
    exact counted_new initial registers
  · intro events e pair later orderlier at_p at_p' facts moves ih live
    exact (ih (facts.live live)).step orderlier at_p at_p' moves live

/-- A replacement starts and is heard of, the next one fails, and a third one begins. -/
def retried : List Event :=
  replacementStarting ++ replacementStarted ++
    [.deliver 1 .heartbeat, .deliver 1 .closed, .takeNotice 0, .stopped 1,
      .handshake 2 false (.error (.channelClosed "scripted")), .pass 1000, .takeTick 0]

end Supervisor

end LedgerWatch
