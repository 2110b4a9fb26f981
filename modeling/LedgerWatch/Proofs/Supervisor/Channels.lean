import LedgerWatch.Proofs.Supervisor.Hands

/-!
# The channels of a pair

Every channel is in somebody's hands, or failed to start, or was stopped once, and of a pair's
channels at most one is in somebody's hands, the one made last (`Accounted`). A step changes
what is in hands for one pair at most (`Transition.custody`). Main statement: `Orderlier.run`,
which carries this and who tears down pairs over every run.
-/

namespace LedgerWatch

/-- The channel failed to start or was stopped once. -/
def Channel.Spent (channel : Channel) : Prop :=
  channel.status = .failed ∧ channel.stops = 0 ∨ channel.status = .started ∧ channel.stops = 1

/-- The channel was asked to start, has not failed to and was not stopped. -/
def Channel.Live (channel : Channel) : Prop := channel.status ≠ .failed ∧ channel.stops = 0

/-- The pair whose slot the call has emptied for good. -/
def Call.past? : Call → Option PairId
  | .stopping p _ _ | .joining p _ => some p
  | _ => none

/-- The pair that the call registered and whose first handshake is not over. -/
def Call.opens? : Call → Option PairId
  | .arriving p | .starting p _ => some p
  | _ => none

namespace Supervisor

variable {s t u : Supervisor} {p q : PairId} {pair : Pair} {id : CallId} {c d : ChannelId}
  {ps : List PairId} {status : ChannelStatus}

/-! ## Calls that have emptied a slot -/

/-- Every slot that a call has emptied for good is that of a sealed pair. -/
def Retired (s : Supervisor) : Prop :=
  ∀ (id : CallId) (call : Call) (p : PairId), s.calls[id]? = some call → call.past? = some p →
    s.SealedAt p

/-- Who stands at the head of the line alone decides about the watchdog and about starts. -/
theorem OrderlyAt.unworked (h : s.OrderlyAt p pair)
    (other : pair.line.head? ≠ some .watchdog) : pair.watchdog.channel? = none := by
  cases watchdog : pair.watchdog with
  | stopping c => exact absurd (h.stopping c watchdog).1 other
  | starting c => exact absurd (h.starting c watchdog).1 other
  | _ => rfl

theorem OrderlyAt.unstarted (h : s.OrderlyAt p pair)
    (other : ∀ id c, pair.line.head? = some (.call id) → s.calls[id]? ≠ some (.starting p c))
    (id : CallId) (c : ChannelId) : s.calls[id]? ≠ some (.starting p c) :=
  fun opening => other id c (h.opening id c opening).1 opening

/-- What a call finds that has its turn to empty the pair's slot. -/
theorem Orderly.clears {rest : List PairId} (h : s.Orderly)
    (call : s.calls[id]? = some (.clearing p rest)) (at_p : s.pairs[p]? = some pair)
    (first : pair.line.head? = some (.call id)) :
    pair.cancelled = true ∧ pair.watchdog.channel? = none ∧
      ∀ (id : CallId) (c : ChannelId), s.calls[id]? ≠ some (.starting p c) := by
  have here := h.pairs p pair at_p
  refine ⟨here.clearing id rest call, here.unworked (by simp [first]), here.unstarted ?_⟩
  intro id' c head opening
  obtain rfl : id = id' := by simpa using first.symm.trans head
  cases call.symm.trans opening

/-- A call that a step sets does not start a channel. -/
theorem unstarted_set {call : Call} (calls : t.calls = s.calls.set id call)
    (other : ∀ c, call ≠ .starting p c)
    (h : ∀ id' c, id' ≠ id → s.calls[id']? ≠ some (.starting p c)) (id' : CallId) (c : ChannelId) :
    t.calls[id']? ≠ some (.starting p c) := by
  rw [calls]
  intro k
  rcases of_getElem?_set k with ⟨-, eq⟩ | ⟨different, k⟩
  · exact other c eq.symm
  · exact h id' c (Ne.symm different) k

theorem sealedAt_set {later : Pair} (at_p : s.pairs[p]? = some pair)
    (pairs : t.pairs = s.pairs.set p later) (done : later.Sealed)
    (quiet : ∀ (id : CallId) (c : ChannelId), t.calls[id]? ≠ some (.starting p c)) :
    t.SealedAt p :=
  ⟨⟨later, by rw [pairs, List.getElem?_set_self (List.getElem?_eq_some_iff.1 at_p).1], done⟩, quiet⟩

/-- A call that tears down pairs seals each before it waits for its channel or watchdog. -/
theorem TornDown.past {call : Call} (torn : TornDown id ps s t) (hid : id < s.calls.length)
    (orderly : (s.takenOver id).Orderly) (at_id : t.calls[id]? = some call)
    (past : call.past? = some q) : t.SealedAt q := by
  have mine {s t : Supervisor} {new : Call} (hid : id < s.calls.length)
      (calls : t.calls = s.calls.set id new) (at_id : t.calls[id]? = some call) : call = new := by
    rw [calls, List.getElem?_set_self hid] at at_id
    exact (Option.some.inj at_id).symm
  have quiet {s t : Supervisor} {p : PairId} {pair : Pair} {new : Call}
      (orderly : (s.takenOver id).Orderly) (at_p : s.pairs[p]? = some pair)
      (free : pair.line = []) (calls : t.calls = s.calls.set id new)
      (other : ∀ c, new ≠ .starting p c) (id' : CallId) (c : ChannelId) :
      t.calls[id']? ≠ some (.starting p c) := by
    refine unstarted_set calls other (fun id' c different k => ?_) id' c
    refine (orderly.pairs p pair at_p).unstarted (by simp [free]) id' c ?_
    rw [takenOver, List.getElem?_set_ne (Ne.symm different)]
    exact k
  induction torn with
  | done =>
    rw [mine hid rfl at_id] at past
    cases past
  | missing _ _ ih =>
    exact ih hid (orderly.same rfl (fun _ _ _ _ => Iff.rfl) (fun _ => .refl rfl)) at_id
  | @passed p rest s t pair fx at_p _ _ _ _ ih =>
    exact ih hid (orderly.finish (s := s.takenOver id) at_p rfl rfl rfl) at_id
  | queued =>
    rw [mine hid rfl at_id] at past
    cases past
  | @stops p rest s pair c fx at_p free slot =>
    rw [mine hid rfl at_id] at past
    obtain rfl : p = q := Option.some.inj past
    refine sealedAt_set at_p rfl ⟨rfl, rfl, ?_⟩ (quiet orderly at_p free rfl (by simp))
    exact (orderly.pairs p pair at_p).unworked (by simp [free])
  | @joins p rest s pair fx at_p free slot _ =>
    rw [mine hid rfl at_id] at past
    obtain rfl : p = q := Option.some.inj past
    refine sealedAt_set at_p rfl ⟨rfl, slot, ?_⟩ (quiet orderly at_p free rfl (by simp))
    exact (orderly.pairs p pair at_p).unworked (by simp [free])

theorem GoesOn.past {call : Call} {rest : List PairId} (onward : GoesOn id p rest s t)
    (hid : id < s.calls.length) (orderly : (s.takenOver id).Orderly) (done : s.SealedAt p)
    (at_id : t.calls[id]? = some call) (past : call.past? = some q) : t.SealedAt q := by
  cases onward with
  | onward _ torn => exact torn.past hid orderly at_id past
  | joins =>
    rw [List.getElem?_set_self hid] at at_id
    cases at_id
    obtain rfl : p = q := Option.some.inj past
    exact ⟨done.1, unstarted_set rfl (by simp) (fun id' c _ => done.2 id' c)⟩

theorem opening_of_set {call new : Call} {other : CallId} (opens : call.opens? = some q)
    (different : new.opens? = none) (k : (s.calls.set id new)[other]? = some call) :
    s.calls[other]? = some call := by
  rcases of_getElem?_set k with ⟨-, rfl⟩ | ⟨-, k⟩
  · simp [different] at opens
  · exact k

theorem opening_of_append {call new : Call} (opens : call.opens? = some q)
    (different : new.opens? = none) (k : (s.calls ++ [new])[id]? = some call) :
    s.calls[id]? = some call := by
  rcases of_getElem?_concat k with k | ⟨-, rfl⟩
  · exact k
  · simp [different] at opens

theorem TornDown.opening_from {call : Call} {other : CallId} (torn : TornDown id ps s t)
    (opens : call.opens? = some q) (k : t.calls[other]? = some call) :
    s.calls[other]? = some call := by
  induction torn with
  | missing _ _ ih => exact ih k
  | passed _ _ _ _ _ ih => exact ih k
  | done | queued | stops | joins => exact opening_of_set opens rfl k

theorem GoesOn.opening_from {call : Call} {other : CallId} {rest : List PairId}
    (onward : GoesOn id p rest s t) (opens : call.opens? = some q)
    (k : t.calls[other]? = some call) : s.calls[other]? = some call := by
  cases onward with
  | onward _ torn => exact torn.opening_from opens k
  | joins => exact opening_of_set opens rfl k

/-- How a call comes to a pair's first handshake: it registers the pair, and if the pair is still
alive when it comes for the pair's channel it asks one to start. -/
inductive Opening (s : Supervisor) (e : Event) (id : CallId) (q : PairId) : Call → Prop
  | arriving {key : WatchKey} (new : id = s.calls.length) (registers : s.Registers q key e) :
      Opening s e id q (.arriving q)
  | starting {c : ChannelId} {pair : Pair} (event : e = .enter id)
      (came : s.calls[id]? = some (.arriving q)) (at_q : s.pairs[q]? = some pair)
      (live : pair.cancelled = false) : Opening s e id q (.starting q c)

theorem Transition.opening_from {e : Event} {call : Call} (step : Transition s e t)
    (sound : Sound [] s) (opens : call.opens? = some q) (k : t.calls[id]? = some call) :
    s.calls[id]? = some call ∨ s.Opening e id q call := by
  cases step with
  | registered new =>
    rcases of_getElem?_concat k with k | ⟨last, rfl⟩
    · exact .inl k
    · obtain rfl : s.pairs.length = q := Option.some.inj opens
      exact .inr (.arriving last ⟨rfl, new, _, rfl⟩)
  | @entered _ p _ _ came at_p _ live =>
    rcases of_getElem?_set k with ⟨rfl, rfl⟩ | ⟨-, k⟩
    · obtain rfl : p = q := Option.some.inj opens
      exact .inr (.starting rfl came at_p live)
    · exact .inl k
  | found | followed | unknown => exact .inl (opening_of_append opens rfl k)
  | leftAlone | answered | cleared | opened | failed => exact .inl (opening_of_set opens rfl k)
  | unsubscribed _ torn => exact .inl (opening_of_append opens rfl (torn.opening_from opens k))
  | unsubscribedAll _ torn => exact .inl (opening_of_append opens rfl (torn.opening_from opens k))
  | foundClear _ _ _ _ onward => exact .inl (onward.opening_from opens k)
  | joined _ onward => exact .inl (onward.opening_from opens k)
  | stoppedForCall _ _ onward => exact .inl (onward.opening_from opens k)
  | stray at_c missing => exact absurd missing (sound.present at_c)
  | _ => exact .inl k

/-- A sealed pair stays so. -/
theorem Transition.sealedAt {e : Event} (step : Transition s e t) (sound : Sound [] s)
    (orderly : s.Orderly) (h : s.SealedAt q) : t.SealedAt q := by
  obtain ⟨⟨mine, at_q, done⟩, quiet⟩ := h
  obtain ⟨mine', at_q', kept⟩ := step.sealing sound orderly quiet at_q
  refine ⟨⟨mine', at_q', (kept done).1⟩, fun id c k => ?_⟩
  rcases step.opening_from sound rfl k with k | opening
  · exact quiet id c k
  · cases opening with
    | starting _ _ at_q' live =>
      cases at_q.symm.trans at_q'
      simp [done.cancelled] at live

theorem Transition.retired {e : Event} (step : Transition s e t) (sound : Sound [] s)
    (orderly : s.Orderly) (h : s.Retired) : t.Retired := by
  intro id call q at_id past
  have kept (at_id : s.calls[id]? = some call) : t.SealedAt q :=
    step.sealedAt sound orderly (h id call q at_id past)
  have append {new : Call} (none : new.past? = none)
      (k : (s.calls ++ [new])[id]? = some call) : t.SealedAt q := by
    rcases of_getElem?_concat k with k | ⟨-, rfl⟩
    · exact kept k
    · simp [none] at past
  have set {id' : CallId} {new : Call} (none : new.past? = none)
      (k : (s.calls.set id' new)[id]? = some call) : t.SealedAt q := by
    rcases of_getElem?_set k with ⟨-, rfl⟩ | ⟨-, k⟩
    · simp [none] at past
    · exact kept k
  have tears {u : Supervisor} {ps : List PairId} (torn : TornDown s.calls.length ps u t)
      (calls : u.calls = s.calls ++ [.returned (.ok ())])
      (begun : (u.takenOver s.calls.length).Orderly) : t.SealedAt q := by
    by_cases eq : s.calls.length = id
    · exact torn.past (by simp [calls]) begun (eq ▸ at_id) past
    · rw [torn.calls_other eq, calls] at at_id
      exact append rfl at_id
  have resumes {u : Supervisor} {id' : CallId} {p : PairId} {rest : List PairId}
      (onward : GoesOn id' p rest u t) (calls : u.calls = s.calls) (hid : id' < s.calls.length)
      (begun : (u.takenOver id').Orderly) (done : u.SealedAt p) : t.SealedAt q := by
    by_cases eq : id' = id
    · subst eq
      exact onward.past (calls ▸ hid) begun done at_id past
    · rw [onward.calls_other eq, calls] at at_id
      exact kept at_id
  cases step with
  | registered | found | followed | unknown => exact append rfl at_id
  | entered | leftAlone | answered | opened | failed => exact set rfl at_id
  | unsubscribed _ torn => exact tears torn rfl (orderly.begun rfl rfl rfl)
  | unsubscribedAll _ torn => exact tears torn rfl (orderly.begun rfl rfl rfl)
  | cleared at_call at_p first slot =>
    obtain ⟨finished, idle, quiet⟩ := orderly.clears at_call at_p first
    rcases of_getElem?_set at_id with ⟨-, rfl⟩ | ⟨-, k⟩
    · obtain rfl := Option.some.inj past
      exact sealedAt_set at_p rfl ⟨finished, rfl, idle⟩
        (unstarted_set rfl (by simp) (fun id c _ => quiet id c))
    · exact kept k
  | @foundClear _ _ _ _ _ fx at_call at_p first slot onward =>
    obtain ⟨finished, idle, quiet⟩ := orderly.clears at_call at_p first
    refine resumes onward rfl (List.getElem?_eq_some_iff.1 at_call).1
      (orderly.takeTurn at_call at_p first rfl rfl rfl) ?_
    exact sealedAt_set at_p rfl ⟨finished, slot, idle⟩ quiet
  | joined at_call onward =>
    exact resumes onward rfl (List.getElem?_eq_some_iff.1 at_call).1
      (orderly.take at_call rfl rfl rfl (fun _ => .refl rfl)) (h _ _ _ at_call rfl)
  | stoppedForCall _ at_call onward =>
    exact resumes onward rfl (List.getElem?_eq_some_iff.1 at_call).1
      (orderly.take at_call rfl rfl rfl (fun _ => sameChannels_countStop rfl)) (h _ _ _ at_call rfl)
  | stray at_c missing => exact absurd missing (sound.present at_c)
  | _ => exact kept at_id

/-! ## One channel of a pair in hands -/

/-- The ways to have a channel of the pair. -/
inductive InHand (s : Supervisor) (p : PairId) : Option Party → ChannelId → ChannelStatus → Prop
  | opens {id : CallId} {c : ChannelId} (call : s.calls[id]? = some (.starting p c)) :
      InHand s p (some (.call id)) c .starting
  | clears {id : CallId} {c : ChannelId} {rest : List PairId}
      (call : s.calls[id]? = some (.stopping p c rest)) :
      InHand s p (some (.call id)) c .started
  | rests {pair : Pair} {c : ChannelId} (at_p : s.pairs[p]? = some pair)
      (slot : pair.channel = some c) : InHand s p none c .started
  | retires {pair : Pair} {c : ChannelId} (at_p : s.pairs[p]? = some pair)
      (watchdog : pair.watchdog = .stopping c) : InHand s p (some .watchdog) c .started
  | replaces {pair : Pair} {c : ChannelId} (at_p : s.pairs[p]? = some pair)
      (watchdog : pair.watchdog = .starting c) : InHand s p (some .watchdog) c .starting

theorem inHand_of_hand {party : Option Party} (h : s.hand p party = some (c, status)) :
    s.InHand p party c status := by
  rcases party with - | id | -
  · obtain ⟨d, slot, eq⟩ := Option.map_eq_some_iff.1 h
    cases eq
    obtain ⟨pair, at_p, slot⟩ := Option.bind_eq_some_iff.1 slot
    exact .rests at_p slot
  · obtain ⟨call, at_id, had⟩ := Option.bind_eq_some_iff.1 h
    cases call with
    | starting q d =>
      simp only [Call.channel?, Option.ite_none_right_eq_some, Option.some.injEq] at had
      obtain ⟨rfl, eq⟩ := had
      cases eq
      exact .opens at_id
    | stopping q d rest =>
      simp only [Call.channel?, Option.ite_none_right_eq_some, Option.some.injEq] at had
      obtain ⟨rfl, eq⟩ := had
      cases eq
      exact .clears at_id
    | _ => cases had
  · obtain ⟨pair, at_p, had⟩ := Option.bind_eq_some_iff.1 h
    cases watchdog : pair.watchdog with
    | stopping d =>
      simp only [watchdog, Watchdog.channel?, Option.some.injEq] at had
      cases had
      exact .retires at_p watchdog
    | starting d =>
      simp only [watchdog, Watchdog.channel?, Option.some.injEq] at had
      cases had
      exact .replaces at_p watchdog
    | _ => simp [watchdog, Watchdog.channel?] at had

/-- What is in hands was not stopped and is the pair's newest channel; all else is spent. -/
structure AccountsFor (s : Supervisor) (has : PairId → ChannelId → ChannelStatus → Prop) :
    Prop where
  had : ∀ p c status, has p c status → s.Newest p c ∧ s.channels[c]? = some ⟨p, status, 0⟩
  all : ∀ (c : ChannelId) (channel : Channel), s.channels[c]? = some channel →
    has channel.pair c channel.status ∨ channel.Spent

def Accounted (s : Supervisor) : Prop := s.AccountsFor s.Has

/-- What every supervisor is between events, with who tears down pairs and who has channels. -/
structure Orderlier (s : Supervisor) : Prop where
  lawful : s.Lawful
  exclusive : Exclusive [] s
  retired : s.Retired
  accounted : s.Accounted

theorem SealedAt.hand {party : Option Party} (h : s.SealedAt p)
    (had : s.hand p party = some (c, status)) : ∃ id rest, party = some (.call id) ∧ status = .started ∧
      s.calls[id]? = some (.stopping p c rest) := by
  obtain ⟨⟨mine, at_p, done⟩, quiet⟩ := h
  cases inHand_of_hand had with
  | opens call => exact absurd call (quiet _ _)
  | clears call => exact ⟨_, _, rfl, rfl, call⟩
  | rests at_p' slot =>
    cases at_p.symm.trans at_p'
    simp [done.slot] at slot
  | retires at_p' watchdog =>
    cases at_p.symm.trans at_p'
    simpa [watchdog, Watchdog.channel?] using done.watchdog
  | replaces at_p' watchdog =>
    cases at_p.symm.trans at_p'
    simpa [watchdog, Watchdog.channel?] using done.watchdog

/-- Only one party has a channel of a pair. -/
theorem Orderlier.sole (h : s.Orderlier) {party other : Option Party}
    {x y : ChannelId × ChannelStatus} (mine : s.hand p party = some x)
    (yours : s.hand p other = some y) : party = other := by
  obtain ⟨c, status⟩ := x
  obtain ⟨d, status'⟩ := y
  obtain ⟨newest, at_c⟩ := h.accounted.had p c status ⟨party, mine⟩
  obtain ⟨newest', at_d⟩ := h.accounted.had p d status' ⟨other, yours⟩
  obtain rfl := newest.unique newest'
  obtain rfl : status = status' := by simpa using at_c.symm.trans at_d
  have orderly {pair : Pair} (at_p : s.pairs[p]? = some pair) := h.lawful.orderly.pairs p pair at_p
  have clearing {id : CallId} {rest : List PairId} {party : Option Party}
      (call : s.calls[id]? = some (.stopping p c rest))
      (had : s.hand p party = some (c, status)) : party = some (.call id) := by
    obtain ⟨id', rest', rfl, -, call'⟩ := (h.retired id _ p call rfl).hand had
    have duty : p ∈ s.duties id := by simp [duties_eq call, Call.duties]
    have duty' : p ∈ s.duties id' := by simp [duties_eq call', Call.duties]
    rw [h.exclusive.sole duty duty']
  have hp := h.lawful.sound.owned c p newest.1
  cases inHand_of_hand mine with
  | opens call =>
    obtain ⟨head, unborn, -⟩ := (orderly (List.getElem?_eq_getElem hp)).opening _ _ call
    cases inHand_of_hand yours with
    | opens call' =>
      have head' := ((orderly (List.getElem?_eq_getElem hp)).opening _ _ call').1
      exact head.symm.trans head'
    | replaces at_p watchdog =>
      rw [List.getElem?_eq_getElem hp, Option.some.injEq] at at_p
      simp [at_p, watchdog] at unborn
  | clears call => exact (clearing call yours).symm
  | rests at_p slot =>
    cases inHand_of_hand yours with
    | clears call => exact clearing call mine
    | rests => rfl
    | retires at_p' watchdog =>
      cases at_p.symm.trans at_p'
      simp [((orderly at_p).stopping _ watchdog).2] at slot
  | retires at_p watchdog =>
    cases inHand_of_hand yours with
    | clears call => exact clearing call mine
    | rests at_p' slot =>
      cases at_p.symm.trans at_p'
      simp [((orderly at_p).stopping _ watchdog).2] at slot
    | retires => rfl
  | replaces at_p watchdog =>
    cases inHand_of_hand yours with
    | opens call =>
      simp [((orderly at_p).opening _ _ call).2.1] at watchdog
    | replaces => rfl

/-! ## What a step does to channels -/

/-- The pair has exactly what was given, and the others have what they had. -/
def Given (p : PairId) (given : Option (ChannelId × ChannelStatus)) (s t : Supervisor) : Prop :=
  ∀ q d status, t.Has q d status ↔ q ≠ p ∧ s.Has q d status ∨ q = p ∧ given = some (d, status)

/-- What a step can do to the channels and to whose hands they are in. -/
inductive Custody (s t : Supervisor) : Prop
  | still (channels : t.channels = s.channels)
      (has : ∀ q d status, t.Has q d status ↔ s.Has q d status)
  | made {p : PairId} (idle : ∀ c status, ¬ s.Has p c status)
      (live : ∀ pair, s.pairs[p]? = some pair → pair.cancelled = false)
      (channels : t.channels = s.channels ++ [newChannel p])
      (has : Given p (some (s.channels.length, .starting)) s t)
  | opened {p : PairId} {c : ChannelId} (had : s.Has p c .starting)
      (channels : t.channels = s.setStatus c .started) (has : Given p (some (c, .started)) s t)
  | failed {p : PairId} {c : ChannelId} (had : s.Has p c .starting)
      (channels : t.channels = s.setStatus c .failed) (has : Given p none s t)
  | stopped {p : PairId} {c : ChannelId} (had : s.Has p c .started)
      (channels : t.channels = s.countStop c) (has : Given p none s t)
  | exchanged {p : PairId} {c : ChannelId} (had : s.Has p c .started)
      (channels : t.channels = s.countStop c ++ [newChannel p])
      (has : Given p (some (s.channels.length, .starting)) s t)

theorem Orderlier.given (giver taker : Option Party) {given : Option (ChannelId × ChannelStatus)}
    {x : ChannelId × ChannelStatus} (h : s.Orderlier) (had : s.hand p giver = some x)
    (handed : HandsOver s t p giver taker given) : Given p given s t :=
  handed.has fun _ _ other => h.sole other had

theorem given_of_idle (giver taker : Option Party) {given : Option (ChannelId × ChannelStatus)}
    (idle : ∀ c status, ¬ s.Has p c status) (handed : HandsOver s t p giver taker given) :
    Given p given s t :=
  handed.has fun party had k => absurd ⟨party, k⟩ (idle had.1 had.2)

/-- A channel only goes from one party to another. -/
theorem custody_of_move (p : PairId) (giver taker : Option Party)
    (empty : giver ≠ taker → s.hand p taker = none) (channels : t.channels = s.channels)
    (handed : HandsOver s t p giver taker (s.hand p giver)) : Custody s t :=
  .still channels (handed.has_same empty)

/-- Nobody has a channel of a pair for whose first channel a call still comes. -/
theorem Orderlier.idle_of_arriving (h : s.Orderlier) (call : s.calls[id]? = some (.arriving p))
    (at_p : s.pairs[p]? = some pair) (c : ChannelId) (status : ChannelStatus) :
    ¬ s.Has p c status :=
  fun had => ((h.lawful.orderly.pairs p pair at_p).arriving id call).channels c
    (h.accounted.had p c status had).1.1

/-- Nobody has a channel of a live pair with an empty slot whose watchdog is to start one. -/
theorem Orderlier.idle_of_turn {e : Event} {ready : Pair} (h : s.Orderlier)
    (at_p : s.pairs[p]? = some pair) (turn : GetsTurn s p pair e ready)
    (live : pair.cancelled = false) (slot : pair.channel = none) (c : ChannelId)
    (status : ChannelStatus) : ¬ s.Has p c status := by
  rintro ⟨party, had⟩
  have resting := turn.resting
  cases inHand_of_hand had with
  | opens call =>
    have unborn := ((h.lawful.orderly.pairs p pair at_p).opening _ _ call).2.1
    simp [unborn] at resting
  | clears call =>
    obtain ⟨⟨pair', at_p', done⟩, -⟩ := h.retired _ _ p call rfl
    cases at_p.symm.trans at_p'
    simp [done.cancelled] at live
  | rests at_p' slot' =>
    cases at_p.symm.trans at_p'
    simp [slot] at slot'
  | retires at_p' watchdog =>
    cases at_p.symm.trans at_p'
    simp [watchdog] at resting
  | replaces at_p' watchdog =>
    cases at_p.symm.trans at_p'
    simp [watchdog] at resting

theorem GetsTurn.watchdog_channel? {e : Event} {ready : Pair} (turn : GetsTurn s p pair e ready) :
    pair.watchdog.channel? = none := by
  rcases turn.resting with k | k <;> rw [k] <;> rfl

/-- A call that has just begun has no channel. -/
theorem has_begun (pairs : t.pairs = s.pairs) (calls : t.calls = s.calls ++ [.returned (.ok ())]) :
    (t.takenOver s.calls.length).Has q d status ↔ s.Has q d status :=
  has_congr (hand_addCall (s := s) (t := t.takenOver s.calls.length) (.returned (.ok ()))
    (calls_begun calls) pairs (fun _ => rfl) q)

theorem has_taken {call : Call} (at_id : s.calls[id]? = some call)
    (none : ∀ q, call.channel? q = none) (pairs : t.pairs = s.pairs) (calls : t.calls = s.calls) :
    (t.takenOver id).Has q d status ↔ s.Has q d status :=
  has_congr (hand_setCall (s := s) (t := t.takenOver id) (.returned (.ok ())) at_id
    (by rw [takenOver, calls]) pairs (fun q => (none q).symm) q)

theorem Transition.custody {e : Event} (step : Transition s e t) (h : s.Orderlier) :
    Custody s t := by
  have still {t : Supervisor} (channels : t.channels = s.channels)
      (same : ∀ q party, t.hand q party = s.hand q party) : Custody s t :=
    .still channels fun q _ _ => has_congr (same q)
  cases step with
  | idle | passed => exact still rfl (hand_eq rfl rfl)
  | registered => exact still rfl (hand_new rfl rfl rfl rfl (fun _ => rfl))
  | leftAlone call =>
    exact still rfl (hand_setCall (.returned (.ok ())) call rfl rfl (fun _ => rfl))
  | found => exact still rfl (hand_addCall (.returned _) rfl rfl (fun _ => rfl))
  | unknown => exact still rfl (hand_addCall (.returned _) rfl rfl (fun _ => rfl))
  | @followed _ _ p pair fx _ at_p _ =>
    let later : Pair := { pair with line := pair.line ++ [.call s.calls.length] }
    let u : Supervisor := { s with pairs := s.pairs.set p later }
    exact still rfl (hand_trans (u := u) (hand_pair later at_p rfl rfl rfl rfl)
      (hand_addCall (.following p) rfl rfl (fun _ => rfl)))
  | @answered id p pair fx call at_p _ =>
    exact still rfl (hand_both { pair with line := pair.line.tail } (.returned (followerResult pair))
      at_p call rfl rfl rfl rfl (fun _ => rfl))
  | @rested e p pair woken fx at_p wakes _ =>
    refine still rfl (hand_pair woken at_p rfl rfl ?_ ?_)
    · cases wakes <;> rfl
    · rw [wakes.idle.1, wakes.idle.2]
  | @queued e p pair woken fx at_p wakes _ _ =>
    refine still rfl (hand_pair _ at_p rfl rfl ?_ ?_)
    · cases wakes <;> rfl
    · rw [wakes.idle.1]
      rfl
  | @withdrew e p pair ready fx at_p turn _ =>
    refine still rfl (hand_pair _ at_p rfl rfl turn.channel_eq ?_)
    exact turn.watchdog_channel?.symm
  | @ended p pair fx at_p idle _ =>
    refine still rfl (hand_pair _ at_p rfl rfl rfl ?_)
    rw [idle]
    rfl
  | heard _ at_p _ _ => exact still rfl (hand_pair _ at_p rfl rfl rfl rfl)
  | closing _ at_p _ => exact still rfl (hand_pair _ at_p rfl rfl rfl rfl)
  | unsubscribed _ torn =>
    exact .still torn.channels fun q d status =>
      (torn.has (by simp) q d status).trans (has_begun rfl rfl)
  | unsubscribedAll _ torn =>
    exact .still torn.channels fun q d status =>
      (torn.has (by simp) q d status).trans (has_begun rfl rfl)
  | @foundClear id p rest pair t fx call at_p _ _ onward =>
    have hid := (List.getElem?_eq_some_iff.1 call).1
    refine .still onward.channels fun q d status => (onward.has hid q d status).trans ?_
    exact has_congr (hand_both { pair with line := pair.line.tail } (.returned (.ok ())) at_p call
      rfl rfl rfl rfl (fun _ => rfl) q)
  | @joined id p rest t fx call onward =>
    have hid := (List.getElem?_eq_some_iff.1 call).1
    exact .still onward.channels fun q d status =>
      (onward.has hid q d status).trans (has_taken call (fun _ => rfl) rfl rfl)
  | @cleared id p rest pair c fx call at_p first slot =>
    have hp := (List.getElem?_eq_some_iff.1 at_p).1
    have hid := (List.getElem?_eq_some_iff.1 call).1
    have gives : s.hand p none = some (c, .started) := by rw [hand_slot at_p, slot]; rfl
    refine custody_of_move p none (some (.call id)) (fun _ => by rw [hand_call call]; rfl) rfl ?_
    refine handsOver_both { pair with channel := none, line := pair.line.tail }
      (.stopping p c rest) at_p call rfl rfl ?_ (fun _ => ?_) (fun k => absurd rfl k)
      (fun _ _ => rfl) (fun q other => ?_)
    · rw [gives]
      simp [hand, hid, Call.channel?]
    · simp [hand, hp]
    · have different : p ≠ q := fun eq => (other eq.symm).2 rfl
      simp [Call.channel?, different]
  | @stopsOld e p pair ready old fx at_p turn live slot =>
    have hp := (List.getElem?_eq_some_iff.1 at_p).1
    have gives : s.hand p none = some (old, .started) := by rw [hand_slot at_p, slot]; rfl
    refine custody_of_move p none (some .watchdog)
      (fun _ => by rw [hand_watchdog at_p, turn.watchdog_channel?]) rfl ?_
    refine handsOver_pair (replacing ready (.stopping old)) at_p rfl rfl ?_ (fun _ => ?_)
      (fun k => absurd rfl k) (fun _ k => absurd rfl k)
    · rw [gives]
      simp [hand, hp, replacing, Watchdog.channel?]
    · simp [hand, hp, replacing]
  | @entered id p pair fx call at_p _ live =>
    have idle := h.idle_of_arriving call at_p
    refine .made idle (fun pair' at_p' => ?_) rfl
      (given_of_idle (some (.call id)) (some (.call id)) idle ?_)
    · cases at_p.symm.trans at_p'
      exact live
    · refine handsOver_both { pair with line := [.call id] } (.starting p s.channels.length) at_p
        call rfl rfl ?_ (fun k => absurd rfl k) (fun _ _ => rfl) (fun _ _ => rfl) (fun q other => ?_)
      · simp [hand, (List.getElem?_eq_some_iff.1 call).1, Call.channel?]
      · have different : p ≠ q := fun eq => (other eq.symm).1 rfl
        simp [Call.channel?, different]
  | @startsNew e p pair ready fx at_p turn live slot =>
    have idle := h.idle_of_turn at_p turn live slot
    refine .made idle (fun pair' at_p' => ?_) rfl
      (given_of_idle (some .watchdog) (some .watchdog) idle ?_)
    · cases at_p.symm.trans at_p'
      exact live
    · refine handsOver_pair (replacing ready (.starting s.channels.length)) at_p rfl rfl ?_
        (fun k => absurd rfl k) (fun _ _ => slot.symm) (fun k => absurd rfl k)
      simp [hand, (List.getElem?_eq_some_iff.1 at_p).1, replacing, Watchdog.channel?]
  | @opened c canStall id p pair channel fx at_c _ call at_p =>
    obtain rfl := h.lawful.orderly.owner call at_c
    have unborn := ((h.lawful.orderly.pairs _ _ at_p).opening _ _ call).2.1
    have hp := (List.getElem?_eq_some_iff.1 at_p).1
    have hid := (List.getElem?_eq_some_iff.1 call).1
    have had : s.hand channel.pair (some (.call id)) = some (c, .starting) := by
      rw [hand_call call]
      simp [Call.channel?]
    refine .opened ⟨_, had⟩ rfl (h.given (some (.call id)) none had ?_)
    refine handsOver_both (s.openedPair pair c canStall) (.returned (.ok ())) at_p call rfl rfl ?_
      (fun _ => ?_) (fun _ k => absurd rfl k) (fun _ _ => ?_) (fun q other => ?_)
    · simp [hand, hp, openedPair]
    · simp [hand, hid, Call.channel?]
    · rw [unborn]
      rfl
    · have different : channel.pair ≠ q := fun eq => (other eq.symm).1 rfl
      simp [Call.channel?, different]
  | @failed c canStall id p pair channel error fx at_c _ call at_p =>
    obtain rfl := h.lawful.orderly.owner call at_c
    have hid := (List.getElem?_eq_some_iff.1 call).1
    have had : s.hand channel.pair (some (.call id)) = some (c, .starting) := by
      rw [hand_call call]
      simp [Call.channel?]
    refine .failed ⟨_, had⟩ rfl (h.given (some (.call id)) (some (.call id)) had ?_)
    refine handsOver_both { pair.finish with line := pair.line.tail } (.returned (.error error))
      at_p call rfl rfl ?_ (fun k => absurd rfl k) (fun _ _ => rfl) (fun _ _ => rfl)
      (fun q other => ?_)
    · simp [hand, hid, Call.channel?]
    · have different : channel.pair ≠ q := fun eq => (other eq.symm).1 rfl
      simp [Call.channel?, different]
  | @replaced c canStall pair channel fx at_c _ at_p watchdog =>
    have hp := (List.getElem?_eq_some_iff.1 at_p).1
    have had : s.hand channel.pair (some .watchdog) = some (c, .starting) := by
      rw [hand_watchdog at_p, watchdog]
      rfl
    refine .opened ⟨_, had⟩ rfl (h.given (some .watchdog) none had ?_)
    refine handsOver_pair (s.replacedPair pair c) at_p rfl rfl ?_ (fun _ => ?_)
      (fun _ k => absurd rfl k) (fun k => absurd rfl k)
    · simp [hand, hp, replacedPair]
    · simp [hand, hp, replacedPair, Watchdog.channel?]
  | @notReplaced c canStall pair channel error fx at_c _ at_p watchdog =>
    have had : s.hand channel.pair (some .watchdog) = some (c, .starting) := by
      rw [hand_watchdog at_p, watchdog]
      rfl
    refine .failed ⟨_, had⟩ rfl (h.given (some .watchdog) (some .watchdog) had ?_)
    refine handsOver_pair { pair with watchdog := .idle, line := pair.line.tail } at_p rfl rfl ?_
      (fun k => absurd rfl k) (fun _ _ => rfl) (fun k => absurd rfl k)
    simp [hand, (List.getElem?_eq_some_iff.1 at_p).1, Watchdog.channel?]
  | @unawaited c canStall result pair channel status fx at_c starting at_p noCall watchdog =>
    rcases h.accounted.all c channel at_c with ⟨party, had⟩ | spent
    · rw [starting] at had
      cases inHand_of_hand had with
      | opens call => exact absurd call (noCall _ _)
      | replaces at_p' working =>
        cases at_p.symm.trans at_p'
        exact absurd working watchdog
    · simp [Channel.Spent, starting] at spent
  | stray at_c missing => exact absurd missing (h.lawful.sound.present at_c)
  | @stoppedForCall c id p rest channel t fx at_c call onward =>
    have hid := (List.getElem?_eq_some_iff.1 call).1
    have had : s.hand p (some (.call id)) = some (c, .started) := by
      rw [hand_call call]
      simp [Call.channel?]
    refine .stopped ⟨_, had⟩ onward.channels fun q d status => (onward.has hid q d status).trans ?_
    refine h.given (some (.call id)) (some (.call id)) had ?_ q d status
    refine handsOver_call (.returned (.ok ())) call rfl rfl rfl (fun q different => ?_)
    simp [Call.channel?, Ne.symm different]
  | @stoppedForWatchdog c pair channel fx at_c at_p watchdog =>
    have had : s.hand channel.pair (some .watchdog) = some (c, .started) := by
      rw [hand_watchdog at_p, watchdog]
      rfl
    refine .exchanged ⟨_, had⟩ rfl (h.given (some .watchdog) (some .watchdog) had ?_)
    refine handsOver_pair { pair with watchdog := .starting s.channels.length } at_p rfl rfl ?_
      (fun k => absurd rfl k) (fun _ _ => rfl) (fun k => absurd rfl k)
    simp [hand, (List.getElem?_eq_some_iff.1 at_p).1, Watchdog.channel?]

/-! ## Every channel is accounted for -/

variable {has has' : PairId → ChannelId → ChannelStatus → Prop}

/-- A channel that was in hands changes, and stays in hands or is spent. -/
theorem AccountsFor.modify {f : Channel → Channel} (given : Option (ChannelId × ChannelStatus))
    (h : s.AccountsFor has) (had : has p c status)
    (channels : t.channels = s.channels.modify c f)
    (keep : ∀ channel, (f channel).pair = channel.pair)
    (after : ∀ q d status, has' q d status ↔
      q ≠ p ∧ has q d status ∨ q = p ∧ given = some (d, status))
    (new : given = some (c, (f ⟨p, status, 0⟩).status) ∧ (f ⟨p, status, 0⟩).stops = 0 ∨
      given = none ∧ (f ⟨p, status, 0⟩).Spent) : t.AccountsFor has' := by
  obtain ⟨newest, at_c⟩ := h.had p c status had
  have newest_iff (q : PairId) (d : ChannelId) : t.Newest q d ↔ s.Newest q d := by
    simp only [Newest, owner?_modify keep channels]
  have at_c' : t.channels[c]? = some (f ⟨p, status, 0⟩) := by
    rw [channels, List.getElem?_modify, at_c]
    simp
  have same {d : ChannelId} (other : c ≠ d) : t.channels[d]? = s.channels[d]? := by
    rw [channels, List.getElem?_modify]
    simp [other]
  have own : (f ⟨p, status, 0⟩).pair = p := keep _
  constructor
  · intro q d status' had'
    rcases (after q d status').1 had' with ⟨different, had'⟩ | ⟨rfl, eq⟩
    · obtain ⟨newest', at_d⟩ := h.had q d status' had'
      have other : c ≠ d := by
        rintro rfl
        exact different (congrArg Channel.pair (Option.some.inj (at_d.symm.trans at_c)))
      exact ⟨(newest_iff q d).2 newest', (same other).trans at_d⟩
    · rcases new with ⟨kept, unstopped⟩ | ⟨gone, -⟩
      · obtain ⟨rfl, rfl⟩ := Prod.mk.inj (Option.some.inj (kept.symm.trans eq))
        refine ⟨(newest_iff q c).2 newest, at_c'.trans ?_⟩
        cases after : f ⟨q, status, 0⟩ with
        | mk pair status stops => simp_all
      · simp [gone] at eq
  · intro d channel at_d
    by_cases same_c : c = d
    · subst same_c
      obtain rfl := Option.some.inj (at_c'.symm.trans at_d)
      rcases new with ⟨kept, -⟩ | ⟨-, spent⟩
      · exact .inl ((after _ _ _).2 (.inr ⟨own, kept⟩))
      · exact .inr spent
    · rw [same same_c] at at_d
      rcases h.all d channel at_d with had' | spent
      · refine .inl ((after _ _ _).2 (.inl ⟨fun eq => ?_, had'⟩))
        exact same_c (newest.unique (eq ▸ (h.had _ d _ had').1))
      · exact .inr spent

/-- A new channel is in hands. -/
theorem AccountsFor.append (h : s.AccountsFor has) (idle : ∀ c status, ¬ has p c status)
    (channels : t.channels = s.channels ++ [newChannel p])
    (after : ∀ q d status, has' q d status ↔
      q ≠ p ∧ has q d status ∨ q = p ∧ some (s.channels.length, .starting) = some (d, status)) :
    t.AccountsFor has' := by
  constructor
  · intro q d status had
    rcases (after q d status).1 had with ⟨different, had⟩ | ⟨rfl, eq⟩
    · obtain ⟨newest, at_d⟩ := h.had q d status had
      refine ⟨((sameChannels_append channels (Ne.symm different)).newest d).2 newest, ?_⟩
      rw [channels, List.getElem?_append_left (List.getElem?_eq_some_iff.1 at_d).1]
      exact at_d
    · obtain ⟨rfl, rfl⟩ := Prod.mk.inj (Option.some.inj eq)
      exact ⟨newest_append channels, by simp [channels, newChannel]⟩
  · intro d channel at_d
    rw [channels] at at_d
    rcases of_getElem?_concat at_d with at_d | ⟨rfl, rfl⟩
    · rcases h.all d channel at_d with had | spent
      · refine .inl ((after _ _ _).2 (.inl ⟨fun eq => ?_, had⟩))
        exact idle _ _ (eq ▸ had)
      · exact .inr spent
    · exact .inl ((after _ _ _).2 (.inr ⟨rfl, rfl⟩))

theorem Custody.accounted (h : Custody s t) (accounted : s.Accounted) : t.Accounted := by
  cases h with
  | still channels same =>
    constructor
    · intro q d status had
      obtain ⟨newest, at_d⟩ := accounted.had q d status ((same q d status).1 had)
      exact ⟨((SameChannels.refl channels).newest d).2 newest, channels ▸ at_d⟩
    · intro d channel at_d
      exact (accounted.all d channel (channels ▸ at_d)).imp_left (same _ _ _).2
  | made idle _ channels after => exact AccountsFor.append accounted idle channels after
  | opened had channels after =>
    exact AccountsFor.modify _ accounted had channels (fun _ => rfl) after (.inl ⟨rfl, rfl⟩)
  | failed had channels after =>
    exact AccountsFor.modify _ accounted had channels (fun _ => rfl) after
      (.inr ⟨rfl, .inl ⟨rfl, rfl⟩⟩)
  | stopped had channels after =>
    exact AccountsFor.modify _ accounted had channels (fun _ => rfl) after
      (.inr ⟨rfl, .inr ⟨rfl, rfl⟩⟩)
  | @exchanged p c had channels after =>
    -- The old channel is stopped first, so that the pair has none when the new one is made.
    let u : Supervisor := { s with channels := s.countStop c }
    have length : u.channels.length = s.channels.length := by simp [u, countStop]
    have between : u.AccountsFor fun q d status => q ≠ p ∧ s.Has q d status := by
      refine AccountsFor.modify none accounted had rfl (fun _ => rfl) ?_
        (.inr ⟨rfl, .inr ⟨rfl, rfl⟩⟩)
      simp
    refine between.append (by simp) channels (fun q d status => (after q d status).trans ?_)
    rw [length]
    simp only [ne_eq, and_self_left]

theorem Transition.orderlier {e : Event} (step : Transition s e t) (lawful : t.Lawful)
    (h : s.Orderlier) : t.Orderlier :=
  ⟨lawful, step.exclusive h.lawful.sound h.exclusive,
    step.retired h.lawful.sound h.lawful.orderly h.retired,
    (step.custody h).accounted h.accounted⟩

theorem orderlier_initial (h : s.Initial) : s.Orderlier := by
  refine ⟨lawful_initial h, exclusive_initial h, fun id call p at_id => ?_, ?_, ?_⟩
  · simp [h.calls] at at_id
  · rintro p c status ⟨party, had⟩
    cases inHand_of_hand had <;> simp_all [h.calls, h.pairs]
  · intro c channel at_c
    simp [h.channels] at at_c

theorem Orderlier.run (h : s.Orderlier) (events : List Event) : (s.run events).Orderlier := by
  induction events generalizing s with
  | nil => exact h
  | cons e events ih => exact ih ((step_transition s e).orderlier (h.lawful.step e) h)

/-- Of a pair's channels at most one is live. -/
theorem Orderlier.live_unique {channel other : Channel} (h : s.Orderlier)
    (at_c : s.channels[c]? = some channel) (at_d : s.channels[d]? = some other)
    (same : channel.pair = other.pair) (live : channel.Live) (live' : other.Live) : c = d := by
  have had {c : ChannelId} {channel : Channel} (at_c : s.channels[c]? = some channel)
      (live : channel.Live) : s.Newest channel.pair c := by
    rcases h.accounted.all c channel at_c with had | ⟨failed, -⟩ | ⟨-, stopped⟩
    · exact (h.accounted.had _ c _ had).1
    · exact absurd failed live.1
    · simp [live.2] at stopped
  exact (had at_c live).unique (same ▸ had at_d live')

end Supervisor

end LedgerWatch
