import LedgerWatch.Proofs.Supervisor.Channels

/-!
# The end of a handshake

A channel that is asked to start belongs to the call or to the watchdog that waits for it, and to
nobody else. So the end of its start is told to that one: to the call that began the pair
(`step_handshake_opened`, `step_handshake_failed`) or to the watchdog that replaces its channel
(`step_handshake_replaced`).
-/

namespace LedgerWatch.Supervisor

variable {s : Supervisor} {p : PairId} {pair : Pair} {id other : CallId} {c : ChannelId}

/-- No two calls wait for one channel. -/
theorem Orderly.sole_starter {q : PairId} (h : s.Orderly)
    (mine : s.calls[id]? = some (.starting p c)) (yours : s.calls[other]? = some (.starting q c)) :
    other = id ∧ q = p := by
  have opening {id : CallId} {p : PairId} (call : s.calls[id]? = some (.starting p c)) :
      s.owner? c = some p ∧
        (s.pairs[p]?.bind fun pair => pair.line.head?) = some (.call id) := by
    have hp := h.bounded id p (aboutAt_eq_some.2 ⟨_, call, rfl⟩)
    have at_p := List.getElem?_eq_getElem hp
    obtain ⟨head, -, newest, -⟩ := (h.pairs p _ at_p).opening id c call
    exact ⟨newest.1, by rw [at_p]; exact head⟩
  obtain ⟨own, head⟩ := opening mine
  obtain ⟨own', head'⟩ := opening yours
  obtain rfl : p = q := Option.some.inj (own.symm.trans own')
  rw [head] at head'
  cases head'
  exact ⟨rfl, rfl⟩

theorem Orderly.starter (h : s.Orderly) (call : s.calls[id]? = some (.starting p c)) :
    s.starter? c = some id := by
  cases starter : s.starter? c with
  | none => exact absurd call (no_call_of_starter? starter id p)
  | some other =>
    obtain ⟨q, at_other⟩ := call_of_starter? starter
    rw [(h.sole_starter call at_other).1]

theorem channel_of_starting (own : s.owner? c = some p) (starting : s.status? c = some .starting) :
    ∃ channel, s.channels[c]? = some channel ∧ channel.pair = p ∧ channel.status = .starting := by
  obtain ⟨channel, at_c, own⟩ := Option.map_eq_some_iff.1 own
  obtain ⟨channel', at_c', starting⟩ := Option.map_eq_some_iff.1 starting
  cases at_c.symm.trans at_c'
  exact ⟨channel, at_c, own, starting⟩

/-- What a handshake does before anybody is told. -/
theorem step_handshake (h : s.Orderly) (call : s.calls[id]? = some (.starting p c))
    (at_p : s.pairs[p]? = some pair) (canStall : Bool) (result : Except SubscriptionError Unit) :
    s.step (.handshake c canStall result) =
      opened { s with channels := s.setStatus c (outcome result), effects := [] } id p c canStall
        result := by
  obtain ⟨-, -, newest, starting⟩ := (h.pairs p pair at_p).opening id c call
  obtain ⟨channel, at_c, rfl, starting⟩ := channel_of_starting newest.1 starting
  have starter (channels : List Channel) :
      starter? { s with channels, effects := [] } c = some id := h.starter call
  simp only [step, perform, handshake, at_c, starting, ne_eq, not_true_eq_false, if_false,
    modifyChannel, starter]
  cases result <;> rfl

/-- The first handshake of a pair succeeds: its call returns. -/
theorem step_handshake_opened (h : s.Orderly) (call : s.calls[id]? = some (.starting p c))
    (at_p : s.pairs[p]? = some pair) (canStall : Bool) :
    ∃ fx, s.step (.handshake c canStall (.ok ())) = { s with
      channels := s.setStatus c .started
      pairs := s.pairs.set p (s.openedPair pair c canStall)
      calls := s.calls.set id (.returned (.ok ()))
      effects := fx } := by
  have at_p' {status : ChannelStatus} :
      { s with channels := s.setStatus c status, effects := [] }.pairs[p]? = some pair := at_p
  rw [step_handshake h call at_p, opened]
  dsimp only
  rw [passTurn_modifyPair at_p']
  exact ⟨_, rfl⟩

/-- The first handshake of a registered pair fails: its call returns the error, and the pair ends
and leaves the registry. -/
theorem step_handshake_failed (h : s.Orderly) (call : s.calls[id]? = some (.starting p c))
    (at_p : s.pairs[p]? = some pair) (known : s.registry.get? pair.key = some p) (canStall : Bool)
    (error : SubscriptionError) :
    ∃ fx, s.step (.handshake c canStall (.error error)) = { s with
      channels := s.setStatus c .failed
      pairs := s.pairs.set p { pair.finish with line := pair.line.tail }
      registry := s.registry.erase pair.key
      calls := s.calls.set id (.returned (.error error))
      effects := fx } := by
  have hp := (List.getElem?_eq_some_iff.1 at_p).1
  have at_p' {status : ChannelStatus} :
      { s with channels := s.setStatus c status, effects := [] }.pairs[p]? = some pair := at_p
  rw [step_handshake h call at_p, opened]
  dsimp only
  rw [passTurn_modifyPair at_p']
  simp only [List.getElem?_set_self hp, Pair.finish, known, if_true]
  exact ⟨_, rfl⟩

/-- The handshake of a replacement succeeds. -/
theorem step_handshake_replaced (h : s.Orderly) (at_p : s.pairs[p]? = some pair)
    (watchdog : pair.watchdog = .starting c) (canStall : Bool) :
    ∃ fx, s.step (.handshake c canStall (.ok ())) = { s with
      channels := s.setStatus c .started
      pairs := s.pairs.set p (s.replacedPair pair c)
      effects := fx } := by
  obtain ⟨-, -, newest, starting⟩ := (h.pairs p pair at_p).starting c watchdog
  obtain ⟨channel, at_c, rfl, starting⟩ := channel_of_starting newest.1 starting
  have noStarter (channels : List Channel) :
      starter? { s with channels, effects := [] } c = none := by
    cases starter : starter? { s with channels, effects := [] } c with
    | none => rfl
    | some id =>
      obtain ⟨q, call⟩ := call_of_starter? starter
      have own := h.owner call at_c
      subst own
      have unborn := ((h.pairs _ pair at_p).opening id c call).2.1
      rw [watchdog] at unborn
      cases unborn
  have at_p' {status : ChannelStatus} :
      { s with channels := s.setStatus c status, effects := [] }.pairs[channel.pair]? =
        some pair := at_p
  simp only [step, perform, handshake, at_c, starting, ne_eq, not_true_eq_false, if_false,
    modifyChannel, noStarter, at_p, watchdog, if_true]
  rw [replaced]
  dsimp only
  rw [← setStatus, passTurn_modifyPair at_p']
  exact ⟨_, rfl⟩

end LedgerWatch.Supervisor
