import LedgerWatch.Proofs.Supervisor.Gates
import LedgerWatch.Proofs.Supervisor.Turns

/-!
# The end of delivery

Main statement: `delivery_ends`. Once the call that ends a pair has returned, nothing that a
channel of that pair delivers changes anything, whatever happens later.

A call that tears down several pairs owes each of them its end (`Transition.owes`), and a call
that starts a pair's first channel returns an error only with the pair ended
(`Transition.call`).
-/

namespace LedgerWatch.Supervisor

variable {s t : Supervisor} {p q : PairId} {pair : Pair} {id : CallId} {ps : List PairId}

/-! ## What a tearing call owes -/

theorem TornDown.calls_other (h : TornDown id ps s t) {other : CallId} (different : id ≠ other) :
    t.calls[other]? = s.calls[other]? := by
  induction h with
  | missing _ _ ih => exact ih
  | passed _ _ _ _ _ ih => exact ih
  | done | queued | stops | joins => exact List.getElem?_set_ne different

theorem GoesOn.calls_other {rest : List PairId} (h : GoesOn id p rest s t) {other : CallId}
    (different : id ≠ other) : t.calls[other]? = s.calls[other]? := by
  cases h with
  | onward _ torn => exact torn.calls_other different
  | joins => exact List.getElem?_set_ne different

theorem owes_of_calls_eq (h : t.calls[id]? = s.calls[id]?) : t.owes id = s.owes id := by
  rw [owes, owes, h]

theorem GoesOn.progress {rest : List PairId} (h : GoesOn id p rest s t) (hid : id < s.calls.length)
    (present : ∀ r ∈ rest, r < s.pairs.length) (mem : q ∈ rest) : q ∈ t.owes id ∨ t.Ended q := by
  cases h with
  | onward _ torn => exact torn.progress hid present mem
  | joins => exact .inl (by simpa [owes, hid, Call.rest] using mem)

theorem Transition.stays_ended {e : Event} (step : Transition s e t) (ended : s.Ended q) :
    t.Ended q := by
  obtain ⟨pair, at_q, finished⟩ := ended
  obtain ⟨pair', at_q', later⟩ := step.later at_q
  exact ⟨pair', at_q', later.cancelled finished⟩

theorem run_ended (events : List Event) (ended : s.Ended q) : (s.run events).Ended q := by
  obtain ⟨pair, at_q, finished⟩ := ended
  obtain ⟨pair', at_q', later⟩ := run_later events at_q
  exact ⟨pair', at_q', later.cancelled finished⟩

/-- A pair that a call has to come to stays so until the call ends it. -/
theorem Transition.owes {e : Event} (step : Transition s e t) (sound : Sound [] s)
    (mem : q ∈ s.owes id) : q ∈ t.owes id ∨ t.Ended q := by
  have present {id : CallId} {call : Call} (at_id : s.calls[id]? = some call) :
      ∀ r ∈ call.rest, r < s.pairs.length :=
    fun r hr => (sound.leaving r (.inr ⟨id, owes_eq at_id ▸ hr⟩)).1
  have append {t : Supervisor} {call : Call} (empty : call.rest = [])
      (calls : t.calls = s.calls ++ [call]) : q ∈ t.owes id :=
    owes_append empty calls id ▸ mem
  have set {t : Supervisor} {id' : CallId} {old call : Call} (at_id : s.calls[id']? = some old)
      (calls : t.calls = s.calls.set id' call) (same : call.rest = old.rest) : q ∈ t.owes id := by
    rw [owes_set (List.getElem?_eq_some_iff.1 at_id).1 calls]
    split
    · rename_i eq
      rw [same, ← owes_eq at_id, eq]
      exact mem
    · exact mem
  have onward {u t : Supervisor} {id' : CallId} {p : PairId} {rest : List PairId} {old : Call}
      (h : GoesOn id' p rest u t) (at_id : s.calls[id']? = some old) (same : old.rest = rest)
      (calls : u.calls = s.calls) (length : u.pairs.length = s.pairs.length) :
      q ∈ t.owes id ∨ t.Ended q := by
    by_cases eq : id' = id
    · subst eq
      refine h.progress (calls ▸ (List.getElem?_eq_some_iff.1 at_id).1) ?_ ?_
      · rw [length, ← same]
        exact present at_id
      · rwa [owes_eq at_id, same] at mem
    · have kept := owes_of_calls_eq (s := s) ((h.calls_other eq).trans (by rw [calls]))
      exact .inl (kept ▸ mem)
  have torn {u t : Supervisor} {ps : List PairId}
      (calls : u.calls = s.calls ++ [.returned (.ok ())])
      (h : TornDown s.calls.length ps u t) : q ∈ t.owes id := by
    by_cases eq : s.calls.length = id
    · subst eq
      simp [Supervisor.owes] at mem
    · rw [owes_of_calls_eq (h.calls_other eq)]
      exact append rfl calls
  cases step with
  | registered | found | followed | unknown => exact .inl (append rfl rfl)
  | unsubscribed _ h => exact .inl (torn rfl h)
  | unsubscribedAll _ h => exact .inl (torn rfl h)
  | entered call | leftAlone call | answered call | cleared call | opened _ _ call
  | failed _ _ call => exact .inl (set call rfl rfl)
  | foundClear call _ _ _ h => exact onward h call rfl rfl (by simp)
  | joined call h => exact onward h call rfl rfl rfl
  | stoppedForCall _ call h => exact onward h call rfl rfl rfl
  | stray at_c missing => exact absurd missing (sound.present at_c)
  | _ => exact .inl mem

theorem run_owes (events : List Event) (sound : Sound [] s) (mem : q ∈ s.owes id ∨ s.Ended q) :
    q ∈ (s.run events).owes id ∨ (s.run events).Ended q := by
  induction events generalizing s with
  | nil => exact mem
  | cons e events ih =>
    have step := step_transition s e
    refine ih (step.sound sound) ?_
    rcases mem with mem | ended
    · exact step.owes sound mem
    · exact .inr (step.stays_ended ended)

/-! ## The call that starts a pair -/

/-- How a call that is where the last argument says goes on. -/
inductive Proceeds (s : Supervisor) (id : CallId) (e : Event) (t : Supervisor) : Call → Prop
  | entered {p : PairId} {pair : Pair} (event : e = .enter id) (at_p : s.pairs[p]? = some pair)
      (live : pair.cancelled = false)
      (starts : t.calls[id]? = some (.starting p s.channels.length)) :
      Proceeds s id e t (.arriving p)
  | leftAlone {p : PairId} (event : e = .enter id) (ended : s.Ended p)
      (told : t.calls[id]? = some (.returned (.ok ()))) : Proceeds s id e t (.arriving p)
  | answered {p : PairId} {pair : Pair} (at_p : s.pairs[p]? = some pair)
      (first : pair.line.head? = some (.call id))
      (told : t.calls[id]? = some (.returned (followerResult pair))) :
      Proceeds s id e t (.following p)
  | opened {p : PairId} {c : ChannelId} {canStall : Bool}
      (event : e = .handshake c canStall (.ok ()))
      (told : t.calls[id]? = some (.returned (.ok ()))) : Proceeds s id e t (.starting p c)
  | failed {p : PairId} {c : ChannelId} {canStall : Bool} {error : SubscriptionError}
      (event : e = .handshake c canStall (.error error))
      (told : t.calls[id]? = some (.returned (.error error))) (ended : t.Ended p) :
      Proceeds s id e t (.starting p c)
  | clears {p : PairId} {rest : List PairId} : Proceeds s id e t (.clearing p rest)
  | stops {p : PairId} {c : ChannelId} {rest : List PairId} : Proceeds s id e t (.stopping p c rest)
  | joins {p : PairId} {rest : List PairId} : Proceeds s id e t (.joining p rest)

/-- A call stays where it is or goes on. -/
theorem Transition.call {e : Event} {call : Call} (step : Transition s e t) (sound : Sound [] s)
    (orderly : s.Orderly) (at_id : s.calls[id]? = some call) :
    t.calls[id]? = some call ∨ s.Proceeds id e t call := by
  obtain ⟨hid, -⟩ := List.getElem?_eq_some_iff.1 at_id
  have append {t : Supervisor} {new : Call} (calls : t.calls = s.calls ++ [new]) :
      t.calls[id]? = some call := by
    rw [calls, List.getElem?_append_left hid]
    exact at_id
  have set {t : Supervisor} {id' : CallId} {old new : Call} (k : s.calls[id']? = some old)
      (calls : t.calls = s.calls.set id' new)
      (mine : t.calls[id]? = some new → id' = id → s.Proceeds id e t old) :
      t.calls[id]? = some call ∨ s.Proceeds id e t call := by
    by_cases eq : id' = id
    · subst eq
      cases at_id.symm.trans k
      exact .inr (mine (by rw [calls, List.getElem?_set_self hid]) rfl)
    · exact .inl (by rw [calls, List.getElem?_set_ne eq, at_id])
  have onward {u t : Supervisor} {id' : CallId} {p : PairId} {rest : List PairId} {old : Call}
      (h : GoesOn id' p rest u t) (k : s.calls[id']? = some old) (calls : u.calls = s.calls)
      (mine : s.Proceeds id e t old) : t.calls[id]? = some call ∨ s.Proceeds id e t call := by
    by_cases eq : id' = id
    · subst eq
      cases at_id.symm.trans k
      exact .inr mine
    · exact .inl (by rw [h.calls_other eq, calls, at_id])
  have torn {u t : Supervisor} {ps : List PairId}
      (calls : u.calls = s.calls ++ [.returned (.ok ())])
      (h : TornDown s.calls.length ps u t) : t.calls[id]? = some call := by
    rw [h.calls_other (Nat.ne_of_gt hid)]
    exact append calls
  cases step with
  | registered | found | followed | unknown => exact .inl (append rfl)
  | unsubscribed _ h => exact .inl (torn rfl h)
  | unsubscribedAll _ h => exact .inl (torn rfl h)
  | entered k at_p _ live =>
    exact set k rfl (fun starts eq => .entered (by rw [eq]) at_p live starts)
  | leftAlone k at_p _ finished =>
    exact set k rfl (fun told eq => .leftAlone (by rw [eq]) ⟨_, at_p, finished⟩ told)
  | answered k at_p first =>
    exact set k rfl (fun told eq => .answered at_p (eq ▸ first) told)
  | cleared k => exact set k rfl (fun _ _ => .clears)
  | foundClear k _ _ _ h => exact onward h k rfl .clears
  | joined k h => exact onward h k rfl .joins
  | stoppedForCall _ k h => exact onward h k rfl .stops
  | opened _ _ k _ => exact set k rfl (fun told _ => .opened rfl told)
  | failed at_c _ k at_p =>
    obtain rfl := orderly.owner k at_c
    exact set k rfl (fun told _ => .failed rfl told (ended_set at_p _ _ rfl))
  | stray at_c missing => exact absurd missing (sound.present at_c)
  | _ => exact .inl at_id

theorem Transition.returned {e : Event} {result : Except SubscriptionError Unit}
    (step : Transition s e t) (sound : Sound [] s) (orderly : s.Orderly)
    (at_id : s.calls[id]? = some (.returned result)) : t.calls[id]? = some (.returned result) := by
  rcases step.call sound orderly at_id with same | proceeds
  · exact same
  · cases proceeds

/-- Where a call that started the pair's first channel may have come to. -/
def Starts (s : Supervisor) (id : CallId) (p : PairId) : Prop :=
  s.calls[id]? = some (.arriving p) ∨ (∃ c, s.calls[id]? = some (.starting p c)) ∨
    s.calls[id]? = some (.returned (.ok ())) ∨
    ∃ error, s.calls[id]? = some (.returned (.error error)) ∧ s.Ended p

theorem Transition.starts {e : Event} (step : Transition s e t) (sound : Sound [] s)
    (orderly : s.Orderly) (h : s.Starts id p) : t.Starts id p := by
  rcases h with at_id | ⟨c, at_id⟩ | at_id | ⟨error, at_id, ended⟩
  · rcases step.call sound orderly at_id with same | proceeds
    · exact .inl same
    · cases proceeds with
      | entered _ _ _ starts => exact .inr (.inl ⟨_, starts⟩)
      | leftAlone _ _ told => exact .inr (.inr (.inl told))
  · rcases step.call sound orderly at_id with same | proceeds
    · exact .inr (.inl ⟨c, same⟩)
    · cases proceeds with
      | opened _ told => exact .inr (.inr (.inl told))
      | failed _ told ended => exact .inr (.inr (.inr ⟨_, told, ended⟩))
  · exact .inr (.inr (.inl (step.returned sound orderly at_id)))
  · exact .inr (.inr (.inr ⟨error, step.returned sound orderly at_id, step.stays_ended ended⟩))

theorem run_starts (events : List Event) (sound : Sound [] s) (orderly : s.Orderly)
    (h : s.Starts id p) : (s.run events).Starts id p := by
  induction events generalizing s with
  | nil => exact h
  | cons e events ih =>
    have step := step_transition s e
    exact ih (step.sound sound) (step.orderly sound orderly) (step.starts sound orderly h)

/-! ## The end -/

/-- A call begins that ends the pair, if it returns this result: it tears the pair down, or its
handshake for the new pair fails. -/
inductive Ends (s : Supervisor) (p : PairId) : Event → Except SubscriptionError Unit → Prop
  | unsubscribed {key : WatchKey} {result} (known : s.registry.get? key = some p) :
      Ends s p (.unsubscribe key) result
  | unsubscribedAll {order : List PairId} {result} (perm : order.Perm s.registry.values)
      (mem : p ∈ order) : Ends s p (.unsubscribeAll order) result
  | notOpened {key : WatchKey} {observer : Option String} {error : SubscriptionError}
      (new : s.registry.get? key = none) (made : p = s.pairs.length) :
      Ends s p (.subscribe key observer) (.error error)

theorem Ends.ended {e : Event} {result : Except SubscriptionError Unit} (ends : s.Ends p e result)
    (sound : Sound [] s) (orderly : s.Orderly) (during : List Event)
    (returned : ((s.step e).run during).calls[s.calls.length]? = some (.returned result)) :
    ((s.step e).run during).Ended p := by
  have later : Sound [] (s.step e) := (step_transition s e).sound sound
  cases ends with
  | unsubscribed known =>
    obtain ⟨pair, at_p, -⟩ := sound.registered _ p (Table.mem_of_get? known)
    obtain ⟨fx, torn⟩ := step_unsubscribe known
    exact run_ended during (torn.head_ended (List.getElem?_eq_some_iff.1 at_p).1)
  | unsubscribedAll perm mem =>
    have torn := step_unsubscribeAll perm
    have present (r : PairId) (hr : r ∈ _) : r < s.pairs.length :=
      ((sound.unregisterAll.perm perm).leaving r (.inl hr)).1
    have owed := torn.progress (by simp) present mem
    rcases run_owes during later owed with owed | ended
    · simp [owes, returned, Call.rest] at owed
    · exact ended
  | @notOpened key observer error new made =>
    have starts : (s.step (.subscribe key observer)).Starts s.calls.length p := by
      refine .inl ?_
      simp [step, perform, subscribe, addCall, new, made]
    have orderly' := (step_transition s (.subscribe key observer)).orderly sound orderly
    rcases run_starts during later orderly' starts with
      at_id | ⟨c, at_id⟩ | at_id | ⟨_, -, ended⟩
    · simp [returned] at at_id
    · simp [returned] at at_id
    · simp [returned] at at_id
    · exact ended

/-- Once the call that ends the pair has returned, no event that any channel ever made for the
pair delivers changes the supervisor or shows anything to an observer, whatever happened while
the call ran and whatever happens after it. -/
theorem delivery_ends {s₀ : Supervisor} (initial : s₀.Initial) (before during after : List Event)
    (e : Event) (p : PairId) (result : Except SubscriptionError Unit)
    (ends : (s₀.run before).Ends p e result)
    (returned : (((s₀.run before).step e).run during).calls[(s₀.run before).calls.length]? =
      some (.returned result)) :
    let t := (((s₀.run before).step e).run during).run after
    ∀ (c : ChannelId) (channel : Channel) (event : ChannelEvent),
      t.channels[c]? = some channel → channel.pair = p →
      t.step (.deliver c event) = { t with effects := [] } := by
  intro t c channel event at_c own
  have sound : Sound [] (s₀.run before) := run_sound (sound_initial initial) before
  have orderly := run_orderly (sound_initial initial) (orderly_initial initial) before
  have ended : t.Ended p := run_ended after (ends.ended sound orderly during returned)
  have sound' : Sound [] t :=
    run_sound (run_sound ((step_transition _ e).sound sound) during) after
  obtain ⟨pair, at_p, finished⟩ := ended
  subst own
  exact deliver_closed event at_c at_p (by rw [sound'.gate _ pair at_p, finished]; rfl)

/-- The key is unsubscribed while the watchdog replaces the channel, and then subscribed again:
what the replacement delivers is lost. -/
theorem delivery_ends_during_replacement :
    let key := wholeProgram .state
    let s := run {} [.subscribe key none, .enter 0, .handshake 0 false (.ok ()),
      .deliver 0 .closed, .takeNotice 0]
    let u := (s.step (.unsubscribe key)).run [.stopped 0, .handshake 1 false (.ok ()), .callTurn 1,
      .stopped 1, .endWatchdog 0, .joinWatchdog 1]
    let t := u.run [.subscribe key none, .enter 2, .handshake 2 false (.ok ())]
    Initial {} ∧ s.Ends 0 (.unsubscribe key) (.ok ()) ∧
      u.calls[s.calls.length]? = some (.returned (.ok ())) ∧
      t.state key = .active ∧ t.step (.deliver 1 .closed) = { t with effects := [] } := by
  intro key s u t
  have initial : Initial {} := ⟨rfl, rfl, rfl, rfl⟩
  have ends : s.Ends 0 (.unsubscribe key) (.ok ()) := .unsubscribed (by decide)
  have returned : u.calls[s.calls.length]? = some (.returned (.ok ())) := by
    simp only [u, s, key]
    decide +kernel
  have at_c : t.channels[1]? = some { pair := 0, status := .started, stops := 1 } := by
    simp only [t, u, s, key]
    decide +kernel
  have active : t.state key = .active := by
    simp only [t, u, s, key]
    decide +kernel
  have lost := delivery_ends initial _ _
    [.subscribe key none, .enter 2, .handshake 2 false (.ok ())] _ _ _ ends returned 1 _ .closed at_c
    rfl
  exact ⟨initial, ends, returned, active, lost⟩

end LedgerWatch.Supervisor
