import LedgerWatch.Proofs.Supervisor.Channels

/-!
# What is left of a pair

Main statement: `one_channel_none_left`. Of a pair's channels at most one is live, and once the
call that tears the pair down has returned none is, its watchdog is gone and no channel is made
for it again.

A call carries each pair it tears down as a duty until the pair is released
(`Transition.duties`), and a released pair stays so (`Transition.released`).
-/

namespace LedgerWatch

theorem Watchdog.channel?_of_isGone {watchdog : Watchdog} (gone : watchdog.isGone = true) :
    watchdog.channel? = none := by
  cases watchdog <;> first | rfl | simp [isGone] at gone

namespace Supervisor

variable {s t u : Supervisor} {p q : PairId} {pair : Pair} {id : CallId} {c d : ChannelId}
  {ps rest : List PairId} {status : ChannelStatus}

/-- The pair ended, its watchdog is gone, and nobody has a channel of it. -/
structure Released (s : Supervisor) (p : PairId) : Prop where
  gone : ∃ pair, s.pairs[p]? = some pair ∧ pair.Sealed ∧ pair.watchdog.isGone = true
  idle : ∀ c status, ¬ s.Has p c status

/-! ## Duties that are met -/

/-- A sealed pair that no call has to finish has no channel in anybody's hands. -/
theorem SealedAt.idle (h : s.SealedAt p) (apart : ∀ id, p ∉ s.duties id) (c : ChannelId)
    (status : ChannelStatus) : ¬ s.Has p c status := by
  rintro ⟨party, had⟩
  obtain ⟨id, rest, -, -, call⟩ := h.hand had
  exact apart id (by simp [duties_eq call, Call.duties])

theorem Exclusive.present {held : List PairId} (h : Exclusive held s) (mem : p ∈ held) :
    p < s.pairs.length := by
  have once := h p
  have held := List.count_pos_iff.2 mem
  split at once
  · assumption
  · omega

theorem SealedAt.takenOver (h : s.SealedAt p) (id : CallId) : (s.takenOver id).SealedAt p :=
  ⟨h.1, unstarted_set rfl (by simp) fun id' c _ => h.2 id' c⟩

/-- The pair is left for good while the call goes on with others. -/
theorem TornDown.releases (torn : TornDown id ps s t) (hid : id < s.calls.length)
    (done : (s.takenOver id).SealedAt p) (at_p : s.pairs[p]? = some pair)
    (gone : pair.watchdog.isGone = true) (apart : ∀ other, p ∉ (s.takenOver id).duties other) :
    t.Released p := by
  obtain ⟨pair', at_p', kept⟩ := torn.sealing at_p
  obtain ⟨mine, at_p'', sealed⟩ := done.1
  obtain rfl : pair = mine := Option.some.inj (at_p.symm.trans at_p'')
  refine ⟨⟨pair', at_p', (kept sealed).1, (kept sealed).2 gone⟩, fun c status had => ?_⟩
  exact done.idle apart c status ((torn.has hid p c status).1 had)

/-- A call keeps each pair it has to tear down as a duty, or releases it. -/
theorem TornDown.duty (torn : TornDown id ps s t) (hid : id < s.calls.length)
    (orderly : (s.takenOver id).Orderly) (exclusive : Exclusive ps (s.takenOver id))
    (mem : q ∈ ps) : q ∈ t.duties id ∨ t.Released q := by
  induction torn with
  | done => cases mem
  | missing absent _ _ =>
    have present := exclusive.present List.mem_cons_self
    exact absurd present (Nat.not_lt.2 (List.getElem?_eq_none_iff.1 absent))
  | @passed p rest s t pair fx at_p free slot gone more ih =>
    rcases List.mem_cons.1 mem with rfl | mem
    · have hp := (List.getElem?_eq_some_iff.1 at_p).1
      refine .inr (more.releases hid ?_ (List.getElem?_set_self hp) gone (exclusive.apart mem))
      refine sealedAt_set (s := s.takenOver id) at_p rfl
        ⟨rfl, slot, Watchdog.channel?_of_isGone gone⟩ ?_
      exact (orderly.pairs q pair at_p).unstarted (by simp [free])
    · exact ih hid (orderly.finish (s := s.takenOver id) at_p rfl rfl rfl)
        (exclusive.drop.congr rfl rfl (by simp [takenOver])) mem
  | queued | stops | joins => exact .inl (by simpa [duties, hid, Call.duties] using mem)

theorem GoesOn.duty (onward : GoesOn id p rest s t) (hid : id < s.calls.length)
    (orderly : (s.takenOver id).Orderly) (exclusive : Exclusive (p :: rest) (s.takenOver id))
    (done : s.SealedAt p) (mem : q ∈ p :: rest) : q ∈ t.duties id ∨ t.Released q := by
  cases onward with
  | onward gone torn =>
    rcases List.mem_cons.1 mem with rfl | mem
    · obtain ⟨pair, at_q, -⟩ := done.1
      exact .inr (torn.releases hid (done.takenOver id) at_q (gone pair at_q) (exclusive.apart mem))
    · exact torn.duty hid orderly exclusive.drop mem
  | joins => exact .inl (by simpa [duties, hid, Call.duties] using mem)

theorem duties_congr (h : t.calls[id]? = s.calls[id]?) : t.duties id = s.duties id := by
  rw [duties, duties, h]

/-- A pair that a call has to finish stays so until the call releases it. -/
theorem Transition.duty {e : Event} (step : Transition s e t) (h : s.Orderlier)
    (mem : q ∈ s.duties id) : q ∈ t.duties id ∨ t.Released q := by
  have orderly := h.lawful.orderly
  obtain ⟨call, at_id⟩ : ∃ call, s.calls[id]? = some call := by
    cases at_id : s.calls[id]? with
    | none => simp [duties, at_id] at mem
    | some call => exact ⟨call, rfl⟩
  have hid := (List.getElem?_eq_some_iff.1 at_id).1
  have append {t : Supervisor} {new : Call} (calls : t.calls = s.calls ++ [new]) :
      q ∈ t.duties id := by
    rwa [duties_congr (s := s) (by rw [calls, List.getElem?_append_left hid])]
  have set {t : Supervisor} {id' : CallId} {old new : Call} (at_id' : s.calls[id']? = some old)
      (calls : t.calls = s.calls.set id' new) (same : new.duties = old.duties) :
      q ∈ t.duties id := by
    by_cases eq : id' = id
    · subst eq
      rwa [duties_eq (by rw [calls, List.getElem?_set_self hid]), same, ← duties_eq at_id']
    · rwa [duties_congr (s := s) (by rw [calls, List.getElem?_set_ne eq])]
  have torn {u t : Supervisor} {ps : List PairId} (torn : TornDown s.calls.length ps u t)
      (calls : u.calls = s.calls ++ [.returned (.ok ())]) : q ∈ t.duties id := by
    rw [duties_congr (torn.calls_other (Nat.ne_of_gt hid))]
    exact append calls
  -- The call that goes on has emptied its first pair's slot, which is sealed since.
  have onward {u t : Supervisor} {id' : CallId} {p : PairId} {rest : List PairId} {old : Call}
      (onward : GoesOn id' p rest u t) (at_id' : s.calls[id']? = some old)
      (same : old.duties = p :: rest) (calls : u.calls = s.calls)
      (registry : u.registry = s.registry) (length : u.pairs.length = s.pairs.length)
      (begun : (u.takenOver id').Orderly) (done : u.SealedAt p) :
      q ∈ t.duties id ∨ t.Released q := by
    by_cases eq : id' = id
    · subst eq
      rw [duties_eq at_id', same] at mem
      have held := h.exclusive.take at_id'
      rw [same] at held
      exact onward.duty (calls ▸ hid) begun
        (held.congr (by rw [takenOver, takenOver, calls]) registry length) done mem
    · rw [duties_congr (s := s) ((onward.calls_other eq).trans (by rw [calls]))]
      exact .inl mem
  cases step with
  | registered | found | followed | unknown => exact .inl (append rfl)
  | unsubscribed _ h => exact .inl (torn h rfl)
  | unsubscribedAll _ h => exact .inl (torn h rfl)
  | entered call | leftAlone call | answered call | cleared call | opened _ _ call
  | failed _ _ call => exact .inl (set call rfl rfl)
  | foundClear call at_p first slot goesOn =>
    obtain ⟨finished, idle, quiet⟩ := orderly.clears call at_p first
    refine onward goesOn call rfl rfl rfl (by simp)
      (orderly.takeTurn call at_p first rfl rfl rfl) ?_
    exact sealedAt_set at_p rfl ⟨finished, slot, idle⟩ quiet
  | joined call goesOn =>
    exact onward goesOn call rfl rfl rfl rfl (orderly.take call rfl rfl rfl fun _ => .refl rfl)
      (h.retired _ _ _ call rfl)
  | stoppedForCall _ call goesOn =>
    exact onward goesOn call rfl rfl rfl rfl
      (orderly.take call rfl rfl rfl fun _ => sameChannels_countStop rfl)
      (h.retired _ _ _ call rfl)
  | stray at_c missing => exact absurd missing (h.lawful.sound.present at_c)
  | _ => exact .inl mem

/-! ## Released pairs -/

theorem has_call {call : Call} (at_id : s.calls[id]? = some call)
    (had : call.channel? p = some (c, status)) : s.Has p c status :=
  ⟨some (.call id), (hand_call at_id p).trans had⟩

theorem Released.quiet (h : s.Released p) (id : CallId) (c : ChannelId) :
    s.calls[id]? ≠ some (.starting p c) :=
  fun opening => h.idle c .starting (has_call opening (by simp [Call.channel?]))

/-- Channels that are changed or made are those of a pair that has one or is live. -/
theorem Custody.released (custody : Custody s t) (accounted : s.Accounted) (done : s.Released q) :
    (∀ c status, ¬ t.Has q c status) ∧
      ∀ c, t.owner? c = some q → t.channels[c]? = s.channels[c]? := by
  have other {p : PairId} {c : ChannelId} {status : ChannelStatus} (had : s.Has p c status) :
      p ≠ q := fun eq => done.idle c status (eq ▸ had)
  have idle {p : PairId} {given : Option (ChannelId × ChannelStatus)} (different : p ≠ q)
      (has : Given p given s t) (c : ChannelId) (status : ChannelStatus) : ¬ t.Has q c status := by
    intro had
    rcases (has q c status).1 had with ⟨-, had⟩ | ⟨same, -⟩
    · exact done.idle c status had
    · exact different same.symm
  have changed {u : Supervisor} {p : PairId} {c d : ChannelId} {status : ChannelStatus}
      {f : Channel → Channel} (had : s.Has p c status)
      (channels : u.channels = s.channels.modify c f)
      (keep : ∀ channel, (f channel).pair = channel.pair) (own : u.owner? d = some q) :
      u.channels[d]? = s.channels[d]? := by
    rw [owner?_modify keep channels] at own
    have different : c ≠ d := by
      rintro rfl
      have mine := (accounted.had p c status had).1.1
      exact other had (Option.some.inj (mine.symm.trans own))
    rw [channels, List.getElem?_modify]
    simp [different]
  have added {u v : Supervisor} {p : PairId} {d : ChannelId} (different : p ≠ q)
      (channels : v.channels = u.channels ++ [newChannel p]) (own : v.owner? d = some q) :
      u.owner? d = some q ∧ v.channels[d]? = u.channels[d]? := by
    have own' := ((sameChannels_append channels different).owner d).1 own
    exact ⟨own', by rw [channels, List.getElem?_append_left (length_of_owner? own')]⟩
  cases custody with
  | still channels same =>
    exact ⟨fun c status had => done.idle c status ((same q c status).1 had),
      fun c _ => by rw [channels]⟩
  | @made p _ live channels has =>
    have different : p ≠ q := by
      rintro rfl
      obtain ⟨pair, at_p, sealed, -⟩ := done.gone
      exact absurd sealed.cancelled (by simp [live pair at_p])
    exact ⟨idle different has, fun c own => (added different channels own).2⟩
  | opened had channels has | failed had channels has =>
    exact ⟨idle (other had) has, fun c own => changed had channels (fun _ => rfl) own⟩
  | stopped had channels has =>
    exact ⟨idle (other had) has, fun c own => changed had channels (fun _ => rfl) own⟩
  | @exchanged p c had channels has =>
    refine ⟨idle (other had) has, fun d own => ?_⟩
    let u : Supervisor := { s with channels := s.countStop c }
    obtain ⟨own', same⟩ := added (u := u) (other had) channels own
    exact same.trans (changed had rfl (fun _ => rfl) own')

/-- A released pair stays so, with the channels it had. -/
theorem Transition.released {e : Event} (step : Transition s e t) (h : s.Orderlier)
    (done : s.Released q) :
    t.Released q ∧ ∀ c, t.owner? c = some q → t.channels[c]? = s.channels[c]? := by
  obtain ⟨pair, at_q, sealed, gone⟩ := done.gone
  obtain ⟨pair', at_q', kept⟩ :=
    step.sealing h.lawful.sound h.lawful.orderly done.quiet at_q
  obtain ⟨idle, channels⟩ := (step.custody h).released h.accounted done
  exact ⟨⟨⟨pair', at_q', (kept sealed).1, (kept sealed).2 gone⟩, idle⟩, channels⟩

theorem run_released (events : List Event) (h : s.Orderlier) (done : s.Released q) :
    (s.run events).Released q ∧
      ∀ c, (s.run events).owner? c = some q → (s.run events).channels[c]? = s.channels[c]? := by
  induction events generalizing s with
  | nil => exact ⟨done, fun _ _ => rfl⟩
  | cons e events ih =>
    have step := step_transition s e
    obtain ⟨done', channels⟩ := step.released h done
    obtain ⟨later, kept⟩ := ih (step.orderlier (h.lawful.step e) h) done'
    refine ⟨later, fun c own => ?_⟩
    have same := kept c own
    refine same.trans (channels c ?_)
    rwa [owner?, ← same]

theorem run_duty (events : List Event) (h : s.Orderlier)
    (mem : q ∈ s.duties id ∨ s.Released q) :
    q ∈ (s.run events).duties id ∨ (s.run events).Released q := by
  induction events generalizing s with
  | nil => exact mem
  | cons e events ih =>
    have step := step_transition s e
    refine ih (step.orderlier (h.lawful.step e) h) ?_
    rcases mem with mem | done
    · exact step.duty h mem
    · exact .inr (step.released h done).1

/-- A released pair's channels failed to start or were stopped once. -/
theorem Orderlier.spent {channel : Channel} (h : s.Orderlier) (at_c : s.channels[c]? = some channel)
    (done : s.Released channel.pair) : channel.Spent :=
  (h.accounted.all c channel at_c).resolve_left (done.idle c _)

/-- A call that tears the pair down has it as a duty at once, or releases it. -/
theorem Ends.duty {e : Event} (ends : s.Ends p e (.ok ())) (h : s.Orderlier) :
    p ∈ (s.step e).duties s.calls.length ∨ (s.step e).Released p := by
  cases ends with
  | @unsubscribed key _ known =>
    obtain ⟨fx, torn⟩ := step_unsubscribe known
    have held := h.exclusive.unregister (t := { s with registry := s.registry.erase key }) known
      rfl rfl rfl
    exact torn.duty (by simp) (h.lawful.orderly.begun rfl rfl rfl)
      (held.append (calls_begun rfl) rfl rfl rfl) List.mem_cons_self
  | unsubscribedAll perm mem =>
    have held := h.exclusive.unregisterAll perm (t := { s with registry := {} }) rfl rfl rfl
    exact (step_unsubscribeAll perm).duty (by simp) (h.lawful.orderly.begun rfl rfl rfl)
      (held.append (calls_begun rfl) rfl rfl rfl) mem

/-- A call that tears the pair down has released it when it returns. -/
theorem Ends.released {e : Event} (ends : s.Ends p e (.ok ())) (h : s.Orderlier)
    (during : List Event)
    (returned : ((s.step e).run during).calls[s.calls.length]? = some (.returned (.ok ()))) :
    ((s.step e).run during).Released p := by
  have later := (step_transition s e).orderlier (h.lawful.step e) h
  rcases run_duty during later (ends.duty h) with duty | done
  · simp [duties_eq returned, Call.duties] at duty
  · exact done

/-- Channels of a pair made before its last one failed to start or were stopped once. -/
theorem Orderlier.older_spent {channel other : Channel} (h : s.Orderlier)
    (at_c : s.channels[c]? = some channel) (at_d : s.channels[d]? = some other)
    (same : channel.pair = other.pair) (older : c < d) : channel.Spent := by
  rcases h.accounted.all c channel at_c with had | spent
  · have own : s.owner? d = some channel.pair := by simp [owner?, at_d, same]
    exact absurd older (Nat.not_lt.2 ((h.accounted.had _ c _ had).1.2 d own))
  · exact spent

/-- A pair has at most one live channel, the one made last, and a new one is made only when every
other failed to start or its stop has returned. Once the call that tears the pair down has returned,
whatever happened while it ran, that holds of all its channels, its watchdog is gone, and no channel
is made for it or stopped again, whatever happens later. -/
theorem one_channel_none_left {s₀ : Supervisor} (initial : s₀.Initial)
    (before during after : List Event) (e : Event) (p : PairId) :
    let s := s₀.run before
    let u := (s.step e).run during
    let t := u.run after
    (∀ (c d : ChannelId) (channel other : Channel), s.channels[c]? = some channel →
      s.channels[d]? = some other → channel.pair = other.pair →
      (channel.Live → other.Live → c = d) ∧ (c < d → channel.Spent)) ∧
    (s.Ends p e (.ok ()) → u.calls[s.calls.length]? = some (.returned (.ok ())) →
      (∃ pair, t.pairs[p]? = some pair ∧ pair.watchdog.isGone = true) ∧
      ∀ (c : ChannelId) (channel : Channel), t.channels[c]? = some channel → channel.pair = p →
        u.channels[c]? = some channel ∧ channel.Spent) := by
  intro s u t
  have h : s.Orderlier := (orderlier_initial initial).run before
  refine ⟨fun c d channel other at_c at_d same => ?_, fun ends returned => ?_⟩
  · exact ⟨h.live_unique at_c at_d same, h.older_spent at_c at_d same⟩
  · have next : (s.step e).Orderlier := (step_transition s e).orderlier (h.lawful.step e) h
    have later : u.Orderlier := next.run during
    obtain ⟨done, kept⟩ := run_released after later (ends.released h during returned)
    obtain ⟨pair, at_p, -, gone⟩ := done.gone
    refine ⟨⟨pair, at_p, gone⟩, fun c channel at_c own => ?_⟩
    subst own
    have same := kept c (by simp only [owner?, t] at *; rw [at_c]; rfl)
    exact ⟨same ▸ at_c, (later.run after).spent at_c done⟩

/-- The key is unsubscribed before the call that subscribed it comes for the pair's channel: that
call makes none. The key is subscribed again, unsubscribed while a replacement starts, and then
subscribed once more: the second pair's first channel was stopped before the replacement was made,
and the replacement is stopped too. -/
theorem one_channel_none_left_overlapping :
    let key := wholeProgram .state
    let early : List Event := [.subscribe key none]
    let late : List Event := [.enter 0, .subscribe key none]
    let before : List Event := [.subscribe key none, .unsubscribe key, .enter 0,
      .subscribe key none, .enter 2, .handshake 0 false (.ok ()), .deliver 0 .closed,
      .takeNotice 1, .stopped 0]
    let during : List Event := [.handshake 1 false (.ok ()), .callTurn 3, .stopped 1,
      .endWatchdog 1, .joinWatchdog 3]
    let after : List Event := [.subscribe key none, .enter 4, .handshake 2 false (.ok ())]
    let r := run {} early
    let s := run {} before
    let u := (s.step (.unsubscribe key)).run during
    let t := u.run after
    let stopped : Channel := { pair := 1, status := .started, stops := 1 }
    Initial {} ∧ (r.calls[0]? = some (.arriving 0) ∧ r.Ends 0 (.unsubscribe key) (.ok ()) ∧
      (r.step (.unsubscribe key)).calls[1]? = some (.returned (.ok ())) ∧
      ∀ channel ∈ ((r.step (.unsubscribe key)).run late).channels, channel.pair ≠ 0) ∧
    s.Ends 1 (.unsubscribe key) (.ok ()) ∧
      u.calls[s.calls.length]? = some (.returned (.ok ())) ∧
      s.channels = [stopped, { pair := 1 }] ∧ stopped.Spent ∧
      t.channels[1]? = some stopped ∧ u.channels[1]? = some stopped ∧
      ∃ pair, t.pairs[1]? = some pair ∧ pair.watchdog.isGone = true := by
  intro key early late before during after r s u t stopped
  have initial : Initial {} := ⟨rfl, rfl, rfl, rfl⟩
  have arriving : r.calls[0]? = some (.arriving 0) := by decide +kernel
  have endsFirst : r.Ends 0 (.unsubscribe key) (.ok ()) := .unsubscribed (by decide)
  have returnedFirst : (r.step (.unsubscribe key)).calls[1]? = some (.returned (.ok ())) := by
    decide +kernel
  have neverMade : ∀ channel ∈ ((r.step (.unsubscribe key)).run late).channels,
      channel.pair ≠ 0 := by
    intro channel mem own
    obtain ⟨c, at_c⟩ := List.mem_iff_getElem?.1 mem
    have left := (one_channel_none_left initial early [] late (.unsubscribe key) 0).2 endsFirst
      returnedFirst
    have made := (left.2 c channel at_c own).1
    have none : ((r.step (.unsubscribe key)).run []).channels = [] := by decide +kernel
    rw [none] at made
    cases made
  have ends : s.Ends 1 (.unsubscribe key) (.ok ()) := .unsubscribed (by decide)
  have returned : u.calls[s.calls.length]? = some (.returned (.ok ())) := by
    simp only [u, s, before, during, key]
    decide +kernel
  have channels : s.channels = [stopped, { pair := 1 }] := by
    simp only [s, before, key, stopped]
    decide +kernel
  have last : t.channels[1]? = some stopped := by
    simp only [t, u, s, before, during, after, key, stopped]
    decide +kernel
  have laws := one_channel_none_left initial before during after (.unsubscribe key) 1
  have spent : stopped.Spent :=
    (laws.1 0 1 stopped { pair := 1 } (by rw [channels]; rfl) (by rw [channels]; rfl) rfl).2
      Nat.zero_lt_one
  obtain ⟨gone, left⟩ := laws.2 ends returned
  exact ⟨initial, ⟨arriving, endsFirst, returnedFirst, neverMade⟩, ends, returned, channels, spent,
    last, (left 1 stopped last rfl).1, gone⟩

end Supervisor

end LedgerWatch
