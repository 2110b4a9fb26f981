import LedgerWatch.Proofs.Supervisor.Registry
import Mathlib.Control.Monad.Basic

/-!
# Gates and the registry

Main statement: `gates_follow_registry`. A gate is open exactly for a registered pair and for a
pair that an `unsubscribeAll` took out of the registry and has not come to yet. Only the second
kind breaks the agreement of gates and registry, key by key (`unsubscribe_leaves_gate_open`).
-/

namespace LedgerWatch.Supervisor

variable {s t : Supervisor} {p q : PairId} {pair : Pair} {id : CallId} {ps : List PairId}

/-- The pair came to its end. -/
def Ended (s : Supervisor) (p : PairId) : Prop :=
  ∃ pair, s.pairs[p]? = some pair ∧ pair.cancelled = true

theorem TornDown.length (h : TornDown id ps s t) : t.pairs.length = s.pairs.length := by
  induction h with
  | done => rfl
  | missing _ _ ih => exact ih
  | passed _ _ _ _ _ ih => simpa using ih
  | queued | stops | joins => simp

theorem TornDown.registry (h : TornDown id ps s t) : t.registry = s.registry := by
  induction h with
  | missing _ _ ih => exact ih
  | passed _ _ _ _ _ ih => exact ih
  | _ => rfl

theorem ended_set (at_p : s.pairs[p]? = some pair) (line : List Party)
    (channel : Option ChannelId)
    (h : t.pairs = s.pairs.set p { pair.finish with line, channel }) : t.Ended p := by
  obtain ⟨hp, -⟩ := List.getElem?_eq_some_iff.1 at_p
  exact ⟨_, by rw [h]; exact List.getElem?_set_self hp, rfl⟩

theorem TornDown.ended (h : TornDown id ps s t) (ended : s.Ended q) : t.Ended q := by
  obtain ⟨pair, at_q, finished⟩ := ended
  obtain ⟨pair', at_q', later⟩ := h.later at_q
  exact ⟨pair', at_q', later.cancelled finished⟩

theorem TornDown.head_ended {rest : List PairId} (h : TornDown id (p :: rest) s t)
    (hp : p < s.pairs.length) : t.Ended p := by
  cases h with
  | missing absent _ => exact absurd absent (by simp [hp])
  | passed at_p _ _ _ more => exact more.ended (ended_set at_p _ _ rfl)
  | queued at_p _ => exact ended_set at_p _ _ rfl
  | stops at_p _ _ => exact ended_set at_p _ _ rfl
  | joins at_p _ _ _ => exact ended_set at_p _ _ rfl

/-- Every pair to tear down has ended or is still owed by the call. -/
theorem TornDown.progress (h : TornDown id ps s t) (hid : id < s.calls.length)
    (present : ∀ q ∈ ps, q < s.pairs.length) (mem : q ∈ ps) : q ∈ t.owes id ∨ t.Ended q := by
  induction h with
  | done => simp at mem
  | missing absent _ _ =>
    have := present _ List.mem_cons_self
    exact absurd absent (by simp [this])
  | passed at_p _ _ _ more ih =>
    rcases List.mem_cons.1 mem with rfl | mem
    · exact .inr (more.ended (ended_set at_p _ _ rfl))
    · refine ih hid (fun r hr => ?_) mem
      simpa using present r (List.mem_cons_of_mem _ hr)
  | queued at_p _ | stops at_p _ _ | joins at_p _ _ _ =>
    rcases List.mem_cons.1 mem with rfl | mem
    · exact .inr (ended_set at_p _ _ rfl)
    · exact .inl (by simpa [owes, hid, Call.rest] using mem)

theorem GoesOn.length {rest : List PairId} (h : GoesOn id p rest s t) :
    t.pairs.length = s.pairs.length := by
  cases h with
  | onward _ torn => exact torn.length
  | joins => rfl

theorem GoesOn.registry {rest : List PairId} (h : GoesOn id p rest s t) :
    t.registry = s.registry := by
  cases h with
  | onward _ torn => exact torn.registry
  | joins => rfl

/-- A call begins for a key that is not registered, and registers it with the new pair `p`. -/
def Registers (s : Supervisor) (p : PairId) (key : WatchKey) (e : Event) : Prop :=
  p = s.pairs.length ∧ s.registry.get? key = none ∧ ∃ observer, e = .subscribe key observer

/-- The first call for a key registers it with a new pair, for whose channel it comes then. -/
theorem step_subscribe_new {key : WatchKey} (new : s.registry.get? key = none)
    (observer : Option String) : s.step (.subscribe key observer) = { s with
      registry := s.registry.insert key s.pairs.length
      pairs := s.pairs ++ [s.newPair key observer]
      calls := s.calls ++ [.arriving s.pairs.length]
      effects := [] } := by
  simp only [step, perform, subscribe, new, addCall]
  rfl

theorem Registers.step {key : WatchKey} {e : Event} (new : s.Registers p key e) :
    ∃ observer, s.step e = { s with
      registry := s.registry.insert key p
      pairs := s.pairs ++ [s.newPair key observer]
      calls := s.calls ++ [.arriving p]
      effects := [] } := by
  obtain ⟨rfl, new, observer, rfl⟩ := new
  exact ⟨observer, step_subscribe_new new observer⟩

/-- A pair comes into being only when its key is registered with it. -/
theorem Transition.origin {e : Event} (step : Transition s e t) {mine : Pair}
    (at_q : t.pairs[q]? = some mine) : q < s.pairs.length ∨ s.Registers q mine.key e := by
  have of_length (h : t.pairs.length = s.pairs.length) :
      q < s.pairs.length ∨ s.Registers q mine.key e :=
    .inl (h ▸ (List.getElem?_eq_some_iff.1 at_q).1)
  cases step with
  | @registered key observer _ new =>
    rcases of_getElem?_concat at_q with at_q | ⟨made, rfl⟩
    · exact .inl (List.getElem?_eq_some_iff.1 at_q).1
    · exact .inr ⟨made, new, observer, rfl⟩
  | unsubscribed _ torn => exact of_length torn.length
  | unsubscribedAll _ torn => exact of_length torn.length
  | foundClear _ _ _ _ onward => exact of_length (onward.length.trans (by simp))
  | joined _ onward => exact of_length onward.length
  | stoppedForCall _ _ onward => exact of_length onward.length
  | _ => exact of_length (by simp)

/-- A key comes into the registry only when it is subscribed to. -/
theorem Transition.unregistered {e : Event} {key : WatchKey} (step : Transition s e t)
    (other : ∀ observer, e ≠ .subscribe key observer) (new : s.registry.get? key = none) :
    t.registry.get? key = none := by
  have erased (gone : WatchKey) : (s.registry.erase gone).get? key = none := by
    rw [Table.get?_erase]
    split
    · rfl
    · exact new
  cases step with
  | @registered key' observer _ _ =>
    rw [Table.get?_insert, if_neg]
    · exact new
    · rintro rfl
      exact other observer rfl
  | unsubscribed _ torn => exact torn.registry ▸ erased _
  | unsubscribedAll _ torn => exact torn.registry ▸ rfl
  | foundClear _ _ _ _ onward => exact onward.registry ▸ new
  | joined _ onward => exact onward.registry ▸ new
  | stoppedForCall _ _ onward => exact onward.registry ▸ new
  | failed =>
    dsimp only
    split
    · exact erased _
    · exact new
  | _ => exact new

/-- A delivery through a closed gate changes nothing. -/
theorem deliver_closed {c : ChannelId} {channel : Channel} (event : ChannelEvent)
    (at_c : s.channels[c]? = some channel) (at_p : s.pairs[channel.pair]? = some pair)
    (gate : pair.gateOpen = false) : s.step (.deliver c event) = { s with effects := [] } := by
  simp [step, perform, deliver, at_c, at_p, gate]

/-- An update that decodes passes an open gate into the store. -/
theorem deliver_open {c : ChannelId} {channel : Channel} {u : Update} {record : Record}
    (at_c : s.channels[c]? = some channel) (at_p : s.pairs[channel.pair]? = some pair)
    (gate : pair.gateOpen = true) (decoded : Record.decode pair.key.kind u.data = .ok record) :
    (s.step (.deliver c (.update u))).store = s.store.put u.address record u.slot := by
  simp only [step, perform, deliver, at_c, at_p, gate, decoded, Bool.not_true, Bool.false_eq_true,
    ↓reduceIte]
  split <;> rfl

/-- An unfinished `unsubscribeAll` has still to come to a live pair of this key. -/
def Straying (s : Supervisor) (key : WatchKey) : Prop :=
  ∃ p pair, s.pairs[p]? = some pair ∧ pair.key = key ∧ pair.cancelled = false ∧ s.Awaiting p

/-- No delivery for a pair of this key changes anything. -/
def Silent (s : Supervisor) (key : WatchKey) : Prop :=
  ∀ (c : ChannelId) (channel : Channel) (pair : Pair) (event : ChannelEvent),
    s.channels[c]? = some channel → s.pairs[channel.pair]? = some pair → pair.key = key →
    s.step (.deliver c event) = { s with effects := [] }

/-- The gates of all pairs of this key are closed. -/
def Shut (s : Supervisor) (key : WatchKey) : Prop :=
  ∀ (p : PairId) (pair : Pair), s.pairs[p]? = some pair → pair.key = key → pair.gateOpen = false

theorem Shut.silent {key : WatchKey} (h : s.Shut key) : s.Silent key :=
  fun _ _ _ event at_c at_p same => deliver_closed event at_c at_p (h _ _ at_p same)

theorem Sound.gate_iff (h : Sound [] s) (at_p : s.pairs[p]? = some pair) :
    pair.gateOpen = true ↔
      s.registry.get? pair.key = some p ∨ s.Awaiting p ∧ pair.cancelled = false := by
  rw [h.gate p pair at_p, Bool.not_eq_true']
  constructor
  · intro live
    rcases h.live p pair at_p live with known | held | awaiting
    · exact .inl known
    · simp at held
    · exact .inr ⟨awaiting, live⟩
  · rintro (known | ⟨-, live⟩)
    · obtain ⟨mine, at_p', -, live⟩ := h.registered _ p (Table.mem_of_get? known)
      cases at_p.symm.trans at_p'
      exact live
    · exact live

/-- Every open gate of the key is that of its registered pair. -/
def Agreeing (s : Supervisor) (key : WatchKey) : Prop :=
  ∀ (p : PairId) (pair : Pair), s.pairs[p]? = some pair → pair.key = key → pair.gateOpen = true →
    s.registry.get? key = some p

theorem Sound.agreeing_iff {key : WatchKey} (h : Sound [] s) :
    s.Agreeing key ↔ ¬ s.Straying key := by
  constructor
  · rintro agreeing ⟨p, pair, at_p, same, live, awaiting⟩
    have known := agreeing p pair at_p same ((h.gate_iff at_p).2 (.inr ⟨awaiting, live⟩))
    exact (h.leaving p (.inr awaiting)).2 key (Table.mem_of_get? known)
  · intro ordered p pair at_p same gate
    rcases (h.gate_iff at_p).1 gate with known | ⟨awaiting, live⟩
    · exact same ▸ known
    · exact absurd ⟨p, pair, at_p, same, live, awaiting⟩ ordered

theorem Agreeing.shut {key : WatchKey} (h : s.Agreeing key) (new : s.registry.get? key = none) :
    s.Shut key := by
  intro p pair at_p same
  rw [← Bool.not_eq_true]
  intro gate
  have known := h p pair at_p same gate
  simp [new] at known

theorem Sound.shut_of_unsubscribed {key : WatchKey} (h : Sound [] s) (agreeing : s.Agreeing key)
    (state : s.state key = .unsubscribed) : s.Shut key := by
  refine agreeing.shut ?_
  cases known : s.registry.get? key with
  | none => rfl
  | some p =>
    obtain ⟨pair, at_p, -, live⟩ := h.registered key p (Table.mem_of_get? known)
    have finished : pair.state = .unsubscribed := by
      simpa [Supervisor.state, pair?, known, at_p] using state
    rw [(h.finished p pair at_p).2 finished] at live
    cases live

theorem Shut.agreeing {key : WatchKey} (h : s.Shut key) : s.Agreeing key :=
  fun p pair at_p same gate => by simp [h p pair at_p same] at gate

/-- A pair of the key comes into being only when the key is subscribed to, so a shut key stays
shut until then. -/
theorem run_shut {key : WatchKey} (events : List Event)
    (other : ∀ observer, .subscribe key observer ∉ events) (h : s.Shut key) :
    (s.run events).Shut key := by
  induction events generalizing s with
  | nil => exact h
  | cons e events ih =>
    refine ih (fun observer mem => other observer (List.mem_cons_of_mem _ mem)) ?_
    intro p later at_p same
    have step := step_transition s e
    rcases step.origin at_p with hp | ⟨-, -, observer, subscribed⟩
    · obtain ⟨later', at_p', facts⟩ := step.later (List.getElem?_eq_getElem hp)
      cases at_p.symm.trans at_p'
      exact facts.gate (h p _ (List.getElem?_eq_getElem hp) (facts.key.symm.trans same))
    · rw [same] at subscribed
      exact absurd (subscribed ▸ List.mem_cons_self) (other observer)

theorem run_unregistered {key : WatchKey} (events : List Event)
    (other : ∀ observer, .subscribe key observer ∉ events) (new : s.registry.get? key = none) :
    (s.run events).registry.get? key = none := by
  induction events generalizing s with
  | nil => exact new
  | cons e events ih =>
    refine ih (fun observer mem => other observer (List.mem_cons_of_mem _ mem)) ?_
    refine (step_transition s e).unregistered (fun observer subscribed => ?_) new
    exact absurd (subscribed ▸ List.mem_cons_self) (other observer)

theorem step_unsubscribe {key : WatchKey} (known : s.registry.get? key = some p) :
    ∃ fx, TornDown s.calls.length [p] { s with
      calls := s.calls ++ [.returned (.ok ())]
      registry := s.registry.erase key
      effects := fx } (s.step (.unsubscribe key)) := by
  refine ⟨[], ?_⟩
  simp only [step, perform, unsubscribe, addCall, known]
  exact tearDown_tornDown _ _ _

theorem step_unsubscribeAll {order : List PairId} (perm : order.Perm s.registry.values) :
    TornDown s.calls.length order { s with
      calls := s.calls ++ [.returned (.ok ())]
      registry := {}
      effects := [] } (s.step (.unsubscribeAll order)) := by
  simp only [step, perform, unsubscribeAll, addCall, if_pos (List.isPerm_iff.2 perm)]
  exact tearDown_tornDown _ _ _

theorem unregistered_of_unsubscribe (s : Supervisor) (key : WatchKey) :
    (s.step (.unsubscribe key)).registry.get? key = none := by
  cases known : s.registry.get? key with
  | none => simp [step, perform, unsubscribe, addCall, known, emit]
  | some p =>
    obtain ⟨fx, torn⟩ := step_unsubscribe known
    rw [torn.registry, Table.get?_erase, if_pos rfl]

/-- Unsubscribing shuts the key at once, when its gates agreed with the registry. -/
theorem Sound.shut_of_unsubscribe {key : WatchKey} (h : Sound [] s) (agreeing : s.Agreeing key) :
    (s.step (.unsubscribe key)).Shut key := by
  intro q later at_q same
  have step := step_transition s (.unsubscribe key)
  have hq : q < s.pairs.length := (step.origin at_q).resolve_right (by simp [Registers])
  obtain ⟨later', at_q', facts⟩ := step.later (List.getElem?_eq_getElem hq)
  cases at_q.symm.trans at_q'
  have same₀ : s.pairs[q].key = key := facts.key.symm.trans same
  cases gate : s.pairs[q].gateOpen with
  | false => exact facts.gate gate
  | true =>
    obtain ⟨fx, torn⟩ := step_unsubscribe (agreeing q _ (List.getElem?_eq_getElem hq) same₀ gate)
    obtain ⟨pair, at_q'', finished⟩ := torn.head_ended hq
    cases at_q.symm.trans at_q''
    simpa [finished] using (step.sound h).gate q later at_q

/-- No call has a pair left to come to. -/
def Prompt (s : Supervisor) : Prop := ∀ id, s.owes id = []

theorem TornDown.prompt (h : TornDown id ps s t) (alone : ps.tail = [])
    (hid : id < s.calls.length) (quiet : ∀ other, other ≠ id → s.owes other = []) :
    t.Prompt := by
  induction h with
  | done =>
    intro other
    rw [owes_set hid rfl]
    split
    · rfl
    · rename_i different
      exact quiet other (Ne.symm different)
  | missing _ more ih =>
    obtain rfl := alone
    exact ih rfl hid quiet
  | passed _ _ _ _ more ih =>
    obtain rfl := alone
    exact ih rfl hid quiet
  | queued | stops | joins =>
    intro other
    rw [owes_set hid rfl]
    split
    · exact alone
    · rename_i different
      exact quiet other (Ne.symm different)

theorem GoesOn.prompt (h : GoesOn id p [] s t) (hid : id < s.calls.length)
    (quiet : ∀ other, other ≠ id → s.owes other = []) : t.Prompt := by
  cases h with
  | onward _ torn => exact torn.prompt rfl hid quiet
  | joins =>
    intro other
    rw [owes_set hid rfl]
    split
    · rfl
    · rename_i different
      exact quiet other (Ne.symm different)

/-- Only `unsubscribeAll` makes pairs wait to be torn down. -/
theorem Transition.prompt {e : Event} (step : Transition s e t) (sound : Sound [] s)
    (single : ∀ order, e ≠ .unsubscribeAll order) (h : s.Prompt) : t.Prompt := by
  have alone {id : CallId} {call : Call} (at_id : s.calls[id]? = some call) : call.rest = [] :=
    owes_eq at_id ▸ h id
  have set {t : Supervisor} {id : CallId} {old call : Call} (at_id : s.calls[id]? = some old)
      (calls : t.calls = s.calls.set id call) (same : call.rest = old.rest) : t.Prompt := by
    intro other
    rw [owes_set (List.getElem?_eq_some_iff.1 at_id).1 calls]
    split
    · exact same.trans (alone at_id)
    · exact h other
  cases step with
  | unsubscribedAll => exact absurd rfl (single _)
  | registered | found | followed | unknown =>
    intro other
    rw [owes_append rfl rfl]
    exact h other
  | @unsubscribed key p _ fx known torn =>
    refine torn.prompt rfl (by simp) (fun other _ => ?_)
    rw [owes_append rfl rfl]
    exact h other
  | entered call | leftAlone call | answered call | cleared call | opened _ _ call
  | failed _ _ call => exact set call rfl rfl
  | foundClear call _ _ _ onward =>
    obtain rfl := alone call
    exact onward.prompt (List.getElem?_eq_some_iff.1 call).1 (fun other _ => h other)
  | joined call onward =>
    obtain rfl := alone call
    exact onward.prompt (List.getElem?_eq_some_iff.1 call).1 (fun other _ => h other)
  | stoppedForCall _ call onward =>
    obtain rfl := alone call
    exact onward.prompt (List.getElem?_eq_some_iff.1 call).1 (fun other _ => h other)
  | stray at_c missing => exact absurd missing (sound.present at_c)
  | _ => exact h

theorem run_prompt (events : List Event) (single : ∀ order, .unsubscribeAll order ∉ events)
    (sound : Sound [] s) (h : s.Prompt) : (s.run events).Prompt := by
  induction events generalizing s with
  | nil => exact h
  | cons e events ih =>
    have step := step_transition s e
    refine ih (fun order mem => single order (List.mem_cons_of_mem _ mem)) (step.sound sound) ?_
    exact step.prompt sound (fun order all => single order (all ▸ List.mem_cons_self)) h

/-- A gate is open for the registered pair of its key, and else only for a live pair that an
`unsubscribeAll` took out of the registry and has not come to. While no such pair of a key is
left, at most one pair of the key can deliver, none while its state is `unsubscribed`, and none
from an `unsubscribe` of the key until the key is subscribed to again. -/
theorem gates_follow_registry {s₀ : Supervisor} (initial : s₀.Initial) (events : List Event)
    (key : WatchKey) :
    let s := s₀.run events
    (∀ (p : PairId) (pair : Pair), s.pairs[p]? = some pair →
      (pair.gateOpen = true ↔
        s.registry.get? pair.key = some p ∨ s.Awaiting p ∧ pair.cancelled = false)) ∧
    (s.Agreeing key ↔ ¬ s.Straying key) ∧
    ((∀ order, .unsubscribeAll order ∉ events) → ¬ s.Straying key) ∧
    (¬ s.Straying key →
      (∀ (p q : PairId) (pair other : Pair), s.pairs[p]? = some pair → s.pairs[q]? = some other →
        pair.key = key → other.key = key → pair.gateOpen = true → other.gateOpen = true → p = q) ∧
      (s.state key = .unsubscribed → s.Silent key)) ∧
    ∀ during : List Event, (∀ observer, .subscribe key observer ∉ during) →
      let u := (s.step (.unsubscribe key)).run during
      (u.Shut key ↔ ¬ u.Straying key) ∧ (¬ s.Straying key → u.Silent key) := by
  intro s
  have sound : Sound [] s := run_sound (sound_initial initial) events
  refine ⟨fun p pair at_p => sound.gate_iff at_p, sound.agreeing_iff, ?_, ?_, ?_⟩
  · rintro single ⟨p, -, -, -, -, id, mem⟩
    have prompt : s.Prompt := run_prompt events single (sound_initial initial)
      (fun id => by simp [owes, initial.calls])
    simp [prompt id] at mem
  · intro ordered
    have agreeing := sound.agreeing_iff.2 ordered
    refine ⟨?_, fun state => (sound.shut_of_unsubscribed agreeing state).silent⟩
    intro p q pair other at_p at_q same same' gate gate'
    have known := agreeing p pair at_p same gate
    rw [agreeing q other at_q same' gate'] at known
    exact (Option.some.inj known).symm
  · intro during none u
    have later : Sound [] u := run_sound ((step_transition s _).sound sound) during
    have new : u.registry.get? key = Option.none :=
      run_unregistered during none (unregistered_of_unsubscribe s key)
    constructor
    · rw [← later.agreeing_iff]
      exact ⟨Shut.agreeing, fun agreeing => agreeing.shut new⟩
    · intro ordered
      have agreeing := sound.agreeing_iff.2 ordered
      exact (run_shut during none (sound.shut_of_unsubscribe agreeing)).silent

deriving instance DecidableEq for Call

/-- All of the program's accounts of a kind. -/
def wholeProgram (kind : RecordKind) : WatchKey := ⟨kind, .program []⟩

theorem gates_follow_registry_single :
    let s := run {} [.subscribe (wholeProgram .user) none, .enter 0, .handshake 0 false (.ok ()),
      .subscribe (wholeProgram .state) none, .deliver 0 .closed, .takeNotice 0, .enter 1]
    Initial {} ∧ s.Agreeing (wholeProgram .user) ∧ s.pairs[0]?.map Pair.gateOpen = some true ∧
      ((s.step (.unsubscribe (wholeProgram .user))).run
        [.stopped 0, .handshake 2 false (.ok ()), .deliver 2 .heartbeat]).Silent
          (wholeProgram .user) := by
  intro s
  have initial : Initial {} := ⟨rfl, rfl, rfl, rfl⟩
  obtain ⟨-, agreeing, single, -, closes⟩ := gates_follow_registry initial
    [.subscribe (wholeProgram .user) none, .enter 0, .handshake 0 false (.ok ()),
      .subscribe (wholeProgram .state) none, .deliver 0 .closed, .takeNotice 0, .enter 1]
    (wholeProgram .user)
  have ordered := single (by simp)
  exact ⟨initial, agreeing.2 ordered, by decide, (closes _ (by simp)).2 ordered⟩

/-- Two pairs are to be torn down. While the first one's channel stops, the second one's key is
unsubscribed: the call finds no registered pair and returns, and the gate is still open. -/
theorem unsubscribe_leaves_gate_open :
    let s := run {} [.subscribe (wholeProgram .state) none, .enter 0, .handshake 0 false (.ok ()),
      .subscribe (wholeProgram .user) none, .enter 1, .handshake 1 false (.ok ()),
      .unsubscribeAll [0, 1], .unsubscribe (wholeProgram .user)]
    s.calls[3]? = some (.returned (.ok ())) ∧ s.state (wholeProgram .user) = .unsubscribed ∧
      ¬ s.Agreeing (wholeProgram .user) ∧
      ∀ (u : Update) (record : Record), Record.decode .user u.data = .ok record →
        (s.step (.deliver 1 (.update u))).store = s.store.put u.address record u.slot := by
  intro s
  refine ⟨rfl, by decide, ?_, ?_⟩
  · intro agreeing
    exact absurd (agreeing 1 _ rfl (by decide) (by decide)) (by decide)
  · intro u record decoded
    have at_c : s.channels[1]? = some { pair := 1, status := .started } := by decide
    have at_p : s.pairs[1]? = some (s.pairs.get ⟨1, by decide⟩) := by decide
    exact deliver_open at_c at_p (by decide) decoded

end LedgerWatch.Supervisor
