import LedgerWatch.Proofs.Store.LastWriter
import LedgerWatch.Proofs.Supervisor.Contented
import LedgerWatch.Proofs.Supervisor.Handshakes
import LedgerWatch.Proofs.Watch.Changes
import LedgerWatch.Watch.Polling
import Mathlib.Logic.Relation

/-!
# An account that is polled

A polled account is watched by a pair whose channel reads the account at once and then again and
again. `Step` says what can happen around it: the channel takes an input, one of its reads comes
back, anything else happens at the supervisor, somebody else writes to the store. Nobody else
writes under the key that the account's contents name; otherwise the steps come in any order, and
reads fail, find nothing or find bytes that do not decode.

`mirrors_polled` is the law of such a run: as long as the gate of the pair is open, what is stored
under the key is the last of `stores`, which are the changes of the account's bytes that decode, and
the observer was called once for each of them.
-/

namespace LedgerWatch

/-- What one read of an account came to. -/
abbrev AccountRead : Type := Except LedgerError (Stamped (Option Bytes))

namespace AccountRead

def sighting? : AccountRead → Option (Stamped Bytes)
  | .ok ⟨some data, slot⟩ => some ⟨data, slot⟩
  | _ => none

/-- The reads that succeeded and found the account, with the bytes they found. -/
def sightings (reads : List AccountRead) : List (Stamped Bytes) := reads.filterMap sighting?

/-- Those that find the account are served at slots that do not go back. -/
def Forward (reads : List AccountRead) : Prop :=
  (sightings reads).Pairwise fun a b => a.slot ≤ b.slot

def decoded? (kind : RecordKind) (s : Stamped Bytes) : Option (Stamped Record) :=
  (Record.decode kind s.value).toOption.map fun record => ⟨record, s.slot⟩

/-- The changes of the account's bytes that decode. -/
def stores (kind : RecordKind) (reads : List AccountRead) : List (Stamped Record) :=
  (changes (sightings reads)).filterMap (decoded? kind)

theorem sightings_concat (reads : List AccountRead) (read : AccountRead) :
    sightings (reads ++ [read]) = sightings reads ++ (sighting? read).toList := by
  rw [sightings, List.filterMap_append, sightings]
  cases h : sighting? read <;> simp [h]

end AccountRead

/-! ## The channel -/

namespace Polling

variable {c : Polling}

/-- The channel's first read has not come back. -/
def Unopened (c : Polling) : Prop := c.phase = .unstarted ∨ c.phase = .opening

/-- What the channel does of itself changes neither its memory nor whether it has opened. -/
theorem step_own {input : Input} (own : ∀ now read, input ≠ .answer now read) :
    (c.step input).1.tracker = c.tracker ∧ ((c.step input).1.Unopened ↔ c.Unopened) ∧
      ∀ output ∈ (c.step input).2, output = .read ∨ output = .stopped := by
  cases input with
  | answer now read => exact absurd rfl (own now read)
  | start => by_cases h : c.phase = .unstarted <;> simp [step, h, Unopened]
  | tick now => by_cases h : c.phase = .waiting ∧ c.due ≤ now <;> simp [step, h, Unopened]
  | cancel => cases h : c.hasTask <;> simp [step, h, Unopened]
  | look =>
    by_cases ends : (c.cancelled && c.hasTask) = true
    · have busy : c.phase = .waiting ∨ c.phase = .reading := by
        simpa [hasTask] using (Bool.and_eq_true_iff.1 ends).2
      rcases busy with h | h <;> simp [step, ends, h, Unopened]
    · simp [step, ends]

/-- The channel passes on what is news of a read that succeeds; the first such read opens it. -/
theorem step_answer_ok (waits : c.phase = .opening ∨ c.phase = .reading) (now : Nat)
    (read : Stamped (List (Address × Bytes))) :
    ∃ d, c.step (.answer now (.ok read)) =
        (d, (c.tracker.absorb read).1.map (fun u => .emit (.update u)) ++
          if c.phase = .opening then [.started (.ok ())] else []) ∧
      d.tracker = (c.tracker.absorb read).2 ∧ ¬ d.Unopened := by
  rcases waits with h | h <;> simp [step, passOn, h, Unopened]

/-- A read that fails tells nothing, unless it is the first. -/
theorem step_answer_error (waits : c.phase = .opening ∨ c.phase = .reading) (now : Nat)
    (error : LedgerError) :
    ∃ d, c.step (.answer now (.error error)) =
        (d, if c.phase = .opening then [.started (.error (.ledger error))] else []) ∧
      d.tracker = c.tracker ∧ ¬ d.Unopened := by
  rcases waits with h | h <;> simp [step, h, Unopened]

end Polling

/-! ## The pair -/

namespace Supervisor

variable {s : Supervisor} {p : PairId} {c : ChannelId} {id : CallId} {key : WatchKey}
  {observer : Option String}

/-- The gate of the pair is open. -/
def Admits (s : Supervisor) (p : PairId) : Prop :=
  ∃ pair, s.pairs[p]? = some pair ∧ pair.gateOpen = true

theorem Keeps.admits_of_step (h : s.Keeps p c key observer) {e : Event}
    (admits : (s.step e).Admits p) : s.Admits p := by
  obtain ⟨later, at_later, gate⟩ := admits
  obtain ⟨pair, at_p, -⟩ := h.pair
  obtain ⟨later', at_later', facts⟩ := (step_transition s e).later at_p
  cases at_later.symm.trans at_later'
  refine ⟨pair, at_p, ?_⟩
  by_contra shut
  simp [facts.gate (by simpa using shut)] at gate

/-- An update through an open gate is stored and shown if it decodes. -/
theorem Keeps.step_update (h : s.Keeps p c key observer) (admits : s.Admits p) (u : Update) :
    (∀ record, Record.decode key.kind u.data = .ok record →
      (s.step (.deliver c (.update u))).store = s.store.put u.address record u.slot ∧
        (s.step (.deliver c (.update u))).effects =
          (observer.map fun o => .observed o u.address record u.slot).toList) ∧
    ∀ error, Record.decode key.kind u.data = .error error →
      (s.step (.deliver c (.update u))).store = s.store ∧
        (s.step (.deliver c (.update u))).effects = [] := by
  obtain ⟨pair, at_p, rfl, rfl, -⟩ := h.pair
  obtain ⟨channel, at_c, rfl⟩ := Option.map_eq_some_iff.1 ((h.owner c).2 rfl)
  obtain ⟨pair', at_p', gate⟩ := admits
  cases at_p.symm.trans at_p'
  constructor
  · intro record decoded
    cases observer : pair.observer <;> simp [Supervisor.step, perform, deliver, at_c, at_p, gate,
      modifyPair, decoded, observer, emit]
  · intro error decoded
    simp [Supervisor.step, perform, deliver, at_c, at_p, gate, modifyPair, decoded]

/-- The first handshake fails: nothing passes the gate any more. -/
theorem Keeps.step_refused (h : s.Keeps p c key observer)
    (call : s.calls[id]? = some (.starting p c)) (canStall : Bool) (error : SubscriptionError) :
    ¬ (s.step (.handshake c canStall (.error error))).Admits p ∧
      (s.step (.handshake c canStall (.error error))).calls[id]? =
        some (.returned (.error error)) := by
  obtain ⟨pair, at_p, -⟩ := h.pair
  have hp := (List.getElem?_eq_some_iff.1 at_p).1
  have hid := (List.getElem?_eq_some_iff.1 call).1
  have at_p' {status : ChannelStatus} :
      { s with channels := s.setStatus c status, effects := [] }.pairs[p]? = some pair := at_p
  rw [step_handshake h.lawful.orderly call at_p, opened, passTurn_modifyPair at_p']
  simp only [List.getElem?_set_self hp, Pair.finish]
  split <;> simp [Admits, answer, setCall, emit, hp, hid]

theorem Keeps.step_opened (h : s.Keeps p c key observer)
    (call : s.calls[id]? = some (.starting p c)) (canStall : Bool) :
    (s.step (.handshake c canStall (.ok ()))).store = s.store := by
  obtain ⟨pair, at_p, -⟩ := h.pair
  obtain ⟨fx, same⟩ := step_handshake_opened h.lawful.orderly call at_p canStall
  rw [same]

/-- A call that waits for the channel goes on waiting until its handshake is over. -/
theorem Keeps.call_waits (h : s.Keeps p c key observer)
    (call : s.calls[id]? = some (.starting p c)) {e : Event}
    (starts : ∀ canStall result, e ≠ .handshake c canStall result) :
    (s.step e).calls[id]? = some (.starting p c) := by
  rcases (step_transition s e).call h.lawful.sound h.lawful.orderly call with same | proceeds
  · exact same
  · cases proceeds with
    | opened event => exact absurd event (starts _ _)
    | failed event => exact absurd event (starts _ _)

end Supervisor

/-! ## The account -/

open AccountRead

/-- An account that is watched for records of a kind, and the ids of its pair, of the pair's channel
and of the call that began it. -/
structure PolledAccount where
  address : Address
  kind : RecordKind
  /-- What the account's contents are stored under. -/
  key : RecordKey
  observer : Option String
  pair : PairId
  channel : ChannelId
  call : CallId

/-- The supervisor, the channel, what came of the reads that the channel has taken up, and what its
deliveries have shown to the surroundings. -/
structure Mirror where
  supervisor : Supervisor
  channel : Polling
  reads : List AccountRead := []
  shown : List Effect := []

namespace PolledAccount

variable (a : PolledAccount)

def watchKey : WatchKey := ⟨a.kind, .account a.address⟩

/-- The call that registered the account is about to make the channel of its pair, which nobody has
ended since. -/
structure Begins (s : Supervisor) : Prop where
  came : s.calls[a.call]? = some (.arriving a.pair)
  pair : ∃ pair, s.pairs[a.pair]? = some pair ∧ pair.key = a.watchKey ∧
    pair.observer = a.observer ∧ pair.cancelled = false
  channel : a.channel = s.channels.length

/-- What decodes belongs to the key. -/
def Names (reads : List AccountRead) : Prop :=
  ∀ s ∈ sightings reads, ∀ record, Record.decode a.kind s.value = .ok record →
    record.key a.address = a.key.bare

/-- The observer is called with what was stored. -/
def called (stored : Stamped Record) : List Effect :=
  (a.observer.map fun observer => .observed observer a.address stored.value stored.slot).toList

end PolledAccount

namespace Mirror

variable (a : PolledAccount)

/-- Right after the call has made the channel. -/
def start (s : Supervisor) (frequency : Nat) : Mirror where
  supervisor := s.step (.enter a.call)
  channel := { frequency }

def entry (m : Mirror) : Option (Stamped Record) := m.supervisor.store.get? a.key

/-- Carries out what the channel puts out. A read that is begun and a stop that has returned come
back as steps of their own. -/
def carry (m : Mirror) : Polling.Output → Mirror
  | .emit event =>
    let s := m.supervisor.step (.deliver a.channel event)
    { m with supervisor := s, shown := m.shown ++ s.effects }
  | .started result =>
    { m with supervisor := m.supervisor.step (.handshake a.channel Polling.canStall result) }
  | .read | .stopped => m

def take (m : Mirror) (input : Polling.Input) : Mirror :=
  (m.channel.step input).2.foldl (carry a) { m with channel := (m.channel.step input).1 }

/-- A read comes back to the channel. -/
def answered (m : Mirror) (now : Nat) (read : AccountRead) : Mirror :=
  { m.take a (.answer now ((Filter.account a.address).collect read)) with
    reads := m.reads ++ [read] }

inductive Step (m : Mirror) : Mirror → Prop
  | acts (input : Polling.Input) (own : ∀ now read, input ≠ .answer now read) :
      Step m (m.take a input)
  | reads (now : Nat) (read : AccountRead)
      (waits : m.channel.phase = .opening ∨ m.channel.phase = .reading) :
      Step m (m.answered a now read)
  | happens (e : Supervisor.Event) (delivers : ∀ event, e ≠ .deliver a.channel event)
      (starts : ∀ canStall result, e ≠ .handshake a.channel canStall result)
      (kept : (m.supervisor.step e).store.get? a.key = m.entry a) :
      Step m { m with supervisor := m.supervisor.step e }
  | writes (store : Store) (kept : store.get? a.key = m.entry a) :
      Step m { m with supervisor := { m.supervisor with store } }

/-- What the reads taken up so far come to. -/
structure Reflects (before : Option (Stamped Record)) (m : Mirror) : Prop where
  keeps : m.supervisor.Keeps a.pair a.channel a.watchKey a.observer
  remembers : m.channel.tracker.Remembers a.address (sightings m.reads)
  unopened : m.channel.Unopened →
    m.reads = [] ∧ m.supervisor.calls[a.call]? = some (.starting a.pair a.channel)
  opened : ¬ m.channel.Unopened → ∃ first rest, m.reads = first :: rest ∧
    ∀ error, first = .error error →
      ∃ error', m.supervisor.calls[a.call]? = some (.returned (.error error'))
  stored : m.supervisor.Admits a.pair → m.entry a = (stores a.kind m.reads).getLast?.or before
  called : m.supervisor.Admits a.pair → m.shown = (stores a.kind m.reads).flatMap a.called

variable {a} {m m' : Mirror} {before : Option (Stamped Record)}

theorem take_own {input : Polling.Input} (own : ∀ now read, input ≠ .answer now read) :
    m.take a input = { m with channel := (m.channel.step input).1 } := by
  have idle (outputs : List Polling.Output) (m : Mirror)
      (none : ∀ output ∈ outputs, output = .read ∨ output = .stopped) :
      outputs.foldl (carry a) m = m := by
    induction outputs with
    | nil => rfl
    | cons output rest ih =>
      obtain ⟨first, rest⟩ := List.forall_mem_cons.1 none
      rcases first with rfl | rfl <;> exact ih rest
  exact idle _ _ (Polling.step_own own).2.2

theorem Reflects.acts (h : m.Reflects a before) {input : Polling.Input}
    (own : ∀ now read, input ≠ .answer now read) : (m.take a input).Reflects a before := by
  obtain ⟨tracker, unopened, -⟩ := Polling.step_own own (c := m.channel)
  rw [take_own own]
  exact ⟨h.keeps, tracker ▸ h.remembers, fun k => h.unopened (unopened.1 k),
    fun k => h.opened (unopened.not.1 k), h.stored, h.called⟩

theorem Reflects.happens (h : m.Reflects a before) {e : Supervisor.Event}
    (delivers : ∀ event, e ≠ .deliver a.channel event)
    (starts : ∀ canStall result, e ≠ .handshake a.channel canStall result)
    (kept : (m.supervisor.step e).store.get? a.key = m.entry a) :
    { m with supervisor := m.supervisor.step e }.Reflects a before where
  keeps := h.keeps.step (delivers _) (starts _)
  remembers := h.remembers
  unopened k := ⟨(h.unopened k).1, h.keeps.call_waits (h.unopened k).2 starts⟩
  opened k := by
    obtain ⟨first, rest, eq, failed⟩ := h.opened k
    refine ⟨first, rest, eq, fun error is => ?_⟩
    obtain ⟨error', told⟩ := failed error is
    have lawful := h.keeps.lawful
    exact ⟨error', (Supervisor.step_transition _ e).returned lawful.sound lawful.orderly told⟩
  stored admits := kept.trans (h.stored (h.keeps.admits_of_step admits))
  called admits := h.called (h.keeps.admits_of_step admits)

theorem Reflects.writes (h : m.Reflects a before) {store : Store}
    (kept : store.get? a.key = m.entry a) :
    { m with supervisor := { m.supervisor with store } }.Reflects a before :=
  ⟨h.keeps.withStore store, h.remembers, h.unopened, h.opened,
    fun admits => kept.trans (h.stored admits), h.called⟩

/-! ### A read comes back -/

/-- What passes the gate on the way from `m` to `m'`. -/
structure Passes (a : PolledAccount) (m m' : Mirror) (new : Option (Stamped Record)) : Prop where
  keeps : m'.supervisor.Keeps a.pair a.channel a.watchKey a.observer
  admits : m'.supervisor.Admits a.pair → m.supervisor.Admits a.pair
  store : m'.supervisor.Admits a.pair → m'.supervisor.store = new.elim m.supervisor.store
    fun r => m.supervisor.store.put a.address r.value r.slot
  shown : m'.supervisor.Admits a.pair → m'.shown = m.shown ++ new.toList.flatMap a.called
  channel : m'.channel = m.channel

/-- A call that waits for the channel and one that has returned are where they were. -/
def CallStays (a : PolledAccount) (m m' : Mirror) : Prop :=
  ∀ call, (call = .starting a.pair a.channel ∨ ∃ result, call = .returned result) →
    m.supervisor.calls[a.call]? = some call → m'.supervisor.calls[a.call]? = some call

theorem passes_none (keeps : m.supervisor.Keeps a.pair a.channel a.watchKey a.observer) :
    Passes a m m none :=
  ⟨keeps, id, fun _ => rfl, fun _ => (List.append_nil _).symm, rfl⟩

/-- An update passes if it decodes. -/
theorem passes_update (keeps : m.supervisor.Keeps a.pair a.channel a.watchKey a.observer)
    (s : Stamped Bytes) :
    Passes a m (m.carry a (.emit (.update ⟨a.address, s.value, s.slot⟩))) (decoded? a.kind s) ∧
      CallStays a m (m.carry a (.emit (.update ⟨a.address, s.value, s.slot⟩))) := by
  let u : Update := ⟨a.address, s.value, s.slot⟩
  let e : Supervisor.Event := .deliver a.channel (.update u)
  change Passes a m { m with
    supervisor := m.supervisor.step e
    shown := m.shown ++ (m.supervisor.step e).effects } _ ∧ _
  have passed (admits : (m.supervisor.step e).Admits a.pair) :
      (m.supervisor.step e).store = (decoded? a.kind s).elim m.supervisor.store
          (fun r => m.supervisor.store.put a.address r.value r.slot) ∧
        (m.supervisor.step e).effects = (decoded? a.kind s).toList.flatMap a.called := by
    obtain ⟨stored, dropped⟩ := keeps.step_update (keeps.admits_of_step admits) u
    cases decoded : Record.decode a.kind s.value with
    | error fault => simpa [decoded?, decoded, Except.toOption] using dropped fault decoded
    | ok record =>
      simpa [decoded?, decoded, Except.toOption, PolledAccount.called] using stored record decoded
  refine ⟨⟨keeps.step (e := e) (by simp [e, u]) (by simp [e]), keeps.admits_of_step,
    fun admits => (passed admits).1, fun admits => congrArg (m.shown ++ ·) (passed admits).2, rfl⟩,
    ?_⟩
  rintro call (rfl | ⟨result, rfl⟩) at_call
  · exact keeps.call_waits at_call (by simp)
  · exact (Supervisor.step_transition _ e).returned keeps.lawful.sound keeps.lawful.orderly at_call

/-- The handshake that ends a successful first read stores nothing. -/
theorem Passes.started {new : Option (Stamped Record)} (passes : Passes a m m' new)
    (call : m'.supervisor.calls[a.call]? = some (.starting a.pair a.channel)) :
    Passes a m (m'.carry a (.started (.ok ()))) new := by
  let e : Supervisor.Event := .handshake a.channel Polling.canStall (.ok ())
  have admits := passes.keeps.admits_of_step (e := e)
  exact ⟨passes.keeps.step (e := e) nofun (by simp [e, Polling.canStall]),
    fun k => passes.admits (admits k),
    fun k => (passes.keeps.step_opened call _).trans (passes.store (admits k)),
    fun k => passes.shown (admits k), passes.channel⟩

/-- What is news of a read that succeeds goes through the gate. -/
theorem Reflects.news (h : m.Reflects a before) {read : Stamped (Option Bytes)}
    (forward : Forward (m.reads ++ [.ok read])) {read' : Stamped (List (Address × Bytes))}
    (collected : (Filter.account a.address).collect (.ok read : AccountRead) = .ok read')
    (channel : Polling) :
    let m' := ((m.channel.tracker.absorb read').1.map
      fun u => Polling.Output.emit (.update u)).foldl (carry a) { m with channel }
    (m.channel.tracker.absorb read').2.Remembers a.address (sightings (m.reads ++ [.ok read])) ∧
    CallStays a m m' ∧
    ∃ new, stores a.kind (m.reads ++ [.ok read]) = stores a.kind m.reads ++ new.toList ∧
      (∀ r ∈ new, ∃ data, read = ⟨some data, r.slot⟩ ∧ Record.decode a.kind data = .ok r.value) ∧
      Passes a { m with channel } m' new := by
  obtain ⟨data?, slot⟩ := read
  have idle : Passes a { m with channel } { m with channel } none := passes_none h.keeps
  cases data? with
  | none =>
    obtain rfl : ⟨[], slot⟩ = read' := Except.ok.inj collected
    have same : sightings (m.reads ++ [.ok ⟨none, slot⟩]) = sightings m.reads := by
      simp [sightings_concat, sighting?]
    rw [stores, same]
    exact ⟨h.remembers, fun _ _ stays => stays, none, by simp [stores], by simp, idle⟩
  | some data =>
    obtain rfl : Tracker.sighting a.address ⟨data, slot⟩ = read' := Except.ok.inj collected
    have more : sightings (m.reads ++ [.ok ⟨some data, slot⟩]) =
        sightings m.reads ++ [⟨data, slot⟩] := by
      simp [sightings_concat, sighting?]
    have later : ∀ earlier ∈ sightings m.reads, earlier.slot ≤ slot := by
      rw [Forward, more, List.pairwise_append] at forward
      exact fun earlier mem => forward.2.2 earlier mem _ (List.mem_singleton_self _)
    obtain ⟨remembers, news⟩ := h.remembers.absorb ⟨data, slot⟩ later
    rw [stores, more]
    refine ⟨remembers, ?_⟩
    rcases news with ⟨old, same⟩ | ⟨one, more⟩
    · rw [old, same]
      exact ⟨fun _ _ stays => stays, none, by simp [stores], by simp, idle⟩
    · rw [one, more]
      obtain ⟨passes, stays⟩ := passes_update (m := { m with channel }) h.keeps ⟨data, slot⟩
      refine ⟨stays, decoded? a.kind ⟨data, slot⟩, ?_, fun r mem => ?_, passes⟩
      · rw [List.filterMap_append, stores]
        cases decoded : decoded? a.kind ⟨data, slot⟩ <;> simp [decoded]
      · cases decoded : Record.decode a.kind data with
        | error fault => simp [decoded?, decoded, Except.toOption] at mem
        | ok record =>
          obtain rfl : ⟨record, slot⟩ = r := by
            simpa [decoded?, decoded, Except.toOption] using mem
          exact ⟨data, rfl, decoded⟩

/-- What a stored record leaves under the key. -/
theorem entry_of_passes {new : Option (Stamped Record)} (passes : Passes a m m' new)
    (set : a.address ≠ Address.unset) (names : ∀ r ∈ new, r.value.key a.address = a.key.bare)
    (admits : m'.supervisor.Admits a.pair) : m'.entry a = new.or (m.entry a) := by
  rw [entry, passes.store admits]
  cases new with
  | none => rfl
  | some r =>
    have own := names r rfl
    have shown : a.key.isQuote = false := by
      cases key : a.key with
      | oracle address source =>
        cases record : r.value <;> simp [key, record, Record.key, RecordKey.bare] at own
        simpa [RecordKey.isQuote, ← own] using set
      | _ => rfl
    exact (Store.get?_put shown ..).trans (if_pos own)

theorem answered_eq {now : Nat} {read : AccountRead} {read' : FilterRead} {channel : Polling}
    {outputs : List Polling.Output} (collected : (Filter.account a.address).collect read = read')
    (stepped : m.channel.step (.answer now read') = (channel, outputs)) {u : Mirror}
    (carried : outputs.foldl (carry a) { m with channel } = u) :
    m.answered a now read = ⟨u.supervisor, u.channel, m.reads ++ [read], u.shown⟩ := by
  subst collected
  rw [answered, take, stepped, carried]

/-- A read that fails is not stored; if it was the first, its error ends the pair. -/
theorem Reflects.fails (h : m.Reflects a before)
    (waits : m.channel.phase = .opening ∨ m.channel.phase = .reading) (now : Nat)
    (error : LedgerError) :
    (m.answered a now (.error error)).Reflects a before ∧
      ((m.answered a now (.error error)).supervisor.Admits a.pair →
        (m.answered a now (.error error)).supervisor.store = m.supervisor.store ∧
          (m.answered a now (.error error)).shown = m.shown) := by
  obtain ⟨channel, stepped, tracker, started⟩ := Polling.step_answer_error waits now error
  have collected : (Filter.account a.address).collect (.error error : AccountRead) =
    .error error := rfl
  have same : sightings (m.reads ++ [.error error]) = sightings m.reads := by
    simp [sightings_concat, sighting?]
  have remembers : channel.tracker.Remembers a.address
      (sightings (m.reads ++ [.error error])) := by
    rw [same, tracker]
    exact h.remembers
  by_cases opening : m.channel.phase = .opening
  · obtain ⟨none, call⟩ := h.unopened (.inr opening)
    obtain ⟨shut, told⟩ := h.keeps.step_refused call Polling.canStall (.ledger error)
    let e : Supervisor.Event := .handshake a.channel Polling.canStall (.error (.ledger error))
    rw [if_pos opening] at stepped
    rw [answered_eq collected stepped rfl]
    refine ⟨⟨h.keeps.step (e := e) nofun (by simp [e, Polling.canStall]), remembers,
      fun k => absurd k started, fun _ => ⟨_, [], by rw [none]; rfl, fun _ _ => ⟨_, told⟩⟩,
      fun admits => absurd admits shut, fun admits => absurd admits shut⟩,
      fun admits => absurd admits shut⟩
  · rw [if_neg opening] at stepped
    have opened : ¬ m.channel.Unopened := by
      simp [Polling.Unopened, waits.resolve_left opening]
    obtain ⟨first, rest, eq, failed⟩ := h.opened opened
    rw [answered_eq collected stepped rfl]
    refine ⟨⟨h.keeps, remembers, fun k => absurd k started,
      fun _ => ⟨first, rest ++ [.error error], by simp [eq], failed⟩, ?_, ?_⟩,
      fun _ => ⟨rfl, rfl⟩⟩
    · rw [stores, same]
      exact h.stored
    · rw [stores, same]
      exact h.called

/-- Of a read that succeeds, what is new and decodes is stored and shown. -/
theorem Reflects.succeeds (h : m.Reflects a before) (set : a.address ≠ Address.unset)
    (waits : m.channel.phase = .opening ∨ m.channel.phase = .reading) (now : Nat)
    {read : Stamped (Option Bytes)} (forward : Forward (m.reads ++ [.ok read]))
    (names : a.Names (m.reads ++ [.ok read])) :
    (m.answered a now (.ok read)).Reflects a before ∧ ∃ new : Option (Stamped Record),
      (∀ r ∈ new, ∃ data, read = ⟨some data, r.slot⟩ ∧ Record.decode a.kind data = .ok r.value) ∧
      ((m.answered a now (.ok read)).supervisor.Admits a.pair →
        (m.answered a now (.ok read)).supervisor.store = new.elim m.supervisor.store
          (fun r => m.supervisor.store.put a.address r.value r.slot) ∧
        (m.answered a now (.ok read)).shown = m.shown ++ new.toList.flatMap a.called) := by
  obtain ⟨read', collected⟩ : ∃ read',
      (Filter.account a.address).collect (.ok read : AccountRead) = .ok read' := ⟨_, rfl⟩
  obtain ⟨channel, stepped, tracker, started⟩ := Polling.step_answer_ok waits now read'
  obtain ⟨remembers, stays, new, more, decodes, passes⟩ := h.news forward collected channel
  -- The handshake that follows a first read is part of what passes.
  let emits := (m.channel.tracker.absorb read').1.map fun u => Polling.Output.emit (.update u)
  let opens : List Polling.Output :=
    if m.channel.phase = .opening then [.started (.ok ())] else []
  obtain ⟨u, carried, passes, told⟩ : ∃ u, (emits ++ opens).foldl (carry a) { m with channel } = u ∧
      Passes a { m with channel } u new ∧ (m.channel.phase = .reading → CallStays a m u) := by
    rw [List.foldl_append]
    by_cases opening : m.channel.phase = .opening
    · rw [show opens = [.started (.ok ())] from if_pos opening]
      have waiting := stays _ (.inl rfl) (h.unopened (.inr opening)).2
      exact ⟨_, rfl, passes.started waiting, by simp [opening]⟩
    · rw [show opens = [] from if_neg opening]
      exact ⟨_, rfl, passes, fun _ => stays⟩
  rw [answered_eq collected stepped carried]
  refine ⟨⟨passes.keeps, ?_, fun k => ?_, fun _ => ?_, fun admits => ?_, fun admits => ?_⟩, new,
    decodes, fun admits => ⟨passes.store admits, passes.shown admits⟩⟩
  · rw [passes.channel, tracker]
    exact remembers
  · rw [passes.channel] at k
    exact absurd k started
  · rcases waits with opening | reading
    · exact ⟨.ok read, [], by rw [(h.unopened (.inr opening)).1]; rfl, nofun⟩
    · obtain ⟨first, rest, eq, failed⟩ := h.opened (by simp [Polling.Unopened, reading])
      refine ⟨first, rest ++ [.ok read], by simp [eq], fun error is => ?_⟩
      obtain ⟨error', returned⟩ := failed error is
      exact ⟨error', told reading _ (.inr ⟨_, rfl⟩) returned⟩
  · have own : ∀ r ∈ new, r.value.key a.address = a.key.bare := by
      intro r mem
      obtain ⟨data, rfl, decoded⟩ := decodes r mem
      exact names ⟨data, r.slot⟩ (by simp [sightings_concat, sighting?]) _ decoded
    have held : m.entry a = (stores a.kind m.reads).getLast?.or before :=
      h.stored (passes.admits admits)
    refine (entry_of_passes passes set own admits).trans ?_
    rw [more]
    change new.or (m.entry a) = _
    rw [held]
    cases new <;> simp
  · refine (passes.shown admits).trans ?_
    rw [more, List.flatMap_append, ← h.called (passes.admits admits)]

/-! ### Runs -/

theorem Step.reads_eq (step : Step a m m') :
    m'.reads = m.reads ∨ ∃ read, m'.reads = m.reads ++ [read] := by
  cases step with
  | acts input own => exact .inl (by rw [take_own own])
  | reads now read => exact .inr ⟨read, rfl⟩
  | happens | writes => exact .inl rfl

/-- What holds of the reads held of them earlier. -/
theorem Step.earlier (step : Step a m m') (forward : Forward m'.reads) (names : a.Names m'.reads) :
    Forward m.reads ∧ a.Names m.reads := by
  rcases step.reads_eq with same | ⟨read, more⟩
  · exact same ▸ ⟨forward, names⟩
  · rw [more, Forward, sightings_concat, List.pairwise_append] at forward
    refine ⟨forward.1, fun s mem => names s ?_⟩
    rw [more, sightings_concat]
    exact List.mem_append_left _ mem

/-- One step: nothing changes under the key, or one read is stored and shown. -/
theorem Reflects.step (h : m.Reflects a before) (set : a.address ≠ Address.unset)
    (step : Step a m m') (forward : Forward m'.reads) (names : a.Names m'.reads) :
    m'.Reflects a before ∧ (m'.supervisor.Admits a.pair →
      m'.entry a = m.entry a ∧ m'.shown = m.shown ∨ ∃ data slot record,
        m'.reads = m.reads ++ [.ok ⟨some data, slot⟩] ∧ Record.decode a.kind data = .ok record ∧
        m'.supervisor.store = m.supervisor.store.put a.address record slot ∧
        m'.shown = m.shown ++ a.called ⟨record, slot⟩) := by
  cases step with
  | acts input own => exact ⟨h.acts own, fun _ => .inl (by rw [take_own own]; exact ⟨rfl, rfl⟩)⟩
  | happens e delivers starts kept =>
    exact ⟨h.happens delivers starts kept, fun _ => .inl ⟨kept, rfl⟩⟩
  | writes store kept => exact ⟨h.writes kept, fun _ => .inl ⟨kept, rfl⟩⟩
  | reads now read waits =>
    cases read with
    | error error =>
      obtain ⟨reflects, same⟩ := h.fails waits now error
      refine ⟨reflects, fun admits => .inl ?_⟩
      exact ⟨congrArg (Store.get? · a.key) (same admits).1, (same admits).2⟩
    | ok read =>
      obtain ⟨reflects, new, decodes, passed⟩ := h.succeeds set waits now forward names
      refine ⟨reflects, fun admits => ?_⟩
      obtain ⟨stored, shown⟩ := passed admits
      cases new with
      | none => exact .inl ⟨congrArg (Store.get? · a.key) stored, by simpa using shown⟩
      | some r =>
        obtain ⟨data, rfl, decoded⟩ := decodes r rfl
        exact .inr ⟨data, r.slot, r.value, rfl, decoded, stored, by simpa using shown⟩

theorem reflects_start {s : Supervisor} (lawful : s.Lawful) (unhurried : s.Unhurried)
    (begins : a.Begins s) (frequency : Nat) :
    (start a s frequency).Reflects a (s.store.get? a.key) := by
  obtain ⟨came, ⟨pair, at_p, own, watched, live⟩, channel⟩ := begins
  obtain ⟨keeps, waits⟩ := Supervisor.keeps_enter lawful unhurried came at_p live
  rw [own, watched, ← channel] at keeps
  have untouched := (lawful.orderly.pairs a.pair pair at_p).arriving a.call came
  refine ⟨keeps, Tracker.remembers_nil _, fun _ => ⟨rfl, channel ▸ waits⟩,
    fun k => absurd (.inl rfl) k, fun _ => ?_, fun _ => rfl⟩
  rw [entry, start, Supervisor.step_enter came at_p untouched.line live]
  rfl

theorem reflects_reached {start : Mirror} (begun : start.Reflects a before)
    (set : a.address ≠ Address.unset) (reached : Relation.ReflTransGen (Step a) start m)
    (forward : Forward m.reads) (names : a.Names m.reads) : m.Reflects a before := by
  induction reached with
  | refl => exact begun
  | tail _ step ih =>
    obtain ⟨forward', names'⟩ := step.earlier forward names
    exact ((ih forward' names').step set step forward names).1

/-- A sighting that decodes is stored as it was first seen in the run that it belongs to. -/
theorem stores_of_run {kind : RecordKind} {data : Bytes} {record : Record}
    (decoded : Record.decode kind data = .ok record) (reads : List AccountRead) (slot : UInt64) :
    ∃ first, EndsInRun (sightings (reads ++ [.ok ⟨some data, slot⟩])) ⟨data, first⟩ ∧
      (stores kind (reads ++ [.ok ⟨some data, slot⟩])).getLast? = some ⟨record, first⟩ := by
  have more : sightings (reads ++ [.ok ⟨some data, slot⟩]) = sightings reads ++ [⟨data, slot⟩] := by
    simp [sightings_concat, sighting?]
  rw [stores, more]
  obtain ⟨⟨value, first⟩, last⟩ := Option.ne_none_iff_exists'.1
    (mt List.getLast?_eq_none_iff.1 (changes_ne_nil ⟨data, slot⟩ (sightings reads)))
  have run := endsInRun_of_changes last
  obtain rfl : data = value := run.value_eq _ List.getLast?_concat
  obtain ⟨earlier, eq⟩ := List.getLast?_eq_some_iff.1 last
  refine ⟨first, run, ?_⟩
  rw [eq, List.filterMap_append]
  simp [decoded?, decoded, Except.toOption]

/-- What has come of the reads by the time the channel has taken up `m.reads`. -/
structure Faithful (a : PolledAccount) (before : Option (Stamped Record)) (m : Mirror) : Prop where
  /-- The gate is open as long as the account is subscribed to. -/
  subscribed : m.supervisor.registry.get? a.watchKey = some a.pair → m.supervisor.Admits a.pair
  /-- The call succeeds only after a read that did. -/
  returned : m.supervisor.calls[a.call]? = some (.returned (.ok ())) →
    ∃ read rest, m.reads = .ok read :: rest
  /-- Right after a read that finds contents that decode, these are stored, at the slot at which
  they were first seen in the run of the same contents. -/
  current : m.supervisor.Admits a.pair → ∀ earlier data slot record,
    m.reads = earlier ++ [.ok ⟨some data, slot⟩] → Record.decode a.kind data = .ok record →
    ∃ first, EndsInRun (sightings m.reads) ⟨data, first⟩ ∧ m.entry a = some ⟨record, first⟩
  stored : m.supervisor.Admits a.pair → m.entry a = (stores a.kind m.reads).getLast?.or before
  /-- The observer was called once for each record stored. -/
  called : m.supervisor.Admits a.pair → m.shown = (stores a.kind m.reads).flatMap a.called
  /-- The pair has never had another channel, and no replacement was begun. -/
  kept : (∀ c, m.supervisor.owner? c = some a.pair ↔ c = a.channel) ∧
    ∃ pair, m.supervisor.pairs[a.pair]? = some pair ∧ pair.total = 0

/-- A polled account is mirrored faithfully, whatever else happens at the supervisor and to the
store, before and meanwhile, as long as the gate of its pair is open. A step that changes what is
stored or calls the observer is a read that found contents that decode, and it does both: reads
that fail, find nothing or find what does not decode leave what is stored as it was. -/
theorem mirrors_polled {s₀ : Supervisor} (initial : s₀.Initial) (events : List Supervisor.Event)
    (store : Store) (begins : a.Begins { s₀.run events with store })
    (set : a.address ≠ Address.unset) (frequency : Nat)
    (reached : Relation.ReflTransGen (Step a) (start a { s₀.run events with store } frequency) m)
    (forward : Forward m.reads) (names : a.Names m.reads) :
    m.Faithful a (store.get? a.key) ∧
      ∀ m', Step a m m' → Forward m'.reads → a.Names m'.reads → m'.supervisor.Admits a.pair →
        m'.entry a = m.entry a ∧ m'.shown = m.shown ∨ ∃ data slot record,
          m'.reads = m.reads ++ [.ok ⟨some data, slot⟩] ∧ Record.decode a.kind data = .ok record ∧
          m'.supervisor.store = m.supervisor.store.put a.address record slot ∧
          m'.shown = m.shown ++ a.called ⟨record, slot⟩ := by
  have lawful := (Supervisor.lawful_initial initial).run events
  have unhurried := Supervisor.run_unhurried events (Supervisor.lawful_initial initial)
    (Supervisor.unhurried_initial initial)
  have h := reflects_reached
    (reflects_start (lawful.withStore store) unhurried begins frequency) set reached forward names
  obtain ⟨pair, at_p, own, -, contented⟩ := h.keeps.pair
  refine ⟨⟨fun known => ?_, fun told => ?_,
    fun admits earlier data slot record last decoded => ?_, h.stored, h.called, h.keeps.owner,
    pair, at_p, contented.total⟩, fun m' step forward names => (h.step set step forward names).2⟩
  · exact ⟨pair, at_p, (h.keeps.lawful.sound.gate_iff at_p).2 (.inl (own ▸ known))⟩
  · by_cases unopened : m.channel.Unopened
    · simp [(h.unopened unopened).2] at told
    · obtain ⟨first, rest, eq, failed⟩ := h.opened unopened
      cases first with
      | ok read => exact ⟨read, rest, eq⟩
      | error error =>
        obtain ⟨error', told'⟩ := failed error rfl
        simp [told'] at told
  · obtain ⟨first, run, stored⟩ := stores_of_run decoded earlier slot
    refine ⟨first, last ▸ run, (h.stored admits).trans ?_⟩
    rw [last, stored]
    rfl

/-! ## A state account that is polled three times -/

def polledState : PolledAccount where
  address := ⟨Vector.replicate 32 7⟩
  kind := .state
  key := .state
  observer := some "watcher"
  pair := 0
  channel := 0
  call := 0

def stateSeen : ExchangeState where
  admin := Address.unset
  signer := Address.unset
  quoteAssetMint := Address.unset
  numberOfMarkets := 3
  numberOfSpotMarkets := 0
  signerNonce := 0
  exchangeStatus := 0

/-- The second of its reads fails, and the third finds the account as the first did. -/
def stateReads : List AccountRead :=
  [.ok ⟨some (AccountType.encode .state stateSeen), 5⟩, .error .unavailable,
    .ok ⟨some (AccountType.encode .state stateSeen), 7⟩]

def stateCall : List Supervisor.Event := [.subscribe polledState.watchKey polledState.observer]

/-- The account is registered. -/
def stateAsked : Supervisor := { Supervisor.run {} stateCall with store := {} }

/-- After one read. -/
def stateOpened : Mirror :=
  ((start polledState stateAsked 400).take polledState .start).answered polledState 0 stateReads[0]

/-- One more read, begun by a tick. -/
def polledOnce (m : Mirror) (now : Nat) (read : AccountRead) : Mirror :=
  (m.take polledState (.tick now)).answered polledState now read

def statePolled : Mirror :=
  polledOnce (polledOnce stateOpened 400 stateReads[1]) 800 stateReads[2]

theorem reached_polledOnce (m : Mirror) (now : Nat) (read : AccountRead)
    (due : (m.take polledState (.tick now)).channel.phase = .reading) :
    Relation.ReflTransGen (Step polledState) m (polledOnce m now read) :=
  .trans (.single (.acts (.tick now) nofun)) (.single (.reads now read (.inr due)))

theorem statePolled_reached :
    Relation.ReflTransGen (Step polledState) (start polledState stateAsked 400) statePolled := by
  have opened : Relation.ReflTransGen (Step polledState) (start polledState stateAsked 400)
      stateOpened :=
    .trans (.single (.acts .start nofun)) (.single (.reads 0 stateReads[0] (.inl rfl)))
  exact (opened.trans (reached_polledOnce _ _ _ (by decide +kernel))).trans
    (reached_polledOnce _ _ _ (by decide +kernel))

theorem decode_stateSeen :
    Record.decode .state (AccountType.encode .state stateSeen) = .ok (.state stateSeen) := by
  decide +kernel

/-- What is stored is stamped with the slot of the first read, and was shown once. -/
theorem mirrors_polled_state :
    polledState.Begins stateAsked ∧ polledState.address ≠ Address.unset ∧
    Relation.ReflTransGen (Step polledState) (start polledState stateAsked 400) statePolled ∧
    Forward statePolled.reads ∧ polledState.Names statePolled.reads ∧
    statePolled.entry polledState = some ⟨.state stateSeen, 5⟩ ∧
    statePolled.shown = polledState.called ⟨.state stateSeen, 5⟩ := by
  have begins : polledState.Begins stateAsked :=
    ⟨rfl, ⟨_, rfl, rfl, rfl, rfl⟩, rfl⟩
  have set : polledState.address ≠ Address.unset := by decide
  have seen : sightings statePolled.reads = [⟨AccountType.encode .state stateSeen, 5⟩,
    ⟨AccountType.encode .state stateSeen, 7⟩] := rfl
  have forward : Forward statePolled.reads := by
    rw [Forward, seen]
    simp
  have names : polledState.Names statePolled.reads := by
    rw [PolledAccount.Names, seen]
    intro s mem record decoded
    obtain rfl : Record.state stateSeen = record := by
      refine Except.ok.inj (decode_stateSeen.symm.trans ?_)
      rcases List.mem_pair.1 mem with rfl | rfl <;> exact decoded
    rfl
  have admits : statePolled.supervisor.Admits polledState.pair := by
    have opened : (statePolled.supervisor.pairs[0]?.map Pair.gateOpen) = some true := by
      decide +kernel
    obtain ⟨pair, at_p, gate⟩ := Option.map_eq_some_iff.1 opened
    exact ⟨pair, at_p, gate⟩
  have once : stores .state statePolled.reads = [⟨.state stateSeen, 5⟩] := by
    rw [stores, seen]
    simp [changes, decoded?, decode_stateSeen, Except.toOption]
  have initial : Supervisor.Initial {} := ⟨rfl, rfl, rfl, rfl⟩
  obtain ⟨faithful, -⟩ :=
    mirrors_polled initial stateCall {} begins set 400 statePolled_reached forward names
  refine ⟨begins, set, statePolled_reached, forward, names, ?_, ?_⟩
  · refine (faithful.stored admits).trans ?_
    rw [show polledState.kind = .state from rfl, once]
    rfl
  · refine (faithful.called admits).trans ?_
    rw [show polledState.kind = .state from rfl, once]
    rfl

end Mirror

end LedgerWatch
