import LedgerWatch.Attach.Resolve
import LedgerWatch.Proofs.Attach.Positions

/-!
# What visits collect

A visit asks for accounts, each with or without write access: its market, the market's oracle,
and for a perp market the quote spot market with its oracle too. `visitAll_holds` says that after
any visits each group of accounts holds exactly what was asked for, once, and writable when it
was asked for writable at least once (`AccountMap.Collects`). `visitAll_isOk` says when the visits
find all that they ask for.
-/

namespace LedgerWatch

/-! ## Account maps -/

/-- The map holds an account for each key that was asked for, at an address that is right for the
key, and writable exactly if the key was asked for with write access. -/
structure AccountMap.Collects {κ : Type} [DecidableEq κ] (m : AccountMap κ)
    (asked : κ → Bool → Prop) (right : κ → Address → Prop) : Prop where
  inStep : m.InStep
  held : ∀ k, (∃ account, m.get? k = some account) ↔ ∃ writable, asked k writable
  account : ∀ (k : κ) (account : AccountMeta), m.get? k = some account →
    right k account.address ∧ account.signer = false ∧ (account.writable = true ↔ asked k true)

namespace AccountMap.Collects

variable {κ : Type} [DecidableEq κ] {m : AccountMap κ} {asked asked' : κ → Bool → Prop}
  {right : κ → Address → Prop}

theorem empty (none : ∀ k writable, ¬ asked k writable) :
    ({} : AccountMap κ).Collects asked right where
  inStep := .empty
  held k := by simp [AccountMap.get?, AccountMap.position?, Table.get?, Table.find, none]
  account k account h := by
    simp [AccountMap.get?, AccountMap.position?, Table.get?, Table.find] at h

theorem congr (h : m.Collects asked right)
    (same : ∀ k writable, asked' k writable ↔ asked k writable) : m.Collects asked' right := by
  obtain rfl : asked' = asked := by
    funext k writable
    exact propext (same k writable)
  exact h

theorem insert (h : m.Collects asked right) {key : κ} {address : Address} {writable : Bool}
    (here : right key address)
    (more : ∀ k access, asked' k access ↔ asked k access ∨ k = key ∧ access = writable) :
    (m.insert key address writable).Collects asked' right where
  inStep := h.inStep.insert key address writable
  held k := by
    rw [h.inStep.get?_insert]
    by_cases same : key = k
    · subst same
      have now : ∃ access, asked' key access := ⟨writable, (more _ _).2 (.inr ⟨rfl, rfl⟩)⟩
      rw [if_pos rfl]
      cases m.get? key <;> simp [now]
    · rw [if_neg same, h.held k]
      simp [more, Ne.symm same]
  account k account held := by
    rw [h.inStep.get?_insert] at held
    by_cases same : key = k
    · subst same
      rw [if_pos rfl] at held
      rw [more]
      cases before : m.get? key with
      | none =>
        have unasked : ¬ asked key true := fun asked => by
          obtain ⟨_, k⟩ := (h.held key).2 ⟨true, asked⟩
          simp [before] at k
        obtain rfl : { address, writable : AccountMeta } = account := by simpa [before] using held
        refine ⟨here, rfl, ?_⟩
        simp [unasked]
      | some old =>
        obtain ⟨right, signer, access⟩ := h.account key old before
        obtain rfl : { old with writable := old.writable || writable } = account := by
          simpa [before] using held
        refine ⟨right, signer, ?_⟩
        simp [access]
    · rw [if_neg same] at held
      obtain ⟨right, signer, access⟩ := h.account k account held
      refine ⟨right, signer, ?_⟩
      rw [access, more]
      simp [Ne.symm same]

end AccountMap.Collects

/-! ## Visits -/

namespace Attached

variable {store : Store} {a b : Attached} {visits more : List Visit} {i : UInt16} {w : Bool}

/-- The oracle needs no account, or it is stored. -/
def OracleStored (store : Store) (oracle : Address) : Prop :=
  oracle = Address.unset ∨ store.hasOracle oracle = true

def withOracle (a : Attached) (oracle : Address) (source : Oracle.Source) : Attached :=
  if oracle = Address.unset then a
  else { a with oracles := a.oracles.insert oracle oracle source.isPrelaunch }

@[simp]
theorem withOracle_spot (a : Attached) (oracle : Address) (source : Oracle.Source) :
    (a.withOracle oracle source).spot = a.spot := by
  unfold withOracle
  split <;> rfl

@[simp]
theorem withOracle_perp (a : Attached) (oracle : Address) (source : Oracle.Source) :
    (a.withOracle oracle source).perp = a.perp := by
  unfold withOracle
  split <;> rfl

theorem addOracle_eq_ok_iff {oracle : Address} {source : Oracle.Source} :
    addOracle store a oracle source = .ok b ↔
      OracleStored store oracle ∧ b = a.withOracle oracle source := by
  unfold addOracle OracleStored withOracle
  by_cases unset : oracle = Address.unset
  · simpa [unset] using eq_comm
  · by_cases stored : store.hasOracle oracle = true
    · simpa [unset, stored] using eq_comm
    · simp [unset, stored]

theorem addSpot_eq_ok_iff : addSpot store a i w = .ok b ↔
    ∃ entry, store.spotMarkets.get? i = some entry ∧ OracleStored store entry.value.oracle ∧
      b = { a with spot := a.spot.insert i entry.value.pubkey w }.withOracle entry.value.oracle
        entry.value.oracleSource := by
  unfold addSpot
  cases store.spotMarkets.get? i with
  | none => simp
  | some entry => simp [addOracle_eq_ok_iff]

theorem addPerp_eq_ok_iff : addPerp store a i w = .ok b ↔
    ∃ entry, store.perpMarkets.get? i = some entry ∧ OracleStored store entry.value.oracle ∧
      addSpot store ({ a with perp := a.perp.insert i entry.value.pubkey w }.withOracle
        entry.value.oracle entry.value.oracleSource) entry.value.quoteSpotMarketIndex false =
          .ok b := by
  unfold addPerp
  cases store.perpMarkets.get? i with
  | none => simp
  | some entry =>
    dsimp only
    cases added : addOracle store { a with perp := a.perp.insert i entry.value.pubkey w }
      entry.value.oracle entry.value.oracleSource with
    | error missing =>
      have lacking : ¬ OracleStored store entry.value.oracle := fun stored => by
        simp [addOracle_eq_ok_iff.2 ⟨stored, rfl⟩] at added
      simp [lacking, bind, Except.bind]
    | ok c =>
      obtain ⟨stored, rfl⟩ := addOracle_eq_ok_iff.1 added
      simp [stored, bind, Except.bind]

/-- The visits ask for a spot market: they visit it, or a perp market quoted in it. -/
inductive AsksSpot (store : Store) (visits : List Visit) : UInt16 → Bool → Prop
  | visit {j access} (mem : ⟨.spot, j, access⟩ ∈ visits) : AsksSpot store visits j access
  | quote {j access entry} (mem : ⟨.perp, j, access⟩ ∈ visits)
      (stored : store.perpMarkets.get? j = some entry) :
      AsksSpot store visits entry.value.quoteSpotMarketIndex false

/-- The visits ask for an oracle: a market they ask for names it. -/
inductive AsksOracle (store : Store) (visits : List Visit) : Address → Bool → Prop
  | perp {j access entry} (mem : ⟨.perp, j, access⟩ ∈ visits)
      (stored : store.perpMarkets.get? j = some entry) (set : entry.value.oracle ≠ Address.unset) :
      AsksOracle store visits entry.value.oracle entry.value.oracleSource.isPrelaunch
  | spot {j access entry} (asked : AsksSpot store visits j access)
      (stored : store.spotMarkets.get? j = some entry) (set : entry.value.oracle ≠ Address.unset) :
      AsksOracle store visits entry.value.oracle entry.value.oracleSource.isPrelaunch

/-- The groups hold what the visits ask for. -/
structure Holds (store : Store) (visits : List Visit) (a : Attached) : Prop where
  oracles : a.oracles.Collects (AsksOracle store visits) fun oracle address => address = oracle
  spot : a.spot.Collects (AsksSpot store visits) fun i address =>
    ∃ entry, store.spotMarkets.get? i = some entry ∧ address = entry.value.pubkey
  perp : a.perp.Collects (fun i w => ⟨.perp, i, w⟩ ∈ visits) fun i address =>
    ∃ entry, store.perpMarkets.get? i = some entry ∧ address = entry.value.pubkey

theorem asksSpot_append_spot {k : UInt16} {access : Bool} :
    AsksSpot store (visits ++ [⟨.spot, i, w⟩]) k access ↔
      AsksSpot store visits k access ∨ k = i ∧ access = w := by
  constructor
  · intro asks
    cases asks with
    | visit mem =>
      rcases List.mem_append.1 mem with mem | last
      · exact .inl (.visit mem)
      · exact .inr (by simpa using last)
    | quote mem stored => exact .inl (.quote (by simpa using mem) stored)
  · rintro (asks | ⟨rfl, rfl⟩)
    · cases asks with
      | visit mem => exact .visit (List.mem_append_left _ mem)
      | quote mem stored => exact .quote (List.mem_append_left _ mem) stored
    · exact .visit (List.mem_append_right _ List.mem_cons_self)

theorem asksSpot_append_perp {entry : Stamped PerpMarket} {k : UInt16} {access : Bool}
    (stored : store.perpMarkets.get? i = some entry) :
    AsksSpot store (visits ++ [⟨.perp, i, w⟩]) k access ↔
      AsksSpot store visits k access ∨ k = entry.value.quoteSpotMarketIndex ∧ access = false := by
  constructor
  · intro asks
    cases asks with
    | visit mem => exact .inl (.visit (by simpa using mem))
    | quote mem found =>
      rcases List.mem_append.1 mem with mem | last
      · exact .inl (.quote mem found)
      · obtain ⟨rfl, rfl⟩ : _ = i ∧ _ = w := by simpa using last
        cases stored.symm.trans found
        exact .inr ⟨rfl, rfl⟩
  · rintro (asks | ⟨rfl, rfl⟩)
    · cases asks with
      | visit mem => exact .visit (List.mem_append_left _ mem)
      | quote mem found => exact .quote (List.mem_append_left _ mem) found
    · exact .quote (List.mem_append_right _ List.mem_cons_self) stored

/-- What a market's oracle adds to the oracles asked for. -/
def OracleOf (oracle : Address) (source : Oracle.Source) (k : Address) (access : Bool) : Prop :=
  oracle ≠ Address.unset ∧ k = oracle ∧ access = source.isPrelaunch

theorem asksOracle_append_spot {entry : Stamped SpotMarket} {k : Address} {access : Bool}
    (stored : store.spotMarkets.get? i = some entry) :
    AsksOracle store (visits ++ [⟨.spot, i, w⟩]) k access ↔
      AsksOracle store visits k access ∨
        OracleOf entry.value.oracle entry.value.oracleSource k access := by
  constructor
  · intro asks
    cases asks with
    | perp mem found set => exact .inl (.perp (by simpa using mem) found set)
    | spot asked found set =>
      rcases asksSpot_append_spot.1 asked with asked | ⟨rfl, rfl⟩
      · exact .inl (.spot asked found set)
      · cases stored.symm.trans found
        exact .inr ⟨set, rfl, rfl⟩
  · rintro (asks | ⟨set, rfl, rfl⟩)
    · cases asks with
      | perp mem found set => exact .perp (List.mem_append_left _ mem) found set
      | spot asked found set => exact .spot (asksSpot_append_spot.2 (.inl asked)) found set
    · exact .spot (asksSpot_append_spot.2 (.inr ⟨rfl, rfl⟩)) stored set

theorem asksOracle_append_perp {entry : Stamped PerpMarket} {quote : Stamped SpotMarket}
    {k : Address} {access : Bool} (stored : store.perpMarkets.get? i = some entry)
    (quoted : store.spotMarkets.get? entry.value.quoteSpotMarketIndex = some quote) :
    AsksOracle store (visits ++ [⟨.perp, i, w⟩]) k access ↔
      (AsksOracle store visits k access ∨
        OracleOf entry.value.oracle entry.value.oracleSource k access) ∨
          OracleOf quote.value.oracle quote.value.oracleSource k access := by
  have asksSpot {j : UInt16} {access : Bool} :
      AsksSpot store (visits ++ [⟨.perp, i, w⟩]) j access ↔ _ :=
    asksSpot_append_perp stored
  constructor
  · intro asks
    cases asks with
    | perp mem found set =>
      rcases List.mem_append.1 mem with mem | last
      · exact .inl (.inl (.perp mem found set))
      · obtain ⟨rfl, rfl⟩ : _ = i ∧ _ = w := by simpa using last
        cases stored.symm.trans found
        exact .inl (.inr ⟨set, rfl, rfl⟩)
    | spot asked found set =>
      rcases asksSpot.1 asked with asked | ⟨rfl, rfl⟩
      · exact .inl (.inl (.spot asked found set))
      · cases quoted.symm.trans found
        exact .inr ⟨set, rfl, rfl⟩
  · rintro ((asks | ⟨set, rfl, rfl⟩) | ⟨set, rfl, rfl⟩)
    · cases asks with
      | perp mem found set => exact .perp (List.mem_append_left _ mem) found set
      | spot asked found set => exact .spot (asksSpot.2 (.inl asked)) found set
    · exact .perp (List.mem_append_right _ List.mem_cons_self) stored set
    · exact .spot (asksSpot.2 (.inr ⟨rfl, rfl⟩)) quoted set

theorem collects_withOracle {asked asked' : Address → Bool → Prop} {oracle : Address}
    {source : Oracle.Source}
    (h : a.oracles.Collects asked fun oracle address => address = oracle)
    (more : ∀ k access, asked' k access ↔ asked k access ∨ OracleOf oracle source k access) :
    (a.withOracle oracle source).oracles.Collects asked' fun oracle address =>
      address = oracle := by
  unfold withOracle
  split
  · rename_i unset
    refine h.congr (fun k access => ?_)
    simp [more, OracleOf, unset]
  · rename_i set
    refine h.insert rfl (fun k access => ?_)
    simp [more, OracleOf, set]

theorem addSpot_holds (h : a.Holds store visits) (added : addSpot store a i w = .ok b) :
    b.Holds store (visits ++ [⟨.spot, i, w⟩]) := by
  obtain ⟨entry, stored, -, rfl⟩ := addSpot_eq_ok_iff.1 added
  refine ⟨?_, ?_, ?_⟩
  · exact collects_withOracle h.oracles (fun _ _ => asksOracle_append_spot stored)
  · rw [withOracle_spot]
    exact h.spot.insert ⟨entry, stored, rfl⟩ (fun _ _ => asksSpot_append_spot)
  · rw [withOracle_perp]
    exact h.perp.congr (by simp)

theorem addPerp_holds (h : a.Holds store visits) (added : addPerp store a i w = .ok b) :
    b.Holds store (visits ++ [⟨.perp, i, w⟩]) := by
  obtain ⟨entry, stored, -, added⟩ := addPerp_eq_ok_iff.1 added
  obtain ⟨quote, quoted, -, rfl⟩ := addSpot_eq_ok_iff.1 added
  refine ⟨?_, ?_, ?_⟩
  · refine collects_withOracle ?_ (fun _ _ => asksOracle_append_perp stored quoted)
    exact collects_withOracle h.oracles (fun _ _ => Iff.rfl)
  · rw [withOracle_spot]
    simp only [withOracle_spot]
    exact h.spot.insert ⟨quote, quoted, rfl⟩ (fun _ _ => asksSpot_append_perp stored)
  · simp only [withOracle_perp]
    exact h.perp.insert ⟨entry, stored, rfl⟩ (by simp)

theorem visit_holds {v : Visit} (h : a.Holds store visits) (visited : visit store a v = .ok b) :
    b.Holds store (visits ++ [v]) := by
  obtain ⟨kind, i, w⟩ := v
  cases kind with
  | perp => exact addPerp_holds h visited
  | spot => exact addSpot_holds h visited

theorem visitAll_cons {v : Visit} : visitAll store a (v :: more) = .ok b ↔
    ∃ c, visit store a v = .ok c ∧ visitAll store c more = .ok b := by
  simp only [visitAll, List.foldlM_cons]
  cases visit store a v <;> simp [bind, Except.bind]

theorem visitAll_holds (h : a.Holds store visits) (visited : visitAll store a more = .ok b) :
    b.Holds store (visits ++ more) := by
  induction more generalizing a visits with
  | nil =>
    obtain rfl : a = b := by simpa [visitAll, pure, Except.pure] using visited
    simpa using h
  | cons v more ih =>
    obtain ⟨c, first, rest⟩ := visitAll_cons.1 visited
    simpa using ih (visit_holds h first) rest

theorem empty_holds : ({} : Attached).Holds store [] := by
  have spot (k : UInt16) (access : Bool) : ¬ AsksSpot store [] k access := by
    rintro (mem | ⟨mem, -⟩) <;> simp at mem
  refine ⟨.empty (fun k access => ?_), .empty spot, .empty (by simp)⟩
  rintro (⟨mem, -, -⟩ | ⟨asked, -, -⟩)
  · simp at mem
  · exact spot _ _ asked

/-! ## When visits succeed -/

/-- All that a visit asks for is stored. -/
def Served (store : Store) : Visit → Prop
  | ⟨.spot, i, _⟩ => ∃ entry, store.spotMarkets.get? i = some entry ∧
      OracleStored store entry.value.oracle
  | ⟨.perp, i, _⟩ => ∃ entry, store.perpMarkets.get? i = some entry ∧
      OracleStored store entry.value.oracle ∧
      ∃ quote, store.spotMarkets.get? entry.value.quoteSpotMarketIndex = some quote ∧
        OracleStored store quote.value.oracle

theorem visit_isOk {v : Visit} : (∃ b, visit store a v = .ok b) ↔ Served store v := by
  obtain ⟨kind, i, w⟩ := v
  cases kind with
  | perp =>
    constructor
    · rintro ⟨b, visited⟩
      obtain ⟨entry, stored, oracle, added⟩ := addPerp_eq_ok_iff.1 visited
      obtain ⟨quote, quoted, oracle', -⟩ := addSpot_eq_ok_iff.1 added
      exact ⟨entry, stored, oracle, quote, quoted, oracle'⟩
    · rintro ⟨entry, stored, oracle, quote, quoted, oracle'⟩
      exact ⟨_, addPerp_eq_ok_iff.2 ⟨entry, stored, oracle,
        addSpot_eq_ok_iff.2 ⟨quote, quoted, oracle', rfl⟩⟩⟩
  | spot =>
    constructor
    · rintro ⟨b, visited⟩
      obtain ⟨entry, stored, oracle, -⟩ := addSpot_eq_ok_iff.1 visited
      exact ⟨entry, stored, oracle⟩
    · rintro ⟨entry, stored, oracle⟩
      exact ⟨_, addSpot_eq_ok_iff.2 ⟨entry, stored, oracle, rfl⟩⟩

theorem visitAll_isOk : (∃ b, visitAll store a visits = .ok b) ↔ ∀ v ∈ visits, Served store v := by
  induction visits generalizing a with
  | nil => simp [visitAll, pure, Except.pure]
  | cons v rest ih =>
    rw [List.forall_mem_cons]
    constructor
    · rintro ⟨b, visited⟩
      obtain ⟨c, first, rest⟩ := visitAll_cons.1 visited
      exact ⟨visit_isOk.1 ⟨c, first⟩, ih.1 ⟨b, rest⟩⟩
    · rintro ⟨first, rest⟩
      obtain ⟨c, first⟩ := visit_isOk (a := a).2 first
      obtain ⟨b, rest⟩ := ih (a := c).2 rest
      exact ⟨b, visitAll_cons.2 ⟨c, first, rest⟩⟩

end Attached

end LedgerWatch
