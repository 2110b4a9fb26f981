import LedgerWatch.Proofs.Attach.Loaded
import LedgerWatch.Proofs.Attach.Trace
import LedgerWatch.Proofs.Store.Noted

/-!
# What a resolution leaves in the store

A resolution that asks for noted markets prunes what is noted of the perp markets before it attaches
them, and then does the same with the spot markets; it can fail before the first pruning, between the
two or after both (`ResolveParams.pruned`). Main statement: `resolve_leaves`. Nothing but stale
entries goes, and resolving again gives the same result and the same store.
-/

namespace LedgerWatch

namespace Slots

variable {s : Slots} {kind : MarketKind} {freshness : UInt64} {kinds : List MarketKind}

/-- Prunes these kinds, one after another. -/
def pruneAll (s : Slots) (kinds : List MarketKind) (freshness : UInt64) : Slots :=
  kinds.foldl (prune freshness) s

theorem of_pruneAll (s : Slots) (kinds : List MarketKind) (freshness : UInt64) (kind : MarketKind) :
    (s.pruneAll kinds freshness).of kind =
      if kind ∈ kinds then (s.of kind).filter (isFresh freshness) else s.of kind := by
  unfold pruneAll
  induction kinds generalizing s with
  | nil => simp
  | cons first rest ih =>
    rw [List.foldl_cons, ih, of_prune]
    by_cases here : first = kind
    · subst here
      simp [Table.filter_idem]
    · simp [here, Ne.symm here]

theorem Distinct.pruneAll (h : s.Distinct) (kinds : List MarketKind) (freshness : UInt64) :
    (s.pruneAll kinds freshness).Distinct := by
  intro kind
  rw [of_pruneAll]
  split
  · exact Table.nodup_filter (h kind) _
  · exact h kind

theorem pruneAll_pruneAll (s : Slots) (kinds : List MarketKind) (freshness : UInt64) :
    (s.pruneAll kinds freshness).pruneAll kinds freshness = s.pruneAll kinds freshness := by
  apply ext_of
  intro kind
  rw [of_pruneAll, of_pruneAll]
  split
  · exact Table.filter_idem _
  · rfl

theorem get?_pruneAll (h : s.Distinct) (i : UInt16) : (s.pruneAll kinds freshness).get? kind i =
    if kind ∈ kinds then (s.get? kind i).filter (freshness < ·) else s.get? kind i := by
  unfold get?
  rw [of_pruneAll]
  split
  · exact Table.get?_filter (h kind) _ i
  · rfl

/-- Pruning leaves the fresh indexes. -/
theorem retainFresh_pruneAll (s : Slots) (kinds : List MarketKind) (freshness : UInt64)
    (kind : MarketKind) : ((s.pruneAll kinds freshness).retainFresh kind freshness).1 =
      (s.retainFresh kind freshness).1 := by
  rw [retainFresh_eq, retainFresh_eq, of_pruneAll]
  split
  · exact congrArg (fun t : Table UInt16 UInt64 => (t.entries.map Prod.fst).mergeSort fun i j => i ≤ j)
      (Table.filter_idem (t := s.of kind) (isFresh freshness))
  · rfl

end Slots

namespace ResolveParams

variable (params : ResolveParams) (store : Store)

/-- The kinds of markets that a resolution comes to prune. -/
def pruned : List MarketKind :=
  match ({} : Attached).visitAll store params.userVisits with
  | .error _ => []
  | .ok a =>
    if params.useSlots then
      match a.visitAll store (params.freshVisits store .perp) with
      | .error _ => [.perp]
      | .ok _ => [.perp, .spot]
    else []

/-- The store with these kinds pruned. -/
def leaves (kinds : List MarketKind) : Store :=
  { store with slots := store.slots.pruneAll kinds (params.freshnessIn store) }

theorem freshVisits_leaves (kinds : List MarketKind) (kind : MarketKind) :
    params.freshVisits (params.leaves store kinds) kind = params.freshVisits store kind := by
  unfold freshVisits
  split
  · exact congrArg (List.map _) (Slots.retainFresh_pruneAll _ _ _ _)
  · rfl

theorem visits_leaves (kinds : List MarketKind) :
    params.visits (params.leaves store kinds) = params.visits store := by
  simp only [visits, freshVisits_leaves]

theorem pruned_leaves (kinds : List MarketKind) :
    params.pruned (params.leaves store kinds) = params.pruned store := by
  unfold pruned
  simp only [freshVisits_leaves]
  rfl

theorem resolve_leaves_pruned (distinct : store.slots.Distinct) :
    (resolve params store).2 = params.leaves store (params.pruned store) := by
  unfold resolve attachFresh pruned freshVisits
  cases ({} : Attached).visitAll store params.userVisits with
  | error missing => rfl
  | ok a =>
    by_cases use : params.useSlots = true
    · simp only [use, if_true, Slots.retainFresh_eq_prune distinct, Attached.visitAll_slots]
      cases a.visitAll store ((store.slots.retainFresh .perp (params.freshnessIn store)).1.map
          fun i => ⟨.perp, i, false⟩) with
      | error missing => rfl
      | ok b =>
        dsimp only
        rw [Slots.retainFresh_eq_prune (distinct.prune _ _)]
        -- Whether the spot markets attach or not, both kinds are pruned by then.
        split
        · rename_i same
          cases (Prod.mk.inj same).2
          rfl
        · rename_i same
          cases (Prod.mk.inj same).2
          rfl
    · simp only [use]
      rfl

/-- Resolving again takes the same course, and finds nothing left to prune. -/
theorem resolve_again (distinct : store.slots.Distinct) :
    resolve params (resolve params store).2 = resolve params store := by
  let after := params.leaves store (params.pruned store)
  have left : (resolve params store).2 = after := resolve_leaves_pruned params store distinct
  have result : (resolve params after).1 = (resolve params store).1 := by
    rw [resolve_eq, resolve_eq, visits_leaves]
    rfl
  have stays : (resolve params after).2 = after := by
    rw [resolve_leaves_pruned params after (distinct.pruneAll _ _), pruned_leaves]
    exact congrArg (fun slots => { store with slots }) (Slots.pruneAll_pruneAll _ _ _)
  rw [left]
  exact Prod.ext result (stays.trans left.symm)

/-- A resolution that succeeds with the noted markets has pruned both kinds. -/
theorem pruned_of_ok {accounts : List AccountMeta} (use : params.useSlots = true)
    (resolved : (resolve params store).1 = .ok accounts) :
    params.pruned store = [.perp, .spot] := by
  rw [resolve_eq, visits, Attached.visitAll_append, Attached.visitAll_append,
    Attached.visitAll_append] at resolved
  unfold pruned
  cases users : ({} : Attached).visitAll store params.userVisits with
  | error missing => simp [users, Except.bind, Except.map] at resolved
  | ok a =>
    cases perps : a.visitAll store (params.freshVisits store .perp) with
    | error missing => simp [users, perps, Except.bind, Except.map] at resolved
    | ok b => simp [use, perps]

theorem freshnessIn_eq : params.freshnessIn store = params.freshness.getD
    ((params.users.head?.bind fun user => store.get? (.user user.key)).elim 0 Stamped.slot) := by
  unfold freshnessIn
  cases params.freshness with
  | some slot => rfl
  | none =>
    cases params.users.head? with
    | none => rfl
    | some user =>
      simp only [Option.bind_some, Store.get?]
      cases store.users.get? user.key <;> rfl

end ResolveParams

/-- A resolution changes no record, and of what is noted it removes stale entries only: none at all
unless it was asked for noted markets, and every stale one of both kinds if it was and succeeds. An
entry is fresh if it was noted after the given slot, or without one after the slot at which the first
user is stored, or else after 0. Resolving again at once gives the same accounts or the same missing
subject, and leaves the store as it is. -/
theorem resolve_leaves (params : ResolveParams) (store : Store) (distinct : store.slots.Distinct) :
    let freshness := params.freshness.getD
      ((params.users.head?.bind fun user => store.get? (.user user.key)).elim 0 Stamped.slot)
    let result := (resolve params store).1
    let after := (resolve params store).2
    (∃ slots, after = { store with slots } ∧ slots.Distinct) ∧
    (∀ kind i slot, after.slots.get? kind i = some slot → store.slots.get? kind i = some slot) ∧
    (∀ kind i slot, store.slots.get? kind i = some slot → freshness < slot →
      after.slots.get? kind i = some slot) ∧
    (params.useSlots = false → after = store) ∧
    (params.useSlots = true → ∀ accounts, result = .ok accounts → ∀ kind i slot,
      after.slots.get? kind i = some slot ↔
        store.slots.get? kind i = some slot ∧ freshness < slot) ∧
    (∀ missing, result = .error missing → ∀ kind i slot, store.slots.get? kind i = some slot →
      after.slots.get? kind i = none → slot ≤ freshness) ∧
    resolve params after = (result, after) := by
  intro freshness result after
  have fresh : params.freshnessIn store = freshness := params.freshnessIn_eq store
  have left : after = params.leaves store (params.pruned store) :=
    params.resolve_leaves_pruned store distinct
  have noted (kind : MarketKind) (i : UInt16) : after.slots.get? kind i =
      if kind ∈ params.pruned store then (store.slots.get? kind i).filter (freshness < ·)
      else store.slots.get? kind i := by
    rw [left, ← fresh]
    exact Slots.get?_pruneAll distinct i
  have stays {kind : MarketKind} {i : UInt16} {slot : UInt64}
      (held : store.slots.get? kind i = some slot) (above : freshness < slot) :
      after.slots.get? kind i = some slot := by
    rw [noted]
    split
    · exact Option.filter_eq_some_iff.2 ⟨held, decide_eq_true above⟩
    · exact held
  refine ⟨⟨_, left, distinct.pruneAll _ _⟩, ?_, fun _ _ _ => stays, ?_, ?_, ?_,
    params.resolve_again store distinct⟩
  · intro kind i slot held
    rw [noted] at held
    split at held
    · exact (Option.filter_eq_some_iff.1 held).1
    · exact held
  · intro unused
    have untouched : params.pruned store = [] := by
      unfold ResolveParams.pruned
      split
      · rfl
      · simp [unused]
    rw [left, untouched]
    rfl
  · intro use accounts resolved kind i slot
    rw [noted, params.pruned_of_ok store use resolved, if_pos (by cases kind <;> simp),
      Option.filter_eq_some_iff, decide_eq_true_iff]
  · intro missing _ kind i slot held gone
    apply UInt64.not_lt.1
    intro above
    rw [stays held above] at gone
    cases gone

/-- The quote market was noted late, another spot market and a perp market early. -/
def notedStore : Store where
  spotMarkets := ⟨[(0, ⟨Snapshot.quoteMarket, 1⟩)]⟩
  slots := ⟨⟨[(2, 3)]⟩, ⟨[(0, 9), (6, 1)]⟩⟩

def sinceFive : ResolveParams := { useSlots := true, freshness := some 5 }

theorem resolve_leaves_noted :
    notedStore.slots.Distinct ∧
    (resolve sinceFive notedStore).1 = .ok [{ address := plain 2, writable := false }] ∧
    (resolve sinceFive notedStore).2.slots.get? .spot 0 = some 9 ∧
    ¬(resolve sinceFive notedStore).2.slots.get? .spot 6 = some 1 ∧
    resolve sinceFive (resolve sinceFive notedStore).2 = resolve sinceFive notedStore := by
  have distinct : notedStore.slots.Distinct := by
    intro kind
    cases kind <;> decide
  have resolved : (resolve sinceFive notedStore).1 =
      .ok [{ address := plain 2, writable := false }] := by
    decide +kernel
  obtain ⟨-, -, -, -, exact, -, again⟩ := resolve_leaves sinceFive notedStore distinct
  have left := exact rfl _ resolved
  refine ⟨distinct, resolved, (left .spot 0 9).2 (by decide), ?_, again⟩
  intro stays
  exact absurd ((left .spot 6 1).1 stays).2 (by decide)

end LedgerWatch
