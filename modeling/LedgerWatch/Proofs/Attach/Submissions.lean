import LedgerWatch.Proofs.Attach.Pruning
import Mathlib.Data.List.Perm.Basic

/-!
# Markets of recent submissions

A client notes the slot at which a submission landed for each market that it wrote, and keeps the
highest (`Slots.highest_recordAll`). Resolving since a slot attaches and keeps what was noted after it
(`recorded_since_kept`). Since slot 0 that is not all that was noted: a market that was written at
slot 0 and never later is neither attached nor kept (`zero_slot_dropped`).
-/

namespace LedgerWatch

/-- A submission that landed, and the markets that it wrote. -/
structure Submission where
  perp : List UInt16
  spot : List UInt16
  slot : UInt64

/-- A submission of the history wrote the market at this slot. -/
def Recorded (history : List Submission) (kind : MarketKind) (i : UInt16) (slot : UInt64) : Prop :=
  ∃ submission ∈ history,
    i ∈ Slots.indexes submission.perp submission.spot kind ∧ submission.slot = slot

section History

variable {history : List Submission} {last : Submission} {kind : MarketKind} {i : UInt16}
  {slot : UInt64}

theorem recorded_concat : Recorded (history ++ [last]) kind i slot ↔
    Recorded history kind i slot ∨ i ∈ Slots.indexes last.perp last.spot kind ∧ last.slot = slot := by
  simp [Recorded, or_and_right, exists_or]

theorem recorded_filter (keep : UInt64 → Bool) :
    Recorded (history.filter fun s => keep s.slot) kind i slot ↔
      Recorded history kind i slot ∧ keep slot = true := by
  unfold Recorded
  constructor
  · rintro ⟨s, mem, wrote, rfl⟩
    obtain ⟨mem, kept⟩ := List.mem_filter.1 mem
    exact ⟨⟨s, mem, wrote, rfl⟩, kept⟩
  · rintro ⟨⟨s, mem, wrote, rfl⟩, kept⟩
    exact ⟨s, List.mem_filter.2 ⟨mem, kept⟩, wrote, rfl⟩

end History

namespace Slots

/-- Notes the submissions in the order in which they landed. -/
def recordAll (s : Slots) (history : List Submission) : Slots :=
  history.foldl (fun s submission => s.record submission.perp submission.spot submission.slot) s

theorem recordAll_concat (s : Slots) (history : List Submission) (last : Submission) :
    s.recordAll (history ++ [last]) = (s.recordAll history).record last.perp last.spot last.slot :=
  List.foldl_append

theorem distinct_recordAll (history : List Submission) :
    (({} : Slots).recordAll history).Distinct := by
  induction history using List.reverseRecOn with
  | nil => exact distinct_empty
  | append_singleton history last ih =>
    rw [recordAll_concat]
    exact ih.record _ _ _

/-- What is noted of a market is the highest slot at which it was written. -/
theorem highest_recordAll (history : List Submission) (kind : MarketKind) (i : UInt16) :
    Highest (Recorded history kind i) ((({} : Slots).recordAll history).get? kind i) := by
  induction history using List.reverseRecOn with
  | nil =>
    rw [recordAll, List.foldl_nil, get?_empty]
    apply Highest.nothing
    simp [Recorded]
  | append_singleton history last ih =>
    rw [recordAll_concat, get?_record]
    by_cases wrote : i ∈ indexes last.perp last.spot kind
    · rw [if_pos wrote]
      apply (ih.raise last.slot).congr
      intro slot
      rw [recorded_concat, and_iff_right wrote, or_comm, eq_comm]
    · rw [if_neg wrote]
      apply ih.congr
      intro slot
      rw [recorded_concat, or_iff_left (wrote ∘ And.left)]

theorem get?_recordAll {history : List Submission} {kind : MarketKind} {i : UInt16}
    {slot : UInt64} : (({} : Slots).recordAll history).get? kind i = some slot ↔
      Recorded history kind i slot ∧ ∀ other, Recorded history kind i other → other ≤ slot :=
  (highest_recordAll history kind i).eq_some_iff

/-- A market is fresh if a submission after the freshness slot wrote it. -/
theorem fresh_recordAll {history : List Submission} {kind : MarketKind} {i : UInt16}
    {freshness : UInt64} :
    (∃ n, (({} : Slots).recordAll history).get? kind i = some n ∧ freshness < n) ↔
      ∃ slot, Recorded history kind i slot ∧ freshness < slot :=
  (highest_recordAll history kind i).exists_above_iff

end Slots

namespace Client

/-- Notes the submissions in the order in which they landed. -/
def recordAll (c : Client) (history : List Submission) : Client :=
  history.foldl (fun c s => c.recordMarketSlots s.perp s.spot s.slot) c

theorem store_recordAll (c : Client) (history : List Submission) :
    (c.recordAll history).store =
      { c.store with slots := c.store.slots.recordAll history } := by
  induction history using List.reverseRecOn with
  | nil => rfl
  | append_singleton history last ih =>
    have step : (c.recordAll (history ++ [last])).store =
        { (c.recordAll history).store with
          slots := (c.recordAll history).store.slots.record last.perp last.spot last.slot } := by
      unfold recordAll
      rw [List.foldl_append]
      rfl
    rw [step, ih, Slots.recordAll_concat]

end Client

/-! ## Resolving for all that is noted -/

/-- The address under which the store has a market. -/
def Store.marketAddress? (s : Store) : MarketKind → UInt16 → Option Address
  | .perp, i => (s.perpMarkets.get? i).map (·.value.pubkey)
  | .spot, i => (s.spotMarkets.get? i).map (·.value.pubkey)

theorem AccountMap.mem_toList {κ : Type} [DecidableEq κ] {m : AccountMap κ} {k : κ}
    {account : AccountMeta} (held : m.get? k = some account) : account ∈ m.toList := by
  obtain ⟨position, -, stands⟩ := Option.bind_eq_some_iff.1 held
  exact List.mem_of_getElem? stands

/-- A market that was visited is attached. -/
theorem Attached.Holds.visited {store : Store} {visits : List Visit} {a : Attached}
    (holds : a.Holds store visits) {kind : MarketKind} {i : UInt16} {writable : Bool}
    (mem : ⟨kind, i, writable⟩ ∈ visits) :
    ∃ account ∈ a.toList, store.marketAddress? kind i = some account.address := by
  cases kind with
  | perp =>
    obtain ⟨account, held⟩ := (holds.perp.held i).2 ⟨writable, mem⟩
    obtain ⟨⟨entry, stored, address⟩, -⟩ := holds.perp.account i account held
    refine ⟨account, List.mem_append_right _ (AccountMap.mem_toList held), ?_⟩
    simp [Store.marketAddress?, stored, address]
  | spot =>
    obtain ⟨account, held⟩ := (holds.spot.held i).2 ⟨writable, .visit mem⟩
    obtain ⟨⟨entry, stored, address⟩, -⟩ := holds.spot.account i account held
    refine ⟨account, List.mem_append_left _ (List.mem_append_right _ (AccountMap.mem_toList held)), ?_⟩
    simp [Store.marketAddress?, stored, address]

/-- The store after a history, when nothing was noted before. -/
def Store.after (store : Store) (history : List Submission) : Store :=
  { store with slots := ({} : Slots).recordAll history }

namespace ResolveParams

variable {params : ResolveParams} {since : UInt64}

theorem freshnessIn_of_some (given : params.freshness = some since) (store : Store) :
    params.freshnessIn store = since := by
  unfold freshnessIn
  rw [given]

theorem fresh_after (use : params.useSlots = true) (given : params.freshness = some since)
    (store : Store) {history : List Submission} {kind : MarketKind} {i : UInt16} :
    params.Fresh (store.after history) kind i ↔
      ∃ slot, Recorded history kind i slot ∧ since < slot := by
  rw [← Slots.fresh_recordAll, ← Slots.mem_retainFresh_iff (Slots.distinct_recordAll history),
    Slots.mem_retainFresh]
  simp only [Fresh, use, true_and, freshnessIn_of_some given]
  rfl

/-- Submissions up to the freshness slot ask for nothing. -/
theorem visits_after_filter (given : params.freshness = some since) (store : Store)
    (history : List Submission) :
    params.visits (store.after (history.filter fun s => since < s.slot)) =
      params.visits (store.after history) := by
  have same (kind : MarketKind) :
      params.freshVisits (store.after (history.filter fun s => since < s.slot)) kind =
        params.freshVisits (store.after history) kind := by
    unfold freshVisits
    rw [freshnessIn_of_some given, freshnessIn_of_some given]
    congr 2
    apply Slots.retainFresh_congr (Slots.distinct_recordAll _) (Slots.distinct_recordAll _)
    intro i
    rw [Slots.fresh_recordAll, Slots.fresh_recordAll]
    simp [recorded_filter fun slot => since < slot]
  simp only [visits, same]

/-- If every recorded market and all else that is asked for is held, no visit fails. -/
theorem served_after {store : Store} {history : List Submission} (use : params.useSlots = true)
    (given : params.freshness = some since)
    (held : ∀ kind i slot, Recorded history kind i slot → Attached.Served store ⟨kind, i, false⟩)
    (asked : ∀ v ∈ params.userVisits ++ params.overrideVisits, Attached.Served store v) :
    ∀ v ∈ params.visits (store.after history), Attached.Served store v := by
  intro v mem
  have fresh {kind : MarketKind} (mem : v ∈ params.freshVisits (store.after history) kind) :
      Attached.Served store v := by
    obtain ⟨kind', i, writable⟩ := v
    obtain ⟨rfl, rfl, fresh⟩ := mem_freshVisits.1 mem
    obtain ⟨slot, recorded, -⟩ := (fresh_after use given store).1 fresh
    exact held _ i slot recorded
  rcases mem_visits.1 mem with user | perp | spot | override
  · exact asked v (List.mem_append_left _ user)
  · exact fresh perp
  · exact fresh spot
  · exact asked v (List.mem_append_right _ override)

/-- A fresh market is visited. -/
theorem mem_visits_after (use : params.useSlots = true) (given : params.freshness = some since)
    (store : Store) {history : List Submission} {kind : MarketKind} {i : UInt16} {slot : UInt64}
    (recorded : Recorded history kind i slot) (above : since < slot) :
    ⟨kind, i, false⟩ ∈ params.visits (store.after history) := by
  have fresh := (fresh_after use given store).2 ⟨slot, recorded, above⟩
  have listed : ⟨kind, i, false⟩ ∈ params.freshVisits (store.after history) kind :=
    mem_freshVisits.2 ⟨rfl, rfl, fresh⟩
  apply mem_visits.2
  cases kind with
  | perp => exact .inr (.inl listed)
  | spot => exact .inr (.inr (.inl listed))

theorem resolve_after {store : Store} {history : List Submission} {visits : List Visit}
    {a : Attached} (same : params.visits (store.after history) = visits)
    (visited : ({} : Attached).visitAll store visits = .ok a) :
    (resolve params (store.after history)).1 = .ok a.toList := by
  have visited' : ({} : Attached).visitAll (store.after history)
      (params.visits (store.after history)) = .ok a := by
    rw [same]
    exact visited
  rw [resolve_eq, visited']
  rfl

/-- What is noted after a resolution that succeeds is what was noted above the freshness slot. -/
theorem noted_after_resolve {store : Store} {history : List Submission}
    {accounts : List AccountMeta} (use : params.useSlots = true)
    (given : params.freshness = some since)
    (resolved : (resolve params (store.after history)).1 = .ok accounts) (kind : MarketKind)
    (i : UInt16) : (resolve params (store.after history)).2.slots.get? kind i =
      ((({} : Slots).recordAll history).get? kind i).filter (since < ·) := by
  have distinct := Slots.distinct_recordAll history
  rw [params.resolve_leaves_pruned _ distinct, params.pruned_of_ok _ use resolved, leaves,
    freshnessIn_of_some given]
  have both : kind ∈ [MarketKind.perp, MarketKind.spot] := by
    cases kind <;> simp
  exact (Slots.get?_pruneAll distinct i).trans (if_pos both)

end ResolveParams

/-- Resolving for the markets noted since a slot, when nothing was noted before a history of
submissions and all that is asked for is held. The result has an account for each market that was
written after the slot, and what is noted of it stays. Whatever was written up to the slot is as if
it had never been noted, and nothing of it stays. -/
theorem recorded_since_kept (c : Client) (history : List Submission) (params : ResolveParams)
    (since : UInt64) (unnoted : c.store.slots = {}) (use : params.useSlots = true)
    (given : params.freshness = some since)
    (held : ∀ kind i slot, Recorded history kind i slot → Attached.Served c.store ⟨kind, i, false⟩)
    (asked : ∀ v ∈ params.userVisits ++ params.overrideVisits, Attached.Served c.store v) :
    ∃ accounts after,
      (c.recordAll history).remainingAccounts params = (.ok accounts, after) ∧
      ((c.recordAll (history.filter fun s => since < s.slot)).remainingAccounts params).1 =
        .ok accounts ∧
      (∀ kind i slot, Recorded history kind i slot → since < slot →
        ∃ account ∈ accounts, c.store.marketAddress? kind i = some account.address) ∧
      ∀ kind i slot, after.store.slots.get? kind i = some slot ↔
        Recorded history kind i slot ∧ since < slot ∧
          ∀ other, Recorded history kind i other → other ≤ slot := by
  have store (history : List Submission) : (c.recordAll history).store = c.store.after history := by
    rw [Client.store_recordAll, unnoted]
    rfl
  obtain ⟨a, visited⟩ := Attached.visitAll_isOk (a := {}).2
    (ResolveParams.served_after use given held asked)
  have resolved := ResolveParams.resolve_after rfl visited
  let after := (c.recordAll history).withStore (resolve params (c.store.after history)).2
  refine ⟨a.toList, after, ?_, ?_, ?_, ?_⟩
  · unfold Client.remainingAccounts
    rw [store]
    exact Prod.ext (congrArg (Except.mapError Failure.missingDependency) resolved) rfl
  · unfold Client.remainingAccounts
    rw [store]
    exact congrArg (Except.mapError Failure.missingDependency)
      (ResolveParams.resolve_after (ResolveParams.visits_after_filter given _ _) visited)
  · intro kind i slot recorded above
    have holds := Attached.visitAll_holds Attached.empty_holds visited
    exact holds.visited (ResolveParams.mem_visits_after use given c.store recorded above)
  · intro kind i slot
    have noted : after.store.slots.get? kind i =
        ((({} : Slots).recordAll history).get? kind i).filter (since < ·) :=
      ResolveParams.noted_after_resolve use given resolved kind i
    rw [noted, Option.filter_eq_some_iff, Slots.get?_recordAll, decide_eq_true_iff]
    constructor
    · intro ⟨⟨recorded, highest⟩, above⟩
      exact ⟨recorded, above, highest⟩
    · intro ⟨recorded, above, highest⟩
      exact ⟨⟨recorded, highest⟩, above⟩

/-- A client that holds a perp market, with no oracle, and its quote market. -/
def quotedClient : Client where
  program := Address.unset
  authority := Address.unset
  supervisor := {
    store := {
      perpMarkets := ⟨[(1, ⟨{ feedMarket 1 .quoteAsset with oracle := Address.unset }, 1⟩)]⟩
      spotMarkets := ⟨[(0, ⟨Snapshot.quoteMarket, 1⟩)]⟩ } }

def sinceZero : ResolveParams := { useSlots := true, freshness := some 0 }

theorem quotedClient_serves : Attached.Served quotedClient.store ⟨.perp, 1, false⟩ :=
  ⟨_, rfl, .inl rfl, _, rfl, .inl rfl⟩

/-- What was noted at slot 0 is there, is not attached since slot 0, and is dropped. -/
theorem zero_slot_dropped :
    let told := quotedClient.recordAll [⟨[1], [], 0⟩]
    Attached.Served told.store ⟨.perp, 1, false⟩ ∧ told.store.slots.get? .perp 1 = some 0 ∧
      (told.remainingAccounts sinceZero).1 = .ok [] ∧
      (told.remainingAccounts sinceZero).2.store.slots.get? .perp 1 = none :=
  ⟨quotedClient_serves, by decide, rfl, by decide⟩

/-- The perp market at slot 0, the spot market at slot 0 and again later. -/
def writtenTwice : List Submission := [⟨[1], [0], 0⟩, ⟨[], [0], 4⟩]

theorem recorded_since_kept_zero :
    quotedClient.store.slots = {} ∧
    (∀ kind i slot, Recorded writtenTwice kind i slot →
      Attached.Served quotedClient.store ⟨kind, i, false⟩) ∧
    ∃ accounts after,
      (quotedClient.recordAll writtenTwice).remainingAccounts sinceZero = (.ok accounts, after) ∧
      (∃ account ∈ accounts, account.address = plain 2) ∧
      after.store.slots.get? .spot 0 = some 4 ∧ ¬after.store.slots.get? .perp 1 = some 0 := by
  have held (kind : MarketKind) (i : UInt16) (slot : UInt64)
      (recorded : Recorded writtenTwice kind i slot) :
      Attached.Served quotedClient.store ⟨kind, i, false⟩ := by
    cases kind with
    | perp =>
      obtain ⟨rfl, -⟩ : i = 1 ∧ 0 = slot := by
        simpa [Recorded, writtenTwice, Slots.indexes] using recorded
      exact quotedClient_serves
    | spot =>
      obtain ⟨rfl, -⟩ | ⟨rfl, -⟩ : i = 0 ∧ 0 = slot ∨ i = 0 ∧ 4 = slot := by
        simpa [Recorded, writtenTwice, Slots.indexes] using recorded
      all_goals exact ⟨_, rfl, .inl rfl⟩
  obtain ⟨accounts, after, resolved, -, attached, kept⟩ := recorded_since_kept quotedClient
    writtenTwice sinceZero 0 rfl rfl rfl held (by simp [sinceZero, ResolveParams.userVisits,
      ResolveParams.overrideVisits])
  have spot : Recorded writtenTwice .spot 0 4 := by
    simp [Recorded, writtenTwice, Slots.indexes]
  refine ⟨rfl, held, accounts, after, resolved, ?_, (kept .spot 0 4).2 ⟨spot, by decide, ?_⟩, ?_⟩
  · obtain ⟨account, mem, address⟩ := attached .spot 0 4 spot (by decide)
    exact ⟨account, mem, (Option.some.inj address).symm⟩
  · intro other recorded
    obtain rfl | rfl : 0 = other ∨ 4 = other := by
      simpa [Recorded, writtenTwice, Slots.indexes] using recorded
    all_goals decide
  · intro stays
    exact absurd ((kept .perp 1 0).1 stays).2.1 (by decide)

end LedgerWatch
