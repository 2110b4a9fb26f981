import LedgerWatch.Proofs.History
import LedgerWatch.Store
import Mathlib.Data.List.Induction

/-!
# The last writer of a key

A store that began empty is a function of the edits made to it, puts of records and removals of
users, and for each key only the last edit that concerns it counts. `replay_lastWriterWins` says
so of `get?`, and of every other way to ask a store: the getters of one record, the lists of
markets, and the market last put under an address. The unset oracle address stands apart: what is
put there is kept but never shown.
-/

namespace LedgerWatch

namespace RecordKey

/-- The key without the source of an oracle, which says only how to read the account. -/
def bare : RecordKey → RecordKey
  | oracle address _ => oracle address default
  | key => key

def market : MarketKind → UInt16 → RecordKey
  | .perp, index => perpMarket index
  | .spot, index => spotMarket index

end RecordKey

/-- The kind and index of a market's record. -/
def Record.market? : Record → Option (MarketKind × UInt16)
  | perpMarket m => some (.perp, m.marketIndex)
  | spotMarket m => some (.spot, m.marketIndex)
  | _ => none

namespace Store

inductive Edit
  | put (address : Address) (record : Record) (slot : UInt64)
  | removeUser (key : UserKey)

def edit (s : Store) : Edit → Store
  | .put address record slot => s.put address record slot
  | .removeUser key => (s.removeUser key).2

/-- The store after these edits of an empty one. -/
def replay (edits : List Edit) : Store := edits.foldl edit {}

namespace Edit

/-- What is held for the key is up to this edit, unless a later one concerns the key too. -/
def Concerns (key : RecordKey) : Edit → Prop
  | put address record _ => record.key address = key.bare
  | removeUser user => key = .user user

/-- A market's record is put under the address. -/
def PutsMarket (address : Address) : Edit → Prop
  | put at_ record _ => at_ = address ∧ record.market?.isSome = true
  | removeUser _ => False

end Edit

/-- The last of the edits that matter. -/
def LastOf (matters : Edit → Prop) (edits : List Edit) (e : Edit) : Prop :=
  ∃ before after, edits = before ++ e :: after ∧ matters e ∧ ∀ later ∈ after, ¬ matters later

variable {matters : Edit → Prop} {edits : List Edit} {e last : Edit}

theorem not_lastOf_nil : ¬ LastOf matters [] last := by
  rintro ⟨before, after, eq, -⟩
  simp at eq

theorem lastOf_concat_of (new : matters e) : LastOf matters (edits ++ [e]) last ↔ last = e := by
  constructor
  · rintro ⟨before, after, split, -, none⟩
    obtain ⟨-, same, -⟩ | ⟨between, rfl, -⟩ := History.concat_eq_append_cons_iff.1 split
    · exact same.symm
    · exact absurd new (none e (by simp))
  · rintro rfl
    exact ⟨edits, [], rfl, new, nofun⟩

theorem lastOf_concat_of_not (idle : ¬ matters e) :
    LastOf matters (edits ++ [e]) last ↔ LastOf matters edits last := by
  constructor
  · intro ⟨before, after, split, matter, idleAfter⟩
    obtain ⟨-, rfl, -⟩ | ⟨between, rfl, rfl⟩ := History.concat_eq_append_cons_iff.1 split
    · exact absurd matter idle
    · refine ⟨before, between, rfl, matter, ?_⟩
      intro later mem
      exact idleAfter later (List.mem_append_left _ mem)
  · intro ⟨before, after, split, matter, idleAfter⟩
    subst split
    refine ⟨before, after ++ [e], by simp, matter, ?_⟩
    intro later mem
    cases List.mem_append.1 mem with
    | inl mem => exact idleAfter later mem
    | inr mem => exact List.mem_singleton.1 mem ▸ idle

theorem replay_concat (edits : List Edit) (e : Edit) :
    replay (edits ++ [e]) = (replay edits).edit e :=
  List.foldl_append

/-! ## What one edit leaves -/

variable {s : Store} {key : RecordKey}

theorem get?_put (shown : key.isQuote = false) (s : Store) (address : Address) (record : Record)
    (slot : UInt64) : (s.put address record slot).get? key =
      if record.key address = key.bare then some ⟨record, slot⟩ else s.get? key := by
  cases key with
  | oracle at_ source =>
    have set : at_ ≠ Address.unset := by simpa [RecordKey.isQuote] using shown
    cases record with
    | oracle price =>
      simp only [get?, oracle?, if_neg set, put, Table.get?_insert, Record.key, RecordKey.bare,
        RecordKey.oracle.injEq, and_true]
      split <;> rfl
    | _ => simp [get?, oracle?, put, Record.key, RecordKey.bare]
  | perpMarket index | spotMarket index | user user =>
    cases record <;> simp only [get?, put, Table.get?_insert, Record.key, RecordKey.bare,
      RecordKey.perpMarket.injEq, RecordKey.spotMarket.injEq, RecordKey.user.injEq, reduceCtorEq,
      if_false]
    split <;> rfl
  | state => cases record <;> simp [get?, put, Record.key, RecordKey.bare, Stamped.map]

theorem get?_removeUser (s : Store) (user : UserKey) (key : RecordKey) :
    (s.removeUser user).2.get? key = if key = .user user then none else s.get? key := by
  cases key with
  | user other =>
    simp only [get?, removeUser, Table.get?_erase, RecordKey.user.injEq, eq_comm (a := user)]
    split <;> rfl
  | _ => simp [get?, removeUser, oracle?]

theorem get?_quote (s : Store) (source : Oracle.Source) :
    s.get? (.oracle Address.unset source) = some ⟨.oracle Oracle.quotePrice, 0⟩ := by
  simp [get?, oracle?, Stamped.map]

theorem get?_empty (shown : key.isQuote = false) : ({} : Store).get? key = none := by
  cases key with
  | oracle address source =>
    have set : address ≠ Address.unset := by simpa [RecordKey.isQuote] using shown
    simp [get?, oracle?, set, Table.get?, Table.find]
  | _ => rfl

theorem get?_replay (shown : key.isQuote = false) (edits : List Edit) (entry : Stamped Record) :
    (replay edits).get? key = some entry ↔
      ∃ address, LastOf (Edit.Concerns key) edits (.put address entry.value entry.slot) := by
  induction edits using List.reverseRecOn with
  | nil => simp [replay, get?_empty shown, not_lastOf_nil]
  | append_singleton edits e ih =>
    rw [replay_concat]
    by_cases concerns : e.Concerns key
    · simp only [lastOf_concat_of concerns]
      cases e with
      | put address record slot =>
        have concerns : record.key address = key.bare := concerns
        rw [edit, get?_put shown, if_pos concerns]
        constructor
        · rintro ⟨⟩
          exact ⟨address, rfl⟩
        · rintro ⟨_, same⟩
          cases same
          rfl
      | removeUser user =>
        have concerns : key = .user user := concerns
        simp [edit, get?_removeUser, concerns]
    · simp only [lastOf_concat_of_not concerns]
      rw [← ih]
      cases e with
      | put address record slot =>
        have apart : record.key address ≠ key.bare := concerns
        rw [edit, get?_put shown, if_neg apart]
      | removeUser user =>
        have apart : key ≠ .user user := concerns
        rw [edit, get?_removeUser, if_neg apart]

/-! ## Tables of markets -/

/-- Each market stands under its own index, and no index twice. -/
structure Indexed {M : Type} (index : M → UInt16) (t : Table UInt16 (Stamped M)) : Prop where
  nodup : t.keys.Nodup
  own : ∀ entry ∈ t.entries, index entry.2.value = entry.1

section Indexed

variable {M : Type} {index : M → UInt16} {t : Table UInt16 (Stamped M)}

theorem Indexed.insert (h : Indexed index t) (m : M) (slot : UInt64) :
    Indexed index (t.insert (index m) ⟨m, slot⟩) where
  nodup := Table.nodup_keys_insert h.nodup _ _
  own entry mem := by
    rcases Table.mem_entries_insert mem with rfl | mem
    · rfl
    · exact h.own entry mem

/-- The markets of a table, as the store lists them. -/
def listed (index : M → UInt16) (t : Table UInt16 (Stamped M)) : List M :=
  sortBy (fun a b => index a < index b) (t.values.map Stamped.value)

theorem Indexed.mem_listed (h : Indexed index t) {m : M} :
    m ∈ listed index t ↔ ∃ slot, t.get? (index m) = some ⟨m, slot⟩ := by
  rw [listed, mem_sortBy]
  simp only [Table.values, List.map_map, List.mem_map, Function.comp_apply]
  constructor
  · rintro ⟨⟨i, entry⟩, mem, rfl⟩
    obtain rfl : index entry.value = i := h.own _ mem
    exact ⟨entry.slot, Table.get?_of_mem h.nodup mem⟩
  · rintro ⟨slot, found⟩
    exact ⟨_, Table.mem_of_get? found, rfl⟩

theorem Indexed.pairwise_listed (h : Indexed index t) :
    ((listed index t).map index).Pairwise (· < ·) := by
  have keys : (t.values.map Stamped.value).map index = t.keys := by
    simp only [Table.values, Table.keys, List.map_map]
    exact List.map_congr_left h.own
  rw [List.pairwise_map]
  refine (pairwise_sortBy ?_ ?_).imp of_decide_eq_true
  · intro a b c ab bc
    exact decide_eq_true (UInt16.lt_trans (of_decide_eq_true ab) (of_decide_eq_true bc))
  · have apart : ((t.values.map Stamped.value).map index).Nodup := keys ▸ h.nodup
    refine (List.pairwise_map.1 apart).imp fun ne => ?_
    simpa using UInt16.lt_or_lt_of_ne ne

end Indexed

/-! ## What holds after any edits -/

/-- What the tables of a store keep to. -/
structure Consistent (s : Store) : Prop where
  perp : Indexed PerpMarket.marketIndex s.perpMarkets
  spot : Indexed SpotMarket.marketIndex s.spotMarkets
  cached : ∀ address kind index, s.marketAt.get? address = some (kind, index) →
    ∃ entry, s.get? (.market kind index) = some entry

theorem Consistent.edit (h : s.Consistent) (e : Edit) : (s.edit e).Consistent := by
  -- Markets stay once they are held, so that an address goes on naming one.
  have stays {kind : MarketKind} {index : UInt16} (held : ∃ entry, s.get? (.market kind index) =
      some entry) : ∃ entry, (s.edit e).get? (.market kind index) = some entry := by
    cases e with
    | put address record slot =>
      rw [Store.edit, get?_put (by cases kind <;> rfl)]
      split
      · exact ⟨_, rfl⟩
      · exact held
    | removeUser user =>
      rw [Store.edit, get?_removeUser, if_neg (by cases kind <;> simp [RecordKey.market])]
      exact held
  cases e with
  | removeUser user => exact ⟨h.perp, h.spot, fun a k i named => stays (h.cached a k i named)⟩
  | put address record slot =>
    have named {kind : MarketKind} {index : UInt16} (is : record.market? = some (kind, index)) :
        ∃ entry, (s.edit (.put address record slot)).get? (.market kind index) = some entry := by
      rw [Store.edit, get?_put (by cases kind <;> rfl), if_pos]
      · exact ⟨_, rfl⟩
      · cases record with
        | perpMarket m | spotMarket m =>
          cases is
          rfl
        | _ => cases is
    cases record with
    | perpMarket m =>
      refine ⟨h.perp.insert m slot, h.spot, fun a k i found => ?_⟩
      rw [Store.edit, put, Table.get?_insert] at found
      split at found
      · exact named found
      · exact stays (h.cached a k i found)
    | spotMarket m =>
      refine ⟨h.perp, h.spot.insert m slot, fun a k i found => ?_⟩
      rw [Store.edit, put, Table.get?_insert] at found
      split at found
      · exact named found
      · exact stays (h.cached a k i found)
    | state | user | oracle =>
      exact ⟨h.perp, h.spot, fun a k i found => stays (h.cached a k i found)⟩

theorem replay_consistent (edits : List Edit) : (replay edits).Consistent := by
  induction edits using List.reverseRecOn with
  | nil => exact ⟨⟨List.nodup_nil, nofun⟩, ⟨List.nodup_nil, nofun⟩, nofun⟩
  | append_singleton edits e ih =>
    rw [replay_concat]
    exact ih.edit e

theorem get?_marketAt_put (s : Store) (at_ address : Address) (record : Record) (slot : UInt64) :
    (s.put at_ record slot).marketAt.get? address =
      match (if at_ = address then record.market? else none) with
      | some market => some market
      | none => s.marketAt.get? address := by
  cases record with
  | perpMarket m | spotMarket m =>
    simp only [put, Record.market?, Table.get?_insert]
    split <;> rfl
  | _ => simp [put, Record.market?]

theorem get?_marketAt_replay (edits : List Edit) (address : Address) (kind : MarketKind)
    (index : UInt16) : (replay edits).marketAt.get? address = some (kind, index) ↔
      ∃ record slot, LastOf (Edit.PutsMarket address) edits (.put address record slot) ∧
        record.market? = some (kind, index) := by
  induction edits using List.reverseRecOn with
  | nil => simp [replay, Table.get?, Table.find, not_lastOf_nil]
  | append_singleton edits e ih =>
    rw [replay_concat]
    by_cases puts : e.PutsMarket address
    · simp only [lastOf_concat_of puts]
      cases e with
      | removeUser user => exact puts.elim
      | put at_ record slot =>
        obtain ⟨rfl, market⟩ := puts
        rw [edit, get?_marketAt_put, if_pos rfl]
        obtain ⟨found, is⟩ := Option.isSome_iff_exists.1 market
        rw [is]
        constructor
        · rintro same
          exact ⟨record, slot, rfl, is.trans same⟩
        · rintro ⟨_, _, same, market⟩
          cases same
          exact is.symm.trans market
    · simp only [lastOf_concat_of_not puts]
      rw [← ih]
      cases e with
      | removeUser user => rfl
      | put at_ record slot =>
        rw [edit, get?_marketAt_put]
        by_cases here : at_ = address
        · rw [if_pos here]
          cases market : record.market? with
          | none => rfl
          | some found => exact absurd ⟨here, by simp [market]⟩ puts
        · rw [if_neg here]

/-! ## Getters -/

/-- A getter gives the value of the record that is held, and fails naming what is missing if none
is. -/
structure Gives {α : Type} (held : Option (Stamped Record)) (wrap : α → Record)
    (subject : Subject) (result : Except Failure α) : Prop where
  found : ∀ value, result = .ok value ↔ ∃ slot, held = some ⟨wrap value, slot⟩
  missing : result = .error (.notLoaded subject) ↔ held = none

def lookUp {α : Type} (held : Option (Stamped α)) (subject : Subject) : Except Failure α :=
  match held with
  | some entry => .ok entry.value
  | none => .error (.notLoaded subject)

theorem exchangeState_eq (s : Store) : s.exchangeState = lookUp s.state .exchangeState := by
  unfold exchangeState
  cases s.state <;> rfl

theorem perpMarket_eq (s : Store) (index : UInt16) :
    s.perpMarket index = lookUp (s.perpMarkets.get? index) (.perpMarket index) := by
  unfold perpMarket
  cases s.perpMarkets.get? index <;> rfl

theorem spotMarket_eq (s : Store) (index : UInt16) :
    s.spotMarket index = lookUp (s.spotMarkets.get? index) (.spotMarket index) := by
  unfold spotMarket
  cases s.spotMarkets.get? index <;> rfl

theorem oraclePrice_eq (s : Store) (address : Address) :
    s.oraclePrice address = lookUp (s.oracle? address) (.account address) := by
  unfold oraclePrice
  cases s.oracle? address <;> rfl

section Gives

variable {α : Type} {wrap : α → Record} (faithful : ∀ a b, wrap a = wrap b → a = b)
include faithful

theorem map_eq_some_iff {held : Option (Stamped α)} {value : α} {slot : UInt64} :
    held.map (·.map wrap) = some ⟨wrap value, slot⟩ ↔ held = some ⟨value, slot⟩ := by
  rw [Option.map_eq_some_iff]
  constructor
  · rintro ⟨⟨v, t⟩, rfl, same⟩
    obtain ⟨wrapped, rfl⟩ := Stamped.mk.inj same
    rw [show v = value from faithful _ _ wrapped]
  · rintro rfl
    exact ⟨_, rfl, rfl⟩

theorem gives_lookUp (held : Option (Stamped α)) (subject : Subject) :
    Gives (held.map (·.map wrap)) wrap subject (lookUp held subject) where
  found value := by
    simp only [map_eq_some_iff faithful]
    cases held with
    | none => simp [lookUp]
    | some entry =>
      constructor
      · rintro ⟨⟩
        exact ⟨entry.slot, rfl⟩
      · rintro ⟨slot, ⟨⟩⟩
        rfl
  missing := by cases held <;> simp [lookUp]

end Gives

/-- The store that these edits leave shows, whatever it is asked, the last edit that concerns
what it is asked for. -/
structure LastWriterWins (edits : List Edit) (s : Store) : Prop where
  held : ∀ key, key.isQuote = false → ∀ entry, s.get? key = some entry ↔
    ∃ address, LastOf (Edit.Concerns key) edits (.put address entry.value entry.slot)
  quote : ∀ source, s.get? (.oracle Address.unset source) = some ⟨.oracle Oracle.quotePrice, 0⟩
  state : Gives (s.get? .state) .state .exchangeState s.exchangeState
  perpMarket : ∀ index,
    Gives (s.get? (.perpMarket index)) .perpMarket (.perpMarket index) (s.perpMarket index)
  spotMarket : ∀ index,
    Gives (s.get? (.spotMarket index)) .spotMarket (.spotMarket index) (s.spotMarket index)
  user : ∀ key user slot, s.users.get? key = some ⟨user, slot⟩ ↔
    s.get? (.user key) = some ⟨.user user, slot⟩
  oraclePrice : ∀ address source,
    Gives (s.get? (.oracle address source)) .oracle (.account address) (s.oraclePrice address)
  hasOracle : ∀ address source, s.hasOracle address = (s.get? (.oracle address source)).isSome
  perpMarkets : (s.perpMarketList.map PerpMarket.marketIndex).Pairwise (· < ·) ∧
    ∀ m, m ∈ s.perpMarketList ↔
      ∃ slot, s.get? (.perpMarket m.marketIndex) = some ⟨.perpMarket m, slot⟩
  spotMarkets : (s.spotMarketList.map SpotMarket.marketIndex).Pairwise (· < ·) ∧
    ∀ m, m ∈ s.spotMarketList ↔
      ∃ slot, s.get? (.spotMarket m.marketIndex) = some ⟨.spotMarket m, slot⟩
  marketAt : ∀ address kind index, s.marketAt.get? address = some (kind, index) ↔
    ∃ record slot, LastOf (Edit.PutsMarket address) edits (.put address record slot) ∧
      record.market? = some (kind, index)
  cached : ∀ address kind index, s.marketAt.get? address = some (kind, index) →
    ∃ entry, s.get? (.market kind index) = some entry

/-- Over every sequence of puts and removals a store shows the last writer of each key. -/
theorem replay_lastWriterWins (edits : List Edit) : LastWriterWins edits (replay edits) where
  held _ shown := get?_replay shown edits
  quote := get?_quote _
  state := by
    rw [exchangeState_eq]
    exact gives_lookUp (fun _ _ => Record.state.inj) _ _
  perpMarket index := by
    rw [perpMarket_eq]
    exact gives_lookUp (fun _ _ => Record.perpMarket.inj) _ _
  spotMarket index := by
    rw [spotMarket_eq]
    exact gives_lookUp (fun _ _ => Record.spotMarket.inj) _ _
  user _ _ _ := (map_eq_some_iff fun _ _ => Record.user.inj).symm
  oraclePrice address _ := by
    rw [oraclePrice_eq]
    exact gives_lookUp (fun _ _ => Record.oracle.inj) _ _
  hasOracle _ _ := by simp [hasOracle, get?]
  perpMarkets := by
    have indexed := (replay_consistent edits).perp
    refine ⟨indexed.pairwise_listed, fun m => indexed.mem_listed.trans ?_⟩
    exact exists_congr fun _ => (map_eq_some_iff fun _ _ => Record.perpMarket.inj).symm
  spotMarkets := by
    have indexed := (replay_consistent edits).spot
    refine ⟨indexed.pairwise_listed, fun m => indexed.mem_listed.trans ?_⟩
    exact exists_congr fun _ => (map_eq_some_iff fun _ _ => Record.spotMarket.inj).symm
  marketAt := get?_marketAt_replay edits
  cached := (replay_consistent edits).cached

end Store

end LedgerWatch
