import LedgerWatch.Store
import Mathlib.Logic.Basic

/-!
# What a batch of accounts writes

Reading a batch stores the records its accounts decode to, one after another, at one slot
(`putDecoded_eq`). Of an oracle the last price put under its address stays
(`get?_oracles_putAll`); markets change only where market records are put.
-/

namespace LedgerWatch

namespace Record

def oracle? : Record → Option Oracle.PriceData
  | oracle price => some price
  | _ => none

def isMarket : Record → Bool
  | perpMarket _ | spotMarket _ => true
  | _ => false

theorem decode_oracle_eq_ok_iff {source : Oracle.Source} {data : Bytes} {record : Record} :
    decode (.oracle source) data = .ok record ↔
      ∃ price, decodeOracle source data = .ok price ∧ record = .oracle price := by
  cases decoded : decodeOracle source data with
  | error fault => simp [decode, decoded, Except.map]
  | ok price => simp [decode, decoded, Except.map, eq_comm]

theorem decode_user_eq_ok {data : Bytes} {record : Record} (h : decode .user data = .ok record) :
    ∃ user, record = .user user := by
  cases decoded : AccountType.decode .user data with
  | error fault => simp [decode, decoded, Except.map] at h
  | ok user => exact ⟨user, by simpa [decode, decoded, Except.map, eq_comm] using h⟩

end Record

namespace Store

/-- The records that the accounts hold, with their addresses; what does not decode is left out. -/
def decoded (accounts : List (Address × RecordKind × Bytes)) : List (Address × Record) :=
  accounts.filterMap fun (address, kind, data) =>
    (Record.decode kind data).toOption.map fun record => (address, record)

section Cons

variable {address : Address} {kind : RecordKind} {data : Bytes} {record : Record}
  {fault : DecodeError} {accounts : List (Address × RecordKind × Bytes)}

theorem decoded_cons_of_ok (reads : Record.decode kind data = .ok record) :
    decoded ((address, kind, data) :: accounts) = (address, record) :: decoded accounts := by
  simp only [decoded, List.filterMap_cons, reads, Except.toOption, Option.map_some]

theorem decoded_cons_of_error (refused : Record.decode kind data = .error fault) :
    decoded ((address, kind, data) :: accounts) = decoded accounts := by
  simp only [decoded, List.filterMap_cons, refused, Except.toOption, Option.map_none]

end Cons

/-- Stores records in order, all at one slot. -/
def putAll (s : Store) (slot : UInt64) (writes : List (Address × Record)) : Store :=
  writes.foldl (fun s write => s.put write.1 write.2 slot) s

theorem mem_decoded {accounts : List (Address × RecordKind × Bytes)} {address : Address}
    {record : Record} : (address, record) ∈ decoded accounts ↔
      ∃ kind data, (address, kind, data) ∈ accounts ∧ Record.decode kind data = .ok record := by
  simp only [decoded, List.mem_filterMap]
  constructor
  · rintro ⟨⟨a, kind, data⟩, mem, found⟩
    obtain ⟨r, ok, same⟩ := Option.map_eq_some_iff.1 found
    obtain ⟨rfl, rfl⟩ := Prod.mk.inj same
    cases result : Record.decode kind data with
    | error fault => simp [result, Except.toOption] at ok
    | ok record => exact ⟨kind, data, mem, by simpa [result, Except.toOption] using ok⟩
  · rintro ⟨kind, data, mem, ok⟩
    exact ⟨_, mem, by simp [ok, Except.toOption]⟩

theorem putDecoded_eq (s : Store) (slot : UInt64) (accounts : List (Address × RecordKind × Bytes)) :
    s.putDecoded slot accounts = (s.putAll slot (decoded accounts), (decoded accounts).length) := by
  unfold putDecoded
  rw [← Nat.zero_add (decoded accounts).length]
  generalize 0 = count
  induction accounts generalizing s count with
  | nil => rfl
  | cons entry rest ih =>
    obtain ⟨address, kind, data⟩ := entry
    cases ok : Record.decode kind data with
    | error fault =>
      simp only [List.foldl_cons, ok, ih, decoded_cons_of_error ok]
    | ok record =>
      simp only [List.foldl_cons, ok, ih, decoded_cons_of_ok ok, putAll, List.length_cons]
      rw [Nat.add_assoc, Nat.add_comm 1]

/-! ## Oracles -/

theorem get?_oracles_put (s : Store) (address at_ : Address) (record : Record) (slot : UInt64) :
    (s.put at_ record slot).oracles.get? address =
      match (if at_ = address then record.oracle? else none) with
      | some price => some ⟨price, slot⟩
      | none => s.oracles.get? address := by
  cases record with
  | oracle price =>
    simp only [put, Record.oracle?, Table.get?_insert]
    split <;> rfl
  | _ => simp [put, Record.oracle?]

/-- The prices written under an address, in order. -/
def pricesAt (address : Address) (writes : List (Address × Record)) : List Oracle.PriceData :=
  writes.filterMap fun write => if write.1 = address then write.2.oracle? else none

/-- The last price put under an address stays. -/
theorem get?_oracles_putAll (s : Store) (slot : UInt64) (writes : List (Address × Record))
    (address : Address) : (s.putAll slot writes).oracles.get? address =
      match (pricesAt address writes).getLast? with
      | some price => some ⟨price, slot⟩
      | none => s.oracles.get? address := by
  induction writes generalizing s with
  | nil => rfl
  | cons write rest ih =>
    have step := ih (s.put write.1 write.2 slot)
    rw [get?_oracles_put] at step
    simp only [putAll, List.foldl_cons, pricesAt, List.filterMap_cons] at step ⊢
    rw [step]
    cases (if write.1 = address then write.2.oracle? else none) with
    | none => rfl
    | some price =>
      cases List.filterMap (fun write => if write.1 = address then write.2.oracle? else none)
          rest with
      | nil => rfl
      | cons first more =>
        rw [List.getLast?_cons_cons]
        cases last : (first :: more).getLast? with
        | none => simp at last
        | some price => rfl

/-! ## Markets -/

/-- The same markets are stored. -/
structure SameMarkets (s t : Store) : Prop where
  perp : t.perpMarkets = s.perpMarkets
  spot : t.spotMarkets = s.spotMarkets

theorem SameMarkets.trans {s t u : Store} (h : SameMarkets s t) (k : SameMarkets t u) :
    SameMarkets s u :=
  ⟨k.perp.trans h.perp, k.spot.trans h.spot⟩

theorem sameMarkets_putAll (s : Store) (slot : UInt64) {writes : List (Address × Record)}
    (none : ∀ write ∈ writes, write.2.isMarket = false) : SameMarkets s (s.putAll slot writes) := by
  induction writes generalizing s with
  | nil => exact ⟨rfl, rfl⟩
  | cons write rest ih =>
    have put : SameMarkets s (s.put write.1 write.2 slot) := by
      have other := none write List.mem_cons_self
      cases record : write.2 with
      | perpMarket | spotMarket => simp [record, Record.isMarket] at other
      | state | user | oracle => exact ⟨rfl, rfl⟩
    exact put.trans (ih _ fun w mem => none w (List.mem_cons_of_mem _ mem))

theorem SameMarkets.marketOracles {s t : Store} (h : SameMarkets s t) :
    t.marketOracles = s.marketOracles := by
  simp only [Store.marketOracles, perpMarketList, spotMarketList, h.perp, h.spot]

theorem mem_distinct {α : Type} [BEq α] [LawfulBEq α] {a : α} (l seen : List α) :
    a ∈ l.foldl (fun seen b => if b ∈ seen then seen else seen ++ [b]) seen ↔ a ∈ seen ∨ a ∈ l := by
  induction l generalizing seen with
  | nil => simp
  | cons b rest ih =>
    rw [List.foldl_cons, ih]
    split
    · rename_i known
      simp only [List.mem_cons]
      constructor
      · rintro (mem | mem)
        · exact .inl mem
        · exact .inr (.inr mem)
      · rintro (mem | rfl | mem)
        · exact .inl mem
        · exact .inl known
        · exact .inr mem
    · simp [or_assoc]

/-- The oracles of the stored markets, except the unset address. -/
theorem mem_marketOracles {s : Store} {address : Address} {source : Oracle.Source} :
    (address, source) ∈ s.marketOracles ↔ address ≠ Address.unset ∧
      ((∃ m ∈ s.perpMarkets.values, m.value.oracle = address ∧ m.value.oracleSource = source) ∨
        ∃ m ∈ s.spotMarkets.values, m.value.oracle = address ∧ m.value.oracleSource = source) := by
  unfold marketOracles
  dsimp only
  rw [mem_distinct]
  simp only [List.mem_filter, List.mem_append, List.mem_map, perpMarketList, spotMarketList,
    mem_sortBy, exists_exists_and_eq_and, Prod.mk.injEq, List.not_mem_nil, false_or, ne_eq,
    decide_not, Bool.not_eq_true', decide_eq_false_iff_not]
  exact and_comm

end Store

end LedgerWatch
