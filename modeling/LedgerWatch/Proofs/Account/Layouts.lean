import LedgerWatch.Account
import Mathlib.Data.List.Basic

/-!
# Exact layouts

Each way of building a layout keeps it exact: a number of fixed width, one field after another,
a row of fields, a tag byte, and the same bytes read as another type. The layouts of the six
account types are built in these ways alone, from numbers, addresses, three tags and the
verification level, so reading an account's body undoes writing it and reads nothing else.
-/

namespace LedgerWatch

namespace Layout

variable {α β : Type} {layout : Layout α} {other : Layout β}

/-! ## Numbers -/

theorem take_ofNatLE_append (width n : Nat) (rest : Bytes) :
    (Bytes.ofNatLE width n ++ rest).take width = Bytes.ofNatLE width n := by
  have len := Bytes.length_ofNatLE width n
  exact List.take_left' len

theorem drop_ofNatLE_append (width n : Nat) (rest : Bytes) :
    (Bytes.ofNatLE width n ++ rest).drop width = rest := by
  have len := Bytes.length_ofNatLE width n
  exact List.drop_left' len

/-- A type that counts to the power of its width loses nothing as a number of that width. -/
theorem Exact.word {width : Nat} {ofNat : Nat → α} {toNat : α → Nat}
    (fits : ∀ value, toNat value < Bytes.count width)
    (ofNat_toNat : ∀ value, ofNat (toNat value) = value)
    (toNat_ofNat : ∀ n, n < Bytes.count width → toNat (ofNat n) = n) :
    Exact (word width ofNat toNat) where
  decode_encode value rest := by
    have long : width ≤ (Bytes.ofNatLE width (toNat value) ++ rest).length := by
      rw [List.length_append, Bytes.length_ofNatLE]
      omega
    simp only [Layout.word, if_pos long, take_ofNatLE_append, drop_ofNatLE_append,
      Bytes.toNatLE_ofNatLE]
    rw [Nat.mod_eq_of_lt (fits value), ofNat_toNat]
  eq_encode := by
    intro bytes value rest read
    simp only [Layout.word] at read
    split at read
    · rename_i long
      have len : (bytes.take width).length = width := by
        rw [List.length_take]
        omega
      have small : Bytes.toNatLE (bytes.take width) < Bytes.count width := by
        have bound := Bytes.toNatLE_lt (bytes.take width)
        rwa [len] at bound
      have written := Bytes.ofNatLE_toNatLE (bytes.take width)
      rw [len] at written
      cases read
      simp only [Layout.word]
      rw [toNat_ofNat _ small, written, List.take_append_drop]
    · cases read

theorem Exact.u8 : Exact u8 :=
  .word UInt8.toNat_lt (fun _ => UInt8.ofNat_toNat) fun _ => UInt8.toNat_ofNat_of_lt

theorem Exact.u16 : Exact u16 :=
  .word UInt16.toNat_lt (fun _ => UInt16.ofNat_toNat) fun _ => UInt16.toNat_ofNat_of_lt

theorem Exact.u32 : Exact u32 :=
  .word UInt32.toNat_lt (fun _ => UInt32.ofNat_toNat) fun _ => UInt32.toNat_ofNat_of_lt

theorem Exact.u64 : Exact u64 :=
  .word UInt64.toNat_lt (fun _ => UInt64.ofNat_toNat) fun _ => UInt64.toNat_ofNat_of_lt

theorem Exact.i32 : Exact i32 := by
  apply Exact.word
  · intro value
    exact value.toUInt32.toNat_lt
  · intro value
    rw [UInt32.ofNat_toNat]
    rfl
  · intro n small
    exact UInt32.toNat_ofNat_of_lt small

theorem Exact.i64 : Exact i64 := by
  apply Exact.word
  · intro value
    exact value.toUInt64.toNat_lt
  · intro value
    rw [UInt64.ofNat_toNat]
    rfl
  · intro n small
    exact UInt64.toNat_ofNat_of_lt small

/-! ## Fields together -/

theorem bind_eq_ok {first : Except Fault α} {next : α → Except Fault β} {value : β} :
    first >>= next = .ok value ↔ ∃ found, first = .ok found ∧ next found = .ok value := by
  cases first with
  | error fault => simp [bind, Except.bind]
  | ok found => simp [bind, Except.bind]

theorem Exact.pair (first : Exact layout) (second : Exact other) :
    Exact (layout.pair other) where
  decode_encode value rest := by
    have front := first.decode_encode value.1 (other.encode value.2 ++ rest)
    have back := second.decode_encode value.2 rest
    apply bind_eq_ok.mpr
    refine ⟨_, by rwa [Layout.pair, List.append_assoc], ?_⟩
    exact bind_eq_ok.mpr ⟨_, back, rfl⟩
  eq_encode := by
    intro bytes value rest read
    obtain ⟨found, front, read⟩ := bind_eq_ok.mp read
    obtain ⟨found', back, read⟩ := bind_eq_ok.mp read
    cases read
    have written := first.eq_encode front
    rw [second.eq_encode back] at written
    rw [Layout.pair, List.append_assoc]
    exact written

theorem Exact.iso (exact : Exact layout) {build : α → β} {back : β → α}
    (build_back : ∀ value, build (back value) = value)
    (back_build : ∀ value, back (build value) = value) :
    Exact (layout.iso build back) where
  decode_encode value rest := by
    have read := exact.decode_encode (back value) rest
    refine bind_eq_ok.mpr ⟨_, read, ?_⟩
    simp only [build_back]
    rfl
  eq_encode := by
    intro bytes value rest read
    obtain ⟨found, inner, read⟩ := bind_eq_ok.mp read
    cases read
    have written := exact.eq_encode inner
    simpa only [Layout.iso, back_build] using written

theorem encode_array_push (n : Nat) (front : Vector α n) (last : α) :
    (array (n + 1) layout).encode (front.push last) =
      (array n layout).encode front ++ layout.encode last := by
  simp only [Layout.array, Vector.toList_push, List.flatMap_append, List.flatMap_cons,
    List.flatMap_nil, List.append_nil]

theorem Exact.array (exact : Exact layout) (n : Nat) : Exact (array n layout) := by
  -- A row is read front first, so the induction is on its length and splits off its last value.
  induction n with
  | zero =>
    constructor
    · intro values rest
      have none : values = #v[] := Vector.eq_empty
      subst none
      rfl
    · intro bytes values rest read
      cases read
      rfl
  | succ n ih =>
    constructor
    · intro values rest
      obtain ⟨front, last, rfl⟩ : ∃ front last, values = Vector.push front last :=
        ⟨values.pop, values.back, (Vector.push_pop_back values).symm⟩
      have row := ih.decode_encode front (layout.encode last ++ rest)
      have tail := exact.decode_encode last rest
      rw [encode_array_push, List.append_assoc]
      exact bind_eq_ok.mpr ⟨_, row, bind_eq_ok.mpr ⟨_, tail, rfl⟩⟩
    · intro bytes values rest read
      obtain ⟨front, row, read⟩ := bind_eq_ok.mp read
      obtain ⟨last, tail, read⟩ := bind_eq_ok.mp read
      cases read
      have written := ih.eq_encode row
      rw [exact.eq_encode tail] at written
      rw [encode_array_push, List.append_assoc]
      exact written

theorem Exact.tagged {tag : α → UInt8} {ofTag? : UInt8 → Option α}
    (ofTag?_tag : ∀ value, ofTag? (tag value) = some value)
    (tag_ofTag? : ∀ {t value}, ofTag? t = some value → tag value = t) :
    Exact (tagged tag ofTag?) where
  decode_encode value rest := by
    simp only [Layout.tagged, List.cons_append, List.nil_append, ofTag?_tag]
  eq_encode := by
    intro bytes value rest read
    cases bytes with
    | nil => cases read
    | cons t bytes =>
      cases known : ofTag? t with
      | none =>
        simp only [Layout.tagged, known] at read
        cases read
      | some found =>
        simp only [Layout.tagged, known] at read
        cases read
        simp only [Layout.tagged, tag_ofTag? known, List.cons_append, List.nil_append]

/-! ## The layouts of the accounts -/

theorem Exact.address : Exact address :=
  (Exact.u8.array 32).iso (fun _ => rfl) (fun _ => rfl)

theorem Exact.name : Exact name :=
  Exact.u8.array 32

theorem Exact.source : Exact Oracle.Source.layout := by
  apply Exact.tagged
  · intro source
    cases source <;> rfl
  · intro t source known
    have small : t.toNat < 12 := (List.getElem?_eq_some_iff.1 known).1
    have listed : ∀ n : Fin 12, Oracle.Source.all[n.val]?.map Oracle.Source.tag =
        some (UInt8.ofNat n.val) := by decide
    have here := listed ⟨t.toNat, small⟩
    simp only [Oracle.Source.ofTag?] at known
    rw [known] at here
    have same : source.tag = UInt8.ofNat t.toNat := by simpa using here
    rw [same, UInt8.ofNat_toNat]

theorem Exact.balanceType : Exact (Layout.tagged BalanceType.tag BalanceType.ofTag?) := by
  apply Exact.tagged
  · intro type
    cases type <;> rfl
  · intro t type known
    simp only [BalanceType.ofTag?] at known
    split at known
    · rename_i zero
      cases known
      exact zero.symm
    · split at known
      · rename_i one
        cases known
        exact one.symm
      · cases known

theorem Exact.verification : Exact Oracle.Verification.layout where
  decode_encode level rest := by
    cases level <;> rfl
  eq_encode := by
    intro bytes level rest read
    cases bytes with
    | nil => cases read
    | cons tag bytes =>
      simp only [Oracle.Verification.layout, Oracle.Verification.decode] at read
      split at read
      · rename_i zero
        cases bytes with
        | nil => cases read
        | cons signatures bytes =>
          cases read
          rw [zero]
          rfl
      · split at read
        · rename_i one
          cases read
          rw [one]
          rfl
        · cases read

theorem Exact.exchangeState : Exact exchangeState := by
  apply Exact.iso _ (fun _ => rfl) (fun _ => rfl)
  apply Exact.address.pair
  apply Exact.address.pair
  apply Exact.address.pair
  apply Exact.u16.pair
  apply Exact.u16.pair
  exact Exact.u8.pair Exact.u8

theorem Exact.perpMarket : Exact perpMarket := by
  apply Exact.iso _ (fun _ => rfl) (fun _ => rfl)
  apply Exact.address.pair
  apply Exact.u16.pair
  apply Exact.u16.pair
  apply Exact.address.pair
  apply Exact.source.pair
  exact Exact.name.pair Exact.u8

theorem Exact.spotMarket : Exact spotMarket := by
  apply Exact.iso _ (fun _ => rfl) (fun _ => rfl)
  apply Exact.address.pair
  apply Exact.u16.pair
  apply Exact.address.pair
  apply Exact.source.pair
  apply Exact.address.pair
  apply Exact.address.pair
  apply Exact.u32.pair
  exact Exact.name.pair Exact.u8

theorem Exact.perpPosition : Exact perpPosition := by
  apply Exact.iso _ (fun _ => rfl) (fun _ => rfl)
  apply Exact.u16.pair
  apply Exact.i64.pair
  apply Exact.i64.pair
  apply Exact.u64.pair
  apply Exact.i64.pair
  exact Exact.i64.pair Exact.u8

theorem Exact.spotPosition : Exact spotPosition := by
  apply Exact.iso _ (fun _ => rfl) (fun _ => rfl)
  apply Exact.u16.pair
  apply Exact.u64.pair
  apply Exact.balanceType.pair
  apply Exact.i64.pair
  exact Exact.i64.pair Exact.u8

theorem Exact.user : Exact user := by
  apply Exact.iso _ (fun _ => rfl) (fun _ => rfl)
  apply Exact.address.pair
  apply Exact.address.pair
  apply Exact.name.pair
  apply Exact.u16.pair
  apply (Exact.perpPosition.array 8).pair
  exact (Exact.spotPosition.array 8).pair Exact.u64

theorem Exact.prelaunch : Exact prelaunch := by
  apply Exact.iso _ (fun _ => rfl) (fun _ => rfl)
  apply Exact.i64.pair
  apply Exact.i64.pair
  apply Exact.u64.pair
  apply Exact.u64.pair
  exact Exact.u64.pair Exact.u16

theorem Exact.priceUpdate : Exact priceUpdate := by
  apply Exact.iso _ (fun _ => rfl) (fun _ => rfl)
  apply Exact.address.pair
  apply Exact.verification.pair
  apply (Exact.u8.array 32).pair
  apply Exact.i64.pair
  apply Exact.u64.pair
  apply Exact.i32.pair
  apply Exact.i64.pair
  exact Exact.i64.pair Exact.u64

end Layout

theorem AccountType.layout_exact (t : AccountType) : t.layout.Exact := by
  cases t with
  | state => exact Layout.Exact.exchangeState
  | perpMarket => exact Layout.Exact.perpMarket
  | spotMarket => exact Layout.Exact.spotMarket
  | user => exact Layout.Exact.user
  | prelaunchOracle => exact Layout.Exact.prelaunch
  | priceUpdate => exact Layout.Exact.priceUpdate

end LedgerWatch
