import LedgerWatch.Proofs.Account.Codec
import LedgerWatch.Proofs.Store.Writes
import LedgerWatch.Store.Fetch
import LedgerWatch.Watch.Supervisor
import Mathlib.Data.List.Nodup

/-!
# Bytes have at most one account type

The discriminators of the six account types are different, and every way of reading an account
looks at the discriminator first. So bytes that are read as one type are refused as any other
(`decode_eq_mismatch`), and so is the record that they hold: no read, batch, scan or delivered
update stores it as a record of a kind that is read from another type (`one_type`).
-/

namespace LedgerWatch

namespace AccountType

variable {t u : AccountType} {data : Bytes}

theorem nodup_discriminators : (all.map discriminator).Nodup := by
  decide +kernel

theorem mem_all (t : AccountType) : t ∈ all := by
  cases t <;> decide

theorem discriminator_injective (same : t.discriminator = u.discriminator) : t = u :=
  List.inj_on_of_nodup_map nodup_discriminators t.mem_all u.mem_all same

theorem begins_of_decode {value : t.Value} (read : t.decode data = .ok value) :
    discriminatorLength ≤ data.length ∧ data.take discriminatorLength = t.discriminator := by
  rcases t.decode_cases data with ⟨-, fails⟩ | ⟨-, -, fails⟩ | ⟨room, front, -⟩
  · cases read.symm.trans fails
  · cases read.symm.trans fails
  · exact ⟨room, front⟩

/-- Bytes with the discriminator of one type are refused as another for it. -/
theorem decode_eq_mismatch_of_begins (room : discriminatorLength ≤ data.length)
    (front : data.take discriminatorLength = t.discriminator) (differ : t ≠ u) :
    u.decode data = .error (.discriminatorMismatch u) := by
  have other : data.take discriminatorLength ≠ u.discriminator := by
    intro same
    exact differ (discriminator_injective (front.symm.trans same))
  rw [decode, if_neg (by omega), if_pos other]

/-- What is read as one type is refused as another for its discriminator. -/
theorem decode_eq_mismatch {value : t.Value} (read : t.decode data = .ok value) (differ : t ≠ u) :
    u.decode data = .error (.discriminatorMismatch u) := by
  obtain ⟨room, front⟩ := begins_of_decode read
  exact decode_eq_mismatch_of_begins room front differ

end AccountType

/-- The account type that a kind of record is read from. The price of the quote asset is read
from no account, and the remaining sources of prices have no layout. -/
def RecordKind.accountType? : RecordKind → Option AccountType
  | .state => some .state
  | .perpMarket => some .perpMarket
  | .spotMarket => some .spotMarket
  | .user => some .user
  | .oracle source =>
    if source.isPrelaunch then some .prelaunchOracle
    else if source.isPull then some .priceUpdate
    else none

namespace Record

variable {t u : AccountType} {kind other : RecordKind} {data : Bytes}

/-- What is refused as an account of its type is refused as a record of the kind. -/
theorem decode_eq_error (of : kind.accountType? = some t) {error : DecodeError}
    (refused : t.decode data = .error error) : decode kind data = .error error := by
  cases kind with
  | state | perpMarket | spotMarket | user =>
    cases of
    rw [decode, refused]
    rfl
  | oracle source =>
    cases source with
    | prelaunch =>
      cases of
      simp only [decode, decodeOracle, refused, Oracle.Source.isPrelaunch, reduceCtorEq, if_false,
        if_true]
      rfl
    | pythPull | pyth1KPull | pyth1MPull | pythStableCoinPull =>
      cases of
      simp only [decode, decodeOracle, refused, Oracle.Source.isPrelaunch, Oracle.Source.isPull,
        reduceCtorEq, Bool.false_eq_true, if_false, if_true]
      rfl
    | _ => cases of

theorem exists_of_decode (of : kind.accountType? = some t) {record : Record}
    (read : decode kind data = .ok record) : ∃ value, t.decode data = .ok value := by
  cases found : t.decode data with
  | error error => cases read.symm.trans (decode_eq_error of found)
  | ok value => exact ⟨value, rfl⟩

/-- No way into the store keeps the bytes as a record of the kind: neither a read of one key nor
a batch or a scan nor an update delivered to a watcher of the kind. -/
structure NeverStored (kind : RecordKind) (data : Bytes) : Prop where
  read : ∀ (s : Store) (address : Address) (slot : UInt64),
    s.absorb address kind (.ok ⟨some data, slot⟩) = (s, none)
  batch : ∀ (s : Store) (slot : UInt64) (before after : List (Address × RecordKind × Bytes))
    (address : Address), s.putDecoded slot (before ++ (address, kind, data) :: after) =
      s.putDecoded slot (before ++ after)
  delivered : ∀ (s : Supervisor) (c : ChannelId) (channel : Channel) (pair : Pair)
    (address : Address) (slot : UInt64), s.channels[c]? = some channel →
      s.pairs[channel.pair]? = some pair → pair.key.kind = kind →
      (s.step (.deliver c (.update ⟨address, data, slot⟩))).store = s.store

theorem neverStored_of_error {error : DecodeError} (refused : decode kind data = .error error) :
    NeverStored kind data where
  read s address slot := by
    rw [Store.absorb, refused]
  batch s slot before after address := by
    have left_out : Store.decoded (before ++ (address, kind, data) :: after) =
        Store.decoded (before ++ after) := by
      simp [Store.decoded, refused, Except.toOption]
    rw [Store.putDecoded_eq, Store.putDecoded_eq, left_out]
  delivered s c channel pair address slot at_c at_p of := by
    subst of
    simp only [Supervisor.step, Supervisor.perform, Supervisor.deliver, at_c, at_p, refused]
    split <;> rfl

end Record

/-- Bytes are read as one account type at most. What follows an encoded account, it is refused as
any other type for its discriminator and not stored as any kind that is read from another type.
The same holds of all bytes that hold a record of a kind. -/
theorem one_type (t u : AccountType) (data : Bytes) :
    (∀ (value : t.Value) (other : u.Value), t.decode data = .ok value → u.decode data = .ok other →
      t = u) ∧
    (t ≠ u → ∀ (value : t.Value) (rest : Bytes),
      u.decode (t.encode value ++ rest) = .error (.discriminatorMismatch u) ∧
      ∀ kind : RecordKind, kind.accountType? = some u →
        Record.NeverStored kind (t.encode value ++ rest)) ∧
    (t ≠ u → ∀ (kind other : RecordKind) (record : Record), kind.accountType? = some t →
      other.accountType? = some u → Record.decode kind data = .ok record →
        Record.decode other data = .error (.discriminatorMismatch u) ∧
        Record.NeverStored other data) := by
  refine ⟨fun value other read again => ?_, fun differ value rest => ?_,
    fun differ kind other record of_t of_u read => ?_⟩
  · by_contra differ
    cases again.symm.trans (AccountType.decode_eq_mismatch read differ)
  · have refused := AccountType.decode_eq_mismatch
      (AccountType.decode_encode_append value rest) differ
    exact ⟨refused, fun kind of_u => Record.neverStored_of_error (Record.decode_eq_error of_u refused)⟩
  · obtain ⟨value, found⟩ := Record.exists_of_decode of_t read
    have refused := Record.decode_eq_error of_u (AccountType.decode_eq_mismatch found differ)
    exact ⟨refused, Record.neverStored_of_error refused⟩

/-- A padded prelaunch oracle, which is an oracle's price but none of a pull feed. -/
def paddedPrelaunch : Bytes :=
  AccountType.encode .prelaunchOracle ⟨5, 7, 1, 2, 3, 4⟩ ++ [0, 0]

theorem one_type_oracles :
    Record.decode (.oracle .prelaunch) paddedPrelaunch =
      .ok (.oracle ⟨5, 1, 3, true, some 7⟩) ∧
    Record.decode (.oracle .pyth1MPull) paddedPrelaunch =
      .error (.discriminatorMismatch .priceUpdate) ∧
    Record.NeverStored (.oracle .pyth1MPull) paddedPrelaunch := by
  have read : Record.decode (.oracle .prelaunch) paddedPrelaunch =
      .ok (.oracle ⟨5, 1, 3, true, some 7⟩) := by decide +kernel
  have differ : AccountType.prelaunchOracle ≠ .priceUpdate := by decide
  exact ⟨read, (one_type .prelaunchOracle .priceUpdate paddedPrelaunch).2.2 differ _ _ _ rfl rfl read⟩

end LedgerWatch
