import LedgerWatch.Proofs.Account.Discriminators
import LedgerWatch.Proofs.Address.Preimages

/-!
# What a scan's windows say of an account

A window accepts the bytes that have its own at its place (`Window.accepts_iff`). An account that
decodes as a type begins with the type's discriminator, so it passes the scan for its type
(`accepts_of_decode`). The scan for an authority's users lets through what begins with the
discriminator of users and the authority (`userFilters_accept_iff_begins`); a user does exactly if
it is one of them, and nothing that does is an account of another type (`userFilters_select`).
-/

namespace LedgerWatch

namespace Window

variable {w : Window} {data front bytes : Bytes}

theorem accepts_iff : w.accepts data = true ↔
    ∃ before after, data = before ++ w.bytes ++ after ∧ before.length = w.offset := by
  rw [accepts, beq_iff_eq, Bytes.window?]
  constructor
  · intro found
    split at found
    · rename_i room
      obtain same := Option.some.inj found
      refine ⟨data.take w.offset, data.drop (w.offset + w.bytes.length), ?_, ?_⟩
      · conv_rhs => rw [← same]
        rw [List.length_take, List.length_drop, Nat.min_eq_left (by omega), ← List.drop_drop,
          List.append_assoc, List.take_append_drop, List.take_append_drop]
      · rw [List.length_take]
        omega
    · cases found
  · intro ⟨before, after, written, place⟩
    rw [written, ← place, List.append_assoc, List.drop_left, List.take_left, if_pos]
    simp only [List.length_append]
    omega

/-- At the start a window accepts what begins with its bytes. -/
theorem accepts_front_iff : accepts ⟨0, bytes⟩ data = true ↔ bytes <+: data := by
  rw [accepts_iff]
  constructor
  · intro ⟨before, after, written, place⟩
    obtain rfl := List.eq_nil_of_length_eq_zero place
    exact ⟨after, written.symm⟩
  · intro ⟨after, written⟩
    exact ⟨[], after, written.symm, rfl⟩

/-- Right after a known front a window accepts what goes on with its bytes. -/
theorem accepts_next_iff (begins : front <+: data) :
    accepts ⟨front.length, bytes⟩ data = true ↔ front ++ bytes <+: data := by
  rw [accepts_iff]
  constructor
  · intro ⟨before, after, written, place⟩
    obtain ⟨rest, rfl⟩ := begins
    rw [List.append_assoc] at written
    obtain ⟨rfl, rfl⟩ := List.append_inj written place.symm
    exact ⟨after, List.append_assoc ..⟩
  · intro ⟨after, written⟩
    exact ⟨front, after, written.symm, rfl⟩

end Window

namespace AccountType

variable {t : AccountType} {data : Bytes}

theorem accepts_of_decode {value : t.Value} (h : t.decode data = .ok value) :
    Window.accepts ⟨0, t.discriminator⟩ data = true := by
  have written := (decode_eq_ok_iff value).1 h
  exact Window.accepts_front_iff.2 ((List.prefix_append ..).trans written)

end AccountType

theorem Layout.encode_address (a : Address) : Layout.address.encode a = a.toBytes := by
  have byte : ∀ b : UInt8, Layout.u8.encode b = [b] := by
    intro b
    simp [Layout.u8, Layout.word, Bytes.ofNatLE]
  calc Layout.address.encode a
    _ = a.toBytes.flatMap Layout.u8.encode := rfl
    _ = a.toBytes.flatMap fun b => [b] := congrArg (a.toBytes.flatMap ·) (funext byte)
    _ = a.toBytes := List.flatMap_singleton' a.toBytes

section Users

variable {data : Bytes} {user : User}

/-- What the filters for an authority's users compare. -/
def userFront (authority : Address) : Bytes :=
  AccountType.discriminator .user ++ authority.toBytes

theorem length_userFront (authority : Address) : (userFront authority).length = 40 := by
  rw [userFront, List.length_append, AccountType.length_discriminator, authority.length_toBytes]
  rfl

theorem userFront_injective {a b : Address} (same : userFront a = userFront b) : a = b :=
  Address.toBytes_injective (List.append_cancel_left same)

theorem userFilters_accept_iff_begins (authority : Address) (data : Bytes) :
    (userFilters authority).all (·.accepts data) = true ↔ userFront authority <+: data := by
  have place : userAuthorityOffset = (AccountType.discriminator .user).length :=
    (AccountType.length_discriminator .user).symm
  simp only [userFilters, List.all_cons, List.all_nil, Bool.and_true, Bool.and_eq_true]
  rw [Window.accepts_front_iff, place]
  constructor
  · intro ⟨front, next⟩
    exact (Window.accepts_next_iff front).1 next
  · intro whole
    have front : AccountType.discriminator .user <+: data := (List.prefix_append ..).trans whole
    exact ⟨front, (Window.accepts_next_iff front).2 whole⟩

/-- The authority of a user stands right after the discriminator. -/
theorem userFront_prefix_encode (user : User) :
    userFront user.authority <+: AccountType.encode .user user := by
  obtain ⟨more, body⟩ : ∃ more,
      AccountType.user.layout.encode user = user.authority.toBytes ++ more :=
    ⟨_, congrArg (· ++ _) (Layout.encode_address user.authority)⟩
  refine ⟨more, ?_⟩
  rw [userFront, AccountType.encode, body, List.append_assoc]

/-- What decodes as a user passes the filters for an authority's users exactly if the authority is
its own. -/
theorem userFilters_accept_iff (read : AccountType.decode .user data = .ok user)
    (authority : Address) :
    (userFilters authority).all (·.accepts data) = true ↔ user.authority = authority := by
  have own : userFront user.authority <+: data :=
    (userFront_prefix_encode user).trans ((AccountType.decode_eq_ok_iff (t := .user) user).1 read)
  rw [userFilters_accept_iff_begins]
  constructor
  · intro begins
    have long : (userFront user.authority).length = (userFront authority).length := by
      rw [length_userFront, length_userFront]
    exact userFront_injective ((List.prefix_of_prefix_length_le own begins (Nat.le_of_eq long)).eq_of_length long)
  · rintro rfl
    exact own

/-- The filters for an authority's users let through the bytes that begin with the discriminator of
users and the authority, and no others. Of the bytes that hold a user these are the ones whose
authority is this one; whatever else they let through holds no account of another type. -/
theorem userFilters_select (authority : Address) (data : Bytes) :
    ((userFilters authority).all (·.accepts data) = true ↔
      AccountType.discriminator .user ++ authority.toBytes <+: data) ∧
    (∀ user, AccountType.decode .user data = .ok user →
      ((userFilters authority).all (·.accepts data) = true ↔ user.authority = authority)) ∧
    ((userFilters authority).all (·.accepts data) = true →
      40 ≤ data.length ∧ data.take 8 = AccountType.discriminator .user ∧
      (∀ t, t ≠ AccountType.user → t.decode data = .error (.discriminatorMismatch t)) ∧
      ∀ user, AccountType.decode .user data = .ok user → user.authority = authority) := by
  refine ⟨userFilters_accept_iff_begins authority data, ?_, ?_⟩
  · intro user read
    exact userFilters_accept_iff read authority
  · intro passes
    have begins := (userFilters_accept_iff_begins authority data).1 passes
    have long : 40 ≤ data.length := length_userFront authority ▸ begins.length_le
    have room : discriminatorLength ≤ data.length := Nat.le_trans (by decide) long
    have front : data.take discriminatorLength = AccountType.discriminator .user := by
      obtain ⟨rest, rfl⟩ := begins
      rw [userFront, List.append_assoc, List.take_left' (AccountType.length_discriminator .user)]
    refine ⟨long, front, ?_, ?_⟩
    · intro t differ
      exact AccountType.decode_eq_mismatch_of_begins room front differ.symm
    · intro user read
      exact (userFilters_accept_iff read authority).1 passes

/-- The authority of no user, and a user of another one, padded. -/
def strangerAuthority : Address := ⟨Vector.replicate 32 7⟩

def ownedUser : User where
  authority := Address.unset
  delegate := strangerAuthority
  name := default
  subAccountId := 3
  perpPositions := Vector.replicate 8 default
  spotPositions := Vector.replicate 8 default
  lastActiveSlot := 0

def paddedUser : Bytes := AccountType.encode .user ownedUser ++ [0]

theorem userFilters_select_padded :
    AccountType.decode .user paddedUser = .ok ownedUser ∧
    (userFilters Address.unset).all (·.accepts paddedUser) = true ∧
    ¬(userFilters strangerAuthority).all (·.accepts paddedUser) = true ∧
    AccountType.decode .perpMarket paddedUser = .error (.discriminatorMismatch .perpMarket) := by
  have read : AccountType.decode .user paddedUser = .ok ownedUser :=
    AccountType.decode_encode_append (t := .user) ownedUser [0]
  have own := ((userFilters_select Address.unset paddedUser).2.1 _ read).2 rfl
  refine ⟨read, own, ?_, ?_⟩
  · intro passes
    have same := ((userFilters_select strangerAuthority paddedUser).2.1 _ read).1 passes
    exact absurd same (by decide)
  · exact ((userFilters_select Address.unset paddedUser).2.2 own).2.2.1 .perpMarket (by decide)

end Users

end LedgerWatch
