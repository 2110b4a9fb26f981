import LedgerWatch.Address.Derived
import Mathlib.Data.List.Basic

/-!
# No two accounts share an address

The seeds of an account are digested without separators, and seeds of different kinds begin
alike. Still the digested bytes determine the account, the program and the bump
(`preimage_injective`): program and marker have fixed lengths, and of the seeds the length tells
all kinds apart but the two kinds of market, which differ in their first byte. So two accounts
have one address only where the digest collides (`distinct_or_collide`).
-/

namespace LedgerWatch

/-- Two different byte strings with one digest. -/
def Digest.Sha256.Collide (x y : Bytes) : Prop := x ≠ y ∧ digest x = digest y

namespace Address

theorem length_toBytes (a : Address) : a.toBytes.length = 32 :=
  Vector.length_toList

theorem toBytes_injective {a b : Address} (same : a.toBytes = b.toBytes) : a = b := by
  cases a
  cases b
  exact congrArg mk (Vector.toList_inj.1 same)

theorem toBytes_ofBytes {bytes : Bytes} (whole : bytes.length = 32) :
    (ofBytes bytes).toBytes = bytes := by
  apply List.ext_getElem
  · rw [length_toBytes, whole]
  · intro i small here
    simp [toBytes, ofBytes, here]

namespace Place

theorem length_word (n : UInt16) : (word n).length = 2 :=
  Bytes.length_ofNatLE 2 n.toNat

theorem word_injective {m n : UInt16} (same : word m = word n) : m = n := by
  have number := congrArg Bytes.toNatLE same
  rw [word, word, Bytes.toNatLE_ofNatLE, Bytes.toNatLE_ofNatLE] at number
  have small : ∀ n : UInt16, n.toNat % Bytes.count 2 = n.toNat := fun n =>
    Nat.mod_eq_of_lt n.toNat_lt
  rw [small, small] at number
  exact UInt16.toNat_inj.1 number

/-- How many bytes the seeds have together. -/
def size : Place → Nat
  | state => 11
  | signer => 12
  | user _ _ => 38
  | userStats _ => 42
  | perpMarket _ => 13
  | spotMarket _ => 13
  | spotMarketVault _ => 19
  | insuranceFundVault _ => 22

theorem length_seeds (place : Place) : place.seeds.flatten.length = place.size := by
  cases place <;>
    simp only [seeds, List.flatten_cons, List.flatten_nil, List.length_append, List.length_nil,
      length_toBytes, length_word] <;> rfl

/-- Only the labels' first bytes tell a perp market from a spot market. -/
theorem market_seeds_ne (i j : UInt16) :
    label "perp_market" ++ word i ≠ label "spot_market" ++ word j := by
  have long : (label "perp_market").length = (label "spot_market").length := by decide
  have differ : label "perp_market" ≠ label "spot_market" := by decide
  exact fun same => differ (List.append_inj same long).1

/-- The seeds together determine the account. -/
theorem seeds_injective {a b : Place} (same : a.seeds.flatten = b.seeds.flatten) : a = b := by
  have size := congrArg List.length same
  rw [length_seeds, length_seeds] at size
  -- The sizes leave the pairs of one kind and the two kinds of market.
  cases a <;> cases b <;> simp only [Place.size, Nat.reduceEqDiff] at size
  all_goals simp only [seeds, List.flatten_cons, List.flatten_nil, List.append_nil] at same
  case state.state => rfl
  case signer.signer => rfl
  case user.user a i b j =>
    have fields := List.append_cancel_left same
    obtain ⟨authority, subAccount⟩ := List.append_inj fields (by simp only [length_toBytes])
    rw [toBytes_injective authority, word_injective subAccount]
  case userStats.userStats a b =>
    rw [toBytes_injective (List.append_cancel_left same)]
  case perpMarket.spotMarket => exact absurd same (market_seeds_ne _ _)
  case spotMarket.perpMarket => exact absurd same.symm (market_seeds_ne _ _)
  all_goals rw [word_injective (List.append_cancel_left same)]

/-- The digested bytes determine the account, the program and the bump. -/
theorem preimage_injective {a b : Place} {p q : Address} {x y : UInt8}
    (same : a.preimage p x = b.preimage q y) : a = b ∧ p = q ∧ x = y := by
  have unmarked := List.append_cancel_right same
  have long : (x :: p.toBytes).length = (y :: q.toBytes).length := by
    rw [List.length_cons, List.length_cons, length_toBytes, length_toBytes]
  obtain ⟨seeds, rest⟩ := List.append_inj' unmarked long
  obtain ⟨bump, program⟩ := List.cons.inj rest
  exact ⟨seeds_injective seeds, toBytes_injective program, bump⟩

theorem length_candidate (place : Place) (program : Address) (bump : UInt8) :
    (place.candidate program bump).length = 32 :=
  Digest.Sha256.length_digest _

/-- Different accounts have different preimages whatever the bumps, and different addresses
unless the preimages of the two addresses collide. -/
theorem distinct_or_collide {a b : Place} (differ : a ≠ b) (program : Address) :
    (∀ x y : UInt8, a.preimage program x ≠ b.preimage program y) ∧
    (a.address program ≠ b.address program ∨
      Digest.Sha256.Collide (a.preimage program (a.bump program))
        (b.preimage program (b.bump program))) := by
  have apart : ∀ x y : UInt8, a.preimage program x ≠ b.preimage program y :=
    fun x y same => differ (preimage_injective same).1
  refine ⟨apart, ?_⟩
  by_cases same : a.address program = b.address program
  · right
    refine ⟨apart _ _, ?_⟩
    have digests := congrArg toBytes same
    rwa [address, address, toBytes_ofBytes (length_candidate ..),
      toBytes_ofBytes (length_candidate ..)] at digests
  · exact .inl same

/-- The two markets of one index, whose seeds are equally long. -/
theorem distinct_or_collide_markets : perpMarket 3 ≠ spotMarket 3 ∧
    (∀ x y : UInt8, (perpMarket 3).preimage unset x ≠ (spotMarket 3).preimage unset y) ∧
    ((perpMarket 3).address unset ≠ (spotMarket 3).address unset ∨
      Digest.Sha256.Collide ((perpMarket 3).preimage unset ((perpMarket 3).bump unset))
        ((spotMarket 3).preimage unset ((spotMarket 3).bump unset))) :=
  have differ : perpMarket 3 ≠ spotMarket 3 := by decide
  ⟨differ, distinct_or_collide differ unset⟩

end Place

end Address

end LedgerWatch
