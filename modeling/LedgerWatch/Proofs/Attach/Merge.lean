import LedgerWatch.Proofs.Attach.Positions
import Mathlib.Data.List.Forall2
import Mathlib.Data.List.Induction
import Mathlib.Data.Set.Function
import Mathlib.Order.Interval.Set.Defs

/-!
# Accounts asked for, merged

An account map is what remains of the list of all that was asked for: for each key, where it was
first asked for, one account at the address then given, writable if any of the requests for the
key was for writing (`AccountMap.toList_collect`). Keys and positions correspond, and later requests
only ever raise an account to writable (`AccountMap.collect_represents`).
-/

namespace LedgerWatch

variable {κ : Type} [DecidableEq κ]

theorem eraseDups_concat (l : List κ) (a : κ) :
    (l ++ [a]).eraseDups = if a ∈ l then l.eraseDups else l.eraseDups ++ [a] := by
  rw [List.eraseDups_append]
  by_cases mem : a ∈ l
  · simp [List.removeAll, mem]
  · simp [List.removeAll, mem, List.eraseDups_cons]

/-- A request for an account. -/
structure Ask (κ : Type) where
  key : κ
  address : Address
  writable : Bool
deriving DecidableEq

namespace Ask

/-- The keys asked for, in the order in which they are first asked for. -/
def keys (asks : List (Ask κ)) : List κ := (asks.map key).eraseDups

/-- What all requests for a key come to. -/
def account? (asks : List (Ask κ)) (key : κ) : Option AccountMeta :=
  (asks.find? fun ask => ask.key = key).map fun first =>
    { address := first.address
      writable := asks.any fun ask => ask.key = key && ask.writable }

def merge (asks : List (Ask κ)) : List AccountMeta := (keys asks).filterMap (account? asks)

theorem keys_concat (asks : List (Ask κ)) (ask : Ask κ) :
    keys (asks ++ [ask]) = if ask.key ∈ keys asks then keys asks else keys asks ++ [ask.key] := by
  have known : ask.key ∈ keys asks ↔ ask.key ∈ asks.map key := List.mem_eraseDups
  rw [if_congr known rfl rfl, keys, List.map_append, List.map_singleton, eraseDups_concat, ← keys]

theorem account?_concat (asks : List (Ask κ)) (ask : Ask κ) (key : κ) :
    account? (asks ++ [ask]) key =
      if ask.key = key then
        match account? asks key with
        | some held => some { held with writable := held.writable || ask.writable }
        | none => some { address := ask.address, writable := ask.writable }
      else account? asks key := by
  unfold account?
  rw [List.find?_append]
  by_cases same : ask.key = key
  · cases found : asks.find? fun ask => ask.key = key with
    | some first => simp [same]
    | none =>
      have fresh : ∀ other ∈ asks, ¬ other.key = key := by
        simpa using List.find?_eq_none.1 found
      have unasked : (asks.any fun ask => ask.key = key && ask.writable) = false := by
        apply List.any_eq_false.2
        intro other mem
        simp [fresh other mem]
      simp [same, unasked]
  · simp [same]

end Ask

namespace AccountMap

/-- The map after all these requests. -/
def collect (asks : List (Ask κ)) : AccountMap κ :=
  asks.foldl (fun m ask => m.insert ask.key ask.address ask.writable) {}

theorem collect_concat (asks : List (Ask κ)) (ask : Ask κ) : collect (asks ++ [ask]) =
    (collect asks).insert ask.key ask.address ask.writable :=
  List.foldl_append

theorem inStep_collect (asks : List (Ask κ)) : (collect asks).InStep := by
  induction asks using List.reverseRecOn with
  | nil => exact .empty
  | append_singleton asks ask ih =>
    rw [collect_concat]
    exact ih.insert ask.key ask.address ask.writable

theorem keys_collect (asks : List (Ask κ)) : (collect asks).keys = Ask.keys asks := by
  induction asks using List.reverseRecOn with
  | nil => rfl
  | append_singleton asks ask ih => rw [collect_concat, keys_insert, ih, Ask.keys_concat]

theorem get?_collect (asks : List (Ask κ)) (key : κ) :
    (collect asks).get? key = Ask.account? asks key := by
  induction asks using List.reverseRecOn with
  | nil => rfl
  | append_singleton asks ask ih =>
    rw [collect_concat, (inStep_collect asks).get?_insert, ih, Ask.account?_concat]
    by_cases same : ask.key = key
    · subst same
      cases held : Ask.account? asks ask.key with
      | none => simp only [ih, held, if_true]
      | some account => simp only [ih, held, if_true]
    · rw [if_neg same, if_neg same]

/-- The accounts are the requests merged. -/
theorem toList_collect (asks : List (Ask κ)) : (collect asks).toList = Ask.merge asks := by
  rw [(inStep_collect asks).toList_eq, keys_collect, Ask.merge]
  apply List.filterMap_congr
  intro key _
  exact get?_collect asks key

end AccountMap

/-! ## What a map is of its insertions -/

variable {asks : List (Ask κ)} {key : κ} {account : AccountMeta}

/-- What the requests for a key come to: an account that does not sign, at the address that was
asked for first, and writable if any of them was for writing. -/
structure Ask.ComesTo (asks : List (Ask κ)) (key : κ) (account : AccountMeta) : Prop where
  first : ∃ before ask after, asks = before ++ ask :: after ∧
    (∀ earlier ∈ before, earlier.key ≠ key) ∧ ask.key = key ∧ account.address = ask.address
  signer : account.signer = false
  writable : account.writable = true ↔ ∃ ask ∈ asks, ask.key = key ∧ ask.writable = true

theorem Ask.account?_eq_some_iff : account? asks key = some account ↔ ComesTo asks key account := by
  constructor
  · intro comes
    obtain ⟨first, found, rfl⟩ := Option.map_eq_some_iff.1 comes
    obtain ⟨own, before, after, split, others⟩ := List.find?_eq_some_iff_append.1 found
    refine ⟨⟨before, first, after, split, ?_, by simpa using own, rfl⟩, rfl, by simp⟩
    intro earlier mem
    simpa using others earlier mem
  · intro ⟨⟨before, first, after, split, others, own, address⟩, signer, writable⟩
    have found : (asks.find? fun ask => ask.key = key) = some first := by
      apply List.find?_eq_some_iff_append.2
      refine ⟨by simpa using own, before, after, split, ?_⟩
      intro earlier mem
      simpa using others earlier mem
    have any : (asks.any fun ask => ask.key = key && ask.writable) = account.writable := by
      rw [Bool.eq_iff_iff, writable]
      simp
    rw [account?, found, Option.map_some, any, ← address, ← signer]

namespace AccountMap

variable {m later last : AccountMap κ}

/-- The map stands for these insertions: positions and distinct keys correspond one to one, the
accounts are listed as their keys first came, and each is what the insertions of its key come to. -/
structure Represents (m : AccountMap κ) (asks : List (Ask κ)) : Prop where
  positions : Set.BijOn m.position? {key | key ∈ asks.map Ask.key} (some '' Set.Iio m.size)
  ranked : ∀ key position, m.position? key = some position ↔ (Ask.keys asks)[position]? = some key
  listed : List.Forall₂ (Ask.ComesTo asks) (Ask.keys asks) m.toList
  held : ∀ key account, m.get? key = some account ↔ Ask.ComesTo asks key account
  known : ∀ key, m.contains key = true ↔ key ∈ asks.map Ask.key

/-- What the map has stays where it is and as it is, but that it may have become writable. -/
structure Upgrades (m later : AccountMap κ) : Prop where
  position : ∀ key position, m.position? key = some position → later.position? key = some position
  account : ∀ key held, m.get? key = some held → ∃ now, later.get? key = some now ∧
    now.address = held.address ∧ now.signer = held.signer ∧
      (held.writable = true → now.writable = true)

theorem Upgrades.refl (m : AccountMap κ) : m.Upgrades m where
  position _ _ present := present
  account _ held found := ⟨held, found, rfl, rfl, id⟩

theorem Upgrades.trans (first : m.Upgrades later) (second : later.Upgrades last) :
    m.Upgrades last where
  position key position present := second.position key position (first.position key position present)
  account key held found := by
    obtain ⟨now, found, address, signer, raised⟩ := first.account key held found
    obtain ⟨last, found, address', signer', raised'⟩ := second.account key now found
    exact ⟨last, found, address'.trans address, signer'.trans signer, fun w => raised' (raised w)⟩

theorem upgrades_insert (h : m.InStep) (key : κ) (address : Address) (writable : Bool) :
    m.Upgrades (m.insert key address writable) where
  position other position present := by
    rw [position?_insert]
    by_cases same : key = other
    · subst same
      rw [if_pos rfl, present, Option.getD_some]
    · rwa [if_neg same]
  account other held found := by
    rw [h.get?_insert]
    by_cases same : key = other
    · subst same
      rw [if_pos rfl, found]
      exact ⟨_, rfl, rfl, rfl, fun w => by simp [w]⟩
    · rw [if_neg same]
      exact ⟨held, found, rfl, rfl, id⟩

theorem upgrades_collect (asks more : List (Ask κ)) :
    (collect asks).Upgrades (collect (asks ++ more)) := by
  induction more using List.reverseRecOn with
  | nil =>
    rw [List.append_nil]
    exact .refl _
  | append_singleton more ask ih =>
    rw [← List.append_assoc, collect_concat]
    exact ih.trans (upgrades_insert (inStep_collect _) ask.key ask.address ask.writable)

theorem represents_collect (asks : List (Ask κ)) : (collect asks).Represents asks := by
  have inStep := inStep_collect asks
  have ranked (key : κ) (position : Nat) : (collect asks).position? key = some position ↔
      (Ask.keys asks)[position]? = some key := by
    rw [inStep.position?_eq_some_iff, keys_collect]
  have known (key : κ) : key ∈ asks.map Ask.key ↔
      ∃ position, (collect asks).position? key = some position := by
    simp only [ranked, ← List.mem_iff_getElem?]
    exact List.mem_eraseDups.symm
  have comes (key : κ) (account : AccountMeta) :
      (collect asks).get? key = some account ↔ Ask.ComesTo asks key account := by
    rw [get?_collect, Ask.account?_eq_some_iff]
  refine ⟨⟨?_, ?_, ?_⟩, ranked, ?_, comes, ?_⟩
  · intro key mem
    obtain ⟨position, present⟩ := (known key).1 mem
    exact ⟨position, inStep.position_lt present, present.symm⟩
  · intro key mem other _ same
    obtain ⟨position, present⟩ := (known key).1 mem
    exact inStep.position_injective present (same.symm.trans present)
  · rintro _ ⟨position, lt, rfl⟩
    have within : position < (collect asks).keys.length := inStep.paired ▸ lt
    have present : (collect asks).position? (collect asks).keys[position] = some position :=
      inStep.position?_eq_some_iff.2 (List.getElem?_eq_getElem within)
    exact ⟨_, (known _).2 ⟨position, present⟩, present⟩
  · rw [← keys_collect, List.forall₂_iff_zip]
    refine ⟨inStep.paired, fun mem => ?_⟩
    exact (comes _ _).1 (inStep.get?_eq_some_iff.2 mem)
  · intro key
    rw [known, contains, Table.contains, Option.isSome_iff_exists]
    rfl

/-- However keys come again and addresses differ, positions and distinct keys correspond, the
accounts are listed as their keys first came, each at the address first given for it and writable if
it ever was inserted so, and later insertions move, replace or lower nothing. -/
theorem collect_represents (asks more : List (Ask κ)) :
    (collect asks).Represents asks ∧ (collect asks).Upgrades (collect (asks ++ more)) :=
  ⟨represents_collect asks, upgrades_collect asks more⟩

end AccountMap

end LedgerWatch
