import LedgerWatch.Address
import LedgerWatch.Table

/-!
# Accounts attached to an instruction

An account map collects accounts by key. The first insertion of a key fixes its place and its
address; later ones can only raise its access to writable. The accounts stand in one list, and a
table says for each key where its account stands.
-/

namespace LedgerWatch

/-- An account of an instruction. -/
structure AccountMeta where
  address : Address
  signer : Bool := false
  writable : Bool
deriving DecidableEq

structure AccountMap (κ : Type) where
  positions : Table κ Nat := {}
  accounts : List AccountMeta := []
deriving DecidableEq

namespace AccountMap

variable {κ : Type} [DecidableEq κ]

instance : Inhabited (AccountMap κ) := ⟨{}⟩

def insert (m : AccountMap κ) (key : κ) (address : Address) (writable : Bool) : AccountMap κ :=
  match m.positions.get? key with
  | some position =>
    let raise (held : AccountMeta) := { held with writable := held.writable || writable }
    { m with accounts := m.accounts.modify position raise }
  | none =>
    { positions := m.positions.insert key m.accounts.length
      accounts := m.accounts ++ [{ address, writable }] }

/-- Where a key's account stands in the list. -/
def position? (m : AccountMap κ) (key : κ) : Option Nat := m.positions.get? key

def get? (m : AccountMap κ) (key : κ) : Option AccountMeta :=
  (m.position? key).bind fun position => m.accounts[position]?

def contains (m : AccountMap κ) (key : κ) : Bool := m.positions.contains key

def size (m : AccountMap κ) : Nat := m.accounts.length

/-- The accounts in the order their keys first came. -/
def toList (m : AccountMap κ) : List AccountMeta := m.accounts

end AccountMap

end LedgerWatch
