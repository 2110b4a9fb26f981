import LedgerWatch.Address

/-!
# Reading the ledger

A reader serves three requests: one account, several in order, or every account of the program
that passes all filters. Each answer carries the slot it was served at; an absent account is an
answer, not an error.
-/

namespace LedgerWatch

/-- A value and the slot it was observed at. -/
structure Stamped (α : Type) where
  value : α
  slot : UInt64
deriving DecidableEq

def Stamped.map {α β : Type} (f : α → β) (s : Stamped α) : Stamped β := ⟨f s.value, s.slot⟩

/-- A comparison of account bytes from an offset on. -/
structure Window where
  offset : Nat
  bytes : Bytes
deriving DecidableEq

/-- Whether the data reaches as far as the window and agrees with it there. -/
def Window.accepts (w : Window) (data : Bytes) : Bool :=
  data.window? w.offset w.bytes.length == some w.bytes

inductive LedgerError
  | unavailable
  | lengthMismatch (expected actual : Nat)
deriving DecidableEq

def LedgerError.message : LedgerError → String
  | unavailable => "Failed to fetch account"
  | lengthMismatch expected actual => s!"Expected {expected} accounts, got {actual}"

inductive Request
  | account (address : Address)
  | accounts (addresses : List Address)
  | scan (filters : List Window)
deriving DecidableEq

/-- What a request is answered with: the data of the account, of each account, or of each match
with its address. -/
abbrev Request.Reply : Request → Type
  | account _ => Stamped (Option Bytes)
  | accounts _ => Stamped (List (Option Bytes))
  | scan _ => Stamped (List (Address × Bytes))

abbrev Request.Outcome (r : Request) : Type := Except LedgerError r.Reply

end LedgerWatch
