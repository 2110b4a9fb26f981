/-!
# JSON values

Objects keep their members in order, repeated names included, and numbers keep their numeral as
written, so that a reader can be as strict about either as it has to be. A string whose escapes
spell half of a surrogate pair is well formed but holds no characters: it is `unpaired`.
-/

namespace LedgerWatch

inductive Json
  | null
  | bool (value : Bool)
  | num (numeral : String)
  | str (chars : Option String)
  | arr (items : List Json)
  | obj (members : List (Option String × Json))

namespace Json

instance : Inhabited Json := ⟨null⟩

def unpaired : Json := str none

def string (text : String) : Json := str (some text)

def nat (n : Nat) : Json := num (toString n)

def object (members : List (String × Json)) : Json :=
  obj (members.map fun (name, value) => (some name, value))

/-- A string's characters. -/
def text? : Json → Option String
  | str chars => chars
  | _ => none

def bool? : Json → Option Bool
  | bool value => some value
  | _ => none

def items? : Json → Option (List Json)
  | arr items => some items
  | _ => none

/-- The number that decimal digits write. -/
def decimal (digits : List Char) : Nat :=
  digits.foldl (fun n c => 10 * n + (c.toNat - 48)) 0

/-- The number, when its numeral is digits only. -/
def natural? : Json → Option Nat
  | num numeral =>
    if numeral ≠ "" ∧ numeral.toList.all Char.isDigit then some (decimal numeral.toList) else none
  | _ => none

def u64? (value : Json) : Option UInt64 := do
  let n ← value.natural?
  guard (n < UInt64.size)
  return UInt64.ofNat n

/-- The members of an object, unless a name is unpaired. -/
def members? : Json → Option (List (String × Json))
  | obj members => members.mapM fun (name, value) => name.map fun name => (name, value)
  | _ => none

/-- The only value under a name; no value and several are told apart. -/
def only (name : String) (members : List (String × Json)) : Option (Option Json) :=
  match members.filter fun m => m.1 == name with
  | [] => some none
  | [m] => some (some m.2)
  | _ => none

mutual

/-- How deep containers nest. -/
def depth : Json → Nat
  | arr items => depthItems items + 1
  | obj members => depthMembers members + 1
  | _ => 0

def depthItems : List Json → Nat
  | [] => 0
  | item :: rest => max (depth item) (depthItems rest)

def depthMembers : List (Option String × Json) → Nat
  | [] => 0
  | (_, value) :: rest => max (depth value) (depthMembers rest)

end

/-- The digits of a numeral without its exponent, how many follow the point, and the exponent. -/
def scientific (numeral : List Char) : Nat × Nat × Int :=
  let isMark (c : Char) := c = 'e' || c = 'E'
  let mantissa := numeral.takeWhile fun c => !isMark c
  let exponent := (numeral.dropWhile fun c => !isMark c).drop 1
  let number (cs : List Char) : Nat := decimal (cs.filter Char.isDigit)
  let fraction := (mantissa.dropWhile (· ≠ '.')).drop 1
  let size : Int := number exponent
  (number mantissa, fraction.length, if exponent.head? = some '-' then -size else size)

/-- The least number that rounds beyond the largest double. -/
def doubleBound : Nat := Nat.pow 2 1024 - Nat.pow 2 970

/-- Whether the numeral is in the range of a double. Powers of ten beyond four hundred decide it
without being computed. -/
def isFinite (numeral : String) : Bool :=
  let (digits, places, exponent) := scientific numeral.toList
  let shift := exponent - places
  if digits = 0 then true
  else if 400 < shift then false
  else if 0 ≤ shift then digits * Nat.pow 10 shift.toNat < doubleBound
  else if digits < Nat.pow 10 (-shift).toNat then true
  else digits < doubleBound * Nat.pow 10 (-shift).toNat

mutual

/-- Whether every string holds characters and every number is in range. -/
def isPlain : Json → Bool
  | null => true
  | bool _ => true
  | num numeral => isFinite numeral
  | str chars => chars.isSome
  | arr items => plainItems items
  | obj members => plainMembers members

def plainItems : List Json → Bool
  | [] => true
  | item :: rest => isPlain item && plainItems rest

def plainMembers : List (Option String × Json) → Bool
  | [] => true
  | (name, value) :: rest => name.isSome && isPlain value && plainMembers rest

end

end Json

end LedgerWatch
