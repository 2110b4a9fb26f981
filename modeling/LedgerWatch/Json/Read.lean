import LedgerWatch.Json
import LedgerWatch.Text.Hex

/-!
# Reading JSON

The reader takes the strict grammar: blanks between tokens only, numerals without leading zeros
or signs other than a minus, no raw control characters in strings, every escape complete. It
reads to any depth. `parse` wants one value and nothing but blanks after it.
-/

namespace LedgerWatch.Json

def isBlank (c : Char) : Bool :=
  c = ' ' || c = '\t' || c = '\n' || c = '\r'

def skipBlanks (text : List Char) : List Char := text.dropWhile isBlank

/-- A character of a string, or the half of a surrogate pair that an escape spells. -/
inductive Piece
  | char (c : Char)
  | half (n : Nat)
deriving DecidableEq

def unit? (a b c d : Char) : Option Nat := do
  let a ← Text.Hex.value? a
  let b ← Text.Hex.value? b
  let c ← Text.Hex.value? c
  let d ← Text.Hex.value? d
  return 4096 * a + 256 * b + 16 * c + d

def Piece.ofUnit (n : Nat) : Piece :=
  if 0xD800 ≤ n ∧ n < 0xE000 then half n else char (Char.ofNat n)

def escape? (c : Char) : Option Char :=
  if c = '"' || c = '\\' || c = '/' then some c
  else if c = 'b' then some '\x08'
  else if c = 'f' then some '\x0c'
  else if c = 'n' then some '\n'
  else if c = 'r' then some '\r'
  else if c = 't' then some '\t'
  else none

/-- Reads a string from after its opening quote to after its closing one. -/
def pieces : List Char → Option (List Piece × List Char)
  | [] => none
  | '"' :: rest => some ([], rest)
  | '\\' :: 'u' :: a :: b :: c :: d :: rest => do
    let n ← unit? a b c d
    let (more, rest) ← pieces rest
    return (Piece.ofUnit n :: more, rest)
  | '\\' :: c :: rest => do
    let e ← escape? c
    let (more, rest) ← pieces rest
    return (.char e :: more, rest)
  | c :: rest =>
    if c.toNat < 0x20 || c = '\\' then none
    else do
      let (more, rest) ← pieces rest
      return (.char c :: more, rest)

/-- Joins the halves of pairs; a half without its other one leaves no characters. -/
def joined : List Piece → Option (List Char)
  | [] => some []
  | .char c :: rest => (joined rest).map (c :: ·)
  | .half high :: .half low :: rest =>
    if high < 0xDC00 ∧ 0xDC00 ≤ low then
      (joined rest).map (Char.ofNat (0x10000 + (high - 0xD800) * 0x400 + (low - 0xDC00)) :: ·)
    else none
  | .half _ :: _ => none

def quoted (text : List Char) : Option (Option String × List Char) := do
  let (found, rest) ← pieces text
  return ((joined found).map String.ofList, rest)

def digits (text : List Char) : List Char × List Char := text.span Char.isDigit

/-- One digit at least. -/
def someDigits (text : List Char) : Option (List Char × List Char) :=
  match digits text with
  | ([], _) => none
  | found => some found

def wholePart : List Char → Option (List Char × List Char)
  | '0' :: rest => some (['0'], rest)
  | text => someDigits text

def fractionPart : List Char → Option (List Char × List Char)
  | '.' :: rest => (someDigits rest).map fun (ds, rest) => ('.' :: ds, rest)
  | text => some ([], text)

def exponentPart : List Char → Option (List Char × List Char)
  | c :: rest =>
    if c = 'e' || c = 'E' then
      match rest with
      | s :: more =>
        if s = '+' || s = '-' then (someDigits more).map fun (ds, rest) => (c :: s :: ds, rest)
        else (someDigits rest).map fun (ds, rest) => (c :: ds, rest)
      | [] => none
    else some ([], c :: rest)
  | [] => some ([], [])

def signPart : List Char → List Char × List Char
  | '-' :: rest => (['-'], rest)
  | text => ([], text)

def numeral (text : List Char) : Option (List Char × List Char) := do
  let (sign, rest) := signPart text
  let (whole, rest) ← wholePart rest
  let (fraction, rest) ← fractionPart rest
  let (exponent, rest) ← exponentPart rest
  return (sign ++ whole ++ fraction ++ exponent, rest)

mutual

/-- Reads one value. The fuel is more than the number of characters. -/
def value : Nat → List Char → Option (Json × List Char)
  | 0, _ => none
  | fuel + 1, text =>
    match skipBlanks text with
    | 'n' :: 'u' :: 'l' :: 'l' :: rest => some (null, rest)
    | 't' :: 'r' :: 'u' :: 'e' :: rest => some (bool true, rest)
    | 'f' :: 'a' :: 'l' :: 's' :: 'e' :: rest => some (bool false, rest)
    | '"' :: rest => (quoted rest).map fun (chars, rest) => (str chars, rest)
    | '[' :: rest =>
      match skipBlanks rest with
      | ']' :: rest => some (arr [], rest)
      | text => (items fuel text).map fun (found, rest) => (arr found, rest)
    | '\x7b' :: rest =>
      match skipBlanks rest with
      | '\x7d' :: rest => some (obj [], rest)
      | text => (members fuel text).map fun (found, rest) => (obj found, rest)
    | text => (numeral text).map fun (found, rest) => (num (String.ofList found), rest)

/-- Reads one item or more, to after the closing bracket. -/
def items : Nat → List Char → Option (List Json × List Char)
  | 0, _ => none
  | fuel + 1, text => do
    let (item, rest) ← value fuel text
    match skipBlanks rest with
    | ',' :: rest => (items fuel rest).map fun (found, rest) => (item :: found, rest)
    | ']' :: rest => some ([item], rest)
    | _ => none

/-- Reads one member or more, to after the closing brace. -/
def members : Nat → List Char → Option (List (Option String × Json) × List Char)
  | 0, _ => none
  | fuel + 1, text =>
    match skipBlanks text with
    | '"' :: rest => do
      let (name, rest) ← quoted rest
      match skipBlanks rest with
      | ':' :: rest => do
        let (found, rest) ← value fuel rest
        match skipBlanks rest with
        | ',' :: rest => (members fuel rest).map fun (more, rest) => ((name, found) :: more, rest)
        | '\x7d' :: rest => some ([(name, found)], rest)
        | _ => none
      | _ => none
    | _ => none

end

/-! Blanks in front make no difference. -/

section Blanks

variable {text other : List Char}

theorem value_congr (same : skipBlanks text = skipBlanks other) (fuel : Nat) :
    value fuel text = value fuel other := by
  cases fuel with
  | zero => rfl
  | succ fuel => rw [value, value, same]

theorem items_congr (same : skipBlanks text = skipBlanks other) (fuel : Nat) :
    items fuel text = items fuel other := by
  cases fuel with
  | zero => rfl
  | succ fuel => rw [items, items, value_congr same]

theorem members_congr (same : skipBlanks text = skipBlanks other) (fuel : Nat) :
    members fuel text = members fuel other := by
  cases fuel with
  | zero => rfl
  | succ fuel => rw [members, members, same]

end Blanks

def parse (text : String) : Option Json := do
  let chars := text.toList
  let (found, rest) ← value (chars.length + 1) chars
  guard (skipBlanks rest).isEmpty
  return found

end LedgerWatch.Json
