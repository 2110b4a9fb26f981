import LedgerWatch.Json
import LedgerWatch.Text.Hex

/-!
# Writing JSON

Values are written without blanks. A string escapes quotes, backslashes and control characters,
the common ones by letter and the others by number, and nothing else.
-/

namespace LedgerWatch.Json

def escaped (c : Char) : List Char :=
  if c = '"' then ['\\', '"']
  else if c = '\\' then ['\\', '\\']
  else if c = '\x08' then ['\\', 'b']
  else if c = '\t' then ['\\', 't']
  else if c = '\n' then ['\\', 'n']
  else if c = '\x0c' then ['\\', 'f']
  else if c = '\r' then ['\\', 'r']
  else if c.toNat < 0x20 then
    ['\\', 'u', '0', '0', Text.Hex.digit (c.toNat / 16), Text.Hex.digit (c.toNat % 16)]
  else [c]

/-- An unpaired string is written as the first half of a pair. -/
def stringChars (chars : Option String) : List Char :=
  match chars with
  | some text => '"' :: text.toList.flatMap escaped ++ ['"']
  | none => "\"\\ud800\"".toList

mutual

def chars : Json → List Char
  | null => "null".toList
  | bool true => "true".toList
  | bool false => "false".toList
  | num numeral => numeral.toList
  | str s => stringChars s
  | arr [] => "[]".toList
  | arr (item :: rest) => '[' :: chars item ++ itemChars rest
  | obj [] => ['\x7b', '\x7d']
  | obj ((name, value) :: rest) => '\x7b' :: stringChars name ++ ':' :: chars value ++ memberChars rest

/-- The items after the first, and the closing bracket. -/
def itemChars : List Json → List Char
  | [] => [']']
  | item :: rest => ',' :: chars item ++ itemChars rest

def memberChars : List (Option String × Json) → List Char
  | [] => ['\x7d']
  | (name, value) :: rest => ',' :: stringChars name ++ ':' :: chars value ++ memberChars rest

end

def write (value : Json) : String := String.ofList value.chars

end LedgerWatch.Json
