import LedgerWatch.Text.Utf8

/-!
# Names in fixed fields

A market or user name fills a field of thirty-two bytes: its UTF-8 text cut after thirty-two
bytes, wherever that falls, or padded with spaces. Reading replaces malformed pieces and drops
trailing spaces and NULs.
-/

namespace LedgerWatch

abbrev Name := Vector UInt8 32

namespace Name

def ofChars (chars : List Char) : Name :=
  let bytes := Text.Utf8.encode chars
  Vector.ofFn fun i => bytes.getD i.val 0x20

def isFill (c : Char) : Bool :=
  c = '\x00' || c = ' '

def trimEnd (chars : List Char) : List Char :=
  (chars.reverse.dropWhile isFill).reverse

def chars (name : Name) : List Char :=
  trimEnd (Text.Utf8.decodeLossy name.toList)

def ofText (text : String) : Name := ofChars text.toList

def text (name : Name) : String := String.ofList name.chars

end Name

end LedgerWatch
