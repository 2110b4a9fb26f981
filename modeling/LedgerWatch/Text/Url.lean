import LedgerWatch.Text.Hex
import LedgerWatch.Text.Utf8

/-!
# Absolute URLs

`isAbsolute` says whether a text can be read as an absolute URL: a scheme, and, where two slashes
follow or the scheme always has one, an authority: a host, and perhaps the number of a service
there. What follows the authority is not looked at. Blanks and control characters at the ends do
not count, nor do tabs and line breaks anywhere.
-/

namespace LedgerWatch.Text.Url

def isTrimmed (c : Char) : Bool := c.toNat ≤ 0x20

def trim (text : List Char) : List Char :=
  let inner := ((text.dropWhile isTrimmed).reverse.dropWhile isTrimmed).reverse
  inner.filter fun c => !(c = '\t' || c = '\n' || c = '\r')

/-- The scheme in lower case, and what follows its colon. -/
def scheme? : List Char → Option (String × List Char)
  | [] => none
  | c :: rest =>
    let inScheme (c : Char) := c.isAlphanum || c = '+' || c = '-' || c = '.'
    match (c :: rest).dropWhile inScheme with
    | ':' :: after =>
      if c.isAlpha then
        some (String.ofList (((c :: rest).takeWhile inScheme).map Char.toLower), after)
      else none
    | _ => none

/-- The schemes whose URLs always have a host. -/
def hosted : List String := ["http", "https", "ws", "wss", "ftp"]

/-- The bytes of a text in which a percent sign and two digits stand for a byte. -/
def percentDecode : List Char → Bytes
  | [] => []
  | '%' :: a :: b :: rest =>
    match Hex.value? a, Hex.value? b with
    | some high, some low => UInt8.ofNat (16 * high + low) :: percentDecode rest
    | _, _ => 0x25 :: percentDecode (a :: b :: rest)
  | c :: rest => Utf8.encode [c] ++ percentDecode rest

/-- Characters that no host has, as bytes. -/
def isForbidden (b : UInt8) : Bool :=
  b ≤ 0x20 || b = 0x7f || "#/:<>?@[\\]^|%".toList.any fun c => c.toNat == b.toNat

/-- Cuts a list at every separator. -/
def split (separator : Char) : List Char → List (List Char)
  | [] => [[]]
  | c :: rest =>
    if c = separator then [] :: split separator rest
    else
      match split separator rest with
      | first :: more => (c :: first) :: more
      | [] => [[c]]

def number? (base : Nat) (digits : List Char) : Option Nat :=
  digits.foldl (fun n c => do
    let d ← Hex.value? c
    if d < base then return base * (← n) + d else none) (some 0)

/-- One number of a dotted address: hexadecimal after `0x`, octal after `0`, else decimal. -/
def dotted? : List Char → Option Nat
  | [] => none
  | '0' :: x :: rest =>
    if x = 'x' || x = 'X' then number? 16 rest else number? 8 (x :: rest)
  | digits => number? 10 digits

/-- A host whose last label is a number must be a dotted address. -/
def isDottedOrName (host : List Char) : Bool :=
  let labels := split '.' host
  let labels := if labels.getLast? = some [] ∧ 1 < labels.length then labels.dropLast else labels
  match labels.getLast? with
  | none => false
  | some last =>
    let numeric := (last ≠ [] ∧ last.all Char.isDigit) ∨
      (last.take 2 = ['0', 'x'] ∨ last.take 2 = ['0', 'X']) ∧ (number? 16 (last.drop 2)).isSome
    if numeric then
      match labels.mapM dotted? with
      | none => false
      | some numbers =>
        numbers.length ≤ 4 && numbers.dropLast.all (· < 256) &&
          numbers.getLast?.any (· < Nat.pow 256 (5 - numbers.length))
    else true

/-- The groups of an address in brackets; the last may be a dotted address, which counts twice. -/
def groups? (text : List Char) : Option Nat :=
  if text = [] then some 0
  else
    let parts := split ':' text
    let isGroup (part : List Char) :=
      0 < part.length && part.length ≤ 4 && part.all fun c => (Hex.value? c).isSome
    let isQuad (part : List Char) :=
      let numbers := split '.' part
      numbers.length == 4 && numbers.all fun n =>
        n.all Char.isDigit && 0 < n.length && n.length ≤ 3 && (number? 10 n).any (· < 256) &&
          (n.length == 1 || n.head? != some '0')
    if parts.all isGroup then some parts.length
    else if parts.dropLast.all isGroup ∧ parts.getLast?.any isQuad then some (parts.length + 1)
    else none

/-- The text before and after the first double colon. -/
def halves? : List Char → Option (List Char × List Char)
  | ':' :: ':' :: rest => some ([], rest)
  | c :: rest => (halves? rest).map fun (a, b) => (c :: a, b)
  | [] => none

def isBracketed (text : List Char) : Bool :=
  match halves? text with
  | none => groups? text == some 8
  | some (before, after) =>
    match groups? before, groups? after with
    | some m, some n => m + n ≤ 7 && !before.contains '.'
    | _, _ => false

def isHost (special : Bool) (host : List Char) : Bool :=
  match host with
  | '[' :: rest => rest.getLast? = some ']' && isBracketed rest.dropLast
  | _ =>
    if special then
      let bytes := percentDecode host
      host ≠ [] && !bytes.any isForbidden &&
        isDottedOrName (bytes.map fun b => Char.ofNat b.toNat)
    else !host.any fun c => c ≠ '%' && c.toNat < 0x80 && isForbidden (UInt8.ofNat c.toNat) &&
      !(0 < c.toNat && c.toNat < 0x20) && c.toNat ≠ 0x7f

/-- Services are numbered with sixteen bits; no digits at all are allowed. -/
def isService (digits : List Char) : Bool :=
  digits.all Char.isDigit && (number? 10 digits).any (· ≤ 65535)

/-- The host and, after a colon outside brackets, the service. -/
def hostAndService (authority : List Char) : List Char × Option (List Char) :=
  let bracket := match authority with
    | '[' :: _ => authority.takeWhile (· ≠ ']')
    | _ => []
  let after := authority.drop bracket.length
  match after.dropWhile (· ≠ ':') with
  | [] => (authority, none)
  | _ :: service => (bracket ++ after.takeWhile (· ≠ ':'), some service)

def isAuthority (special : Bool) (authority : List Char) : Bool :=
  let place := (authority.reverse.takeWhile (· ≠ '@')).reverse
  let (host, service) := hostAndService place
  let mayBeEmpty := !special && service.isNone && place.length == authority.length
  (if host = [] then mayBeEmpty else isHost special host) && service.all isService

def isAbsolute (text : String) : Bool :=
  match scheme? (trim text.toList) with
  | none => false
  | some (scheme, rest) =>
    if scheme ∈ hosted then
      let isSlash (c : Char) := c = '/' || c = '\\'
      isAuthority true ((rest.dropWhile isSlash).takeWhile fun c =>
        !(isSlash c || c = '?' || c = '#'))
    else if scheme = "file" then true
    else
      match rest with
      | '/' :: '/' :: rest =>
        isAuthority false (rest.takeWhile fun c => !(c = '/' || c = '?' || c = '#'))
      | _ => true

end LedgerWatch.Text.Url
