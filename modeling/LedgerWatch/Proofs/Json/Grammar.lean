import LedgerWatch.Json.Read
import Mathlib.Data.List.TakeDrop

/-!
# The grammar of JSON

`Spells` says which texts spell a value, with blanks anywhere between the tokens and with any way of
writing a character of a string. The reader reads every such text as that value
(`parse_of_spells`). What follows a numeral has to end it, so the reader's parts are looked at in
front of a rest (`Ends`, `Closes`).
-/

namespace LedgerWatch.Json

def Blanks (text : List Char) : Prop := ∀ c ∈ text, isBlank c = true

def Digits (text : List Char) : Prop := text ≠ [] ∧ ∀ c ∈ text, c.isDigit = true

inductive Whole : List Char → Prop
  | zero : Whole ['0']
  | digits {text : List Char} (digits : Digits text) (unpadded : text.head? ≠ some '0') : Whole text

inductive Fraction : List Char → Prop
  | none : Fraction []
  | digits {text : List Char} (digits : Digits text) : Fraction ('.' :: text)

inductive Exponent : List Char → Prop
  | none : Exponent []
  | unsigned {mark : Char} {text : List Char} (mark_eq : mark = 'e' ∨ mark = 'E')
      (digits : Digits text) : Exponent (mark :: text)
  | signed {mark sign : Char} {text : List Char} (mark_eq : mark = 'e' ∨ mark = 'E')
      (sign_eq : sign = '+' ∨ sign = '-') (digits : Digits text) : Exponent (mark :: sign :: text)

inductive Numeral : List Char → Prop
  | intro {sign whole fraction exponent : List Char} (sign_eq : sign = [] ∨ sign = ['-'])
      (whole_eq : Whole whole) (fraction_eq : Fraction fraction)
      (exponent_eq : Exponent exponent) : Numeral (sign ++ whole ++ fraction ++ exponent)

/-- What stands between the quotes of a string. -/
inductive StringText : List Piece → List Char → Prop
  | nil : StringText [] []
  | raw {c : Char} {found : List Piece} {text : List Char} (visible : 0x20 ≤ c.toNat)
      (unquoted : c ≠ '"') (unescaped : c ≠ '\\') (more : StringText found text) :
      StringText (.char c :: found) (c :: text)
  | escape {e c : Char} {found : List Piece} {text : List Char} (escapes : escape? e = some c)
      (more : StringText found text) : StringText (.char c :: found) ('\\' :: e :: text)
  | unit {a b c d : Char} {n : Nat} {found : List Piece} {text : List Char}
      (digits : unit? a b c d = some n) (more : StringText found text) :
      StringText (Piece.ofUnit n :: found) ('\\' :: 'u' :: a :: b :: c :: d :: text)

/-- The characters that pieces of a string come to. -/
def spelled (found : List Piece) : Option String := (joined found).map String.ofList

/-- What the parts of a text spell. -/
inductive Phrase
  | value (value : Json)
  /-- A value with blanks around it. -/
  | element (value : Json)
  /-- One item or more, with commas between them. -/
  | items (items : List Json)
  | member (member : Option String × Json)
  | members (members : List (Option String × Json))

inductive Spells : Phrase → List Char → Prop
  | null : Spells (.value .null) ['n', 'u', 'l', 'l']
  | true : Spells (.value (.bool true)) ['t', 'r', 'u', 'e']
  | false : Spells (.value (.bool false)) ['f', 'a', 'l', 's', 'e']
  | num {text : List Char} (numeral : Numeral text) :
      Spells (.value (.num (String.ofList text))) text
  | str {found : List Piece} {text : List Char} (string : StringText found text) :
      Spells (.value (.str (spelled found))) ('"' :: text ++ ['"'])
  | noItems {blanks : List Char} (blank : Blanks blanks) :
      Spells (.value (.arr [])) ('[' :: blanks ++ [']'])
  | arr {items : List Json} {text : List Char} (inside : Spells (.items items) text) :
      Spells (.value (.arr items)) ('[' :: text ++ [']'])
  | noMembers {blanks : List Char} (blank : Blanks blanks) :
      Spells (.value (.obj [])) ('\x7b' :: blanks ++ ['\x7d'])
  | obj {members : List (Option String × Json)} {text : List Char}
      (inside : Spells (.members members) text) :
      Spells (.value (.obj members)) ('\x7b' :: text ++ ['\x7d'])
  | element {value : Json} {before text after : List Char} (blank : Blanks before)
      (inside : Spells (.value value) text) (blank' : Blanks after) :
      Spells (.element value) (before ++ text ++ after)
  | lastItem {value : Json} {text : List Char} (last : Spells (.element value) text) :
      Spells (.items [value]) text
  | item {value : Json} {items : List Json} {text more : List Char}
      (first : Spells (.element value) text) (others : Spells (.items items) more) :
      Spells (.items (value :: items)) (text ++ ',' :: more)
  | member {found : List Piece} {value : Json} {before name after text : List Char}
      (blank : Blanks before) (string : StringText found name) (blank' : Blanks after)
      (inside : Spells (.element value) text) :
      Spells (.member (spelled found, value))
        (before ++ '"' :: name ++ '"' :: after ++ ':' :: text)
  | lastMember {member : Option String × Json} {text : List Char}
      (last : Spells (.member member) text) : Spells (.members [member]) text
  | members {member : Option String × Json} {members : List (Option String × Json)}
      {text more : List Char} (first : Spells (.member member) text)
      (others : Spells (.members members) more) :
      Spells (.members (member :: members)) (text ++ ',' :: more)

/-! ## Blanks -/

variable {text blanks rest : List Char} {fuel : Nat}

theorem blanks_nil : Blanks [] := fun _ mem => absurd mem List.not_mem_nil

theorem skipBlanks_append (blank : Blanks blanks) (text : List Char) :
    skipBlanks (blanks ++ text) = skipBlanks text := by
  induction blanks with
  | nil => rfl
  | cons c blanks ih =>
    have first : isBlank c = true := blank c (by simp)
    have others : Blanks blanks := fun d mem => blank d (by simp [mem])
    rw [← ih others]
    simp [skipBlanks, first]

theorem skipBlanks_cons {c : Char} (visible : isBlank c = false) (text : List Char) :
    skipBlanks (c :: text) = c :: text := by
  simp [skipBlanks, visible]

/-- Nothing is left, or what closes an item or a member. -/
def Closes (rest : List Char) : Prop := ∀ c ∈ rest.head?, c = ',' ∨ c = ']' ∨ c = '\x7d'

/-- No part of a numeral is next. -/
def Ends (rest : List Char) : Prop :=
  ∀ c ∈ rest.head?, c.isDigit = false ∧ c ≠ '.' ∧ c ≠ 'e' ∧ c ≠ 'E'

theorem Closes.skipBlanks_eq (h : Closes rest) : skipBlanks rest = rest := by
  cases rest with
  | nil => rfl
  | cons c rest =>
    apply skipBlanks_cons
    rcases h c rfl with rfl | rfl | rfl <;> rfl

theorem Closes.ends (h : Closes rest) (blank : Blanks blanks) : Ends (blanks ++ rest) := by
  intro c head
  cases blanks with
  | nil => rcases h c head with rfl | rfl | rfl <;> decide
  | cons b blanks =>
    obtain rfl := Option.some.inj head
    have visible := blank b (by simp)
    simp only [isBlank, Bool.or_eq_true, decide_eq_true_eq] at visible
    rcases visible with ((rfl | rfl) | rfl) | rfl <;> decide

/-! ## Numerals -/

/-- The next is no digit. -/
def Stops (rest : List Char) : Prop := ∀ c ∈ rest.head?, c.isDigit = false

theorem digits_append (digits_eq : ∀ c ∈ text, c.isDigit = true) (stops : Stops rest) :
    digits (text ++ rest) = (text, rest) := by
  have taken : rest.takeWhile Char.isDigit = [] := by
    cases rest with
    | nil => rfl
    | cons c rest => simp [stops c rfl]
  have dropped : rest.dropWhile Char.isDigit = rest := by
    cases rest with
    | nil => rfl
    | cons c rest => simp [stops c rfl]
  rw [digits, List.span_eq_takeWhile_dropWhile, List.takeWhile_append_of_pos digits_eq,
    List.dropWhile_append_of_pos digits_eq, taken, dropped, List.append_nil]

theorem someDigits_append (h : Digits text) (stops : Stops rest) :
    someDigits (text ++ rest) = some (text, rest) := by
  rw [someDigits, digits_append h.2 stops]
  cases text with
  | nil => exact absurd rfl h.1
  | cons c text => rfl

theorem wholePart_append (h : Whole text) (stops : Stops rest) :
    wholePart (text ++ rest) = some (text, rest) := by
  cases h with
  | zero => rfl
  | digits digits unpadded =>
    cases text with
    | nil => exact absurd rfl digits.1
    | cons c text =>
      have padded : c ≠ '0' := by simpa using unpadded
      rw [← someDigits_append digits stops]
      exact wholePart.eq_2 _ fun _ eq => padded (List.cons.inj eq).1

theorem fractionPart_append (h : Fraction text) (stops : Stops rest)
    (unpointed : rest.head? ≠ some '.') : fractionPart (text ++ rest) = some (text, rest) := by
  cases h with
  | none =>
    cases rest with
    | nil => rfl
    | cons c rest =>
      have pointless : c ≠ '.' := by simpa using unpointed
      exact fractionPart.eq_2 _ fun _ eq => pointless (List.cons.inj eq).1
  | digits digits =>
    simp only [List.cons_append, fractionPart, someDigits_append digits stops, Option.map_some]

theorem exponentPart_append (h : Exponent text) (ends : Ends rest) :
    exponentPart (text ++ rest) = some (text, rest) := by
  have stops : Stops rest := fun c head => (ends c head).1
  cases h with
  | none =>
    cases rest with
    | nil => rfl
    | cons c rest =>
      obtain ⟨-, -, lower, upper⟩ := ends c rfl
      simp [exponentPart, lower, upper]
  | @unsigned mark text mark_eq digits =>
    have marks : (decide (mark = 'e') || decide (mark = 'E')) = Bool.true := by simpa using mark_eq
    have found := someDigits_append digits stops
    cases text with
    | nil => exact absurd rfl digits.1
    | cons c text =>
      have digit := digits.2 c (by simp)
      have unsigned : (decide (c = '+') || decide (c = '-')) = Bool.false := by
        rw [Bool.or_eq_false_iff, decide_eq_false_iff_not, decide_eq_false_iff_not]
        constructor
        · rintro rfl
          exact absurd digit (by decide)
        · rintro rfl
          exact absurd digit (by decide)
      simp only [List.cons_append] at found ⊢
      simp only [exponentPart, marks, if_true, unsigned, Bool.false_eq_true, if_false, found,
        Option.map_some]
  | @signed mark sign text mark_eq sign_eq digits =>
    have marks : (decide (mark = 'e') || decide (mark = 'E')) = Bool.true := by simpa using mark_eq
    have signs : (decide (sign = '+') || decide (sign = '-')) = Bool.true := by simpa using sign_eq
    have found := someDigits_append digits stops
    simp only [List.cons_append, exponentPart, marks, signs, if_true, found, Option.map_some]

theorem Exponent.next (h : Exponent text) (ends : Ends rest) :
    Stops (text ++ rest) ∧ (text ++ rest).head? ≠ some '.' := by
  have apart : ∀ c ∈ (text ++ rest).head?, c.isDigit = false ∧ c ≠ '.' := by
    intro c head
    cases h with
    | none => exact ⟨(ends c head).1, (ends c head).2.1⟩
    | unsigned mark_eq =>
      obtain rfl := Option.some.inj head
      rcases mark_eq with rfl | rfl <;> decide
    | signed mark_eq =>
      obtain rfl := Option.some.inj head
      rcases mark_eq with rfl | rfl <;> decide
  exact ⟨fun c head => (apart c head).1, fun head => (apart '.' head).2 rfl⟩

theorem Fraction.next (h : Fraction text) (stops : Stops rest) : Stops (text ++ rest) := by
  cases h with
  | none => exact stops
  | digits digits =>
    intro c head
    obtain rfl := Option.some.inj head
    rfl

theorem Whole.head (h : Whole text) : ∃ c tail, text = c :: tail ∧ c.isDigit = true := by
  cases h with
  | zero => exact ⟨'0', [], rfl, rfl⟩
  | digits digits unpadded =>
    obtain ⟨c, tail, rfl⟩ := List.exists_cons_of_ne_nil digits.1
    exact ⟨c, tail, rfl, digits.2 c (by simp)⟩

theorem signPart_append {sign : List Char} (sign_eq : sign = [] ∨ sign = ['-'])
    (unsigned : text.head? ≠ some '-') : signPart (sign ++ text) = (sign, text) := by
  rcases sign_eq with rfl | rfl
  · cases text with
    | nil => rfl
    | cons c text =>
      have minus : c ≠ '-' := by simpa using unsigned
      exact signPart.eq_2 _ fun _ eq => minus (List.cons.inj eq).1
  · rfl

theorem numeral_append (h : Numeral text) (ends : Ends rest) :
    numeral (text ++ rest) = some (text, rest) := by
  obtain ⟨sign_eq, whole_eq, fraction_eq, exponent_eq⟩ := h
  rename_i sign whole fraction exponent
  obtain ⟨stops, unpointed⟩ := exponent_eq.next ends
  obtain ⟨c, tail, rfl, digit⟩ := whole_eq.head
  have unsigned : (c :: tail ++ (fraction ++ (exponent ++ rest))).head? ≠ some '-' := by
    intro head
    obtain rfl := Option.some.inj head
    exact absurd digit (by decide)
  have split : sign ++ (c :: tail) ++ fraction ++ exponent ++ rest =
      sign ++ (c :: tail ++ (fraction ++ (exponent ++ rest))) := by simp only [List.append_assoc]
  rw [numeral, split, signPart_append sign_eq unsigned]
  simp only [wholePart_append whole_eq (fraction_eq.next stops),
    fractionPart_append fraction_eq stops unpointed, exponentPart_append exponent_eq ends,
    Option.bind_eq_bind, Option.bind_some, Option.pure_def]

/-! ## Strings -/

theorem pieces_append {found : List Piece} (h : StringText found text) (rest : List Char) :
    pieces (text ++ '"' :: rest) = some (found, rest) := by
  induction h with
  | nil => rfl
  | @raw c found text visible unquoted unescaped more ih =>
    have shown : ¬ (decide (c.toNat < 0x20) || decide (c = '\\')) = Bool.true := by
      rw [Bool.or_eq_true, decide_eq_true_eq, decide_eq_true_eq, not_or]
      exact ⟨Nat.not_lt.2 visible, unescaped⟩
    rw [List.cons_append, pieces.eq_5 c _ unquoted (fun _ _ _ _ _ eq _ => unescaped eq)
      (fun _ _ eq _ => unescaped eq), if_neg shown, ih]
    rfl
  | @escape e c found text escapes more ih =>
    have numbered : e ≠ 'u' := by
      rintro rfl
      cases escapes
    rw [List.cons_append, List.cons_append,
      pieces.eq_4 e _ (fun _ _ _ _ _ eq _ => numbered eq), escapes, ih]
    rfl
  | unit digits more ih =>
    simp only [List.cons_append, pieces, digits, ih]
    rfl

theorem quoted_append {found : List Piece} (h : StringText found text) (rest : List Char) :
    quoted (text ++ '"' :: rest) = some (spelled found, rest) := by
  rw [quoted, pieces_append h]
  rfl

/-! ## Values -/

theorem value_blanks (blank : Blanks blanks) (fuel : Nat) (text : List Char) :
    value fuel (blanks ++ text) = value fuel text :=
  value_congr (skipBlanks_append blank text) fuel

/-- The text begins with what begins a value or a member, after blanks. -/
def Begins (text : List Char) : Prop :=
  ∃ blanks c tail, text = blanks ++ c :: tail ∧ Blanks blanks ∧ isBlank c = false ∧ c ≠ ']' ∧
    c ≠ '\x7d'

theorem begins_cons {c : Char} {tail : List Char}
    (visible : isBlank c = false ∧ c ≠ ']' ∧ c ≠ '\x7d') : Begins (c :: tail) :=
  ⟨[], c, tail, rfl, blanks_nil, visible⟩

theorem Begins.append (h : Begins text) (rest : List Char) : Begins (text ++ rest) := by
  obtain ⟨blanks, c, tail, rfl, blank, visible⟩ := h
  exact ⟨blanks, c, tail ++ rest, by simp, blank, visible⟩

theorem begins_blanks (blank : Blanks blanks) (h : Begins text) : Begins (blanks ++ text) := by
  obtain ⟨more, c, tail, rfl, blank', visible⟩ := h
  refine ⟨blanks ++ more, c, tail, by simp, ?_, visible⟩
  intro d mem
  exact (List.mem_append.1 mem).elim (blank d) (blank' d)

/-- A numeral begins with a minus or a digit. -/
theorem Numeral.head (h : Numeral text) : ∃ c tail, text = c :: tail ∧ isBlank c = false ∧
    ∀ d : Char, d.isDigit = false → d ≠ '-' → c ≠ d := by
  obtain ⟨sign_eq, whole_eq, -, -⟩ := h
  obtain ⟨c, tail, rfl, digit⟩ := whole_eq.head
  rcases sign_eq with rfl | rfl
  · have other : ∀ d : Char, d.isDigit = false → d ≠ '-' → c ≠ d := by
      rintro d undigit - rfl
      rw [digit] at undigit
      cases undigit
    have visible : isBlank c = false := by
      simp [isBlank, other ' ', other '\t', other '\n', other '\r']
    exact ⟨c, _, rfl, visible, other⟩
  · exact ⟨'-', _, rfl, rfl, fun d _ other => other.symm⟩

theorem Spells.begins {phrase : Phrase} (h : Spells phrase text) : Begins text := by
  induction h with
  | num numeral =>
    obtain ⟨c, tail, rfl, visible, head⟩ := numeral.head
    exact begins_cons ⟨visible, head ']' rfl (by decide), head '\x7d' rfl (by decide)⟩
  | element blank inside blank' ih =>
    rw [List.append_assoc]
    exact begins_blanks blank (ih.append _)
  | lastItem last ih => exact ih
  | item first others ih => exact ih.append _
  | member blank =>
    rw [List.append_assoc, List.append_assoc]
    exact begins_blanks blank (begins_cons (by decide))
  | lastMember last ih => exact ih
  | members first others ih => exact ih.append _
  | _ => exact begins_cons (by decide)

theorem value_numeral (h : Numeral text) (ends : Ends rest) (fuel : Nat) :
    value (fuel + 1) (text ++ rest) = some (.num (String.ofList text), rest) := by
  have found := numeral_append h ends
  obtain ⟨c, tail, rfl, visible, head⟩ := h.head
  rw [List.cons_append] at found ⊢
  rw [value, skipBlanks_cons visible]
  split
  case h_7 =>
    rw [found]
    rfl
  -- no other value begins like a numeral
  all_goals
    rename_i eq
    injection eq with eq
    exact absurd eq (head _ rfl (by decide))

/-- What the reader makes of a phrase in front of a rest, with enough fuel. -/
def Reads : Phrase → List Char → Prop
  | .value v, text => ∀ fuel rest, text.length ≤ fuel → Ends rest →
    value fuel (text ++ rest) = some (v, rest)
  | .element v, text => ∀ fuel rest, text.length ≤ fuel → Closes rest →
    ∃ after, value fuel (text ++ rest) = some (v, after) ∧ skipBlanks after = rest
  | .items vs, text => ∀ fuel rest, text.length + 1 ≤ fuel →
    items fuel (text ++ ']' :: rest) = some (vs, rest)
  | .member m, text => ∀ fuel, text.length ≤ fuel →
    (∀ rest, members (fuel + 1) (text ++ '\x7d' :: rest) = some ([m], rest)) ∧
      ∀ rest, members (fuel + 1) (text ++ ',' :: rest) =
        (members fuel rest).map fun (more, rest) => (m :: more, rest)
  | .members ms, text => ∀ fuel rest, text.length + 1 ≤ fuel →
    members fuel (text ++ '\x7d' :: rest) = some (ms, rest)

theorem items_blanks (blank : Blanks blanks) (fuel : Nat) (text : List Char) :
    items fuel (blanks ++ text) = items fuel text :=
  items_congr (skipBlanks_append blank text) fuel

theorem members_blanks (blank : Blanks blanks) (fuel : Nat) (text : List Char) :
    members fuel (blanks ++ text) = members fuel text :=
  members_congr (skipBlanks_append blank text) fuel

theorem value_bracket (begins : Begins text) (fuel : Nat) : value (fuel + 1) ('[' :: text) =
    (items fuel text).map fun (found, rest) => (arr found, rest) := by
  obtain ⟨blanks, c, tail, rfl, blank, visible, open_, -⟩ := begins
  rw [items_blanks blank, value, skipBlanks_cons rfl]
  simp only [skipBlanks_append blank, skipBlanks_cons visible]
  split
  · rename_i eq
    injection eq with eq
    exact absurd eq open_
  · rfl

theorem value_brace (begins : Begins text) (fuel : Nat) : value (fuel + 1) ('\x7b' :: text) =
    (members fuel text).map fun (found, rest) => (obj found, rest) := by
  obtain ⟨blanks, c, tail, rfl, blank, visible, -, open_⟩ := begins
  rw [members_blanks blank, value, skipBlanks_cons rfl]
  simp only [skipBlanks_append blank, skipBlanks_cons visible]
  split
  · rename_i eq
    injection eq with eq
    exact absurd eq open_
  · rfl

/-- What comes after a member decides whether it is the last. -/
def afterMember (fuel : Nat) (member : Option String × Json) :
    List Char → Option (List (Option String × Json) × List Char)
  | ',' :: rest => (members fuel rest).map fun (more, rest) => (member :: more, rest)
  | '\x7d' :: rest => some ([member], rest)
  | _ => none

theorem members_member {found : List Piece} {before name after : List Char} (blank : Blanks before)
    (string : StringText found name) (blank' : Blanks after) {v : Json} {left : List Char}
    (reads : value fuel text = some (v, left)) :
    members (fuel + 1) (before ++ '"' :: name ++ '"' :: after ++ ':' :: text) =
      afterMember fuel (spelled found, v) (skipBlanks left) := by
  have split : before ++ '"' :: name ++ '"' :: after ++ ':' :: text =
      before ++ '"' :: (name ++ '"' :: (after ++ ':' :: text)) := by simp
  rw [split, members_blanks blank, members, skipBlanks_cons rfl]
  simp only [quoted_append string, Option.bind_eq_bind, Option.bind_some,
    skipBlanks_append blank', skipBlanks_cons (c := ':') rfl, reads]
  rfl

/-! ## Texts -/

variable {v : Json} {m : Option String × Json} {vs : List Json}
  {ms : List (Option String × Json)} {before after more : List Char} {found : List Piece}

theorem reads_value (nonempty : text ≠ [])
    (reads : ∀ fuel rest, text.length ≤ fuel + 1 → Ends rest →
      value (fuel + 1) (text ++ rest) = some (v, rest)) : Reads (.value v) text := by
  intro fuel rest size ends
  cases fuel with
  | zero => exact absurd (List.length_eq_zero_iff.1 (Nat.le_zero.1 size)) nonempty
  | succ fuel => exact reads fuel rest size ends

theorem Numeral.reads (h : Numeral text) : Reads (.value (.num (String.ofList text))) text := by
  apply reads_value
  · obtain ⟨c, tail, rfl, -⟩ := h.head
    exact List.cons_ne_nil c tail
  · intro fuel rest size ends
    exact value_numeral h ends fuel

theorem StringText.reads (h : StringText found text) :
    Reads (.value (.str (spelled found))) ('"' :: text ++ ['"']) := by
  apply reads_value
  · exact List.cons_ne_nil _ _
  · intro fuel rest size ends
    have split : '"' :: text ++ ['"'] ++ rest = '"' :: (text ++ '"' :: rest) := by simp
    rw [split, value, skipBlanks_cons rfl]
    simp only [quoted_append h, Option.map_some]

theorem Blanks.reads_items (h : Blanks blanks) :
    Reads (.value (.arr [])) ('[' :: blanks ++ [']']) := by
  apply reads_value
  · exact List.cons_ne_nil _ _
  · intro fuel rest size ends
    have split : '[' :: blanks ++ [']'] ++ rest = '[' :: (blanks ++ ']' :: rest) := by simp
    rw [split, value, skipBlanks_cons rfl]
    simp only [skipBlanks_append h, skipBlanks_cons (c := ']') rfl]

theorem Blanks.reads_members (h : Blanks blanks) :
    Reads (.value (.obj [])) ('\x7b' :: blanks ++ ['\x7d']) := by
  apply reads_value
  · exact List.cons_ne_nil _ _
  · intro fuel rest size ends
    have split : '\x7b' :: blanks ++ ['\x7d'] ++ rest = '\x7b' :: (blanks ++ '\x7d' :: rest) := by
      simp
    rw [split, value, skipBlanks_cons rfl]
    simp only [skipBlanks_append h, skipBlanks_cons (c := '\x7d') rfl]

theorem Reads.arr (begins : Begins text) (h : Reads (.items vs) text) :
    Reads (.value (.arr vs)) ('[' :: text ++ [']']) := by
  apply reads_value
  · exact List.cons_ne_nil _ _
  · intro fuel rest size ends
    have split : '[' :: text ++ [']'] ++ rest = '[' :: (text ++ ']' :: rest) := by simp
    have enough : text.length + 1 ≤ fuel := by simpa using size
    rw [split, value_bracket (begins.append _), h fuel rest enough]
    rfl

theorem Reads.obj (begins : Begins text) (h : Reads (.members ms) text) :
    Reads (.value (.obj ms)) ('\x7b' :: text ++ ['\x7d']) := by
  apply reads_value
  · exact List.cons_ne_nil _ _
  · intro fuel rest size ends
    have split : '\x7b' :: text ++ ['\x7d'] ++ rest = '\x7b' :: (text ++ '\x7d' :: rest) := by simp
    have enough : text.length + 1 ≤ fuel := by simpa using size
    rw [split, value_brace (begins.append _), h fuel rest enough]
    rfl

theorem Reads.element (blank : Blanks before) (h : Reads (.value v) text) (blank' : Blanks after) :
    Reads (.element v) (before ++ text ++ after) := by
  intro fuel rest size closes
  have enough : text.length ≤ fuel := by
    rw [List.length_append, List.length_append] at size
    omega
  refine ⟨after ++ rest, ?_, ?_⟩
  · rw [List.append_assoc, List.append_assoc, value_blanks blank]
    exact h fuel (after ++ rest) enough (closes.ends blank')
  · rw [skipBlanks_append blank', closes.skipBlanks_eq]

theorem Reads.lastItem (h : Reads (.element v) text) : Reads (.items [v]) text := by
  intro fuel rest size
  cases fuel with
  | zero => cases size
  | succ fuel =>
    have closes : Closes (']' :: rest) := fun c head => .inr (.inl (Option.some.inj head).symm)
    obtain ⟨after, reads, skips⟩ := h fuel (']' :: rest) (Nat.le_of_succ_le_succ size) closes
    rw [items, reads]
    simp only [Option.bind_eq_bind, Option.bind_some, skips]

theorem Reads.item (h : Reads (.element v) text) (others : Reads (.items vs) more) :
    Reads (.items (v :: vs)) (text ++ ',' :: more) := by
  intro fuel rest size
  cases fuel with
  | zero => cases size
  | succ fuel =>
    have sizes : text.length ≤ fuel ∧ more.length + 1 ≤ fuel := by
      simp only [List.length_append, List.length_cons] at size
      omega
    have closes : Closes (',' :: (more ++ ']' :: rest)) :=
      fun c head => .inl (Option.some.inj head).symm
    obtain ⟨after, reads, skips⟩ := h fuel _ sizes.1 closes
    rw [List.append_assoc, List.cons_append, items, reads]
    simp only [Option.bind_eq_bind, Option.bind_some, skips, others fuel rest sizes.2,
      Option.map_some]

theorem Reads.member {name : List Char} (blank : Blanks before) (string : StringText found name)
    (blank' : Blanks after) (h : Reads (.element v) text) :
    Reads (.member (spelled found, v)) (before ++ '"' :: name ++ '"' :: after ++ ':' :: text) := by
  intro fuel size
  have enough : text.length ≤ fuel := by
    simp only [List.length_append, List.length_cons] at size
    omega
  constructor
  · intro rest
    have closes : Closes ('\x7d' :: rest) := fun c head => .inr (.inr (Option.some.inj head).symm)
    obtain ⟨left, reads, skips⟩ := h fuel ('\x7d' :: rest) enough closes
    rw [List.append_assoc, List.cons_append, members_member blank string blank' reads, skips]
    rfl
  · intro rest
    have closes : Closes (',' :: rest) := fun c head => .inl (Option.some.inj head).symm
    obtain ⟨left, reads, skips⟩ := h fuel (',' :: rest) enough closes
    rw [List.append_assoc, List.cons_append, members_member blank string blank' reads, skips]
    rfl

theorem Reads.lastMember (h : Reads (.member m) text) : Reads (.members [m]) text := by
  intro fuel rest size
  cases fuel with
  | zero => cases size
  | succ fuel => exact (h fuel (Nat.le_of_succ_le_succ size)).1 rest

theorem Reads.members (h : Reads (.member m) text) (others : Reads (.members ms) more) :
    Reads (.members (m :: ms)) (text ++ ',' :: more) := by
  intro fuel rest size
  cases fuel with
  | zero => cases size
  | succ fuel =>
    have sizes : text.length ≤ fuel ∧ more.length + 1 ≤ fuel := by
      simp only [List.length_append, List.length_cons] at size
      omega
    rw [List.append_assoc, List.cons_append, (h fuel sizes.1).2, others fuel rest sizes.2]
    rfl

/-- The reader makes of a text what the text spells. -/
theorem Spells.reads {phrase : Phrase} (h : Spells phrase text) : Reads phrase text := by
  induction h with
  | null | true | false => exact reads_value (List.cons_ne_nil _ _) fun _ _ _ _ => rfl
  | num numeral => exact numeral.reads
  | str string => exact string.reads
  | noItems blank => exact blank.reads_items
  | arr inside ih => exact ih.arr inside.begins
  | noMembers blank => exact blank.reads_members
  | obj inside ih => exact ih.obj inside.begins
  | element blank inside blank' ih => exact ih.element blank blank'
  | lastItem last ih => exact ih.lastItem
  | item first others ih ih' => exact ih.item ih'
  | member blank string blank' inside ih => exact ih.member blank string blank'
  | lastMember last ih => exact ih.lastMember
  | members first others ih ih' => exact ih.members ih'

/-- A text that spells a value is read as that value. -/
theorem parse_of_spells {v : Json} {text : String} (h : Spells (.element v) text.toList) :
    parse text = some v := by
  obtain ⟨after, reads, skips⟩ := h.reads (text.toList.length + 1) [] (Nat.le_succ _)
    (fun c head => by cases head)
  rw [List.append_nil] at reads
  have whole : (skipBlanks after).isEmpty = Bool.true := by
    rw [skips]
    rfl
  rw [parse, reads]
  show (do guard (skipBlanks after).isEmpty; some v) = some v
  rw [guard, if_pos whole]
  rfl

end LedgerWatch.Json
