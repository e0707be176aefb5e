import Runbook.Json.Parser

/-!
# The grammar of JSON

Which texts denote which values, told by rules and without a reader: the rules say nothing of fuel,
of what follows a text, or of how a reader finds its way.

The module introduces:

* `Json.IsNumber`: the literals of numbers;
* `Json.Spells`: the text between the quotes of a string, and the codes that it spells;
* `Json.Denotes`: the texts of values, with `DenotesItems` and `DenotesMembers` for the texts of
  items and members between their brackets.
-/

namespace Runbook.Json

/-! ## Tokens -/

/-- White space, or nothing. -/
def IsBlank (cs : List Char) : Prop :=
  ∀ c ∈ cs, isBlankChar c = true

/-- Digits, or nothing. -/
def AllDigits (cs : List Char) : Prop :=
  ∀ c ∈ cs, Text.isAsciiDigit c = true

/-- The digits of a number before its point: a zero alone, or digits of which the first is none. -/
inductive IsWhole : List Char → Prop
  | zero : IsWhole ['0']
  | digits {c : Char} {cs : List Char} :
      c ≠ '0' → Text.isAsciiDigit c = true → AllDigits cs → IsWhole (c :: cs)

/-- A point with digits after it, or nothing. -/
inductive IsFraction : List Char → Prop
  | none : IsFraction []
  | digits {c : Char} {cs : List Char} :
      Text.isAsciiDigit c = true → AllDigits cs → IsFraction ('.' :: c :: cs)

/-- An exponent, or nothing. -/
inductive IsExponent : List Char → Prop
  | none : IsExponent []
  | digits {e : Char} {sign : List Char} {c : Char} {cs : List Char} :
      e = 'e' ∨ e = 'E' → sign ∈ [[], ['+'], ['-']] → Text.isAsciiDigit c = true →
      AllDigits cs → IsExponent (e :: (sign ++ c :: cs))

/-- The parts of a number's literal. -/
structure NumberParts (sign whole fraction exponent : List Char) : Prop where
  /-- There may be a minus sign. -/
  sign : sign = [] ∨ sign = ['-']
  /-- There are digits before the point. -/
  whole : IsWhole whole
  /-- There may be a fraction. -/
  fraction : IsFraction fraction
  /-- There may be an exponent. -/
  exponent : IsExponent exponent

/-- The literal of a number. -/
def IsNumber (cs : List Char) : Prop :=
  ∃ sign whole fraction exponent, NumberParts sign whole fraction exponent ∧
    cs = sign ++ (whole ++ (fraction ++ exponent))

/-- The text between the quotes of a string, and the codes that it spells. -/
inductive Spells : List Char → List Nat → Prop
  | nil : Spells [] []
  | plain {c : Char} {cs : List Char} {codes : List Nat} :
      c ≠ '"' → c ≠ '\\' → 0x20 ≤ c.toNat → Spells cs codes → Spells (c :: cs) (c.toNat :: codes)
  | letter {e c : Char} {cs : List Char} {codes : List Nat} :
      escape? e = some c → Spells cs codes → Spells ('\\' :: e :: cs) (c.toNat :: codes)
  | number {a b c d : Char} {n : Nat} {cs : List Char} {codes : List Nat} :
      hexNumber? a b c d = some n → Spells cs codes →
      Spells ('\\' :: 'u' :: a :: b :: c :: d :: cs) (n :: codes)

/-- The text of a string with its quotes. -/
def quoted (body : List Char) : List Char :=
  '"' :: (body ++ ['"'])

/-- The string of which the codes are spelt. Which characters they form is told by rules in
`Json.Forms`, which come to the same (`Json.Spells.forms_iff`). -/
def spelt (codes : List Nat) : String :=
  String.ofList (joinSurrogates codes)

/-! ## Values -/

mutual

/-- A text denotes a value. -/
inductive Denotes : List Char → Json → Prop
  | word {cs : List Char} {j : Json} : (cs, j) ∈ words → Denotes cs j
  | number {cs : List Char} : IsNumber cs → Denotes cs (.number (String.ofList cs))
  | string {body : List Char} {codes : List Nat} :
      Spells body codes → Denotes (quoted body) (.string (spelt codes))
  | emptyArray {blank : List Char} : IsBlank blank → Denotes ('[' :: (blank ++ [']'])) (.array [])
  | array {blank cs : List Char} {items : List Json} :
      IsBlank blank → DenotesItems cs items → Denotes ('[' :: (blank ++ (cs ++ [']']))) (.array items)
  | emptyObject {blank : List Char} :
      IsBlank blank → Denotes ('\x7b' :: (blank ++ ['\x7d'])) (.object [])
  | object {blank cs : List Char} {members : List (String × Json)} :
      IsBlank blank → DenotesMembers cs members →
      Denotes ('\x7b' :: (blank ++ (cs ++ ['\x7d']))) (.object (collapse members))

/-- A text denotes the items of an array, from the first one to the closing bracket. -/
inductive DenotesItems : List Char → List Json → Prop
  | last {cs blank : List Char} {item : Json} :
      Denotes cs item → IsBlank blank → DenotesItems (cs ++ blank) [item]
  | cons {cs before after rest : List Char} {item : Json} {items : List Json} :
      Denotes cs item → IsBlank before → IsBlank after → DenotesItems rest items →
      DenotesItems (cs ++ (before ++ ',' :: (after ++ rest))) (item :: items)

/-- A text denotes the members of an object as written, from the first one to the closing brace. -/
inductive DenotesMembers : List Char → List (String × Json) → Prop
  | last {cs blank : List Char} {member : String × Json} :
      DenotesMember cs member → IsBlank blank → DenotesMembers (cs ++ blank) [member]
  | cons {cs before after rest : List Char} {member : String × Json}
      {members : List (String × Json)} :
      DenotesMember cs member → IsBlank before → IsBlank after → DenotesMembers rest members →
      DenotesMembers (cs ++ (before ++ ',' :: (after ++ rest))) (member :: members)

/-- A text denotes a member: a key and a value with a colon between them. -/
inductive DenotesMember : List Char → String × Json → Prop
  | intro {body before after cs : List Char} {codes : List Nat} {value : Json} :
      Spells body codes → IsBlank before → IsBlank after → Denotes cs value →
      DenotesMember (quoted body ++ (before ++ ':' :: (after ++ cs))) (spelt codes, value)

end

/-- The whole of a text denotes a value, with white space around it. -/
def DenotesWhole (cs : List Char) (j : Json) : Prop :=
  ∃ before text after, IsBlank before ∧ IsBlank after ∧ Denotes text j ∧
    cs = before ++ (text ++ after)

/-! ## First characters -/

/-- A character that a number may go on with. -/
def isNumberChar (c : Char) : Bool :=
  Text.isAsciiDigit c || c == '.' || c == 'e' || c == 'E'

/-- A text that a number in front of it does not go on with. -/
def EndsNumber (cs : List Char) : Prop :=
  ∀ c ∈ cs.head?, isNumberChar c = false

/-- A text in front of which a value ends. Only a number could go on. -/
def Ends (j : Json) (rest : List Char) : Prop :=
  match j with
  | .number _ => EndsNumber rest
  | _ => True

end Runbook.Json
