import HomeBank.Lib.Numerals
import HomeBank.Lib.Regex

/-! The email validator. The forms for registering, logging in, resetting the password and
creating or changing a member all carry it, with one and the same pattern. -/

namespace HomeBank.EmailValidator

open Regex

/-! ### The pattern's classes

A Dart pattern reads UTF-16 code units, and no class holds a surrogate. A character beyond the
basic plane is therefore refused by its two code units as it is here by its number. -/

def inRange (lo hi : ℕ) (c : Char) : Bool := lo ≤ c.toNat && c.toNat ≤ hi

/-- `[\u00A0-\uD7FF\uF900-\uFDCF\uFDF0-\uFFEF]` -/
def isUnicode (c : Char) : Bool :=
  inRange 0xA0 0xD7FF c || inRange 0xF900 0xFDCF c || inRange 0xFDF0 0xFFEF c

def isSymbol (c : Char) : Bool := "!#$%&'*+-/=?^_`\x7b|\x7d~".toList.contains c

/-- A character of an atom: `[a-z]`, `\d`, a symbol or a character of `isUnicode`. -/
def isAtomChar (c : Char) : Bool := c.isLower || c.isDigit || isSymbol c || isUnicode c

/-- `[a-z]|\d|[\u00A0-…]`, with which a label begins. -/
def isLabelStart (c : Char) : Bool := c.isLower || c.isDigit || isUnicode c

/-- `[a-z]|[\u00A0-…]`, with which a label of more than one character ends. -/
def isLabelEnd (c : Char) : Bool := c.isLower || isUnicode c

/-- `[a-z]|\d|-|\.|_|~|[\u00A0-…]`, between the two. -/
def isLabelChar (c : Char) : Bool :=
  c.isLower || c.isDigit || c = '-' || c = '.' || c = '_' || c = '~' || isUnicode c

/-- `\x20|\x09` -/
def isBlank (c : Char) : Bool := c = ' ' || c = '\t'

/-- `[\x01-\x08\x0b\x0c\x0e-\x1f\x7f]|\x21|[\x23-\x5b]|[\x5d-\x7e]|[\u00A0-…]` -/
def isQuotedText (c : Char) : Bool :=
  inRange 0x01 0x08 c || inRange 0x0B 0x0C c || inRange 0x0E 0x1F c || c.toNat = 0x7F ||
    c.toNat = 0x21 || inRange 0x23 0x5B c || inRange 0x5D 0x7E c || isUnicode c

/-- `[\x01-\x09\x0b\x0c\x0d-\x7f]|[\u00A0-…]`, after a backslash. -/
def isEscaped (c : Char) : Bool :=
  inRange 0x01 0x09 c || inRange 0x0B 0x0C c || inRange 0x0D 0x7F c || isUnicode c

/-! ### The pattern -/

def dotAtoms : Regex Char := sepBy (plus (one isAtomChar)) (letter '.')

/-- `((\x20|\x09)*(\x0d\x0a))?(\x20|\x09)+` -/
def folding : Regex Char :=
  opt (star (one isBlank) * (letter '\r' * letter '\n')) * plus (one isBlank)

def quoted : Regex Char :=
  letter '"' * (star (opt folding * (one isQuotedText + letter '\\' * one isEscaped)) *
    (opt folding * letter '"'))

/-- One character, or a first one, any number of inner ones and a last one. -/
def labelFrom (start : Char → Bool) : Regex Char :=
  one start + one start * (star (one isLabelChar) * one isLabelEnd)

def domainPattern : Regex Char :=
  plus (labelFrom isLabelStart * letter '.') * labelFrom isLabelEnd

def pattern : Regex Char := (dotAtoms + quoted) * (letter '@' * domainPattern)

/-- The `validator` of an email field: the key of its message, or nothing where the text is
valid. The anchors of the pattern make `hasMatch` a match of the whole text. -/
def validator : Option String → Option String
  | none => some "email_required"
  | some val =>
    if (Dart.trim val.toList).isEmpty then some "email_required"
    else if !pattern.accepts val.toList then some "valid_email"
    else none

/-! ### What the validator is for -/

/-- A character of an ordinary local part: a letter of either case, a digit or a symbol. -/
def isOrdinary (c : Char) : Bool := c.isAlphanum || isSymbol c

/-- A label of an ordinary domain. -/
structure Label (label : List Char) : Prop where
  start : ∃ c ∈ label.head?, c.isAlphanum = true
  finish : ∃ c ∈ label.getLast?, c.isAlphanum = true
  chars : ∀ c ∈ label, (c.isAlphanum || c = '-') = true

/-- `localPart@domain` is an ordinary address: atoms joined by dots, and two or more labels
joined by dots, with letters only in the last. -/
structure Ordinary (localPart domain : List Char) : Prop where
  atoms : JoinedBy '.' (fun atom => atom ≠ [] ∧ ∀ c ∈ atom, isOrdinary c = true) localPart
  labels : ∃ front last, domain = front ++ '.' :: last ∧ JoinedBy '.' Label front ∧ Label last ∧
    ∀ c ∈ last, c.isAlpha = true

/-- `s` is `localPart@domain`, split at its last `@`, and the local part is not quoted. -/
structure Unquoted (s : String) (localPart domain : List Char) : Prop where
  split : s.toList = localPart ++ '@' :: domain
  last : '@' ∉ domain
  plain : localPart.head? ≠ some '"'

/-- What the validator owes the text `s`. -/
structure Faithful (s : String) : Prop where
  accepts : ∀ localPart domain, s.toList = localPart ++ '@' :: domain → Ordinary localPart domain →
    validator (some s) = none
  wellDotted : validator (some s) = none → ∀ localPart domain, Unquoted s localPart domain →
    WellSeparated '.' localPart ∧ WellSeparated '.' domain

/-! ### When it does it -/

/-- A text that ends where a dot can separate labels: after a letter, or after labels of one
character each that follow such a text or nothing. -/
inductive Closed : List Char → Prop
  | finish (text : List Char) (c : Char) : isLabelEnd c = true → Closed (text ++ [c])
  | start (c : Char) : isLabelStart c = true → Closed [c]
  | label (text : List Char) (c : Char) : Closed text → isLabelStart c = true →
      Closed (text ++ ['.', c])

/-- Some dot of the domain stands after a closed text and before a letter. -/
def Turns (domain : List Char) : Prop :=
  ∃ front back, domain = front ++ '.' :: back ∧ Closed front ∧
    ∃ c ∈ back.head?, isLabelEnd c = true

/-- The domains of the pattern. -/
structure Domain (domain : List Char) : Prop where
  start : ∃ c ∈ domain.head?, isLabelStart c = true
  finish : ∃ c ∈ domain.getLast?, isLabelEnd c = true
  chars : ∀ c ∈ domain, isLabelChar c = true
  turns : Turns domain

/-- The local parts of the pattern, other than the quoted ones. -/
def Atoms (localPart : List Char) : Prop :=
  JoinedBy '.' (fun atom => atom ≠ [] ∧ ∀ c ∈ atom, isAtomChar c = true) localPart

end HomeBank.EmailValidator
