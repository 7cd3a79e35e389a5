import Reckoner.Number.Decimal
import Reckoner.Text.Blank
import Reckoner.Text.Digit

set_option autoImplicit false

/-!
Reading numerals.

A decimal numeral has an optional sign, digits with an optional point, and an optional exponent; the
words `inf`, `infinity` and `nan` count as decimal numerals in any case. An integer numeral of
another base starts with `0b`, `0o` or `0x`. Blanks may stand around either, digits of every script
count, and a single underscore may stand between two digits.
-/

namespace Reckoner.Numeral

inductive Refusal where
  /-- The text is no numeral. -/
  | malformed
  /-- The text is an integer numeral, and no finite double is nearest to it. -/
  | tooLarge
deriving DecidableEq

/-- Takes out the underscores; each must stand between two digits. -/
def dropUnderscores (isDigit : Char → Bool) (afterDigit : Bool) : List Char → Option (List Char)
  | [] => some []
  | c :: rest =>
    if c = '_' then
      if afterDigit && rest.head?.any isDigit then dropUnderscores isDigit false rest else none
    else
      (dropUnderscores isDigit (isDigit c) rest).map (c :: ·)

/-- Splits off a leading sign; the flag says whether it is a minus. -/
def splitSign : List Char → Bool × List Char
  | '-' :: rest => (true, rest)
  | '+' :: rest => (false, rest)
  | text => (false, text)

/-- A non-empty run of digits and nothing else. -/
def readDigits (text : List Char) : Option Nat :=
  if text.isEmpty || !text.all Char.isDigit then none else some (Nat.ofDigitChars 10 text 0)

/-- The part after the mantissa: nothing, or `e` and an integer. -/
def readExponent : List Char → Option Int
  | [] => some 0
  | mark :: rest =>
    if mark = 'e' || mark = 'E' then
      let (negative, digits) := splitSign rest
      (readDigits digits).map fun n => if negative then -(n : Int) else n
    else
      none

/-- An unsigned decimal numeral, with a digit before or after the point. -/
def readDecimal (text : List Char) : Option Decimal :=
  let whole := text.takeWhile Char.isDigit
  let afterWhole := text.dropWhile Char.isDigit
  let (fraction, rest) := match afterWhole with
    | '.' :: more => (more.takeWhile Char.isDigit, more.dropWhile Char.isDigit)
    | _ => ([], afterWhole)
  if whole.isEmpty && fraction.isEmpty then
    none
  else
    (readExponent rest).map fun exponent =>
      ⟨Nat.ofDigitChars 10 (whole ++ fraction) 0, exponent - fraction.length⟩

/-- An unsigned decimal numeral or one of the words for the values that are not finite. -/
def readMagnitude (text : List Char) : Option Float :=
  let word := text.map Char.toLower
  if word = "inf".toList || word = "infinity".toList then
    some Number.infinity
  else if word = "nan".toList then
    some Number.nan
  else
    (readDecimal text).map Decimal.toFloat

def readFloat (text : String) : Option Float := do
  let stripped := Text.strip (text.toList.map Text.foldDigit)
  let digits ← dropUnderscores Char.isDigit false stripped
  let (negative, magnitude) := splitSign digits
  (readMagnitude magnitude).map (Number.signed negative)

/-- The value of a digit or letter as a digit, in either case of the letter. -/
def digitValue? (c : Char) : Option Nat :=
  if c.isDigit then
    some (c.toNat - '0'.toNat)
  else if c.isAlpha then
    some (c.toLower.toNat - 'a'.toNat + 10)
  else
    none

/-- The bases other than ten, each with the letter that marks it after a zero. -/
inductive Base where
  | binary
  | octal
  | hexadecimal
deriving DecidableEq

namespace Base

def radix : Base → Nat
  | .binary => 2
  | .octal => 8
  | .hexadecimal => 16

def mark : Base → Char
  | .binary => 'b'
  | .octal => 'o'
  | .hexadecimal => 'x'

def ofMark? (c : Char) : Option Base :=
  [binary, octal, hexadecimal].find? fun base => base.mark = c.toLower

end Base

def isDigitOf (base : Base) (c : Char) : Bool :=
  (digitValue? c).any (· < base.radix)

/-- Skips one more mark of the same base, with an underscore after it or not. -/
def skipMark (base : Base) : List Char → List Char
  | '0' :: letter :: rest =>
    if letter.toLower = base.mark then
      match rest with
      | '_' :: more => more
      | _ => rest
    else
      '0' :: letter :: rest
  | text => text

def valueOf (base : Base) (digits : List Char) : Nat :=
  digits.foldl (fun value c => base.radix * value + (digitValue? c).getD 0) 0

/-- An integer numeral after its mark: a sign, and perhaps the mark once more, before the digits. -/
def readInteger (base : Base) (text : List Char) : Option Int := do
  let (negative, unsigned) := splitSign (Text.strip (text.map Text.foldDigit))
  let digits ← dropUnderscores (isDigitOf base) false (skipMark base unsigned)
  if digits.isEmpty || !digits.all (isDigitOf base) then
    none
  else
    let n : Int := valueOf base digits
    some (if negative then -n else n)

/-- The mark at the start of a text, and what follows it. -/
def splitMark? : List Char → Option (Base × List Char)
  | '0' :: letter :: rest => (Base.ofMark? letter).map (·, rest)
  | _ => none

def read (text : String) : Except Refusal Float :=
  match splitMark? text.toList with
  | some (base, rest) =>
    match readInteger base rest with
    | some n => (Number.ofInt? n).elim (.error .tooLarge) .ok
    | none => .error .malformed
  | none =>
    match readFloat text with
    | some x => .ok x
    | none => .error .malformed

end Reckoner.Numeral
