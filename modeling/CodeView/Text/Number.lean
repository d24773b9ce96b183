/-!
# Number text

Numbers as this library prints them (decimal, hexadecimal with a least number of digits),
text filled up to a column, the reading of unsigned numbers with the three ways in which that
can fail, and the texts that are decimal fractions.
-/

namespace CodeView.Text

/-- The text filled up on the left with `fill` to at least `width` characters. -/
def padLeft (width : Nat) (fill : Char) (text : String) : String :=
  String.ofList (List.replicate (width - text.length) fill ++ text.toList)

/-- The text filled up on the right with blanks to at least `width` characters. -/
def padRight (width : Nat) (text : String) : String :=
  String.ofList (text.toList ++ List.replicate (width - text.length) ' ')

/-- Hexadecimal digits of `n` in lower case, at least `width` of them. -/
def hexDigits (width n : Nat) : String :=
  padLeft width '0' (String.ofList (Nat.toDigits 16 n))

/-- Hexadecimal digits of `n` in upper case, at least `width` of them. -/
def upperHexDigits (width n : Nat) : String :=
  padLeft width '0' (String.ofList ((Nat.toDigits 16 n).map Char.toUpper))

/-- Hexadecimal digits of `n` after `0x`. -/
def hex (n : Nat) : String :=
  "0x" ++ hexDigits 1 n

/-- Hexadecimal digits of `n` after `0x`, at least `width` of them. -/
def hexWide (width n : Nat) : String :=
  "0x" ++ hexDigits width n

/-- Why a text is not an unsigned number. -/
inductive NumberError
  /-- there is no digit at all -/
  | empty
  /-- a character is not a digit of the base -/
  | invalidDigit
  /-- the digits read so far exceed the largest value -/
  | overflow
  deriving DecidableEq, Repr

/-- The sentence that reports the cause. -/
def NumberError.message : NumberError → String
  | .empty => "cannot parse integer from empty string"
  | .invalidDigit => "invalid digit found in string"
  | .overflow => "number too large to fit in target type"

/-- Value of `c` as a digit: `0` to `9`, then the letters of either case from ten on. -/
def digitValue? (base : Nat) (c : Char) : Option Nat :=
  let value :=
    if '0' ≤ c ∧ c ≤ '9' then c.toNat - '0'.toNat
    else if 'a' ≤ c ∧ c ≤ 'z' then c.toNat - 'a'.toNat + 10
    else if 'A' ≤ c ∧ c ≤ 'Z' then c.toNat - 'A'.toNat + 10
    else base
  if value < base then some value else none

/-- Continues the number `value` with more digits. At each character it is first asked whether
it is a digit and then whether the value still fits, so the leftmost cause is reported. -/
def readDigits (base limit : Nat) : Nat → List Char → Except NumberError Nat
  | value, [] => .ok value
  | value, c :: rest =>
    match digitValue? base c with
    | none => .error .invalidDigit
    | some digit =>
      if value * base + digit ≤ limit then readDigits base limit (value * base + digit) rest
      else .error .overflow

/-- Reads an unsigned number of at most `limit`: digits, after one optional `+`. A sign that
stands alone is an invalid digit. -/
def readUnsigned (base limit : Nat) : List Char → Except NumberError Nat
  | [] => .error .empty
  | ['+'] => .error .invalidDigit
  | '+' :: digits => readDigits base limit 0 digits
  | digits => readDigits base limit 0 digits

/-- Whether a text is the exponent of a decimal fraction, or nothing: `e` and a number. -/
def isExponent : List Char → Bool
  | [] => true
  | e :: rest =>
    let digits := if rest.head? == some '+' || rest.head? == some '-' then rest.drop 1 else rest
    e.toLower == 'e' && !digits.isEmpty && digits.all (·.isDigit)

/-- Whether a text without a sign is a decimal fraction: digits, with one point beside or among
them, then an exponent. The words for infinity and for no number count too. -/
def isFraction (text : List Char) : Bool :=
  let whole := text.takeWhile (·.isDigit)
  let rest := text.drop whole.length
  let point := rest.head? == some '.'
  let places := if point then (rest.drop 1).takeWhile (·.isDigit) else []
  let rest := if point then rest.drop (1 + places.length) else rest
  ["inf", "infinity", "nan"].contains (String.ofList (text.map Char.toLower)) ||
    (!(whole.isEmpty && places.isEmpty) && isExponent rest)

end CodeView.Text
