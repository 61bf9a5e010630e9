/-
TOML scalars other than strings: booleans, integers, floats and dates.

Only their form is checked, and for dates that there is such a day and such a time.
-/
import UseCases.Text.Search

namespace UseCases.Toml

/-- A decimal digit of ASCII. -/
def isDigit (c : Char) : Bool := c.isDigit

/-- A hexadecimal digit of ASCII. -/
def isHexDigit (c : Char) : Bool :=
  c.isDigit || ('a' ≤ c && c ≤ 'f') || ('A' ≤ c && c ≤ 'F')

/-- Digits, with single underscores allowed between them. -/
def isGrouped (isDigit : Char → Bool) (text : List Char) : Bool :=
  (Text.splitAt (· == '_') text).all fun group => !group.isEmpty && group.all isDigit

/-- The text without a leading sign. -/
def dropSign : List Char → List Char
  | '+' :: cs | '-' :: cs => cs
  | cs => cs

/-- A decimal number without sign and without superfluous zeros in front. -/
def isWhole (text : List Char) : Bool :=
  isGrouped isDigit text && (text.head? != some '0' || text.length == 1)

/-- An integer; only a decimal one may have a sign. -/
def isInteger (text : List Char) : Bool :=
  match text with
  | '0' :: 'x' :: digits => isGrouped isHexDigit digits
  | '0' :: 'o' :: digits => isGrouped (fun c => '0' ≤ c && c ≤ '7') digits
  | '0' :: 'b' :: digits => isGrouped (fun c => c == '0' || c == '1') digits
  | _ => isWhole (dropSign text)

/-- The digits of an exponent after its sign, or no exponent at all. -/
def isExponent : List (List Char) → Bool
  | [] => true
  | [digits] => isGrouped isDigit (dropSign digits)
  | _ => false

/-- A float: a whole number with a fraction, an exponent or both, or a special value. -/
def isFloat (text : List Char) : Bool :=
  let magnitude := dropSign text
  if magnitude == "inf".toList || magnitude == "nan".toList then true
  else
    match Text.splitAt (fun c => c == 'e' || c == 'E') magnitude with
    | [] => false
    | mantissa :: exponent =>
      match Text.splitAt (· == '.') mantissa with
      | [whole] => isWhole whole && !exponent.isEmpty && isExponent exponent
      | [whole, fraction] => isWhole whole && isGrouped isDigit fraction && isExponent exponent
      | _ => false

/-- A text has a form when it has the form's length and a digit wherever the form has `0`. -/
def hasForm : (form text : List Char) → Bool
  | [], [] => true
  | f :: fs, c :: cs => (if f = '0' then isDigit c else c == f) && hasForm fs cs
  | _, _ => false

/-- The number that some digits stand for. -/
def numeral (text : List Char) : Nat :=
  text.foldl (fun n c => 10 * n + (c.toNat - 0x30)) 0

/-- The days of a month, given the digits of its year. -/
def daysIn (year : List Char) (month : Nat) : Nat :=
  let n := numeral year
  if month == 2 then if n % 4 == 0 && (n % 100 != 0 || n % 400 == 0) then 29 else 28
  else if month == 4 || month == 6 || month == 9 || month == 11 then 30
  else 31

/-- A date. -/
def isDate (text : List Char) : Bool :=
  let month := numeral ((text.drop 5).take 2)
  let day := numeral (text.drop 8)
  hasForm "0000-00-00".toList text && 1 ≤ month && month ≤ 12 && 1 ≤ day &&
    day ≤ daysIn (text.take 4) month

/-- An hour and a minute. -/
def isHourMinute (text : List Char) : Bool :=
  hasForm "00:00".toList text && numeral (text.take 2) ≤ 23 && numeral (text.drop 3) ≤ 59

/-- An hour, a minute and a second, which may be a leap second. -/
def isClock (text : List Char) : Bool :=
  isHourMinute (text.take 5) && hasForm ":00".toList (text.drop 5) && numeral (text.drop 6) ≤ 60

/-- A time of day; the seconds and their fraction may be missing. -/
def isTime (text : List Char) : Bool :=
  match Text.splitAt (· == '.') text with
  | [time] => isHourMinute time || isClock time
  | [time, fraction] => isClock time && !fraction.isEmpty && fraction.all isDigit
  | _ => false

/-- An offset from universal time. -/
def isOffset (text : List Char) : Bool :=
  match text with
  | '+' :: time | '-' :: time => isHourMinute time
  | _ => false

/-- A time of day, followed by an offset from universal time or by nothing. -/
def isOffsetTime (text : List Char) : Bool :=
  isTime text ||
    ((Text.endsWith ['Z'] text || Text.endsWith ['z'] text) && isTime text.dropLast) ||
    (isOffset (text.drop (text.length - 6)) && isTime (text.take (text.length - 6)))

/-- A date and a time of day, with `T` or a space between them. -/
def isDateTime (text : List Char) : Bool :=
  isDate (text.take 10) &&
    match text.drop 10 with
    | 'T' :: time | 't' :: time | ' ' :: time => isOffsetTime time
    | _ => false

/-- A scalar other than a string. -/
def isScalar (text : List Char) : Bool :=
  text == "true".toList || text == "false".toList || isInteger text || isFloat text ||
    isDate text || isTime text || isDateTime text

/-- A character that occurs in scalars. -/
def isScalarChar (c : Char) : Bool :=
  c.isAlphanum || c == '_' || c == '+' || c == '-' || c == '.' || c == ':'

/-- The scalar at the start of a text, and the rest. A date may go on after one space. -/
def readScalar? (text : List Char) : Option (List Char × List Char) :=
  let word := text.takeWhile isScalarChar
  let rest := text.dropWhile isScalarChar
  match isDate word, rest with
  | true, ' ' :: d :: cs =>
    if isDigit d then
      let whole := word ++ ' ' :: (d :: cs).takeWhile isScalarChar
      if isScalar whole then some (whole, (d :: cs).dropWhile isScalarChar) else none
    else some (word, rest)
  | _, _ => if isScalar word then some (word, rest) else none

end UseCases.Toml
