import ObjectRelay.Toml.Quoted
import ObjectRelay.Toml.Value

namespace ObjectRelay.Toml

namespace Scalar

/-- The digits at the front.  One underscore may stand between two of them. -/
def digitRun (radix : Nat) (inside : Bool) : List Char → List Char × List Char
  | [] => ([], [])
  | digit :: rest =>
      if Text.isDigit radix digit then
        let (digits, rest) := digitRun radix true rest
        (digit :: digits, rest)
      else if digit = '_' ∧ inside ∧ rest.head?.any (Text.isDigit radix) then
        digitRun radix false rest
      else ([], digit :: rest)

def digits? (radix : Nat) (text : List Char) : Option (List Char × List Char) :=
  let (digits, rest) := digitRun radix false text
  if digits.isEmpty then none else some (digits, rest)

def sign : List Char → Bool × List Char
  | '-' :: rest => (true, rest)
  | '+' :: rest => (false, rest)
  | text => (false, text)

/-- No digit follows a zero at the front. -/
def whole? : List Char → Option (List Char × List Char)
  | '0' :: rest => some (['0'], rest)
  | text => digits? 10 text

def fraction? : List Char → Option (List Char × List Char)
  | '.' :: rest => digits? 10 rest
  | text => some ([], text)

def exponent? : List Char → Option (Int × List Char)
  | mark :: rest =>
      if mark = 'e' ∨ mark = 'E' then do
        let (negative, rest) := sign rest
        let (digits, rest) ← digits? 10 rest
        let value : Int := Text.digitsValue 10 digits
        return (if negative then -value else value, rest)
      else some (0, mark :: rest)
  | [] => some (0, [])

/-- Half a unit of the last place above the greatest finite number of 64 bits:
from here on, a number is rounded to infinity. -/
def firstInfinite : Nat := Nat.pow 2 1024 - Nat.pow 2 970

/-- Whether the digits, times a power of ten, are finite in 64 bits. -/
def isFinite (digits : List Char) (power : Int) : Bool :=
  let significant := digits.dropWhile (· = '0')
  let size := significant.length + power
  let value := Text.digitsValue 10 significant
  significant.isEmpty || size < 309 ||
    (size ≤ 309 && value * Nat.pow 10 power.toNat <
      firstInfinite * Nat.pow 10 (-power).toNat)

/-- A number with a fraction, an exponent or both.  Too large a one is refused
unless it is negative. -/
def decimal? (text : List Char) : Option (List Char) := do
  let (negative, rest) := sign text
  let (whole, afterWhole) ← whole? rest
  let (fraction, rest) ← fraction? afterWhole
  let (exponent, rest) ← exponent? rest
  let isWhole := rest.length = afterWhole.length
  if isWhole ∨ !(negative ||
    isFinite (whole ++ fraction) (exponent - fraction.length)) then
    none
  else return rest

def special? (text : List Char) : Option (List Char) :=
  match (sign text).2 with
  | 'i' :: 'n' :: 'f' :: rest => some rest
  | 'n' :: 'a' :: 'n' :: rest => some rest
  | _ => none

def radix? : List Char → Option (Nat × List Char)
  | '0' :: 'x' :: rest => some (16, rest)
  | '0' :: 'o' :: rest => some (8, rest)
  | '0' :: 'b' :: rest => some (2, rest)
  | _ => none

def signed? (text : List Char) : Option (Int × List Char) := do
  let (negative, rest) := sign text
  let (digits, rest) ← whole? rest
  let value : Int := Text.digitsValue 10 digits
  return (if negative then -value else value, rest)

def unsigned? (radix : Nat) (text : List Char) : Option (Int × List Char) := do
  let (digits, rest) ← digits? radix text
  return (Text.digitsValue radix digits, rest)

def integer? (text : List Char) : Option (Int × List Char) :=
  let read? := match radix? text with
    | some (radix, rest) => unsigned? radix rest
    | none => signed? text
  read?.filter fun (value, _) =>
    Int64.minValue.toInt ≤ value ∧ value ≤ Int64.maxValue.toInt

def fixed? (count low high : Nat) (text : List Char) :
    Option (Nat × List Char) :=
  let digits := text.take count
  let value := Text.digitsValue 10 digits
  if digits.length = count ∧ digits.all (Text.isDigit 10) ∧
      low ≤ value ∧ value ≤ high then
    some (value, text.drop count)
  else none

def expect? (wanted : Char) : List Char → Option (List Char)
  | [] => none
  | found :: rest => if found = wanted then some rest else none

def monthDays (year month : Nat) : Nat :=
  if month = 2 then
    if year % 4 = 0 ∧ (year % 100 ≠ 0 ∨ year % 400 = 0) then 29 else 28
  else if month = 4 ∨ month = 6 ∨ month = 9 ∨ month = 11 then 30
  else 31

def date? (text : List Char) : Option (List Char) := do
  let (year, text) ← fixed? 4 0 9999 text
  let text ← expect? '-' text
  let (month, text) ← fixed? 2 1 12 text
  let text ← expect? '-' text
  let (_, text) ← fixed? 2 1 (monthDays year month) text
  return text

def hourMinute? (text : List Char) : Option (List Char) := do
  let (_, text) ← fixed? 2 0 23 text
  let text ← expect? ':' text
  let (_, text) ← fixed? 2 0 59 text
  return text

/-- A second may be a leap second. -/
def time? (text : List Char) : Option (List Char) := do
  let text ← hourMinute? text
  let text ← expect? ':' text
  let (_, text) ← fixed? 2 0 60 text
  match text with
  | '.' :: digit :: rest =>
      if Text.isDigit 10 digit then
        return rest.dropWhile (Text.isDigit 10)
      else return text
  | _ => return text

def offset : List Char → List Char
  | 'Z' :: rest => rest
  | 'z' :: rest => rest
  | '+' :: rest => (hourMinute? rest).getD ('+' :: rest)
  | '-' :: rest => (hourMinute? rest).getD ('-' :: rest)
  | text => text

def dateTime? (text : List Char) : Option (List Char) := do
  let date ← date? text
  match date with
  | mark :: rest =>
      if mark = 'T' ∨ mark = 't' ∨ mark = ' ' then
        return ((time? rest).map offset).getD date
      else return date
  | [] => return date

def moment? (text : List Char) : Option (List Char) :=
  (dateTime? text).or (time? text)

def consumed (text rest : List Char) : String :=
  String.ofList (text.take (text.length - rest.length))

def read? (text : List Char) : Option (Value × List Char) :=
  match text with
  | 't' :: 'r' :: 'u' :: 'e' :: rest => some (.boolean true, rest)
  | 'f' :: 'a' :: 'l' :: 's' :: 'e' :: rest => some (.boolean false, rest)
  | _ =>
      match moment? text, (decimal? text).or (special? text) with
      | some rest, _ => some (.moment (consumed text rest), rest)
      | none, some rest => some (.decimal (consumed text rest), rest)
      | none, none =>
          (integer? text).map fun (value, rest) => (.integer value, rest)

end Scalar

end ObjectRelay.Toml
