import Neighbor.Text.Hex
import Neighbor.Value

/-!
# Numbers, truth values and moments

A value that is not quoted and has no parts is one word. Words are told apart by their form:

* an integer is a decimal number with an optional sign and no leading zero, or digits behind `0x`,
  `0o` or `0b`; it fits in 64 bits with a sign;
* a real number is such a decimal number with a fraction, an exponent or both, which may not be
  too large unless it is negative, or `inf` or `nan`;
* a moment is a date, a time of day or both, with an offset behind both if there is one;
* `true` and `false` are truth values.

Single underscores may stand between digits of numbers.
-/

namespace Neighbor.Toml

/-- Whether a character can be part of a word. -/
def isWordChar (c : Char) : Bool :=
  c.isAlphanum || c == '_' || c == '+' || c == '-' || c == '.' || c == ':'

/-- Splits at every `sep`. -/
def splitAt (sep : Char) : List Char → List (List Char)
  | [] => [[]]
  | c :: rest =>
    match splitAt sep rest with
    | [] => [[c]]
    | part :: parts => if c = sep then [] :: part :: parts else (c :: part) :: parts

/-- The value of a digit in a base up to sixteen. -/
def digitValue? (base : Nat) (c : Char) : Option Nat :=
  (Text.hexValue? c).filter (· < base)

/-- The digits of a number, less the underscores between them. -/
def digits? (base : Nat) (cs : List Char) : Option (List Nat) :=
  let parts := splitAt '_' cs
  if parts.any (·.isEmpty) then none else parts.flatten.mapM (digitValue? base)

/-- The number with the given digits. -/
def ofDigits (base : Nat) (digits : List Nat) : Nat :=
  digits.foldl (fun n d => n * base + d) 0

/-- Reads digits without a leading zero as a number. -/
def natural? (cs : List Char) : Option Nat :=
  match digits? 10 cs with
  | some [d] => some d
  | some (0 :: _) => none
  | other => other.map (ofDigits 10)

/-- A number that fits in 64 bits with a sign. -/
def bounded? (n : Int) : Option Int :=
  if Int64.minValue.toInt ≤ n ∧ n ≤ Int64.maxValue.toInt then some n else none

/-- The sign in front of a word and the rest of it. -/
def splitSign : List Char → Int × List Char
  | '+' :: rest => (1, rest)
  | '-' :: rest => (-1, rest)
  | cs => (1, cs)

/-- Reads an integer. -/
def integer? (cs : List Char) : Option Int :=
  let inBase (base : Nat) (cs : List Char) :=
    (digits? base cs).bind fun ds => bounded? (ofDigits base ds)
  match cs with
  | '0' :: 'x' :: rest => inBase 16 rest
  | '0' :: 'o' :: rest => inBase 8 rest
  | '0' :: 'b' :: rest => inBase 2 rest
  | _ =>
    let (sign, rest) := splitSign cs
    (natural? rest).bind fun n => bounded? (sign * n)

/-- Reads an exponent. -/
def exponent? (cs : List Char) : Option Int :=
  let (sign, rest) := splitSign cs
  (digits? 10 rest).map fun ds => sign * ofDigits 10 ds

/-- Reads a number with a fraction, an exponent or both. The result `(m, e)` stands for `m` times
ten to the power of `e`. -/
def scaled? (cs : List Char) : Option (Nat × Int) :=
  let isExponentMark (c : Char) := c == 'e' || c == 'E'
  let mantissa := cs.takeWhile (!isExponentMark ·)
  let exponent := match cs.dropWhile (!isExponentMark ·) with
    | [] => some 0
    | _ :: e => exponent? e
  match splitAt '.' mantissa, exponent with
  | [whole], some e =>
    if whole.length < cs.length then (natural? whole).map (·, e) else none
  | [whole, fraction], some e =>
    match natural? whole, digits? 10 fraction with
    | some n, some ds => some (n * Nat.pow 10 ds.length + ofDigits 10 ds, e - ds.length)
    | _, _ => none
  | _, _ => none

/-- Whether `m` times ten to the power of `e` is nearer to infinity than to any number of double
precision: it is at least halfway from the largest of them to the power of two behind it. Only a
number whose first digit has the place of that power's needs the comparison. -/
def isBeyondDouble (m : Nat) (e : Int) : Bool :=
  let places : Int := (Nat.toDigits 10 m).length + e
  m != 0 && (309 < places ||
    (places == 309 &&
      (Nat.pow 2 1024 - Nat.pow 2 970) * Nat.pow 10 (-e).toNat ≤ m * Nat.pow 10 e.toNat))

/-- Whether a word is a real number that is not too large. -/
def isReal (cs : List Char) : Bool :=
  let (sign, unsigned) := splitSign cs
  if unsigned = "inf".toList || unsigned = "nan".toList then true
  else (scaled? unsigned).any fun (m, e) => sign < 0 || !isBeyondDouble m e

/-- Reads exactly `n` decimal digits. -/
def fixedDigits? (n : Nat) (cs : List Char) : Option Nat :=
  if cs.length = n && cs.all Char.isDigit then
    some (ofDigits 10 (cs.map fun c => c.toNat - 48))
  else none

/-- Whether a number of `n` digits is between two bounds. -/
def isBetween (n lo hi : Nat) (cs : List Char) : Bool :=
  (fixedDigits? n cs).any fun v => lo ≤ v && v ≤ hi

/-- The number of days of a month. -/
def daysIn (year month : Nat) : Nat :=
  if month = 2 then
    if year % 4 = 0 && (year % 100 != 0 || year % 400 = 0) then 29 else 28
  else if month = 4 || month = 6 || month = 9 || month = 11 then 30
  else 31

/-- Whether a word is a date, such as `1979-05-27`. -/
def isDate (cs : List Char) : Bool :=
  match splitAt '-' cs with
  | [year, month, day] =>
    match fixedDigits? 4 year, fixedDigits? 2 month, fixedDigits? 2 day with
    | some y, some m, some d => 1 ≤ m && m ≤ 12 && 1 ≤ d && d ≤ daysIn y m
    | _, _, _ => false
  | _ => false

/-- Whether a word is a time of day, such as `07:32:00.5`. The sixtieth second is a leap second. -/
def isTime (cs : List Char) : Bool :=
  match splitAt ':' cs with
  | [hour, minute, second] =>
    let wholeOk := isBetween 2 0 60 (second.take 2)
    let fractionOk := match second.drop 2 with
      | [] => true
      | '.' :: fraction => !fraction.isEmpty && fraction.all Char.isDigit
      | _ => false
    isBetween 2 0 23 hour && isBetween 2 0 59 minute && wholeOk && fractionOk
  | _ => false

/-- Whether a word is an offset from universal time. -/
def isOffset (cs : List Char) : Bool :=
  match cs with
  | ['Z'] => true
  | ['z'] => true
  | sign :: rest =>
    (sign == '+' || sign == '-') &&
      match splitAt ':' rest with
      | [hour, minute] => isBetween 2 0 23 hour && isBetween 2 0 59 minute
      | _ => false
  | [] => false

/-- Whether a word is a time of day with an offset or without one. -/
def isTimeWithOffset (cs : List Char) : Bool :=
  let inTime (c : Char) := c.isDigit || c == ':' || c == '.'
  let offset := cs.dropWhile inTime
  isTime (cs.takeWhile inTime) && (offset.isEmpty || isOffset offset)

/-- Whether a word is a moment. -/
def isMoment (cs : List Char) : Bool :=
  isDate cs || isTime cs ||
    match cs.drop 10 with
    | mark :: time =>
      (mark == 'T' || mark == 't') && isDate (cs.take 10) && isTimeWithOffset time
    | [] => false

/-- The value of a word. -/
def wordValue? (cs : List Char) : Option Value :=
  if cs = "true".toList then some (.truth true)
  else if cs = "false".toList then some (.truth false)
  else
    match integer? cs with
    | some n => some (.integer n)
    | none => if isReal cs then some .real else if isMoment cs then some .moment else none

/-- Reads a word. A date may be followed by a space and a time of day. -/
def word? (cs : List Char) : Option (Value × List Char) :=
  let word := cs.takeWhile isWordChar
  let rest := cs.dropWhile isWordChar
  match isDate word, rest with
  | true, ' ' :: more =>
    let time := more.takeWhile isWordChar
    if isTimeWithOffset time then some (.moment, more.dropWhile isWordChar)
    else some (.moment, rest)
  | _, _ => (wordValue? word).map (·, rest)

end Neighbor.Toml
