/-
# Numbers and dates of TOML

A value that is no string, array or table is a run of letters, digits and a few
marks.  The whole run has to be of one of the kinds below.

* `integer?` : `42`, `-1_000`, `0xFF`, within 64 bits;
* `isFloat` : `1.5`, `-2e10`, `inf`, `nan`, where digits must not make up a number so
  large that it rounds to infinity; below zero there is no such bound;
* `isMoment` : `1979-05-27`, `07:32:00`, `1979-05-27T07:32:00Z`;
* `scalar?` : the value of a run.
-/
import Interleave.Time.Calendar
import Interleave.Toml.Value

namespace Interleave.Toml

/-! ## Digits -/

/-- A digit of a base up to sixteen. -/
def digitValue? (c : Char) : Option Nat :=
  if c.isDigit then some (c.toNat - 48)
  else if 'a' ≤ c ∧ c ≤ 'f' then some (c.toNat - 87)
  else if 'A' ≤ c ∧ c ≤ 'F' then some (c.toNat - 55)
  else none

/-- The character is a digit of the base. -/
def isDigitOf (base : Nat) (c : Char) : Bool :=
  match digitValue? c with
  | some d => d < base
  | none => false

/-- The digits of a run in which an underscore may stand between any two, after those
that are taken already, the latest first. -/
def ungroupedFrom? (base : Nat) (taken : List Char) : List Char → Option (List Char)
  | [] => none
  | [c] => if isDigitOf base c then some (c :: taken).reverse else none
  | c :: '_' :: rest =>
      if isDigitOf base c then ungroupedFrom? base (c :: taken) rest else none
  | c :: d :: rest =>
      if isDigitOf base c then ungroupedFrom? base (c :: taken) (d :: rest) else none

/-- The digits of a run in which an underscore may stand between any two. -/
def ungrouped? (base : Nat) (text : List Char) : Option (List Char) :=
  ungroupedFrom? base [] text

/-- The number that digits write. -/
def digitsValue (base : Nat) (digits : List Char) : Nat :=
  digits.foldl (fun n c => n * base + (digitValue? c).getD 0) 0

/-- A decimal number without a leading zero. -/
def decimal? (text : List Char) : Option (List Char) :=
  match text with
  | '0' :: _ :: _ => none
  | _ => ungrouped? 10 text

/-- A number with an optional sign in front. -/
def splitSign : List Char → Bool × List Char
  | '-' :: rest => (true, rest)
  | '+' :: rest => (false, rest)
  | text => (false, text)

/-! ## Integers -/

/-- The integer is one of 64 bits. -/
def fitsWord (n : Int) : Bool := -9223372036854775808 ≤ n && n ≤ 9223372036854775807

/-- An integer: in hexadecimal, octal or binary digits, or decimal with a sign. -/
def integer? (text : List Char) : Option Int :=
  let n := match text with
    | '0' :: 'x' :: rest => (ungrouped? 16 rest).map fun ds => (digitsValue 16 ds : Int)
    | '0' :: 'o' :: rest => (ungrouped? 8 rest).map fun ds => (digitsValue 8 ds : Int)
    | '0' :: 'b' :: rest => (ungrouped? 2 rest).map fun ds => (digitsValue 2 ds : Int)
    | _ =>
        let (negative, rest) := splitSign text
        (decimal? rest).map fun ds =>
          if negative then -(digitsValue 10 ds : Int) else (digitsValue 10 ds : Int)
  n.filter fitsWord

/-! ## Floating point numbers -/

/-- The part of a number after an `e`. -/
def exponent? (text : List Char) : Option Int :=
  let (negative, rest) := splitSign text
  (ungrouped? 10 rest).map fun ds =>
    if negative then -(digitsValue 10 ds : Int) else (digitsValue 10 ds : Int)

/-- The number `digits * 10 ^ power` is closer to a double than to infinity.  The
largest double is one unit in the last place, 2 ^ 970, below 2 ^ 1024, and half a
unit more rounds to infinity. -/
def isFinite (digits : Nat) (power : Int) : Bool :=
  let bound := Nat.pow 2 1024 - Nat.pow 2 970
  if digits = 0 then true
  else if power ≤ 0 then
    -- With this many decimals the digits cannot make up for them.
    if (Nat.toDigits 10 digits).length + power < 300 then true
    else digits < bound * Nat.pow 10 power.natAbs
  else if power > 400 then false
  else digits * Nat.pow 10 power.natAbs < bound

/-- A floating point number in digits: with decimals, an exponent, or both.  One above
zero that rounds to infinity is refused; one below zero is taken as minus infinity. -/
def isDigitFloat (text : List Char) : Bool :=
  let (negative, rest) := splitSign text
  let whole := rest.takeWhile fun c => c != '.' && c != 'e' && c != 'E'
  let rest := rest.drop whole.length
  let fraction := match rest with
    | '.' :: rest =>
        (ungrouped? 10 (rest.takeWhile fun c => c != 'e' && c != 'E')).map fun ds =>
          (ds, rest.dropWhile fun c => c != 'e' && c != 'E')
    | rest => if rest = [] then none else some ([], rest)
  let power := fraction.bind fun (_, rest) =>
    match rest with
    | [] => some 0
    | _ :: rest => exponent? rest
  match decimal? whole, fraction, power with
  | some digits, some (decimals, _), some power =>
      negative || isFinite (digitsValue 10 (digits ++ decimals)) (power - decimals.length)
  | _, _, _ => false

/-- A floating point number. -/
def isFloat (text : List Char) : Bool :=
  let (_, rest) := splitSign text
  rest = "inf".toList || rest = "nan".toList || isDigitFloat text

/-! ## Dates and times -/

/-- The number of a run of decimal digits. -/
def plainNumber? (text : List Char) : Option Nat :=
  if text.all Char.isDigit ∧ text ≠ [] then some (digitsValue 10 text) else none

/-- A date of the calendar. -/
def isDate : List Char → Bool
  | [y₁, y₂, y₃, y₄, '-', m₁, m₂, '-', d₁, d₂] =>
      match plainNumber? [y₁, y₂, y₃, y₄], plainNumber? [m₁, m₂], plainNumber? [d₁, d₂] with
      | some year, some month, some day => (Date.ofParts? year month day).isSome
      | _, _, _ => false
  | _ => false

/-- Hours and minutes with a colon between them. -/
def isHourMinute (h₁ h₂ m₁ m₂ : Char) : Bool :=
  match plainNumber? [h₁, h₂], plainNumber? [m₁, m₂] with
  | some hour, some minute => hour < 24 && minute < 60
  | _, _ => false

/-- The rest of a text after a time of day with all its decimals. -/
def afterTime? : List Char → Option (List Char)
  | h₁ :: h₂ :: ':' :: m₁ :: m₂ :: ':' :: s₁ :: s₂ :: rest =>
      let second := match plainNumber? [s₁, s₂] with
        | some second => second ≤ 60
        | none => false
      if isHourMinute h₁ h₂ m₁ m₂ && second then
        match rest with
        | '.' :: c :: rest => if c.isDigit then some (rest.dropWhile Char.isDigit) else none
        | rest => some rest
      else
        none
  | _ => none

/-- A time of day. -/
def isTime (text : List Char) : Bool := afterTime? text == some []

/-- The distance of local time from universal time. -/
def isOffset : List Char → Bool
  | ['Z'] => true
  | ['z'] => true
  | [sign, h₁, h₂, ':', m₁, m₂] => (sign == '+' || sign == '-') && isHourMinute h₁ h₂ m₁ m₂
  | _ => false

/-- A time of day, perhaps with an offset. -/
def isOffsetTime (text : List Char) : Bool :=
  match afterTime? text with
  | some rest => rest = [] || isOffset rest
  | none => false

/-- A date, a time, or a date and a time with a letter between them. -/
def isMoment (text : List Char) : Bool :=
  match text.drop 10 with
  | [] => isDate text || isTime text
  | c :: rest =>
      ((c == 'T' || c == 't') && isDate (text.take 10) && isOffsetTime rest) || isTime text

/-! ## All together -/

/-- The value of a run of letters, digits and marks. -/
def scalar? (text : List Char) : Option Value :=
  if text = "true".toList then some (.boolean true)
  else if text = "false".toList then some (.boolean false)
  else if isMoment text then some (.moment (String.ofList text))
  else if isFloat text then some (.float (String.ofList text))
  else (integer? text).map .integer

end Interleave.Toml
