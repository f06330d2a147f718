/-
# Timestamps

The written forms of a timestamp, and the instant each denotes.  The first word of
a line is read as the first of these forms that fits.

* `rfc3339` : `2023-01-01T00:00:00.123Z` and `2023-01-01T00:00:00+05:30`, where each
  number has its full width;
* `withOffset` : a looser form of the same, whose offset may also be written
  `+0530` or `+05`;
* `withoutOffset` : the looser form with no offset at all, in universal time;
* `dateOnly` : `2023-01-01`, the midnight that begins the day.

In the looser forms a number may have fewer digits and blanks in front, and a year
may have a sign and then any number of digits.  The decimals of a second may stand
after a comma instead of a point.
-/
import Interleave.Time.Fields
import Interleave.Time.Scan

namespace Interleave.Timestamp

open Scan

/-! ## Offsets -/

/-- The sign of an offset: plus, hyphen, or the minus sign U+2212. -/
def sign : List Char → Option (Int × List Char)
  | [] => none
  | c :: rest =>
      if c = '+' then some (1, rest)
      else if c = '-' ∨ c = '\u2212' then some (-1, rest)
      else none

/-- The letter that stands for the offset of universal time. -/
def isZulu (c : Char) : Bool := c == 'Z' || c == 'z'

/-- The minutes of an offset, which end the text. -/
def offsetMinutes : List Char → Option Nat
  | [a, b] => if a.isDigit ∧ b.isDigit ∧ value [a] ≤ 5 then some (value [a, b]) else none
  | _ => none

/-- A strict offset, which ends the text: `Z`, or a sign, two digits of hours, a
colon and two digits of minutes. -/
def strictOffset : List Char → Option Int
  | [] => none
  | c :: rest =>
      if isZulu c then (if rest = [] then some 0 else none)
      else do
        let (sign, text) ← sign (c :: rest)
        let (hours, text) ← number 2 2 text
        let text ← exactly ':' text
        let minutes ← offsetMinutes text
        some (sign * (hours * 3600 + minutes * 60))

/-- What may stand between the hours and the minutes of a loose offset. -/
def isOffsetGap (c : Char) : Bool := c == ':' || Text.isBlank c

/-- A loose offset, which ends the text: blanks, then `Z`, or a sign, two digits of
hours and the minutes, if any, after a run of colons and blanks. -/
def looseOffset (text : List Char) : Option Int :=
  match Text.skipBlanks text with
  | [] => none
  | c :: rest =>
      if isZulu c then (if rest = [] then some 0 else none)
      else do
        let (sign, text) ← sign (c :: rest)
        let (hours, text) ← number 2 2 text
        let text := text.dropWhile isOffsetGap
        let minutes ← if text = [] then some 0 else offsetMinutes text
        some (sign * (hours * 3600 + minutes * 60))

/-! ## The strict form -/

/-- What may stand between the date and the time of the strict form. -/
def isSeparator (c : Char) : Bool := c == 'T' || c == 't' || c == ' '

/-- The rest of a text that starts with a separator. -/
def separator : List Char → Option (List Char)
  | [] => none
  | c :: rest => if isSeparator c then some rest else none

/-- The strict form: date, separator, time of day and offset at full width. -/
def rfc3339 (text : List Char) : Option Fields := do
  let (year, text) ← number 4 4 text
  let text ← exactly '-' text
  let (month, text) ← number 2 2 text
  let text ← exactly '-' text
  let (day, text) ← number 2 2 text
  let text ← separator text
  let (hour, text) ← number 2 2 text
  let text ← exactly ':' text
  let (minute, text) ← number 2 2 text
  let text ← exactly ':' text
  let (second, text) ← number 2 2 text
  let (nanos, text) ← fraction text
  let offset ← strictOffset text
  some ⟨year, month, day, hour, minute, second, nanos, offset⟩

/-! ## The looser forms -/

/-- A loose year: up to four digits, or a sign and any number of them. -/
def looseYear (text : List Char) : Option (Int × List Char) :=
  match Text.skipBlanks text with
  | [] => none
  | c :: rest =>
      if c = '-' then (wideNumber rest).map fun (n, rest) => (-n, rest)
      else if c = '+' then (wideNumber rest).map fun (n, rest) => (n, rest)
      else (number 1 4 (c :: rest)).map fun (n, rest) => (n, rest)

/-- A loose date: year, month and day with hyphens between them. -/
def looseDate (text : List Char) : Option (Int × Nat × Nat × List Char) := do
  let (year, text) ← looseYear text
  let text ← exactly '-' text
  let (month, text) ← looseNumber 2 text
  let text ← exactly '-' text
  let (day, text) ← looseNumber 2 text
  some (year, month, day, text)

/-- A loose time of day: hour, minute and second with colons between them. -/
def looseTime (text : List Char) : Option (Nat × Nat × Nat × List Char) := do
  let (hour, text) ← looseNumber 2 text
  let text ← exactly ':' text
  let (minute, text) ← looseNumber 2 text
  let text ← exactly ':' text
  let (second, text) ← looseNumber 2 text
  some (hour, minute, second, text)

/-- A loose date and time of day with their fraction, as in universal time, and the
text that follows. -/
def looseDateTime (text : List Char) : Option (Fields × List Char) := do
  let (year, month, day, text) ← looseDate text
  let text ← exactly 'T' text
  let (hour, minute, second, text) ← looseTime text
  let (nanos, text) ← fraction text
  some (⟨year, month, day, hour, minute, second, nanos, 0⟩, text)

/-- The looser form with an offset. -/
def withOffset (text : List Char) : Option Fields := do
  let (fields, text) ← looseDateTime text
  let offset ← looseOffset text
  some { fields with offset }

/-- The looser form without an offset. -/
def withoutOffset (text : List Char) : Option Fields := do
  let (fields, text) ← looseDateTime text
  if text = [] then some fields else none

/-- The looser form in whole seconds, without an offset. -/
def wholeSeconds (text : List Char) : Option Fields := do
  let (year, month, day, text) ← looseDate text
  let text ← exactly 'T' text
  let (hour, minute, second, text) ← looseTime text
  if text = [] then some ⟨year, month, day, hour, minute, second, 0, 0⟩ else none

/-- A loose date alone. -/
def dateOnly (text : List Char) : Option Fields := do
  let (year, month, day, text) ← looseDate text
  if text = [] then some ⟨year, month, day, 0, 0, 0, 0, 0⟩ else none

/-! ## Reading a timestamp -/

/-- The text with its first comma made a point. -/
def pointForComma : List Char → List Char
  | [] => []
  | c :: rest => if c = ',' then '.' :: rest else c :: pointForComma rest

/-- The ways in which a timestamp is read. -/
inductive Form where
  | strict
  | strictPoint
  | withOffset
  | withoutOffset
  | wholeSeconds
  | dateOnly
  deriving DecidableEq, Repr

namespace Form

/-- The forms in the order in which they are tried. -/
def all : List Form :=
  [.strict, .strictPoint, .withOffset, .withoutOffset, .wholeSeconds, .dateOnly]

/-- The fields of a text in this form.  Only the first form takes a comma as it is. -/
def fields? (form : Form) (text : List Char) : Option Fields :=
  match form with
  | .strict => rfc3339 text
  | .strictPoint => rfc3339 (pointForComma text)
  | .withOffset => Timestamp.withOffset (pointForComma text)
  | .withoutOffset => Timestamp.withoutOffset (pointForComma text)
  | .wholeSeconds => Timestamp.wholeSeconds (pointForComma text)
  | .dateOnly => Timestamp.dateOnly (pointForComma text)

/-- The instant that a text in this form denotes. -/
def instant? (form : Form) (text : List Char) : Option Instant :=
  (form.fields? text).bind Fields.instant?

end Form

/-- The instant that a text denotes in the first form that fits. -/
def ofChars? (text : List Char) : Option Instant :=
  Form.all.findSome? fun form => form.instant? text

/-- The instant that a word denotes, if it is a timestamp. -/
def parse? (word : String) : Option Instant :=
  ofChars? word.toList

end Interleave.Timestamp
