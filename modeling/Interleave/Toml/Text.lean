/-
# Spaces, comments, keys and strings of TOML

What a document is written with below its values.  Each function takes characters off
the front of a text and gives the rest, or nothing where the text is wrong.

* `skipSpaces`, `skipLines` : what may stand between values;
* `endLine` : the end of a line, with its comment;
* `string?` : a string in any of its four spellings;
* `keyPath?` : a key, or several with dots between them.
-/
import Interleave.Toml.Scalar

namespace Interleave.Toml

/-! ## Spaces and comments -/

/-- A space or a tab. -/
def isSpace (c : Char) : Bool := c == ' ' || c == '\t'

/-- The text without the spaces it starts with. -/
def skipSpaces (text : List Char) : List Char := text.dropWhile isSpace

/-- A character that may stand in a comment: a tab, or any that is no control
character. -/
def isCommentChar (c : Char) : Bool :=
  c == '\t' || (0x20 ≤ c.toNat && c.toNat != 0x7F)

/-- The rest of a text that starts with a line end. -/
def lineEnd? : List Char → Option (List Char)
  | '\n' :: rest => some rest
  | '\r' :: '\n' :: rest => some rest
  | _ => none

/-- The rest of a text without the comment it may start with. -/
def skipComment : List Char → List Char
  | '#' :: rest => rest.dropWhile isCommentChar
  | text => text

/-- The rest after a line: spaces and a comment, then the line end or the end of the
text. -/
def endLine (text : List Char) : Option (List Char) :=
  match skipComment (skipSpaces text) with
  | [] => some []
  | text => lineEnd? text

/-- What a place between values stands in. -/
inductive Between where
  | plain
  | comment
  /-- After a carriage return, which a line feed has to follow. -/
  | return
  deriving DecidableEq, Repr

/-- The rest after spaces, line ends and comments.  A comment has a line end. -/
def skipLinesFrom : Between → List Char → Option (List Char)
  | .plain, [] => some []
  | _, [] => none
  | .plain, c :: rest =>
      if isSpace c || c == '\n' then skipLinesFrom .plain rest
      else if c = '\r' then skipLinesFrom .return rest
      else if c = '#' then skipLinesFrom .comment rest
      else some (c :: rest)
  | .comment, c :: rest =>
      if c = '\n' then skipLinesFrom .plain rest
      else if c = '\r' then skipLinesFrom .return rest
      else if isCommentChar c then skipLinesFrom .comment rest
      else none
  | .return, c :: rest => if c = '\n' then skipLinesFrom .plain rest else none

/-- The rest after spaces, line ends and comments. -/
def skipLines (text : List Char) : Option (List Char) := skipLinesFrom .plain text

/-! ## Strings -/

/-- The quote of a basic string. -/
def doubleQuote : Char := '\x22'

/-- The quote of a literal string. -/
def singleQuote : Char := '\x27'

/-- The mark of an escape in a basic string. -/
def escapeMark : Char := '\x5c'

/-- A string and the rest after it. -/
abbrev Quoted := Option (String × List Char)

/-- A string whose characters have been taken, the latest first. -/
def quoted (taken : List Char) (rest : List Char) : Quoted :=
  some (String.ofList taken.reverse, rest)

/-- The character that a letter stands for after the mark of an escape. -/
def escape? (c : Char) : Option Char :=
  if c = 'b' then some '\x08'
  else if c = 't' then some '\t'
  else if c = 'n' then some '\n'
  else if c = 'f' then some '\x0c'
  else if c = 'r' then some '\r'
  else if c = doubleQuote ∨ c = escapeMark then some c
  else none

/-- The character with a number in hexadecimal digits. -/
def escapedChar? (digits : List Char) : Option Char :=
  let n := digitsValue 16 digits
  if digits.all (isDigitOf 16) ∧ n.isValidChar then some (Char.ofNat n) else none

/-- A basic string after its quote. -/
def basic? (taken : List Char) : List Char → Quoted
  | [] => none
  | '\x5c' :: 'u' :: a :: b :: c :: d :: rest =>
      match escapedChar? [a, b, c, d] with
      | some e => basic? (e :: taken) rest
      | none => none
  | '\x5c' :: 'U' :: a :: b :: c :: d :: e :: f :: g :: h :: rest =>
      match escapedChar? [a, b, c, d, e, f, g, h] with
      | some e => basic? (e :: taken) rest
      | none => none
  | '\x5c' :: c :: rest =>
      match escape? c with
      | some e => basic? (e :: taken) rest
      | none => none
  | c :: rest =>
      if c = doubleQuote then quoted taken rest
      else if c ≠ escapeMark ∧ isCommentChar c then basic? (c :: taken) rest
      else none

/-- A literal string after its quote. -/
def literal? (taken : List Char) : List Char → Quoted
  | [] => none
  | c :: rest =>
      if c = singleQuote then quoted taken rest
      else if isCommentChar c then literal? (c :: taken) rest
      else none

/-- How many quotes a text starts with. -/
def leadingQuotes (quote : Char) (text : List Char) : Nat :=
  (text.takeWhile (· == quote)).length

/-- The end of a string of several lines.  Three quotes end it, and up to two more
before them belong to it. -/
def closing (quote : Char) (taken text : List Char) : Quoted :=
  let kept := min (leadingQuotes quote text - 3) 2
  quoted (List.replicate kept quote ++ taken) (text.drop (kept + 3))

/-- An escaped line end, after its mark: only spaces stand before the line end. -/
def continuesLine (text : List Char) : Bool := (lineEnd? (skipSpaces text)).isSome

/-- A basic string of several lines.  While `skipping`, spaces and line ends are
dropped, as they are after an escaped line end. -/
def basicLines? (skipping : Bool) (taken : List Char) : List Char → Quoted
  | [] => none
  | '\x5c' :: 'u' :: a :: b :: c :: d :: rest =>
      match escapedChar? [a, b, c, d] with
      | some e => basicLines? false (e :: taken) rest
      | none => none
  | '\x5c' :: 'U' :: a :: b :: c :: d :: e :: f :: g :: h :: rest =>
      match escapedChar? [a, b, c, d, e, f, g, h] with
      | some e => basicLines? false (e :: taken) rest
      | none => none
  | '\x5c' :: c :: rest =>
      if continuesLine (c :: rest) then basicLines? true taken (c :: rest)
      else
        match escape? c with
        | some e => basicLines? false (e :: taken) rest
        | none => none
  | '\r' :: '\n' :: rest => basicLines? skipping (if skipping then taken else '\n' :: taken) rest
  | c :: rest =>
      if skipping ∧ (isSpace c ∨ c = '\n') then basicLines? true taken rest
      else if c = '\n' then basicLines? false ('\n' :: taken) rest
      else if c = doubleQuote ∧ 3 ≤ leadingQuotes doubleQuote (c :: rest) then
        closing doubleQuote taken (c :: rest)
      else if c ≠ escapeMark ∧ isCommentChar c then basicLines? false (c :: taken) rest
      else none

/-- A literal string of several lines. -/
def literalLines? (taken : List Char) : List Char → Quoted
  | [] => none
  | '\r' :: '\n' :: rest => literalLines? ('\n' :: taken) rest
  | c :: rest =>
      if c = '\n' then literalLines? ('\n' :: taken) rest
      else if c = singleQuote ∧ 3 ≤ leadingQuotes singleQuote (c :: rest) then
        closing singleQuote taken (c :: rest)
      else if isCommentChar c then literalLines? (c :: taken) rest
      else none

/-- A text without the line end it may start with. -/
def skipLineEnd (text : List Char) : List Char := (lineEnd? text).getD text

/-- A string, where the text starts with a quote.  Three quotes begin a string of
several lines, and a line end right after them does not count. -/
def string? (text : List Char) : Quoted :=
  let ofQuote (quote : Char) (single several : List Char → Quoted) : Quoted :=
    if 3 ≤ leadingQuotes quote text then several (skipLineEnd (text.drop 3))
    else single (text.drop 1)
  if text.head? = some doubleQuote then ofQuote doubleQuote (basic? []) (basicLines? false [])
  else if text.head? = some singleQuote then ofQuote singleQuote (literal? []) (literalLines? [])
  else none

/-! ## Keys -/

/-- A character of a key without quotes. -/
def isBareKeyChar (c : Char) : Bool := c.isAlphanum || c == '-' || c == '_'

/-- One key: bare, or a string of one line. -/
def key? : List Char → Quoted
  | [] => none
  | c :: rest =>
      if c = doubleQuote then basic? [] rest
      else if c = singleQuote then literal? [] rest
      else if isBareKeyChar c then
        some (String.ofList ((c :: rest).takeWhile isBareKeyChar),
          (c :: rest).dropWhile isBareKeyChar)
      else none

/-- How many keys may stand with dots between them. -/
def pathLimit : Nat := 79

/-- Keys with dots between them, at most `room`: those before the last, the last, and
the rest of the text.  Spaces may stand around every key. -/
def keyPathWithin? : Nat → List String → List Char → Option (List String × String × List Char)
  | 0, _, _ => none
  | room + 1, taken, text => do
      let (name, rest) ← key? (skipSpaces text)
      match skipSpaces rest with
      | '.' :: rest => keyPathWithin? room (name :: taken) rest
      | rest => some (taken.reverse, name, rest)

/-- A key, or several with dots between them. -/
def keyPath? (text : List Char) : Option (List String × String × List Char) :=
  keyPathWithin? pathLimit [] text

end Interleave.Toml
