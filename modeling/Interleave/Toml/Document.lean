/-
# Documents of TOML

A document is read statement by statement, and each is carried out on the table read
so far: a header begins a table, and a key with its value goes into the table whose
header came last.

* `value?` : a value;
* `Document.statement?` : one statement;
* `parse?` : the table of a whole document.
-/
import Interleave.Toml.Text

namespace Interleave.Toml

/-! ## Values -/

/-- A character of a number, a date or a truth value. -/
def isScalarChar (c : Char) : Bool :=
  c.isAlphanum || c == '+' || c == '-' || c == '_' || c == '.' || c == ':'

/-- A run of such characters, and the rest. -/
def scalarRun (text : List Char) : List Char × List Char :=
  (text.takeWhile isScalarChar, text.dropWhile isScalarChar)

/-- A number, a date or a truth value.  A space may stand between date and time. -/
def scalarAt? (text : List Char) : Option (Value × List Char) :=
  let (run, rest) := scalarRun text
  match isDate run, rest with
  | true, ' ' :: d :: more =>
      if d.isDigit then
        let (time, rest) := scalarRun (d :: more)
        if isOffsetTime time then some (.moment (String.ofList (run ++ ' ' :: time)), rest)
        else none
      else (scalar? run).map (·, rest)
  | _, _ => (scalar? run).map (·, rest)

/-- The items of an array after its bracket.  `item` reads one, and `fuel` bounds
their number. -/
def items? (item : List Char → Option (Value × List Char)) :
    Nat → List Value → List Char → Option (Value × List Char)
  | 0, _, _ => none
  | fuel + 1, taken, text => do
      match ← skipLines text with
      | ']' :: rest => some (.array taken.reverse, rest)
      | text =>
          let (value, rest) ← item text
          match ← skipLines rest with
          | ',' :: rest => items? item fuel (value :: taken) rest
          | ']' :: rest => some (.array (value :: taken).reverse, rest)
          | _ => none

/-- The keys of a table in braces, at least one, after the brace or a comma. -/
def pairs? (item : List Char → Option (Value × List Char)) :
    Nat → Entries → List Char → Option (Value × List Char)
  | 0, _, _ => none
  | fuel + 1, entries, text => do
      let (path, key, rest) ← keyPath? text
      match rest with
      | '=' :: rest =>
          let (value, rest) ← item (skipSpaces rest)
          let entries ← entries.insert path key value
          match skipSpaces rest with
          | ',' :: rest => pairs? item fuel entries rest
          | '\x7d' :: rest => some (.table .inline entries, rest)
          | _ => none
      | _ => none

/-- A value.  Arrays and tables in braces nest no deeper than `depth`. -/
def value? : Nat → List Char → Option (Value × List Char)
  | _, [] => none
  | depth, c :: rest =>
      if c = doubleQuote ∨ c = singleQuote then
        (string? (c :: rest)).map fun (text, rest) => (.string text, rest)
      else
        match c, depth with
        | '[', 0 => none
        | '[', depth + 1 => items? (value? depth) (rest.length + 1) [] rest
        | '\x7b', 0 => none
        | '\x7b', depth + 1 =>
            match skipSpaces rest with
            | '\x7d' :: rest => some (.table .inline [], rest)
            | rest => pairs? (value? depth) (rest.length + 1) [] rest
        | _, _ => scalarAt? (c :: rest)

/-- How deep arrays and tables in braces nest. -/
def depthLimit : Nat := 79

/-! ## Statements -/

/-- A document read so far. -/
structure Document where
  entries : Entries := []
  /-- The path of the table whose header came last. -/
  current : List String := []

namespace Document

/-- A key with its value, which goes into the latest table. -/
def pair? (doc : Document) (text : List Char) : Option (Document × List Char) := do
  let (path, key, rest) ← keyPath? text
  match rest with
  | '=' :: rest =>
      let (value, rest) ← value? depthLimit (skipSpaces rest)
      let rest ← endLine rest
      let entries ← doc.entries.modify (fun inner => inner.insert path key value) doc.current
      some ({ doc with entries }, rest)
  | _ => none

/-- The header of a table, after its bracket. -/
def tableHeader? (doc : Document) (text : List Char) : Option (Document × List Char) := do
  let (path, key, rest) ← keyPath? text
  match rest with
  | ']' :: rest =>
      let rest ← endLine rest
      let entries ← doc.entries.modify (fun inner => inner.openTable key) path
      some (⟨entries, path ++ [key]⟩, rest)
  | _ => none

/-- The header of one more table of an array, after its two brackets. -/
def rowHeader? (doc : Document) (text : List Char) : Option (Document × List Char) := do
  let (path, key, rest) ← keyPath? text
  match rest with
  | ']' :: ']' :: rest =>
      let rest ← endLine rest
      let entries ← doc.entries.modify (fun inner => inner.openRow key) path
      some (⟨entries, path ++ [key]⟩, rest)
  | _ => none

/-- One statement: an empty line, a comment, a header or a key with its value. -/
def statement? (doc : Document) (text : List Char) : Option (Document × List Char) :=
  match text with
  | '#' :: _ => (endLine text).map (doc, ·)
  | '\n' :: _ => (endLine text).map (doc, ·)
  | '\r' :: _ => (endLine text).map (doc, ·)
  | '[' :: '[' :: rest => doc.rowHeader? rest
  | '[' :: rest => doc.tableHeader? rest
  | text => doc.pair? text

/-- Statements up to the end of the text; `fuel` bounds their number. -/
def statements? : Nat → Document → List Char → Option Document
  | 0, _, _ => none
  | fuel + 1, doc, text =>
      match skipSpaces text with
      | [] => some doc
      | text =>
          match doc.statement? text with
          | some (doc, rest) => statements? fuel doc rest
          | none => none

end Document

/-! ## Whole documents -/

/-- A text without the byte order mark it may start with. -/
def skipOrderMark : List Char → List Char
  | '\uFEFF' :: rest => rest
  | text => text

/-- The table of a document.  Every statement takes at least one character. -/
def parse? (text : String) : Option Entries :=
  let chars := skipOrderMark text.toList
  (Document.statements? (chars.length + 1) {} chars).map (·.entries)

end Interleave.Toml
