/-
# Values and tables of TOML

A document denotes a table: keys with values, some of which are tables again.  A
table may be given in several pieces, but each piece only where the format allows it,
and that depends on how the table came to be.  So every table carries its origin, and
the three ways of adding to a document below each say what they accept.

* `Value` : the values;
* `Entries.insert` : a key, dotted or not, with a value;
* `Entries.openTable` : a header `[a.b]`;
* `Entries.openRow` : a header `[[a.b]]`, which begins one more table of an array.
-/

namespace Interleave.Toml

/-! ## Values -/

/-- How a table came to be. -/
inductive Origin where
  /-- By its own header. -/
  | header
  /-- On the way to a table with a header. -/
  | passage
  /-- By a dotted key. -/
  | dotted
  /-- In braces, which closes it. -/
  | inline
  deriving DecidableEq, Repr

/-- A value of a document. -/
inductive Value where
  | string (text : String)
  | integer (n : Int)
  | boolean (b : Bool)
  /-- A floating point number, as it is written. -/
  | float (text : String)
  /-- A date, a time of day, or both, as it is written. -/
  | moment (text : String)
  | array (items : List Value)
  | table (origin : Origin) (entries : List (String × Value))
  /-- An array of tables given by headers, the latest first. -/
  | rows (latestFirst : List (List (String × Value)))
  deriving Repr

/-- The keys of a table with their values, the latest first. -/
abbrev Entries := List (String × Value)

namespace Entries

/-- The value of a key. -/
def find? (entries : Entries) (key : String) : Option Value :=
  (List.find? (fun entry => entry.1 == key) entries).map (·.2)

/-- The entries with another value for a key that is there. -/
def replace (entries : Entries) (key : String) (value : Value) : Entries :=
  entries.map fun entry => if entry.1 == key then (key, value) else entry

/-- The entries with a new key. -/
def add (entries : Entries) (key : String) (value : Value) : Option Entries :=
  match entries.find? key with
  | none => some ((key, value) :: entries)
  | some _ => none

/-! ## Adding to a document -/

/-- Adds a key with its value, going through the tables named by `path`.  Tables that
are missing come to be by this dotted key.  A table with a header of its own, or in
braces, takes no dotted keys, and one on the way to a header is only gone through. -/
def insert : List String → String → Value → Entries → Option Entries
  | [], key, value, entries => entries.add key value
  | name :: path, key, value, entries =>
      match entries.find? name with
      | none => (insert path key value []).bind fun inner => entries.add name (.table .dotted inner)
      | some (.table .dotted inner) =>
          (insert path key value inner).map fun inner => entries.replace name (.table .dotted inner)
      | some (.table .passage inner) =>
          if path = [] then none
          else
            (insert path key value inner).map fun inner =>
              entries.replace name (.table .passage inner)
      | some (.rows (latest :: earlier)) =>
          if path = [] then none
          else
            (insert path key value latest).map fun latest =>
              entries.replace name (.rows (latest :: earlier))
      | some _ => none

/-- Changes the table that a header path leads to.  Tables that are missing come to
be on the way; of an array of tables the latest is meant. -/
def modify (change : Entries → Option Entries) : List String → Entries → Option Entries
  | [], entries => change entries
  | name :: path, entries =>
      match entries.find? name with
      | none => (modify change path []).bind fun inner => entries.add name (.table .passage inner)
      | some (.table .inline _) => none
      | some (.table origin inner) =>
          (modify change path inner).map fun inner => entries.replace name (.table origin inner)
      | some (.rows (latest :: earlier)) =>
          (modify change path latest).map fun latest =>
            entries.replace name (.rows (latest :: earlier))
      | some _ => none

/-- The header of a table, which may have been gone through before and nothing else. -/
def openTable (key : String) (entries : Entries) : Option Entries :=
  match entries.find? key with
  | none => entries.add key (.table .header [])
  | some (.table .passage inner) => some (entries.replace key (.table .header inner))
  | some _ => none

/-- The header of one more table of an array. -/
def openRow (key : String) (entries : Entries) : Option Entries :=
  match entries.find? key with
  | none => entries.add key (.rows [[]])
  | some (.rows rows) => some (entries.replace key (.rows ([] :: rows)))
  | some _ => none

end Entries

end Interleave.Toml
