/-
# Documents printed line by line

A document can be printed so that every line is a statement: an empty line, the header
of a table, or a key with its value.  It is read line by line, as it was printed, and
what it denotes is what its statements say one after the other.

* `BareKey`, `Plain`, `Statement` : keys, values and statements that are printed;
* `Statement.apply` : what a statement says;
* `Statement.statement?_written` : a statement is read as what it says;
* `parse?_written` : so is a document, as what all its statements say.
-/
import Interleave.Proofs.Toml.Printing

namespace Interleave.Toml

/-! ## Keys -/

/-- A key without quotes. -/
structure BareKey where
  text : String
  nonempty : text.toList ≠ []
  bare : text.toList.all isBareKeyChar = true

namespace BareKey

/-- A character of a key. -/
theorem isBareKeyChar_of_mem (key : BareKey) {c : Char} (mem : c ∈ key.text.toList) :
    isBareKeyChar c = true :=
  List.all_eq_true.mp key.bare c mem

/-- A mark is no character of a key. -/
theorem ne_of_mem (key : BareKey) {c d : Char} (mem : c ∈ key.text.toList)
    (mark : isBareKeyChar d = false) : c ≠ d := by
  rintro rfl
  rw [key.isBareKeyChar_of_mem mem] at mark
  cases mark

/-- The first character of a key. -/
theorem exists_eq_cons (key : BareKey) :
    ∃ c rest, key.text.toList = c :: rest ∧ ∀ d, isBareKeyChar d = false → c ≠ d := by
  obtain ⟨c, rest, start⟩ := List.exists_cons_of_ne_nil key.nonempty
  exact ⟨c, rest, start, fun _ => key.ne_of_mem (start ▸ List.mem_cons_self)⟩

/-- A key ends where a mark stands. -/
theorem key?_append (key : BareKey) {d : Char} (mark : isBareKeyChar d = false)
    (rest : List Char) :
    key? (key.text.toList ++ d :: rest) = some (key.text, d :: rest) := by
  obtain ⟨c, chars, start, other⟩ := key.exists_eq_cons
  have bare : isBareKeyChar c = true := key.isBareKeyChar_of_mem (start ▸ List.mem_cons_self)
  have taken : (key.text.toList ++ d :: rest).takeWhile isBareKeyChar = key.text.toList :=
    takeWhile_run (fun _ => key.isBareKeyChar_of_mem) mark
  have left : (key.text.toList ++ d :: rest).dropWhile isBareKeyChar = d :: rest :=
    dropWhile_run (fun _ => key.isBareKeyChar_of_mem) mark
  have spelled : key.text.toList ++ d :: rest = c :: (chars ++ d :: rest) := by
    rw [start, List.cons_append]
  rw [spelled] at taken left ⊢
  rw [key?, if_neg (other doubleQuote (by decide)), if_neg (other singleQuote (by decide)),
    if_pos bare, taken, left, String.ofList_toList]

/-- No spaces stand in front of a key. -/
theorem skipSpaces_append (key : BareKey) (rest : List Char) :
    skipSpaces (key.text.toList ++ rest) = key.text.toList ++ rest := by
  obtain ⟨c, chars, start, other⟩ := key.exists_eq_cons
  have full : isSpace c = false := by
    simp [isSpace, other ' ' (by decide), other '\t' (by decide)]
  rw [start, List.cons_append, skipSpaces_cons full]

/-- A key on its own, up to a mark that is no dot. -/
theorem keyPath?_append (key : BareKey) {d e : Char} {after rest : List Char}
    (mark : isBareKeyChar d = false) (next : skipSpaces (d :: after) = e :: rest)
    (single : e ≠ '.') :
    keyPath? (key.text.toList ++ d :: after) = some ([], key.text, e :: rest) := by
  rw [keyPath?, pathLimit, keyPathWithin?, key.skipSpaces_append, key.key?_append mark]
  simp only [Option.bind_eq_bind, Option.bind_some, next]
  split
  case h_1 start => exact absurd (List.cons.inj start).1 single
  case h_2 => rfl

end BareKey

/-! ## Values -/

/-- What begins with no bracket is read as a string, or else as a number, a date or a
truth value. -/
theorem value?_cons {c : Char} (bracket : c ≠ '[') (brace : c ≠ '\x7b') (depth : Nat)
    (rest : List Char) :
    value? depth (c :: rest) =
      if c = doubleQuote ∨ c = singleQuote then
        (string? (c :: rest)).map fun (text, rest) => (.string text, rest)
      else scalarAt? (c :: rest) := by
  rw [value?]
  · exact fun same => absurd same bracket
  · exact fun _ same => absurd same bracket
  · exact fun same => absurd same brace
  · exact fun _ same => absurd same brace

/-- A value that is printed: a number of 64 bits, or a string. -/
inductive Plain where
  | integer (n : Int) (fits : fitsWord n = true)
  | string (text : String)

namespace Plain

/-- The value. -/
def value : Plain → Value
  | integer n _ => .integer n
  | string text => .string text

/-- How it is printed. -/
def written : Plain → List Char
  | integer n _ => decimals n
  | string text => doubleQuote :: (text.toList.flatMap escaped ++ [doubleQuote])

/-- A value is read back, up to the end of its line. -/
theorem value?_written (plain : Plain) (depth : Nat) (rest : List Char) :
    value? depth (plain.written ++ '\n' :: rest) = some (plain.value, '\n' :: rest) := by
  cases plain with
  | integer n fits =>
      obtain ⟨c, more, start, other⟩ := exists_decimals_eq_cons n
      have read := scalarAt?_decimals fits rest
      rw [written, value]
      rw [start, List.cons_append] at read ⊢
      have unquoted : ¬ (c = doubleQuote ∨ c = singleQuote) := by
        rw [not_or]
        exact ⟨other _ (by decide) (by decide), other _ (by decide) (by decide)⟩
      rw [value?_cons (other _ (by decide) (by decide)) (other _ (by decide) (by decide)),
        if_neg unquoted, read]
  | string text =>
      have unquoted : ('\n' :: rest).head? ≠ some doubleQuote := fun same =>
        absurd (Option.some.inj same) (by decide)
      rw [written, List.cons_append, List.append_assoc, List.singleton_append,
        value?_cons (by decide) (by decide), if_pos (.inl rfl), string?_escaped unquoted]
      rfl

/-- No spaces stand in front of a value. -/
theorem skipSpaces_written (plain : Plain) (rest : List Char) :
    skipSpaces (' ' :: (plain.written ++ rest)) = plain.written ++ rest := by
  obtain ⟨c, more, start, full⟩ : ∃ c more, plain.written = c :: more ∧ isSpace c = false := by
    cases plain with
    | integer n fits =>
        obtain ⟨c, more, start, other⟩ := exists_decimals_eq_cons n
        refine ⟨c, more, start, ?_⟩
        simp [isSpace, other ' ' (by decide) (by decide), other '\t' (by decide) (by decide)]
    | string text => exact ⟨_, _, rfl, by decide⟩
  rw [start, List.cons_append, skipSpaces, List.dropWhile_cons, if_pos (by decide),
    ← skipSpaces, skipSpaces_cons full]

end Plain

/-! ## Statements -/

/-- A statement that is printed on a line of its own. -/
inductive Statement where
  | blank
  | header (name : BareKey)
  | pair (key : BareKey) (value : Plain)

namespace Statement

/-- How it is printed. -/
def written : Statement → List Char
  | blank => ['\n']
  | header name => '[' :: (name.text.toList ++ [']', '\n'])
  | pair key value => key.text.toList ++ ' ' :: '=' :: ' ' :: (value.written ++ ['\n'])

/-- What it says, after what the document has said before. -/
def apply (doc : Document) : Statement → Option Document
  | blank => some doc
  | header name => (doc.entries.openTable name.text).map fun entries => ⟨entries, [name.text]⟩
  | pair key value =>
      (doc.entries.modify (fun inner => inner.insert [] key.text value.value) doc.current).map
        fun entries => { doc with entries }

/-- A statement begins with no space, and not with the mark of a byte order. -/
theorem exists_written_eq_cons (s : Statement) :
    ∃ c more, s.written = c :: more ∧ isSpace c = false ∧ c ≠ '\uFEFF' := by
  cases s with
  | blank => exact ⟨_, _, rfl, by decide, by decide⟩
  | header name => exact ⟨_, _, rfl, by decide, by decide⟩
  | pair key value =>
      obtain ⟨c, more, start, other⟩ := key.exists_eq_cons
      refine ⟨c, _, by rw [written, start]; rfl, ?_, other '\uFEFF' (by decide)⟩
      simp [isSpace, other ' ' (by decide), other '\t' (by decide)]

/-- Nothing stands between a statement and the end of its line. -/
theorem endLine_newline (rest : List Char) : endLine ('\n' :: rest) = some rest := rfl

/-- A header is read as what it says. -/
theorem statement?_header (name : BareKey) (doc : Document) (rest : List Char) :
    doc.statement? ((header name).written ++ rest) = ((header name).apply doc).map (·, rest) := by
  have text : (header name).written ++ rest =
      '[' :: (name.text.toList ++ ']' :: '\n' :: rest) := by
    simp [written]
  have key : keyPath? (name.text.toList ++ ']' :: '\n' :: rest) =
      some ([], name.text, ']' :: '\n' :: rest) :=
    name.keyPath?_append (by decide) rfl (by decide)
  obtain ⟨c, more, start, other⟩ := name.exists_eq_cons
  -- A second bracket would begin a row of an array.
  have single : ∀ tail, name.text.toList ++ ']' :: '\n' :: rest ≠ '[' :: tail := by
    intro tail same
    rw [start] at same
    exact other '[' (by decide) (List.cons.inj same).1
  rw [text, Document.statement?, Document.tableHeader?, key]
  · simp only [Option.bind_eq_bind, Option.bind_some, endLine_newline, Entries.modify, apply,
      List.nil_append]
    cases doc.entries.openTable name.text <;> rfl
  · exact single

/-- A key with its value is read as what it says. -/
theorem statement?_pair (key : BareKey) (value : Plain) (doc : Document) (rest : List Char) :
    doc.statement? ((pair key value).written ++ rest) =
      ((pair key value).apply doc).map (·, rest) := by
  have text : (pair key value).written ++ rest =
      key.text.toList ++ ' ' :: '=' :: ' ' :: (value.written ++ '\n' :: rest) := by
    simp [written]
  have path : keyPath? (key.text.toList ++ ' ' :: '=' :: ' ' :: (value.written ++ '\n' :: rest)) =
      some ([], key.text, '=' :: ' ' :: (value.written ++ '\n' :: rest)) :=
    key.keyPath?_append (by decide) rfl (by decide)
  have read := value.value?_written depthLimit rest
  obtain ⟨c, more, start, other⟩ := key.exists_eq_cons
  have first : ∀ d, isBareKeyChar d = false → ∀ tail,
      key.text.toList ++ ' ' :: '=' :: ' ' :: (value.written ++ '\n' :: rest) ≠ d :: tail := by
    intro d mark tail same
    rw [start] at same
    exact other d mark (List.cons.inj same).1
  rw [text, Document.statement?, Document.pair?, path]
  · simp only [Option.bind_eq_bind, Option.bind_some, value.skipSpaces_written, read,
      endLine_newline, apply]
    cases doc.entries.modify (fun inner => inner.insert [] key.text value.value) doc.current <;>
      rfl
  · exact first '#' (by decide)
  · exact first '\n' (by decide)
  · exact first '\r' (by decide)
  · exact fun tail => first '[' (by decide) ('[' :: tail)
  · exact first '[' (by decide)

/-- A statement is read as what it says. -/
theorem statement?_written (s : Statement) (doc : Document) (rest : List Char) :
    doc.statement? (s.written ++ rest) = (s.apply doc).map (·, rest) := by
  cases s with
  | blank => rfl
  | header name => exact statement?_header name doc rest
  | pair key value => exact statement?_pair key value doc rest

end Statement

/-! ## Documents -/

/-- The text of statements, each on a line of its own. -/
def written (lines : List Statement) : List Char := lines.flatMap Statement.written

/-- Statements are read as what they say, one after the other. -/
theorem statements?_written (lines : List Statement) (doc : Document) {fuel : Nat}
    (enough : (written lines).length < fuel) :
    Document.statements? fuel doc (written lines) = lines.foldlM Statement.apply doc := by
  induction lines generalizing doc fuel with
  | nil =>
      obtain ⟨fuel, rfl⟩ : ∃ room, fuel = room + 1 := ⟨fuel - 1, by omega⟩
      rfl
  | cons line lines ih =>
      obtain ⟨fuel, rfl⟩ : ∃ room, fuel = room + 1 := ⟨fuel - 1, by omega⟩
      obtain ⟨c, more, start, full, -⟩ := line.exists_written_eq_cons
      have shorter : (written lines).length < fuel := by
        simp only [written, List.flatMap_cons, List.length_append, start, List.length_cons] at enough ⊢
        omega
      have text : written (line :: lines) = line.written ++ written lines := rfl
      have step := line.statement?_written doc (written lines)
      have skipped : skipSpaces (written (line :: lines)) = written (line :: lines) := by
        rw [text, start, List.cons_append, skipSpaces_cons full]
      rw [Document.statements?, skipped]
      split
      case h_1 empty => simp [text, start] at empty
      case h_2 =>
        rw [text, step, List.foldlM_cons]
        cases line.apply doc with
        | none => rfl
        | some doc => exact ih doc shorter

/-- **A printed document** is read as what its statements say. -/
theorem parse?_written (lines : List Statement) :
    parse? (String.ofList (written lines)) =
      (lines.foldlM Statement.apply {}).map (·.entries) := by
  have marked : skipOrderMark (written lines) = written lines := by
    cases lines with
    | nil => rfl
    | cons line lines =>
        obtain ⟨c, more, start, -, plain⟩ := line.exists_written_eq_cons
        have text : written (line :: lines) = c :: (more ++ written lines) := by
          rw [written, List.flatMap_cons, start]
          rfl
        rw [text, skipOrderMark]
        exact fun _ same => absurd (List.cons.inj same).1 plain
  rw [parse?, String.toList_ofList]
  simp only [marked]
  rw [statements?_written lines {} (Nat.lt_succ_self _)]

end Interleave.Toml
