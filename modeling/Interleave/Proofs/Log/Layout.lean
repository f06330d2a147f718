/-
# How a line is laid out

A line that is not white space throughout is laid out as white space, a word, and what is left,
which is nothing or goes on with white space.  There is only one way to lay it out.  What the line
is depends on the word alone: neither the white space in front of it nor anything after it counts,
be it a time of day, the line end or bytes that are no text.

* `firstWord_eq_find?_splitOnP` : the first word among the pieces between blanks;
* `Layout` : white space, a word, and what is left;
* `exists_layout`, `Layout.eq_of_bytes` : a line with a first word is laid out around it, in one
  way only;
* `decided_lines` : what a line is depends on its first word alone.
-/
import Mathlib.Data.List.TakeWhile
import Interleave.Proofs.Time.Accepted

namespace Interleave

/-! ## Words between blanks -/

/-- In front of the first separator is the longest run without any. -/
theorem head?_splitOnP {α : Type} (p : α → Bool) (xs : List α) :
    (xs.splitOnP p).head? = some (xs.takeWhile fun x => !p x) := by
  induction xs with
  | nil => rfl
  | cons x xs ih =>
      rw [List.splitOnP_cons_eq_if_modifyHead, List.takeWhile_cons]
      cases separates : p x with
      | true => rfl
      | false => simp [List.head?_modifyHead, ih]

/-- A run that is followed by nothing of its kind is all that a list begins with. -/
theorem span_append {α : Type} {p : α → Bool} {run rest : List α} (all : ∀ x ∈ run, p x = true)
    (stop : ∀ x ∈ rest.head?, p x = false) :
    (run ++ rest).takeWhile p = run ∧ (run ++ rest).dropWhile p = rest := by
  rw [List.takeWhile_append_of_pos all, List.dropWhile_append_of_pos all]
  cases rest with
  | nil => exact ⟨List.append_nil run, rfl⟩
  | cons x rest => simp [stop x rfl]

/-- A first word begins after the blanks, and has a byte. -/
theorem firstWord_eq_some_iff {raw token : Bytes} :
    firstWord raw = some token ↔ token ≠ [] ∧
      (raw.dropWhile Ascii.isBlank).takeWhile (fun b => !Ascii.isBlank b) = token := by
  unfold firstWord
  split
  · next none =>
      rw [none]
      exact ⟨nofun, fun h => absurd h.2.symm h.1⟩
  · next b word run =>
      rw [run, Option.some.injEq]
      exact ⟨fun same => ⟨same ▸ List.cons_ne_nil b word, same⟩, fun h => h.2⟩

/-- A first word has bytes, and none of them is blank. -/
theorem firstWord_eq_some {raw token : Bytes} (h : firstWord raw = some token) :
    token ≠ [] ∧ ∀ b ∈ token, Ascii.isBlank b = false := by
  obtain ⟨ne, run⟩ := firstWord_eq_some_iff.mp h
  refine ⟨ne, fun a member => ?_⟩
  rw [← run] at member
  simpa using List.mem_takeWhile_imp member

/-- **The first word** is the first piece that has bytes, of a line split at every blank. -/
theorem firstWord_eq_find?_splitOnP (raw : Bytes) :
    firstWord raw = (raw.splitOnP Ascii.isBlank).find? fun piece => !piece.isEmpty := by
  induction raw with
  | nil => rfl
  | cons b raw ih =>
      rw [List.splitOnP_cons_eq_if_modifyHead]
      cases blank : Ascii.isBlank b with
      | true =>
          -- The piece in front of this blank is empty.
          have skipped : firstWord (b :: raw) = firstWord raw := by simp [firstWord, blank]
          rw [skipped, ih]
          rfl
      | false =>
          have whole : firstWord (b :: raw) =
              some (b :: raw.takeWhile fun b => !Ascii.isBlank b) := by simp [firstWord, blank]
          have first := head?_splitOnP Ascii.isBlank raw
          cases pieces : raw.splitOnP Ascii.isBlank with
          | nil => exact absurd pieces (List.splitOnP_ne_nil _ raw)
          | cons piece others =>
              rw [pieces] at first
              rw [whole, ← Option.some.inj first]
              rfl

/-- A vertical tab separates no words, and neither does a no-break space. -/
example : firstWord ([0x20, 0x0B, 0xC2, 0xA0] ++ Ascii.encode " up") =
    some [0x0B, 0xC2, 0xA0] := by decide +kernel

/-! ## Layouts -/

/-- A line with a word: white space, the word, and what is left. -/
@[ext]
structure Layout where
  indent : Bytes
  word : Bytes
  rest : Bytes
  indent_blank : ∀ b ∈ indent, Ascii.isBlank b = true
  word_ne_nil : word ≠ []
  word_not_blank : ∀ b ∈ word, Ascii.isBlank b = false
  /-- What is left is nothing, or goes on with white space. -/
  rest_blank : ∀ b ∈ rest.head?, Ascii.isBlank b = true

namespace Layout

/-- The line. -/
def bytes (l : Layout) : Bytes := l.indent ++ (l.word ++ l.rest)

/-- The blanks in front are all that the line begins with. -/
theorem span_bytes (l : Layout) :
    l.bytes.takeWhile Ascii.isBlank = l.indent ∧
      l.bytes.dropWhile Ascii.isBlank = l.word ++ l.rest := by
  refine span_append l.indent_blank fun b head => ?_
  obtain ⟨c, word, given⟩ := List.exists_cons_of_ne_nil l.word_ne_nil
  rw [given] at head
  obtain rfl := Option.some.inj head
  exact l.word_not_blank c (given ▸ List.mem_cons_self)

/-- **The word of a layout** is the first word of the line. -/
theorem firstWord_bytes (l : Layout) : firstWord l.bytes = some l.word := by
  refine firstWord_eq_some_iff.mpr ⟨l.word_ne_nil, ?_⟩
  rw [l.span_bytes.2]
  refine (span_append (fun b member => ?_) fun b head => ?_).1
  · rw [l.word_not_blank b member]
    rfl
  · rw [l.rest_blank b head]
    rfl

/-- **There is only one way** to lay a line out. -/
theorem eq_of_bytes {l m : Layout} (h : l.bytes = m.bytes) : l = m := by
  have indent : l.indent = m.indent := by rw [← l.span_bytes.1, h, m.span_bytes.1]
  have word : l.word = m.word :=
    Option.some.inj (by rw [← l.firstWord_bytes, h, m.firstWord_bytes])
  have rest : l.rest = m.rest := by
    rw [bytes, bytes, indent, word] at h
    exact List.append_cancel_left (List.append_cancel_left h)
  exact Layout.ext indent word rest

end Layout

/-- **A line with a first word** is laid out around it. -/
theorem exists_layout {raw token : Bytes} (h : firstWord raw = some token) :
    ∃ l : Layout, l.bytes = raw ∧ l.word = token := by
  obtain ⟨ne, clean⟩ := firstWord_eq_some h
  obtain ⟨-, run⟩ := firstWord_eq_some_iff.mp h
  let rest := (raw.dropWhile Ascii.isBlank).dropWhile fun b => !Ascii.isBlank b
  have goes_on : ∀ b ∈ rest.head?, Ascii.isBlank b = true := by
    intro b head
    have stops := List.head?_dropWhile_not (fun b => !Ascii.isBlank b) (raw.dropWhile Ascii.isBlank)
    rw [show List.head? _ = some b from head] at stops
    simpa using stops
  have whole : raw.takeWhile Ascii.isBlank ++ (token ++ rest) = raw := by
    rw [← run, List.takeWhile_append_dropWhile, List.takeWhile_append_dropWhile]
  exact ⟨⟨raw.takeWhile Ascii.isBlank, token, rest, fun b => List.mem_takeWhile_imp, ne, clean,
    goes_on⟩, whole, rfl⟩

/-! ## What a line is -/

/-- A word denotes an instant if it is the bytes of a text that does. -/
theorem FirstWord.instant?_eq_some_iff {token : Bytes} {i : Instant} :
    instant? token = some i ↔
      ∃ text : String, token = Utf8.encode text.toList ∧ Timestamp.parse? text = some i := by
  rw [instant?, Option.bind_eq_some_iff]
  exact exists_congr fun text => and_congr_left fun _ => Utf8.decode?_eq_some_iff

/-- What a line with this word is: the instant that the word denotes as a text, or else the word
as it is. -/
structure FirstWord.Decided (token : Bytes) (outcome : FirstWord) : Prop where
  timestamp_iff : ∀ i, outcome = .timestamp i ↔
    ∃ text : String, token = Utf8.encode text.toList ∧ Timestamp.parse? text = some i
  other_iff : outcome = .other token ↔
    ¬ ∃ (text : String) (i : Instant),
      token = Utf8.encode text.toList ∧ Timestamp.parse? text = some i

/-- What a line is depends on its word as it should. -/
theorem Layout.decided_ofLine (l : Layout) :
    FirstWord.Decided l.word (FirstWord.ofLine l.bytes) where
  timestamp_iff i := by
    rw [Timestamp.ofLine_eq_timestamp_iff, l.firstWord_bytes, ← FirstWord.instant?_eq_some_iff]
    simp only [Option.some.injEq, exists_eq_left']
  other_iff := by
    rw [Timestamp.ofLine_eq_other_iff, l.firstWord_bytes, Option.eq_none_iff_forall_ne_some,
      exists_comm, not_exists]
    exact (and_iff_right rfl).trans
      (forall_congr' fun i => not_congr FirstWord.instant?_eq_some_iff)

/-- Lines with the same first word are the same. -/
theorem FirstWord.ofLine_congr {raw other : Bytes} (h : firstWord other = firstWord raw) :
    ofLine other = ofLine raw := by
  rw [ofLine, ofLine, h]

/-- **The first word alone decides.**  A line is white space throughout, and then it has no first
word; or it can be laid out, in one way only, as white space, a word, and what is left.  Then the
word is its first word, and what the line is depends on this word: every line with the same word
has the same outcome, whatever white space is in front of it and whatever comes after it. -/
theorem decided_lines (raw : Bytes) :
    firstWord raw = ((raw.splitOnP Ascii.isBlank).find? fun piece => !piece.isEmpty) ∧
      (((∀ b ∈ raw, Ascii.isBlank b = true) ∧ (∀ l : Layout, l.bytes ≠ raw) ∧
          firstWord raw = none ∧ FirstWord.ofLine raw = .missing) ∨
        (¬ ∀ b ∈ raw, Ascii.isBlank b = true) ∧
          ∃ l : Layout, (∀ m : Layout, m.bytes = raw ↔ m = l) ∧
            firstWord raw = some l.word ∧ FirstWord.Decided l.word (FirstWord.ofLine raw) ∧
            ∀ m : Layout, m.word = l.word →
              firstWord m.bytes = firstWord raw ∧
                FirstWord.ofLine m.bytes = FirstWord.ofLine raw) := by
  refine ⟨firstWord_eq_find?_splitOnP raw, ?_⟩
  cases first : firstWord raw with
  | none =>
      refine Or.inl ⟨(firstWord_eq_none_iff raw).mp first, ?_, rfl, by rw [FirstWord.ofLine, first]⟩
      rintro l rfl
      rw [l.firstWord_bytes] at first
      cases first
  | some token =>
      have worded : ¬ ∀ b ∈ raw, Ascii.isBlank b = true := fun blank => by
        rw [(firstWord_eq_none_iff raw).mpr blank] at first
        cases first
      obtain ⟨l, rfl, rfl⟩ := exists_layout first
      have same : ∀ m : Layout, m.word = l.word → firstWord m.bytes = some l.word := fun m same => by
        rw [m.firstWord_bytes, same]
      exact Or.inr ⟨worded, l, fun m => ⟨Layout.eq_of_bytes, fun same => same ▸ rfl⟩, rfl,
        l.decided_ofLine, fun m word =>
          ⟨same m word, FirstWord.ofLine_congr ((same m word).trans first.symm)⟩⟩

/-- A date alone counts, with a time of day after a space as well as with no indentation and bytes
that are no text. -/
theorem decided_lines_date_before_time :
    FirstWord.ofLine (Ascii.encode "\t 2024-01-01 12:00:00\n") =
        .timestamp ⟨1704067200, 0, by decide⟩ ∧
      FirstWord.ofLine (Ascii.encode "2024-01-01" ++ [0x0C, 0xFF]) =
        FirstWord.ofLine (Ascii.encode "\t 2024-01-01 12:00:00\n") := by
  let bare : Layout := {
    indent := []
    word := Ascii.encode "2024-01-01"
    rest := [0x0C, 0xFF]
    indent_blank := List.forall_mem_nil _
    word_ne_nil := by decide +kernel
    word_not_blank := by decide +kernel
    rest_blank := by
      rintro b head
      obtain rfl := Option.some.inj head
      rfl }
  rcases (decided_lines (Ascii.encode "\t 2024-01-01 12:00:00\n")).2 with
    ⟨blank, -⟩ | ⟨-, l, -, first, decided, same⟩
  · exact absurd (blank 0x32 (by decide +kernel)) (by decide)
  have word : Ascii.encode "2024-01-01" = l.word := by
    refine Option.some.inj (Eq.trans ?_ first)
    decide +kernel
  refine ⟨(decided.timestamp_iff _).mpr ⟨"2024-01-01", ?_, by decide +kernel⟩, (same bare word).2⟩
  rw [← word]
  decide +kernel

end Interleave
