/-
# Words that are blamed

A line that is refused for its first word is blamed on that word.  The word is shown as text:
as it is, if its bytes are text, and otherwise with a replacement character for each broken
piece.  What is shown is never a timestamp, since no timestamp has a replacement character.

* `Blamed` : a word as it is shown for its bytes;
* `blamed_of_other` : every word that is no timestamp is shown so;
* `blamed_words` : so is the word of every failure.
-/
import Interleave.Proofs.Log.Layout
import Interleave.Proofs.Log.Numbering
import Interleave.Proofs.Time.Accepted

namespace Interleave

/-! ## How words are shown -/

/-- A word as it is shown where its bytes are blamed. -/
structure Blamed (token : Bytes) (word : String) : Prop where
  ne_empty : word ≠ ""
  no_blank : ∀ c ∈ word.toList, c ∉ [' ', '\t', '\n', '\x0c', '\r']
  /-- Text is shown as it is. -/
  of_text : ∀ text : String, token = Utf8.encode text.toList → word = text
  /-- Where the bytes are no text, that is seen. -/
  of_no_text : (∀ text, token ≠ Utf8.encode text) → '\uFFFD' ∈ word.toList
  /-- Each broken piece is shown as one replacement character, and the rest as it is. -/
  pieces : ∃ ps, Utf8.Cut token ps ∧ word.toList = ps.map Utf8.Piece.shown
  /-- What is shown is no timestamp. -/
  refused : Timestamp.parse? word = none

/-- No blank is shown where there is none. -/
theorem no_blank_decodeLossy {token : Bytes} (clean : ∀ b ∈ token, Ascii.isBlank b = false)
    {c : Char} (shown : c ∈ (Utf8.decodeLossy token).toList) :
    c ∉ [' ', '\t', '\n', '\x0c', '\r'] := by
  intro blank
  -- Each of them is encoded in one byte, which is blank.
  have encoded : ∀ d ∈ [' ', '\t', '\n', '\x0c', '\r'],
      d ≠ '\uFFFD' ∧ ∃ b, String.utf8EncodeChar d = [b] ∧ Ascii.isBlank b = true := by
    intro d member
    simp only [List.mem_cons, List.not_mem_nil, or_false] at member
    rcases member with rfl | rfl | rfl | rfl | rfl
    · exact ⟨by decide, 0x20, by decide, rfl⟩
    · exact ⟨by decide, 0x09, by decide, rfl⟩
    · exact ⟨by decide, 0x0A, by decide, rfl⟩
    · exact ⟨by decide, 0x0C, by decide, rfl⟩
    · exact ⟨by decide, 0x0D, by decide, rfl⟩
  obtain ⟨other, b, single, white⟩ := encoded c blank
  rcases Utf8.mem_decodeLossy shown with among | replaced
  · have dark := clean b (among b (by rw [single]; exact List.mem_singleton.mpr rfl))
    rw [white] at dark
    cases dark
  · exact other replaced

/-- **A text with a replacement character** is no timestamp. -/
theorem parse?_eq_none_of_replacement {word : String} (h : '\uFFFD' ∈ word.toList) :
    Timestamp.parse? word = none := by
  cases given : Timestamp.parse? word with
  | none => rfl
  | some i =>
      rcases Timestamp.isWordChar_of_ofChars? given h with among | mark
      · cases among
      · cases mark

/-- **A word that is no timestamp** is shown as it should be. -/
theorem blamed_of_other {raw token : Bytes} (h : FirstWord.ofLine raw = .other token) :
    firstWord raw = some token ∧ Blamed token (Utf8.decodeLossy token) := by
  obtain ⟨first, refused⟩ := Timestamp.ofLine_eq_other_iff.mp h
  obtain ⟨ne, clean⟩ := firstWord_eq_some first
  refine ⟨first, ?_⟩
  have shown := Utf8.toList_decodeLossy token
  constructor
  · intro empty
    rw [empty] at shown
    exact Utf8.pieces_ne_nil ne (List.map_eq_nil_iff.mp shown.symm)
  · exact fun c => no_blank_decodeLossy clean
  · intro text encoded
    exact Utf8.decodeLossy_of_decode? (Utf8.decode?_eq_some_iff.mpr encoded)
  · intro none
    refine Utf8.replacement_mem_decodeLossy (Option.eq_none_iff_forall_ne_some.mpr ?_)
    exact fun text decoded => none _ (Utf8.decode?_eq_some_iff.mp decoded)
  · exact ⟨Utf8.pieces token, Utf8.pieces_eq_iff.mp rfl, shown⟩
  · rw [FirstWord.instant?] at refused
    cases decoded : Utf8.decode? token with
    | none => exact parse?_eq_none_of_replacement (Utf8.replacement_mem_decodeLossy decoded)
    | some text =>
        rw [decoded, Option.bind_some] at refused
        rw [Utf8.decodeLossy_of_decode? decoded]
        exact refused

/-! ## What is blamed in a failure -/

namespace Input

/-- An attempt that is refused for a word has read a line with this word. -/
theorem exists_line_of_notTimestamped {i : Input} {path : String} {line : Nat} {word : String}
    (h : i.next.result = .error (.notTimestamped path line word)) :
    ∃ raw others token, i.reader.rest.lines = raw :: others ∧
      FirstWord.ofLine raw = .other token ∧ word = Utf8.decodeLossy token := by
  unfold next at h
  cases gathered : i.reader.gather i.quota with
  | failed cause r =>
      rw [gathered] at h
      cases h
  | line raw r =>
      rw [gathered] at h
      cases raw with
      | nil => cases h
      | cons b raw =>
          dsimp only at h
          unfold accept at h
          cases excess : exceeded? i.limit (b :: raw) with
          | some most =>
              dsimp only at h
              rw [excess] at h
              cases h
          | none =>
              dsimp only at h
              rw [excess] at h
              have lines := lines_rest gathered (List.cons_ne_nil b raw)
                (exceeded?_eq_none_iff.mp excess)
              cases first : FirstWord.ofLine (b :: raw) with
              | missing =>
                  rw [first] at h
                  cases h
              | timestamp instant =>
                  rw [first] at h
                  cases h
              | other token =>
                  rw [first] at h
                  cases h
                  exact ⟨b :: raw, _, token, lines, first, rfl⟩

end Input

/-- **A failure never blames a good word.**  Whatever a source delivers, and whatever attempts on
it have failed before: an attempt that is refused for a word has read the next line of what was
left, and the word is that line's first word as it should be shown. -/
theorem blamed_words (s : Source) (side : Side) (n k : Nat) (reading : Reading)
    (made : (Input.attempts n (s.input side))[k]? = some reading) (path : String) (line : Nat)
    (word : String) (h : reading.result = .error (.notTimestamped path line word)) :
    ∃ raw others token, ((s.input side).after k).reader.rest.lines = raw :: others ∧
      firstWord raw = some token ∧ Blamed token word := by
  rw [Input.getElem?_attempts made] at h
  obtain ⟨raw, others, token, lines, other, rfl⟩ := Input.exists_line_of_notTimestamped h
  obtain ⟨first, blamed⟩ := blamed_of_other other
  exact ⟨raw, others, token, lines, first, blamed⟩

/-- After a line that is refused, the next one is blamed on a word with two broken pieces: a
character of which a byte is missing, and a byte that begins none. -/
theorem blamed_words_broken_pieces :
    let s : Source :=
      { path := "l.log", content := Ascii.encode "up\n1" ++ [0xE2, 0x82, 0xFF, 0x2D, 0x20] }
    let readings := Input.attempts 2 (s.input .left)
    ∃ reading, readings[1]? = some reading ∧
      reading.result = .error (.notTimestamped "l.log" 2 "1\uFFFD\uFFFD-") ∧
      Blamed [0x31, 0xE2, 0x82, 0xFF, 0x2D] "1\uFFFD\uFFFD-" := by
  intro s readings
  have made : readings[1]? = some ((s.input .left).after 1).next := rfl
  have refused : ((s.input .left).after 1).next.result =
      .error (.notTimestamped "l.log" 2 "1\uFFFD\uFFFD-") := by decide +kernel
  obtain ⟨raw, others, token, lines, first, blamed⟩ :=
    blamed_words s .left 2 1 _ made "l.log" 2 _ refused
  have rest : ((s.input .left).after 1).reader.rest.lines =
      [[0x31, 0xE2, 0x82, 0xFF, 0x2D, 0x20]] := by decide +kernel
  rw [rest] at lines
  obtain ⟨rfl, -⟩ := List.cons.inj lines
  obtain rfl : [0x31, 0xE2, 0x82, 0xFF, 0x2D] = token := by
    refine Option.some.inj (Eq.trans ?_ first)
    decide +kernel
  exact ⟨_, made, refused, blamed⟩

end Interleave
