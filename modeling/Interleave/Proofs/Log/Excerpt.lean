/-
# Excerpts

The excerpt of a line is what its first bytes show as text, without the white space at the end.
So it is never long, and it says no more about a line than these bytes do.  Where they end inside
a character, this one alone is not shown as it is.

* `Text.Trimmed` : a text without the blanks at its end;
* `Utf8.decodeLossy_take` : what bytes show that are cut;
* `dropLast_excerpt_isPrefix` : all but the last character of an excerpt is shown of the line too;
* `bounded_excerpt` : what an excerpt shows of a line.
-/
import Mathlib.Data.List.DropRight
import Interleave.Log.Line
import Interleave.Proofs.Text.Cutting

namespace Interleave

/-! ## Text without blanks at its end -/

namespace Text

/-- The second text is the first without the blanks that it ends with. -/
structure Trimmed (text out : List Char) : Prop where
  dropped : ∃ blanks, (∀ c ∈ blanks, isBlank c = true) ∧ text = out ++ blanks
  last : ∀ c ∈ out.getLast?, isBlank c = false

/-- Trimming drops exactly these. -/
theorem trimmed_trimEnd (text : List Char) : Trimmed text (trimEnd text) where
  dropped := ⟨text.rtakeWhile isBlank, fun c => List.mem_rtakeWhile_imp,
    List.rdropWhile_append_rtakeWhile.symm⟩
  last c last := by
    obtain ⟨some, rfl⟩ := List.mem_getLast?_eq_getLast last
    exact Bool.eq_false_iff.mpr (List.rdropWhile_last_not isBlank text some)

/-- What is left of a text is what it begins with. -/
theorem Trimmed.isPrefix {text out : List Char} (h : Trimmed text out) : out <+: text := by
  obtain ⟨blanks, -, rfl⟩ := h.dropped
  exact List.prefix_append out blanks

/-- A text that ends with another character is left alone. -/
theorem Trimmed.eq_concat {text out : List Char} {c : Char} (h : Trimmed (text ++ [c]) out)
    (dark : isBlank c = false) : out = text ++ [c] := by
  obtain ⟨blanks, white, same⟩ := h.dropped
  rcases List.eq_nil_or_concat blanks with rfl | ⟨others, b, rfl⟩
  · rw [same, List.append_nil]
  · rw [List.concat_eq_append, ← List.append_assoc] at same
    obtain ⟨-, last⟩ := List.append_inj' same rfl
    obtain rfl := List.singleton_inj.mp last
    have blank := white c (by simp)
    rw [dark] at blank
    cases blank

end Text

/-! ## Bytes that are cut -/

namespace Utf8

/-- What bytes show has no more characters than there are bytes. -/
theorem length_decodeLossy_le (bytes : Bytes) :
    (decodeLossy bytes).toList.length ≤ bytes.length := by
  rw [toList_decodeLossy, List.length_map]
  exact (pieces_eq_iff.mp rfl).length_le

/-- **What bytes show that are cut** is the first that all of them show, with a replacement
character in addition where the cut falls inside a piece. -/
theorem decodeLossy_take (bytes : Bytes) (n : Nat) :
    ∃ front, front <+: (decodeLossy bytes).toList ∧
      ((decodeLossy (bytes.take n)).toList = front ∨
        (decodeLossy (bytes.take n)).toList = front ++ ['\uFFFD']) := by
  obtain ⟨ps, begins, cut⟩ := pieces_take bytes n
  rw [toList_decodeLossy, toList_decodeLossy]
  refine ⟨ps.map Piece.shown, begins.map Piece.shown, ?_⟩
  rcases cut with same | broken
  · exact Or.inl (congrArg _ same)
  · refine Or.inr ?_
    rw [broken, List.map_append]
    rfl

/-- What the bytes of a text show that are cut. -/
theorem decodeLossy_take_encode (text : List Char) (n : Nat) :
    ∃ front, LongestFront text n front ∧
      (decodeLossy ((encode text).take n)).toList =
        front ++ if Splits text n then ['\uFFFD'] else [] := by
  obtain ⟨front, fit, cut⟩ := exists_longestFront text n
  refine ⟨front, fit, ?_⟩
  have chars : (front.map Piece.char).map Piece.shown = front := by
    rw [List.map_map]
    exact List.map_id front
  rw [toList_decodeLossy, cut, List.map_append, chars, apply_ite (List.map Piece.shown)]
  rfl

end Utf8

/-! ## What an excerpt shows -/

namespace Line

/-- An excerpt is trimmed. -/
theorem trimmed_excerpt (raw : Bytes) :
    Text.Trimmed (Utf8.decodeLossy (raw.take excerptBytes)).toList (excerpt raw).toList := by
  rw [excerpt, String.toList_ofList]
  exact Text.trimmed_trimEnd _

/-- An excerpt has no more characters than the bytes it is made of. -/
theorem length_excerpt_le (raw : Bytes) : (excerpt raw).length ≤ excerptBytes :=
  calc (excerpt raw).length
      = (excerpt raw).toList.length := String.length_toList.symm
    _ ≤ (Utf8.decodeLossy (raw.take excerptBytes)).toList.length :=
        (trimmed_excerpt raw).isPrefix.length_le
    _ ≤ (raw.take excerptBytes).length := Utf8.length_decodeLossy_le _
    _ ≤ excerptBytes := List.length_take_le _ _

/-- **All but the last character** of an excerpt is shown of the whole line too. -/
theorem dropLast_excerpt_isPrefix (raw : Bytes) :
    (excerpt raw).toList.dropLast <+: (Utf8.decodeLossy raw).toList := by
  obtain ⟨front, begins, shown⟩ := Utf8.decodeLossy_take raw excerptBytes
  refine List.IsPrefix.trans ?_ begins
  have first := (trimmed_excerpt raw).isPrefix
  rcases shown with shown | shown
  · rw [shown] at first
    exact (List.dropLast_prefix _).trans first
  · rw [shown, List.prefix_concat_iff] at first
    rcases first with whole | before
    · rw [whole, List.dropLast_concat]
    · exact (List.dropLast_prefix _).trans before

/-- **An excerpt is bounded**, and shows a line as it is but for the last character.  It has at
most 200 characters, does not end with white space, and depends on the first 200 bytes of the line
alone.  Of a line that is text it shows the characters that fit into 200 bytes, and one replacement
character exactly where the cut splits the next, without the white space at the end.  This
replacement is never dropped. -/
theorem bounded_excerpt (raw : Bytes) :
    (excerpt raw).length ≤ 200 ∧
      (∀ c ∈ (excerpt raw).toList.getLast?, Text.isBlank c = false) ∧
      (∀ other : Bytes, other.take 200 = raw.take 200 → excerpt other = excerpt raw) ∧
      (excerpt raw).toList.dropLast <+: (Utf8.decodeLossy raw).toList ∧
      ∀ text : List Char, raw = Utf8.encode text →
        ∃ front, Utf8.LongestFront text 200 front ∧
          Text.Trimmed (front ++ if Utf8.Splits text 200 then ['\uFFFD'] else [])
            (excerpt raw).toList ∧
          (Utf8.Splits text 200 → (excerpt raw).toList = front ++ ['\uFFFD']) := by
  refine ⟨length_excerpt_le raw, (trimmed_excerpt raw).last, ?_, dropLast_excerpt_isPrefix raw, ?_⟩
  · intro other same
    rw [excerpt, excerpt, show excerptBytes = 200 from rfl, same]
  · rintro text rfl
    have trimmed : Text.Trimmed (Utf8.decodeLossy ((Utf8.encode text).take 200)).toList
        (excerpt (Utf8.encode text)).toList := trimmed_excerpt (Utf8.encode text)
    obtain ⟨front, fit, shown⟩ := Utf8.decodeLossy_take_encode text 200
    rw [shown] at trimmed
    refine ⟨front, fit, trimmed, fun splits => ?_⟩
    rw [if_pos splits] at trimmed
    exact trimmed.eq_concat rfl

/-- The cut falls after two of the four bytes of a character, and what is shown in front of it are
the characters that fit. -/
theorem bounded_excerpt_of_split :
    let front := List.replicate 197 'x' ++ [' ']
    let text := front ++ ['🦀', '\n']
    Utf8.Splits text 200 ∧ Utf8.LongestFront text 200 front ∧
      (excerpt (Utf8.encode text)).toList = front ++ ['\uFFFD'] := by
  intro front text
  have splits : Utf8.Splits text 200 :=
    ⟨198, by decide +kernel, by decide +kernel, by decide +kernel⟩
  have shown : (excerpt (Utf8.encode text)).toList = front ++ ['\uFFFD'] := by
    rw [excerpt, String.toList_ofList, Utf8.toList_decodeLossy]
    decide +kernel
  obtain ⟨other, fit, -, replaced⟩ := (bounded_excerpt (Utf8.encode text)).2.2.2.2 text rfl
  have same : other = front := List.append_cancel_right ((replaced splits).symm.trans shown)
  exact ⟨splits, same ▸ fit, shown⟩

end Line

end Interleave
