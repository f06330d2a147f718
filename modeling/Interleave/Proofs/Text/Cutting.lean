/-
# Text that is cut

Bytes are cut after so many of them, wherever that falls.  The pieces that are complete before the
cut stay as they are, and what the cut leaves of the next one is a single broken piece.  Of a text
the characters that fit stay, and a character that is split is broken.

* `Cut.length_le` : there are no more pieces than bytes;
* `pieces_take` : the pieces of bytes that are cut;
* `LongestFront`, `Splits` : the characters of a text that fit, and the cuts that split one;
* `exists_longestFront` : the pieces of a text that is cut.
-/
import Interleave.Proofs.Text.Pieces

namespace Interleave.Utf8

/-! ## Bytes -/

/-- There are no more pieces than bytes. -/
theorem Cut.length_le {bytes : Bytes} {ps : List Piece} (h : Cut bytes ps) :
    ps.length ≤ bytes.length := by
  induction h with
  | nil => exact Nat.le_refl 0
  | char c others ih =>
      have some := List.length_pos_iff.mpr (encoding_ne_nil c)
      rw [List.length_cons, List.length_append]
      omega
  | broken piece others ih =>
      have some := List.length_pos_iff.mpr piece.ne_nil
      rw [List.length_cons, List.length_append]
      omega

/-- **The pieces of bytes that are cut** are the first of all pieces, with a broken one in
addition where the cut falls inside a piece. -/
theorem pieces_take (bytes : Bytes) (n : Nat) :
    ∃ ps, ps <+: pieces bytes ∧
      (pieces (bytes.take n) = ps ∨ pieces (bytes.take n) = ps ++ [.broken]) := by
  refine ⟨made .start (bytes.take n), ?_, ?_⟩
  · have all : made .start bytes = made .start (bytes.take n) ++
        made (after .start (bytes.take n)) (bytes.drop n) := by
      rw [← made_append, List.take_append_drop]
    rw [pieces_eq, all, List.append_assoc]
    exact List.prefix_append _ _
  · rw [pieces_eq]
    cases after .start (bytes.take n) with
    | start => exact Or.inl (List.append_nil _)
    | within value owed low high => exact Or.inr rfl

/-! ## Characters -/

/-- The characters that a text begins with and that take no more than so many bytes, as many
as there are. -/
structure LongestFront (text : List Char) (n : Nat) (front : List Char) : Prop where
  begins : front <+: text
  fits : (encode front).length ≤ n
  longest : ∀ other, other <+: text → (encode other).length ≤ n → other <+: front

/-- A cut after so many bytes splits a character: it falls after the place where this character
begins, and before the place where it ends. -/
def Splits (text : List Char) (n : Nat) : Prop :=
  ∃ i < text.length, (encode (text.take i)).length < n ∧ n < (encode (text.take (i + 1))).length

instance (text : List Char) (n : Nat) : Decidable (Splits text n) :=
  inferInstanceAs (Decidable (∃ i < text.length, _))

variable {text front : List Char} {c : Char} {n : Nat}

/-- A text takes the bytes of its first character, and those of the others. -/
theorem length_encode_cons (c : Char) (text : List Char) :
    (encode (c :: text)).length = (String.utf8EncodeChar c).length + (encode text).length :=
  List.length_append

/-- Nothing fits of no text. -/
theorem longestFront_nil (n : Nat) : LongestFront [] n [] where
  begins := List.prefix_rfl
  fits := Nat.zero_le n
  longest _ begins _ := begins

/-- The first character fits, and then as many others as there is room for. -/
theorem LongestFront.cons (room : (String.utf8EncodeChar c).length ≤ n)
    (h : LongestFront text (n - (String.utf8EncodeChar c).length) front) :
    LongestFront (c :: text) n (c :: front) where
  begins := List.cons_prefix_cons.mpr ⟨rfl, h.begins⟩
  fits := by
    have fits := h.fits
    rw [length_encode_cons]
    omega
  longest other begins fits := by
    cases other with
    | nil => exact List.nil_prefix
    | cons d other =>
        obtain ⟨rfl, others⟩ := List.cons_prefix_cons.mp begins
        rw [length_encode_cons] at fits
        exact List.cons_prefix_cons.mpr ⟨rfl, h.longest other others (by omega)⟩

/-- Nothing fits if the first character does not. -/
theorem longestFront_of_lt (short : n < (String.utf8EncodeChar c).length) (text : List Char) :
    LongestFront (c :: text) n [] where
  begins := List.nil_prefix
  fits := Nat.zero_le n
  longest other begins fits := by
    cases other with
    | nil => exact List.prefix_rfl
    | cons d other =>
        obtain ⟨rfl, -⟩ := List.cons_prefix_cons.mp begins
        rw [length_encode_cons] at fits
        omega

/-- A cut splits the first character, or falls among the others. -/
theorem splits_cons_iff : Splits (c :: text) n ↔
    (0 < n ∧ n < (String.utf8EncodeChar c).length) ∨
      Splits text (n - (String.utf8EncodeChar c).length) := by
  have one : (encode [c]).length = (String.utf8EncodeChar c).length := length_encode_cons c []
  constructor
  · rintro ⟨i, inside, after, before⟩
    cases i with
    | zero => exact Or.inl ⟨after, one ▸ before⟩
    | succ i =>
        rw [List.take_succ_cons, length_encode_cons] at after before
        exact Or.inr ⟨i, Nat.lt_of_succ_lt_succ inside, by omega, by omega⟩
  · rintro (⟨after, before⟩ | ⟨i, inside, after, before⟩)
    · exact ⟨0, Nat.zero_lt_succ _, after, one.symm ▸ before⟩
    · refine ⟨i + 1, Nat.succ_lt_succ inside, ?_, ?_⟩
      · rw [List.take_succ_cons, length_encode_cons]
        omega
      · rw [List.take_succ_cons, length_encode_cons]
        omega

/-- What a cut leaves of a character that it splits is one broken piece. -/
theorem pieces_take_encoding (some : 0 < n) (short : n < (String.utf8EncodeChar c).length) :
    pieces ((String.utf8EncodeChar c).take n) = [.broken] := by
  have length : ((String.utf8EncodeChar c).take n).length = n := by
    rw [List.length_take]
    omega
  have nothing : made .start ((String.utf8EncodeChar c).take n) = [] := by
    rcases made_of_prefix (List.take_prefix n (String.utf8EncodeChar c)) with nothing | whole
    · exact nothing
    · rw [whole] at length
      omega
  rw [pieces_eq, nothing]
  cases stands : after .start ((String.utf8EncodeChar c).take n) with
  | start =>
      rw [(eq_nil_of_made nothing stands).1, List.length_nil] at length
      omega
  | within value owed low high => rfl

/-- **The pieces of a text that is cut** are the characters that fit, with one broken piece in
addition where the cut splits a character. -/
theorem exists_longestFront (text : List Char) (n : Nat) :
    ∃ front, LongestFront text n front ∧
      pieces ((encode text).take n) =
        front.map .char ++ if Splits text n then [.broken] else [] := by
  -- Of the others there is as much room as the first character leaves.
  induction text generalizing n with
  | nil =>
      have whole : ¬ Splits [] n := fun ⟨i, inside, _⟩ => absurd inside (Nat.not_lt_zero i)
      refine ⟨[], longestFront_nil n, ?_⟩
      rw [if_neg whole, encode, List.flatMap_nil, List.take_nil]
      rfl
  | cons c text ih =>
      have encoded : encode (c :: text) = String.utf8EncodeChar c ++ encode text := rfl
      by_cases room : (String.utf8EncodeChar c).length ≤ n
      · obtain ⟨front, fit, cut⟩ := ih (n - (String.utf8EncodeChar c).length)
        refine ⟨c :: front, fit.cons room, pieces_eq_iff.mpr ?_⟩
        have inside : Splits (c :: text) n ↔ Splits text (n - (String.utf8EncodeChar c).length) :=
          splits_cons_iff.trans (or_iff_right fun first => by omega)
        rw [encoded, List.take_append, List.take_of_length_le room, if_congr inside rfl rfl]
        exact .char c (pieces_eq_iff.mp cut)
      · have short := Nat.lt_of_not_le room
        refine ⟨[], longestFront_of_lt short text, ?_⟩
        rw [encoded, List.take_append_of_le_length short.le]
        by_cases some : 0 < n
        · rw [if_pos (splits_cons_iff.mpr (Or.inl ⟨some, short⟩)), pieces_take_encoding some short]
          rfl
        · obtain rfl : n = 0 := by omega
          have whole : ¬ Splits (c :: text) 0 := fun ⟨_, _, after, _⟩ => Nat.not_lt_zero _ after
          rw [if_neg whole]
          rfl

end Interleave.Utf8
