/-
# Encodings of characters

A character is encoded in one to four bytes.  The machine that reads one byte at a time makes
a character of its encoding and of nothing else, and makes nothing of the encoding before its
last byte.

* `made`, `after` : what the machine makes of a run of bytes, and where it then stands;
* `pieces_eq` : the pieces of a run of bytes in these terms;
* `encoding_eq` : the encoding of a character, by the size of its number;
* `spells_iff` : the machine reads a character from its encoding, and from nothing else.
-/
import Mathlib.Tactic.Simproc.ExistsAndEq
import Mathlib.Tactic.SplitIfs
import Interleave.Text.Utf8

namespace Interleave.Utf8

/-! ## Reading a run of bytes -/

/-- The pieces that the machine makes of a run of bytes. -/
def made : State → Bytes → List Piece
  | _, [] => []
  | s, b :: bytes => (next s b.toNat).1 ++ made (next s b.toNat).2 bytes

/-- Where the machine stands after a run of bytes. -/
def after : State → Bytes → State
  | s, [] => s
  | s, b :: bytes => after (next s b.toNat).2 bytes

/-- The piece that is broken off at the end of all bytes, if there is one. -/
def State.left : State → List Piece
  | .start => []
  | .within .. => [.broken]

/-- What is made of two runs. -/
theorem made_append (s : State) (a b : Bytes) : made s (a ++ b) = made s a ++ made (after s a) b := by
  induction a generalizing s with
  | nil => rfl
  | cons x a ih => rw [List.cons_append, made, made, after, ih, List.append_assoc]

/-- Where the machine stands after two runs. -/
theorem after_append (s : State) (a b : Bytes) : after s (a ++ b) = after (after s a) b := by
  induction a generalizing s with
  | nil => rfl
  | cons x a ih => exact ih _

/-- The decoding does what the machine does. -/
theorem foldl_feed (d : Decoder) (bytes : Bytes) :
    bytes.foldl Decoder.feed d =
      ⟨(made d.state bytes).reverse ++ d.done, after d.state bytes⟩ := by
  induction bytes generalizing d with
  | nil => rfl
  | cons b bytes ih => simp [ih, Decoder.feed, made, after]

/-- **The pieces** are what the machine makes, and what is broken off at the end. -/
theorem pieces_eq (bytes : Bytes) :
    pieces bytes = made .start bytes ++ (after .start bytes).left := by
  rw [pieces, foldl_feed, Decoder.finish]
  dsimp only [Decoder.empty]
  cases after .start bytes <;> simp [State.left]

/-- Between characters the machine has made something of what it has read. -/
theorem eq_nil_of_made {s : State} {bytes : Bytes} (nothing : made s bytes = [])
    (between : after s bytes = .start) : bytes = [] ∧ s = .start := by
  induction bytes generalizing s with
  | nil => exact ⟨rfl, between⟩
  | cons b bytes ih =>
      obtain ⟨first, others⟩ := List.append_eq_nil_iff.mp nothing
      obtain ⟨-, stands⟩ := ih others between
      exfalso
      cases s with
      | start =>
          unfold next Utf8.first at first stands
          dsimp only at first stands
          split_ifs at first stands
      | within value owed low high =>
          unfold next at first stands
          dsimp only at first stands
          split_ifs at first stands

/-! ## Reading a character -/

/-- The machine reads these bytes as this character. -/
def Spells (s : State) (bytes : Bytes) (c : Char) : Prop :=
  made s bytes = [.char c] ∧ after s bytes = .start

/-- Inside a character nothing is made of a byte that the machine allows, but for the last. -/
theorem next_within {value owed low high b : Nat} (allowed : low ≤ b ∧ b ≤ high) :
    next (.within value owed low high) b =
      if owed ≤ 1 then ([.char (Char.ofNat (value * 64 + b % 64))], .start)
      else ([], .within (value * 64 + b % 64) (owed - 1) 0x80 0xBF) := by
  simp only [next, allowed, and_self, if_true]

/-- A byte that it does not allow breaks the character off. -/
theorem next_refused {value owed low high b : Nat} (refused : ¬ (low ≤ b ∧ b ≤ high)) :
    next (.within value owed low high) b = (.broken :: (first b).1, (first b).2) := by
  simp only [next, refused, if_false]

/-- Inside a character the machine reads a byte that it allows, and then what is still owed. -/
theorem spells_within {value owed low high : Nat} {bytes : Bytes} {c : Char} :
    Spells (.within value owed low high) bytes c ↔
      ∃ b rest, bytes = b :: rest ∧ (low ≤ b.toNat ∧ b.toNat ≤ high) ∧
        if owed ≤ 1 then rest = [] ∧ c = Char.ofNat (value * 64 + b.toNat % 64)
        else Spells (.within (value * 64 + b.toNat % 64) (owed - 1) 0x80 0xBF) rest c := by
  constructor
  · rintro ⟨given, between⟩
    cases bytes with
    | nil => cases given
    | cons b rest =>
        rw [made] at given
        rw [after] at between
        by_cases allowed : low ≤ b.toNat ∧ b.toNat ≤ high
        · refine ⟨b, rest, rfl, allowed, ?_⟩
          rw [next_within allowed] at given between
          split
          · next last =>
              rw [if_pos last] at given between
              obtain ⟨same, nothing⟩ := List.cons.inj given
              exact ⟨(eq_nil_of_made nothing between).1, (Piece.char.inj same).symm⟩
          · next more =>
              rw [if_neg more] at given between
              exact ⟨given, between⟩
        · rw [next_refused allowed] at given
          cases given
  · rintro ⟨b, rest, rfl, allowed, h⟩
    rw [Spells, made, after, next_within allowed]
    split at h
    · next last =>
        obtain ⟨rfl, rfl⟩ := h
        rw [if_pos last]
        exact ⟨rfl, rfl⟩
    · next more =>
        rw [if_neg more]
        exact h

/-! ### First bytes -/

/-- The first byte of an encoding of two. -/
theorem first_two {b : Nat} (h : 0xC2 ≤ b ∧ b ≤ 0xDF) : first b = ([], .within (b % 32) 1 0x80 0xBF) := by
  have large : ¬ b ≤ 0x7F := by omega
  simp only [first, large, h, and_self, if_true, if_false]

/-- The first byte of an encoding of three.  After some of them the second byte is bounded:
shorter encodings are left out, and so are surrogates. -/
theorem first_three {b : Nat} (h : 0xE0 ≤ b ∧ b ≤ 0xEF) :
    ∃ low high, first b = ([], .within (b % 16) 2 low high) ∧
      ∀ x, (low ≤ x ∧ x ≤ high) ↔
        (0x80 ≤ x ∧ x ≤ 0xBF) ∧ (b = 0xE0 → 0xA0 ≤ x) ∧ (b = 0xED → x ≤ 0x9F) := by
  have large : ¬ b ≤ 0x7F := by omega
  have two : ¬ (0xC2 ≤ b ∧ b ≤ 0xDF) := by omega
  by_cases least : b = 0xE0
  · refine ⟨0xA0, 0xBF, ?_, fun x => by omega⟩
    simp [first, least]
  by_cases surrogates : b = 0xED
  · refine ⟨0x80, 0x9F, ?_, fun x => by omega⟩
    simp [first, surrogates]
  refine ⟨0x80, 0xBF, ?_, fun x => by omega⟩
  have other : 0xE1 ≤ b ∧ b ≤ 0xEF := by omega
  simp only [first, large, two, least, surrogates, other, and_self, if_true, if_false]

/-- The first byte of an encoding of four.  After some of them the second byte is bounded:
shorter encodings are left out, and so is what is greater than any character. -/
theorem first_four {b : Nat} (h : 0xF0 ≤ b ∧ b ≤ 0xF4) :
    ∃ low high, first b = ([], .within (b % 8) 3 low high) ∧
      ∀ x, (low ≤ x ∧ x ≤ high) ↔
        (0x80 ≤ x ∧ x ≤ 0xBF) ∧ (b = 0xF0 → 0x90 ≤ x) ∧ (b = 0xF4 → x ≤ 0x8F) := by
  by_cases least : b = 0xF0
  · refine ⟨0x90, 0xBF, ?_, fun x => by omega⟩
    simp [first, least]
  by_cases greatest : b = 0xF4
  · refine ⟨0x80, 0x8F, ?_, fun x => by omega⟩
    simp [first, greatest]
  refine ⟨0x80, 0xBF, ?_, fun x => by omega⟩
  have large : ¬ b ≤ 0x7F := by omega
  have two : ¬ (0xC2 ≤ b ∧ b ≤ 0xDF) := by omega
  have three : b ≠ 0xE0 ∧ b ≠ 0xED ∧ ¬ (0xE1 ≤ b ∧ b ≤ 0xEF) := by omega
  have other : 0xF1 ≤ b ∧ b ≤ 0xF3 := by omega
  simp only [first, large, two, three, least, other, and_self, if_true, if_false]

/-- Any other byte from 128 on begins no encoding. -/
theorem first_else {b : Nat} (h : 0x80 ≤ b ∧ b ≤ 0xC1 ∨ 0xF5 ≤ b) : first b = ([.broken], .start) := by
  have others : ¬ b ≤ 0x7F ∧ ¬ (0xC2 ≤ b ∧ b ≤ 0xDF) ∧ b ≠ 0xE0 ∧ b ≠ 0xED ∧
      ¬ (0xE1 ≤ b ∧ b ≤ 0xEF) ∧ b ≠ 0xF0 ∧ ¬ (0xF1 ≤ b ∧ b ≤ 0xF3) ∧ b ≠ 0xF4 := by omega
  simp only [first, others, if_false]

/-! ### Encodings -/

/-- The number of a character that has a number. -/
theorem toNat_ofNat {n : Nat} (h : n < 0xD800 ∨ 0xDFFF < n ∧ n < 0x110000) :
    (Char.ofNat n).toNat = n := by
  have valid : n.isValidChar := h
  rw [Char.ofNat, dif_pos valid]
  rfl

/-- The encoding of a character, by the size of its number. -/
theorem encoding_eq (c : Char) :
    (String.utf8EncodeChar c).map UInt8.toNat =
      if c.toNat ≤ 0x7F then [c.toNat]
      else if c.toNat ≤ 0x7FF then [c.toNat / 64 + 0xC0, c.toNat % 64 + 0x80]
      else if c.toNat ≤ 0xFFFF then
        [c.toNat / 4096 + 0xE0, c.toNat / 64 % 64 + 0x80, c.toNat % 64 + 0x80]
      else
        [c.toNat / 262144 + 0xF0, c.toNat / 4096 % 64 + 0x80, c.toNat / 64 % 64 + 0x80,
          c.toNat % 64 + 0x80] := by
  have most : c.toNat < 0x110000 := by
    have valid : c.toNat < 0xD800 ∨ 0xDFFF < c.toNat ∧ c.toNat < 0x110000 := c.valid
    omega
  have byte : ∀ n < 256, (UInt8.ofNat n).toNat = n := fun n small =>
    UInt8.toNat_ofNat'.trans (Nat.mod_eq_of_lt small)
  unfold String.utf8EncodeChar
  simp only [Char.toNat_val]
  split_ifs with one two three
  · simp only [List.map_cons, List.map_nil, byte c.toNat (by omega)]
  · simp only [List.map_cons, List.map_nil, byte (c.toNat / 64 % 0x20 + 0xc0) (by omega),
      byte (c.toNat % 0x40 + 0x80) (by omega), List.cons.injEq, and_true]
    omega
  · simp only [List.map_cons, List.map_nil, byte (c.toNat / 4096 % 0x10 + 0xe0) (by omega),
      byte (c.toNat / 64 % 0x40 + 0x80) (by omega), byte (c.toNat % 0x40 + 0x80) (by omega),
      List.cons.injEq, and_true]
    omega
  · simp only [List.map_cons, List.map_nil, byte (c.toNat / 262144 % 0x08 + 0xf0) (by omega),
      byte (c.toNat / 4096 % 0x40 + 0x80) (by omega),
      byte (c.toNat / 64 % 0x40 + 0x80) (by omega), byte (c.toNat % 0x40 + 0x80) (by omega),
      List.cons.injEq, and_true]
    omega

/-- An encoding has a byte. -/
theorem encoding_ne_nil (c : Char) : String.utf8EncodeChar c ≠ [] := by
  intro nothing
  have size := String.length_utf8EncodeChar c
  rw [nothing] at size
  exact absurd size (Nat.ne_of_lt c.utf8Size_pos)

/-- Bytes are an encoding if their numbers are. -/
theorem eq_encoding_iff {bytes : Bytes} {c : Char} :
    bytes = String.utf8EncodeChar c ↔
      bytes.map UInt8.toNat = (String.utf8EncodeChar c).map UInt8.toNat :=
  (List.map_inj_right fun _ _ => UInt8.toNat_inj.mp).symm

/-- An encoding of one byte. -/
theorem encoding_one_iff {b : UInt8} {rest : Bytes} {c : Char} (h : b.toNat ≤ 0x7F) :
    b :: rest = String.utf8EncodeChar c ↔ rest = [] ∧ c = Char.ofNat b.toNat := by
  rw [eq_encoding_iff, encoding_eq]
  constructor
  · intro same
    split_ifs at same <;> simp only [List.map_cons, List.cons.injEq, List.map_eq_nil_iff] at same
    · rw [same.1, Char.ofNat_toNat]
      exact ⟨same.2, rfl⟩
    all_goals omega
  · rintro ⟨rfl, rfl⟩
    rw [toNat_ofNat (by omega), if_pos h]
    rfl

/-- An encoding of two bytes. -/
theorem encoding_two_iff {b : UInt8} {rest : Bytes} {c : Char}
    (h : 0xC2 ≤ b.toNat ∧ b.toNat ≤ 0xDF) :
    b :: rest = String.utf8EncodeChar c ↔
      ∃ x : UInt8, rest = [x] ∧ (0x80 ≤ x.toNat ∧ x.toNat ≤ 0xBF) ∧
        c = Char.ofNat (b.toNat % 32 * 64 + x.toNat % 64) := by
  rw [eq_encoding_iff, encoding_eq]
  constructor
  · intro same
    split_ifs at same <;>
      simp only [List.map_cons, List.cons.injEq, List.map_eq_cons_iff, List.map_eq_nil_iff,
        ↓existsAndEq, true_and] at same
    · omega
    · obtain ⟨first, x, rfl, second⟩ := same
      refine ⟨x, rfl, by omega, ?_⟩
      rw [show b.toNat % 32 * 64 + x.toNat % 64 = c.toNat by omega, Char.ofNat_toNat]
    all_goals omega
  · rintro ⟨x, rfl, tail, rfl⟩
    rw [toNat_ofNat (by omega), if_neg (by omega), if_pos (by omega)]
    simp only [List.map_cons, List.map_nil, List.cons.injEq, and_true]
    omega

/-- An encoding of three bytes. -/
theorem encoding_three_iff {b : UInt8} {rest : Bytes} {c : Char}
    (h : 0xE0 ≤ b.toNat ∧ b.toNat ≤ 0xEF) :
    b :: rest = String.utf8EncodeChar c ↔
      ∃ x y : UInt8, rest = [x, y] ∧ ((0x80 ≤ x.toNat ∧ x.toNat ≤ 0xBF) ∧
        (b.toNat = 0xE0 → 0xA0 ≤ x.toNat) ∧ (b.toNat = 0xED → x.toNat ≤ 0x9F)) ∧
        (0x80 ≤ y.toNat ∧ y.toNat ≤ 0xBF) ∧
        c = Char.ofNat ((b.toNat % 16 * 64 + x.toNat % 64) * 64 + y.toNat % 64) := by
  have valid : c.toNat < 0xD800 ∨ 0xDFFF < c.toNat ∧ c.toNat < 0x110000 := c.valid
  rw [eq_encoding_iff, encoding_eq]
  constructor
  · intro same
    split_ifs at same <;>
      simp only [List.map_cons, List.cons.injEq, List.map_eq_cons_iff, List.map_eq_nil_iff,
        ↓existsAndEq, true_and] at same
    · omega
    · omega
    · obtain ⟨first, x, y, rfl, second, third, -⟩ := same
      refine ⟨x, y, rfl, by omega, by omega, ?_⟩
      rw [show (b.toNat % 16 * 64 + x.toNat % 64) * 64 + y.toNat % 64 = c.toNat by omega,
        Char.ofNat_toNat]
    · omega
  · rintro ⟨x, y, rfl, second, third, rfl⟩
    rw [toNat_ofNat (by omega), if_neg (by omega), if_neg (by omega), if_pos (by omega)]
    simp only [List.map_cons, List.map_nil, List.cons.injEq, and_true]
    omega

/-- An encoding of four bytes. -/
theorem encoding_four_iff {b : UInt8} {rest : Bytes} {c : Char}
    (h : 0xF0 ≤ b.toNat ∧ b.toNat ≤ 0xF4) :
    b :: rest = String.utf8EncodeChar c ↔
      ∃ x y z : UInt8, rest = [x, y, z] ∧ ((0x80 ≤ x.toNat ∧ x.toNat ≤ 0xBF) ∧
        (b.toNat = 0xF0 → 0x90 ≤ x.toNat) ∧ (b.toNat = 0xF4 → x.toNat ≤ 0x8F)) ∧
        (0x80 ≤ y.toNat ∧ y.toNat ≤ 0xBF) ∧ (0x80 ≤ z.toNat ∧ z.toNat ≤ 0xBF) ∧
        c = Char.ofNat
          (((b.toNat % 8 * 64 + x.toNat % 64) * 64 + y.toNat % 64) * 64 + z.toNat % 64) := by
  have valid : c.toNat < 0xD800 ∨ 0xDFFF < c.toNat ∧ c.toNat < 0x110000 := c.valid
  rw [eq_encoding_iff, encoding_eq]
  constructor
  · intro same
    split_ifs at same <;>
      simp only [List.map_cons, List.cons.injEq, List.map_eq_cons_iff, List.map_eq_nil_iff,
        ↓existsAndEq, true_and] at same
    · omega
    · omega
    · omega
    · obtain ⟨first, x, y, z, rfl, second, third, fourth, -⟩ := same
      refine ⟨x, y, z, rfl, by omega, by omega, by omega, ?_⟩
      rw [show ((b.toNat % 8 * 64 + x.toNat % 64) * 64 + y.toNat % 64) * 64 + z.toNat % 64 =
        c.toNat by omega, Char.ofNat_toNat]
  · rintro ⟨x, y, z, rfl, second, third, fourth, rfl⟩
    rw [toNat_ofNat (by omega), if_neg (by omega), if_neg (by omega), if_neg (by omega)]
    simp only [List.map_cons, List.map_nil, List.cons.injEq, and_true]
    omega

/-- No encoding begins with any other byte. -/
theorem encoding_else {b : UInt8} {rest : Bytes} {c : Char}
    (h : 0x80 ≤ b.toNat ∧ b.toNat ≤ 0xC1 ∨ 0xF5 ≤ b.toNat) :
    b :: rest ≠ String.utf8EncodeChar c := by
  have valid : c.toNat < 0xD800 ∨ 0xDFFF < c.toNat ∧ c.toNat < 0x110000 := c.valid
  rw [ne_eq, eq_encoding_iff, encoding_eq]
  intro same
  split_ifs at same <;> simp only [List.map_cons, List.cons.injEq] at same <;> omega

/-- A first byte of which nothing is made leaves the rest to be read. -/
theorem spells_cons {b : UInt8} {s : State} (h : first b.toNat = ([], s)) {rest : Bytes} {c : Char} :
    Spells .start (b :: rest) c ↔ Spells s rest c := by
  simp only [Spells, made, after, next, h, List.nil_append]

/-- **The machine reads a character** from its encoding, and from nothing else. -/
theorem spells_iff {bytes : Bytes} {c : Char} :
    Spells .start bytes c ↔ bytes = String.utf8EncodeChar c := by
  cases bytes with
  | nil =>
      exact ⟨fun h => (nomatch h.1), fun h => absurd h.symm (encoding_ne_nil c)⟩
  | cons b rest =>
      have byte : b.toNat < 256 := b.toNat_lt
      have classes : b.toNat ≤ 0x7F ∨ (0xC2 ≤ b.toNat ∧ b.toNat ≤ 0xDF) ∨
          (0xE0 ≤ b.toNat ∧ b.toNat ≤ 0xEF) ∨ (0xF0 ≤ b.toNat ∧ b.toNat ≤ 0xF4) ∨
          (0x80 ≤ b.toNat ∧ b.toNat ≤ 0xC1 ∨ 0xF5 ≤ b.toNat) := by omega
      rcases classes with one | two | three | four | other
      · rw [encoding_one_iff one]
        constructor
        · rintro ⟨given, between⟩
          simp only [made, after, next, first, one, if_true, List.singleton_append,
            List.cons.injEq, Piece.char.injEq] at given between
          exact ⟨(eq_nil_of_made given.2 between).1, given.1.symm⟩
        · rintro ⟨rfl, rfl⟩
          simp [Spells, made, after, next, first, one]
      · rw [encoding_two_iff two, spells_cons (first_two two), spells_within]
        simp
      · obtain ⟨low, high, begins, allowed⟩ := first_three three
        rw [encoding_three_iff three, spells_cons begins]
        simp [spells_within, allowed]
      · obtain ⟨low, high, begins, allowed⟩ := first_four four
        rw [encoding_four_iff four, spells_cons begins]
        simp [spells_within, allowed]
      · refine ⟨fun h => ?_, fun h => absurd h (encoding_else other)⟩
        have given := h.1
        rw [made, next, first_else other] at given
        cases given

end Interleave.Utf8
