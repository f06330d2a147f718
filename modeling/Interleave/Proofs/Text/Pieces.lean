/-
# How bytes fall into pieces

A run of bytes falls into the encodings of characters and into broken pieces.  A broken piece
is as long as can be: it is the longest run that begins an encoding where none is complete, or
a single byte where no encoding begins.  The machine that reads one byte at a time finds these
pieces, and there is only one way to fall into them.

* `Begins`, `Broken` : runs that begin an encoding, and broken pieces;
* `Cut`, `pieces_eq_iff` : how a run of bytes falls into pieces, which the machine finds;
* `encode`, `decode?_eq_some_iff` : the bytes of a text, and which bytes are text;
* `mem_decodeLossy` : what is shown has its bytes among them, or is a replacement character;
* `replacement_mem_decodeLossy` : where bytes are no text, a replacement character is shown.
-/
import Mathlib.Data.List.Infix
import Interleave.Proofs.Text.Encoding

namespace Interleave.Utf8

/-! ## Pieces -/

/-- The bytes begin the encoding of a character. -/
def Begins (bytes : Bytes) : Prop := ∃ c, bytes <+: String.utf8EncodeChar c

/-- These bytes are broken before those: no character is complete, and they are the longest run
that begins one, or a single byte where none begins. -/
structure Broken (bytes rest : Bytes) : Prop where
  no_char : ∀ c, ¬ String.utf8EncodeChar c <+: bytes ++ rest
  ne_nil : bytes ≠ []
  longest : ∀ run, run <+: bytes ++ rest → Begins run → run.length ≤ bytes.length
  shape : Begins bytes ∨ bytes.length = 1

/-- How a run of bytes falls into pieces. -/
inductive Cut : Bytes → List Piece → Prop where
  | nil : Cut [] []
  | char (c : Char) {rest : Bytes} {ps : List Piece} (others : Cut rest ps) :
      Cut (String.utf8EncodeChar c ++ rest) (.char c :: ps)
  | broken {bytes rest : Bytes} {ps : List Piece} (piece : Broken bytes rest)
      (others : Cut rest ps) : Cut (bytes ++ rest) (.broken :: ps)

/-! ### Inside a character -/

/-- There is a byte that the machine allows next. -/
def State.Open : State → Prop
  | .start => True
  | .within _ _ low high => low ≤ high ∧ low < 256

/-- There always is. -/
theorem open_next {s : State} (h : s.Open) (b : Nat) : (next s b).2.Open := by
  have first_open : (first b).2.Open := by
    unfold first
    split_ifs <;> simp [State.Open]
  cases s with
  | start => exact first_open
  | within value owed low high =>
      by_cases allowed : low ≤ b ∧ b ≤ high
      · rw [next_within allowed]
        split <;> simp [State.Open]
      · rw [next_refused allowed]
        exact first_open

/-- So there is after any run of bytes. -/
theorem open_after {s : State} (h : s.Open) (bytes : Bytes) : (after s bytes).Open := by
  induction bytes generalizing s with
  | nil => exact h
  | cons b bytes ih => exact ih (open_next h b.toNat)

/-- Inside a character there are bytes that complete one. -/
theorem exists_spells {value owed low high : Nat} (h : (State.within value owed low high).Open) :
    ∃ bytes c, Spells (.within value owed low high) bytes c := by
  induction owed generalizing value low high with
  | zero =>
      obtain ⟨some, byte⟩ := h
      refine ⟨[UInt8.ofNat low], _, spells_within.mpr ⟨_, [], rfl, ?_, rfl, rfl⟩⟩
      rw [UInt8.toNat_ofNat', Nat.mod_eq_of_lt byte]
      exact ⟨Nat.le_refl _, some⟩
  | succ owed ih =>
      obtain ⟨some, byte⟩ := h
      have number : (UInt8.ofNat low).toNat = low := by
        rw [UInt8.toNat_ofNat', Nat.mod_eq_of_lt byte]
      have allowed : low ≤ (UInt8.ofNat low).toNat ∧ (UInt8.ofNat low).toNat ≤ high := by omega
      by_cases last : owed + 1 ≤ 1
      · exact ⟨[UInt8.ofNat low], _, spells_within.mpr
          ⟨_, [], rfl, allowed, by rw [if_pos last]; exact ⟨rfl, rfl⟩⟩⟩
      · have opened : (State.within (value * 64 + (UInt8.ofNat low).toNat % 64) owed
            0x80 0xBF).Open := ⟨by decide, by decide⟩
        obtain ⟨bytes, c, spelt⟩ := ih opened
        exact ⟨UInt8.ofNat low :: bytes, c, spells_within.mpr
          ⟨_, bytes, rfl, allowed, by rw [if_neg last]; exact spelt⟩⟩

/-- **Bytes of which nothing is made** yet begin a character. -/
theorem begins_of_made {bytes : Bytes} (nothing : made .start bytes = []) : Begins bytes := by
  cases stands : after .start bytes with
  | start =>
      obtain ⟨rfl, -⟩ := eq_nil_of_made nothing stands
      exact ⟨'a', List.nil_prefix⟩
  | within value owed low high =>
      have goes_on := open_after (s := .start) trivial bytes
      rw [stands] at goes_on
      obtain ⟨more, c, given, between⟩ := exists_spells goes_on
      refine ⟨c, more, spells_iff.mp ⟨?_, ?_⟩⟩
      · rw [made_append, nothing, stands, given, List.nil_append]
      · rw [after_append, stands, between]

/-- Of what begins a character nothing is made, or that character at its end. -/
theorem made_of_prefix {bytes : Bytes} {c : Char} (h : bytes <+: String.utf8EncodeChar c) :
    made .start bytes = [] ∨ bytes = String.utf8EncodeChar c := by
  obtain ⟨more, whole⟩ := h
  obtain ⟨given, between⟩ := spells_iff.mpr whole
  rw [made_append, List.append_eq_singleton_iff] at given
  rcases given with ⟨nothing, -⟩ | ⟨-, nothing⟩
  · exact Or.inl nothing
  · rw [after_append] at between
    right
    rw [← whole, (eq_nil_of_made nothing between).1, List.append_nil]

/-- Of what begins a character nothing is made, or one character. -/
theorem made_of_begins {bytes : Bytes} (h : Begins bytes) :
    made .start bytes = [] ∨ ∃ c, made .start bytes = [.char c] := by
  obtain ⟨c, front⟩ := h
  rcases made_of_prefix front with nothing | rfl
  · exact Or.inl nothing
  · exact Or.inr ⟨c, (spells_iff.mpr rfl).1⟩

/-- What is broken where a byte is refused, and all that follows. -/
theorem broken_of_made {bytes rest : Bytes} (ne : bytes ≠ []) (nothing : made .start bytes = [])
    (refused : ∀ b, rest.head? = some b → ∃ ps, made (after .start bytes) [b] = .broken :: ps) :
    Broken bytes rest := by
  have longest : ∀ run, run <+: bytes ++ rest → Begins run → run <+: bytes := by
    intro run front begins
    rcases List.prefix_or_prefix_of_prefix front (List.prefix_append bytes rest) with
      before | ⟨more, rfl⟩
    · exact before
    · have inside : more <+: rest := (List.prefix_append_right_inj bytes).mp front
      cases more with
      | nil => rw [List.append_nil]
      | cons b more =>
          have next : rest.head? = some b := by
            obtain ⟨others, rfl⟩ := inside
            rfl
          obtain ⟨ps, given⟩ := refused b next
          have shown : made .start (bytes ++ b :: more) =
              .broken :: (ps ++ made (after (after .start bytes) [b]) more) := by
            rw [made_append, nothing, List.nil_append,
              show b :: more = [b] ++ more from rfl, made_append, given, List.cons_append]
          rcases made_of_begins begins with none | ⟨c, one⟩
          · rw [shown] at none
            cases none
          · rw [shown] at one
            cases one
  refine ⟨?_, ne, fun run front begins => (longest run front begins).length_le,
    Or.inl (begins_of_made nothing)⟩
  intro c front
  obtain ⟨more, rfl⟩ := longest _ front ⟨c, List.prefix_rfl⟩
  rw [made_append, (spells_iff.mpr (rfl : _ = String.utf8EncodeChar c)).1] at nothing
  cases nothing

/-- A byte that begins no character is broken alone. -/
theorem broken_single {b : UInt8} (h : first b.toNat = ([.broken], .start)) (rest : Bytes) :
    Broken [b] rest := by
  have shown : ∀ more, made .start (b :: more) = .broken :: made .start more := by
    intro more
    rw [made, next, h]
    rfl
  have longest : ∀ run, run <+: [b] ++ rest → Begins run → run = [] := by
    intro run front begins
    cases run with
    | nil => rfl
    | cons a run =>
        obtain ⟨rfl, -⟩ := List.cons_prefix_cons.mp front
        rcases made_of_begins begins with none | ⟨c, one⟩
        · rw [shown] at none
          cases none
        · rw [shown] at one
          cases one
  refine ⟨?_, List.cons_ne_nil _ _, ?_, Or.inr rfl⟩
  · intro c front
    exact encoding_ne_nil c (longest _ front ⟨c, List.prefix_rfl⟩)
  · intro run front begins
    rw [longest run front begins]
    exact Nat.zero_le _

/-! ### The pieces of a run of bytes -/

/-- Bytes of which nothing is made yet fall into pieces with those still to be read, and these
pieces are what the machine makes. -/
def CutFrom (bytes rest : Bytes) : Prop :=
  Cut (bytes ++ rest) (made (after .start bytes) rest ++ (after (after .start bytes) rest).left)

/-- Between characters a byte is the first of something new. -/
theorem cutFrom_first {b : UInt8} {rest : Bytes}
    (later : ∀ bytes, made .start bytes = [] → CutFrom bytes rest) : CutFrom [] (b :: rest) := by
  have byte : b.toNat < 256 := b.toNat_lt
  have others : Cut rest (made .start rest ++ (after .start rest).left) := later [] rfl
  rw [CutFrom, List.nil_append, after, made, after]
  cases given : (first b.toNat).1 with
  | nil =>
      have alone : made .start [b] = [] := by
        rw [made, next, given]
        rfl
      simpa [CutFrom, next, given, after] using later [b] alone
  | cons p ps =>
      have whole : first b.toNat = ([.char (Char.ofNat b.toNat)], .start) ∨
          first b.toNat = ([.broken], .start) := by
        unfold first at given ⊢
        split_ifs at given ⊢ <;> simp_all
      rcases whole with one | none
      · have encoded : [b] = String.utf8EncodeChar (Char.ofNat b.toNat) := by
          refine spells_iff.mp ⟨?_, ?_⟩
          · rw [made, next, one]
            rfl
          · rw [after, next, one]
            rfl
        have cut := Cut.char (Char.ofNat b.toNat) others
        rw [← encoded] at cut
        simpa [next, one] using cut
      · simpa [next, none] using Cut.broken (broken_single none rest) others

/-- Inside a character a byte that is allowed goes on with it, or completes it. -/
theorem cutFrom_allowed {bytes : Bytes} {b : UInt8} {rest : Bytes} {value owed low high : Nat}
    (nothing : made .start bytes = [])
    (stands : after .start bytes = .within value owed low high)
    (allowed : low ≤ b.toNat ∧ b.toNat ≤ high)
    (later : ∀ bytes, made .start bytes = [] → CutFrom bytes rest) : CutFrom bytes (b :: rest) := by
  have shown : made .start (bytes ++ [b]) = (next (after .start bytes) b.toNat).1 := by
    rw [made_append, nothing, made, made, List.append_nil, List.nil_append]
  have goes_on : after .start (bytes ++ [b]) = (next (after .start bytes) b.toNat).2 := by
    rw [after_append, after, after]
  rw [CutFrom, stands, made, after]
  rw [stands, next_within allowed] at shown goes_on
  rw [next_within allowed]
  split at shown
  · next last =>
      rw [if_pos last] at goes_on ⊢
      have cut := Cut.char (Char.ofNat (value * 64 + b.toNat % 64)) (later [] rfl)
      rw [← spells_iff.mp ⟨shown, goes_on⟩, List.append_assoc] at cut
      exact cut
  · next more =>
      rw [if_neg more] at goes_on ⊢
      have cut := later (bytes ++ [b]) shown
      rw [CutFrom, goes_on, List.append_assoc] at cut
      exact cut

/-- Inside a character a byte that is refused breaks it off, and is the first of something new. -/
theorem cutFrom_refused {bytes : Bytes} {b : UInt8} {rest : Bytes} {value owed low high : Nat}
    (nothing : made .start bytes = [])
    (stands : after .start bytes = .within value owed low high)
    (refused : ¬ (low ≤ b.toNat ∧ b.toNat ≤ high))
    (anew : CutFrom [] (b :: rest)) : CutFrom bytes (b :: rest) := by
  have ne : bytes ≠ [] := by
    rintro rfl
    cases stands
  have breaks : ∀ x, (b :: rest).head? = some x →
      ∃ ps, made (after .start bytes) [x] = .broken :: ps := by
    rintro x same
    obtain rfl := Option.some.inj same
    refine ⟨(first b.toNat).1, ?_⟩
    rw [stands, made, next_refused refused, made, List.append_nil]
  have cut := Cut.broken (broken_of_made ne nothing breaks) anew
  rw [CutFrom, stands, made, after, next_refused refused]
  exact cut

/-- At the end a character that is still owed bytes is broken. -/
theorem cutFrom_nil {bytes : Bytes} (nothing : made .start bytes = []) : CutFrom bytes [] := by
  unfold CutFrom
  cases stands : after .start bytes with
  | start =>
      obtain ⟨rfl, -⟩ := eq_nil_of_made nothing stands
      exact .nil
  | within value owed low high =>
      have ne : bytes ≠ [] := by
        rintro rfl
        cases stands
      exact .broken (broken_of_made ne nothing nofun) .nil

/-- **What the machine makes** of a run of bytes is how it falls into pieces: the bytes read
last, of which nothing is made yet, stand in front of those still to be read. -/
theorem cutFrom_of_made (rest : Bytes) : ∀ bytes, made .start bytes = [] → CutFrom bytes rest := by
  induction rest with
  | nil => exact fun _ => cutFrom_nil
  | cons b rest later =>
      intro bytes nothing
      have anew : CutFrom [] (b :: rest) := cutFrom_first later
      cases stands : after .start bytes with
      | start =>
          obtain ⟨rfl, -⟩ := eq_nil_of_made nothing stands
          exact anew
      | within value owed low high =>
          by_cases allowed : low ≤ b.toNat ∧ b.toNat ≤ high
          · exact cutFrom_allowed nothing stands allowed later
          · exact cutFrom_refused nothing stands allowed anew

/-- A character in front is the only one. -/
theorem encoding_unique {c d : Char} {bytes : Bytes} (h : String.utf8EncodeChar c <+: bytes)
    (h' : String.utf8EncodeChar d <+: bytes) : c = d := by
  have same : ∀ {c d : Char}, String.utf8EncodeChar c <+: String.utf8EncodeChar d → c = d := by
    intro c d front
    have one := (spells_iff.mpr (rfl : _ = String.utf8EncodeChar c)).1
    rcases made_of_prefix front with nothing | whole
    · rw [one] at nothing
      cases nothing
    · have other := (spells_iff.mpr whole).1
      rw [one] at other
      exact Piece.char.inj (List.cons.inj other).1
  rcases List.prefix_or_prefix_of_prefix h h' with front | front
  · exact same front
  · exact (same front).symm

/-- A broken piece is the only one in front. -/
theorem Broken.length_le {a rest b rest' : Bytes} (h : Broken a rest) (h' : Broken b rest')
    (same : a ++ rest = b ++ rest') : b.length ≤ a.length := by
  rcases h'.shape with begins | single
  · exact h.longest b (same ▸ List.prefix_append b rest') begins
  · rw [single]
    exact List.length_pos_iff.mpr h.ne_nil

/-- **There is only one way** to fall into pieces. -/
theorem Cut.unique {bytes : Bytes} {ps qs : List Piece} (h : Cut bytes ps) (h' : Cut bytes qs) :
    ps = qs := by
  induction h generalizing qs with
  | nil =>
      generalize empty : ([] : Bytes) = bytes at h'
      cases h' with
      | nil => rfl
      | char c others => exact absurd (List.append_eq_nil_iff.mp empty.symm).1 (encoding_ne_nil c)
      | broken piece others => exact absurd (List.append_eq_nil_iff.mp empty.symm).1 piece.ne_nil
  | @char c rest ps others ih =>
      generalize same : String.utf8EncodeChar c ++ rest = bytes at h'
      cases h' with
      | nil => exact absurd (List.append_eq_nil_iff.mp same).1 (encoding_ne_nil c)
      | char d others' =>
          obtain rfl := encoding_unique (List.prefix_append _ _) (same ▸ List.prefix_append _ _)
          rw [ih ((List.append_cancel_left same) ▸ others')]
      | broken piece others' => exact absurd (same ▸ List.prefix_append _ _) (piece.no_char c)
  | @broken a rest ps piece others ih =>
      generalize same : a ++ rest = bytes at h'
      cases h' with
      | nil => exact absurd (List.append_eq_nil_iff.mp same).1 piece.ne_nil
      | char d others' => exact absurd (same ▸ List.prefix_append _ _) (piece.no_char d)
      | broken piece' others' =>
          have length := Nat.le_antisymm (piece'.length_le piece same.symm) (piece.length_le piece' same)
          obtain ⟨rfl, rfl⟩ := List.append_inj same length
          rw [ih others']

/-- **The pieces of a run of bytes** are those that it falls into. -/
theorem pieces_eq_iff {bytes : Bytes} {ps : List Piece} : pieces bytes = ps ↔ Cut bytes ps := by
  have cut : Cut bytes (pieces bytes) := by
    rw [pieces_eq]
    exact cutFrom_of_made bytes [] rfl
  constructor
  · rintro rfl
    exact cut
  · exact cut.unique

/-! ## Text -/

/-- The bytes of a text. -/
def encode (text : List Char) : Bytes := text.flatMap String.utf8EncodeChar

/-- Pieces that are characters are made of the bytes of these. -/
theorem Cut.eq_encode {bytes : Bytes} {ps : List Piece} (h : Cut bytes ps) {text : List Char}
    (chars : ps = text.map .char) : bytes = encode text := by
  induction h generalizing text with
  | nil =>
      rw [List.map_eq_nil_iff.mp chars.symm]
      rfl
  | char c others ih =>
      obtain ⟨d, text, rfl, same, rest⟩ := List.map_eq_cons_iff.mp chars.symm
      cases same
      rw [ih rest.symm]
      rfl
  | broken piece others ih =>
      obtain ⟨d, text, rfl, same, rest⟩ := List.map_eq_cons_iff.mp chars.symm
      cases same

/-- The bytes of a text fall into its characters. -/
theorem pieces_encode (text : List Char) : pieces (encode text) = text.map .char := by
  refine pieces_eq_iff.mpr ?_
  induction text with
  | nil => exact .nil
  | cons c text ih => exact .char c ih

/-- **Which bytes are text**: those that encode it. -/
theorem decode?_eq_some_iff {bytes : Bytes} {text : String} :
    decode? bytes = some text ↔ bytes = encode text.toList := by
  constructor
  · intro given
    unfold decode? at given
    split at given
    · next whole =>
        refine (pieces_eq_iff.mp rfl).eq_encode ?_
        rw [← Option.some.inj given, String.toList_ofList, List.map_map]
        refine (List.map_id _).symm.trans (List.map_congr_left fun p member => ?_)
        cases p with
        | char c => rfl
        | broken => cases List.all_eq_true.mp whole _ member
    · cases given
  · rintro rfl
    rw [decode?, pieces_encode]
    simp [Piece.char?, Piece.shown, Function.comp_def]

/-! ### Text that is shown -/

/-- What bytes show is what their pieces show. -/
theorem toList_decodeLossy (bytes : Bytes) :
    (decodeLossy bytes).toList = (pieces bytes).map Piece.shown := by
  rw [decodeLossy, String.toList_ofList]

/-- The bytes of a character among the pieces are among those of the run. -/
theorem Cut.mem_of_char {bytes : Bytes} {ps : List Piece} (h : Cut bytes ps) {c : Char}
    (member : Piece.char c ∈ ps) {b : UInt8} (byte : b ∈ String.utf8EncodeChar c) : b ∈ bytes := by
  induction h with
  | nil => cases member
  | char d others ih =>
      rcases List.mem_cons.mp member with same | later
      · cases same
        exact List.mem_append_left _ byte
      · exact List.mem_append_right _ (ih later)
  | broken piece others ih =>
      rcases List.mem_cons.mp member with same | later
      · cases same
      · exact List.mem_append_right _ (ih later)

/-- A run that has bytes falls into pieces. -/
theorem pieces_ne_nil {bytes : Bytes} (h : bytes ≠ []) : pieces bytes ≠ [] := by
  intro nothing
  exact h ((pieces_eq_iff.mp nothing).eq_encode List.map_nil.symm)

/-- A character that is shown is one of the text, or stands for a broken piece. -/
theorem mem_decodeLossy {bytes : Bytes} {c : Char} (h : c ∈ (decodeLossy bytes).toList) :
    (∀ b ∈ String.utf8EncodeChar c, b ∈ bytes) ∨ c = '\uFFFD' := by
  rw [toList_decodeLossy] at h
  obtain ⟨p, member, rfl⟩ := List.mem_map.mp h
  cases p with
  | char c => exact Or.inl fun b => (pieces_eq_iff.mp rfl).mem_of_char member
  | broken => exact Or.inr rfl

/-- Where bytes are no text, a broken piece is shown. -/
theorem replacement_mem_decodeLossy {bytes : Bytes} (h : decode? bytes = none) :
    '\uFFFD' ∈ (decodeLossy bytes).toList := by
  unfold decode? at h
  split at h
  · cases h
  · next some =>
      simp only [List.all_eq_true, not_forall] at some
      obtain ⟨p, member, none⟩ := some
      cases p with
      | char c => exact absurd rfl none
      | broken =>
          rw [toList_decodeLossy]
          exact List.mem_map.mpr ⟨.broken, member, rfl⟩

end Interleave.Utf8
