/-
# A content that goes on

Where a content has come to a line end, further bytes are further lines.  They have
other numbers than they would have on their own, and blank lines at their beginning
have a key from before.  But for these they are the same lines.

* `Line.unnumbered` : a line but for its number;
* `numbered_append` : lines that follow others;
* `ofContent_append` : the lines of a content that goes on;
* `descents_append_of_notLater` : what they count.
-/
import Interleave.Proofs.Log.Descents

namespace Interleave

namespace Line

/-! ## Numbers and keys -/

/-- The line but for its number. -/
def unnumbered (l : Line) : Line := { l with number := 0 }

/-- Lines after lines are numbered on, and follow the last key. -/
theorem numbered_append (side : Side) (number : Nat) (before : Key) (raws raws' : List Bytes) :
    numbered side number before (raws ++ raws') =
      numbered side number before raws ++
        numbered side (number + raws.length)
          (lastKey before (numbered side number before raws)) raws' := by
  induction raws generalizing number before with
  | nil => rfl
  | cons raw raws ih =>
      have count : number + (raw :: raws).length = number + 1 + raws.length := by
        rw [List.length_cons]
        omega
      rw [List.cons_append, numbered, numbered, ih, count]
      rfl

/-- From whichever number they are counted, the lines are the same but for that. -/
theorem map_unnumbered_numbered (side : Side) (number number' : Nat) (before : Key)
    (raws : List Bytes) :
    (numbered side number before raws).map unnumbered =
      (numbered side number' before raws).map unnumbered := by
  induction raws generalizing number number' before with
  | nil => rfl
  | cons raw raws ih =>
      rw [numbered, numbered, List.map_cons, List.map_cons, ih (number + 1) (number' + 1)]
      rfl

/-- The timestamps with which lines begin. -/
def timestamps (raws : List Bytes) : List Instant :=
  raws.filterMap fun raw =>
    match FirstWord.ofLine raw with
    | .timestamp instant => some instant
    | _ => none

/-- The timestamp of the first line is one of them. -/
theorem mem_timestamps_cons {raw : Bytes} {instant : Instant}
    (stamped : FirstWord.ofLine raw = .timestamp instant) (raws : List Bytes) :
    instant ∈ timestamps (raw :: raws) := by
  rw [timestamps, List.filterMap_cons, stamped]
  exact List.mem_cons_self

/-- Those of the other lines are among them. -/
theorem timestamps_subset_cons (raw : Bytes) (raws : List Bytes) :
    timestamps raws ⊆ timestamps (raw :: raws) :=
  List.filterMap_subset _ (List.subset_cons_self raw raws)

/-- The key of a line is a timestamp of the content, or the one before all lines. -/
theorem key_of_mem_numbered {side : Side} {number : Nat} {before : Key} {raws : List Bytes}
    {l : Line} (h : l ∈ numbered side number before raws) :
    l.key = before ∨ ∃ instant ∈ timestamps raws, l.key = some instant := by
  induction raws generalizing number before with
  | nil => cases h
  | cons raw raws ih =>
      -- The first line has its own timestamp or the key before it, and the others follow it.
      have own : l.key = before.after raw →
          l.key = before ∨ ∃ instant ∈ timestamps (raw :: raws), l.key = some instant := by
        intro same
        rw [same, Key.after]
        cases given : FirstWord.ofLine raw with
        | missing => exact Or.inl rfl
        | timestamp instant => exact Or.inr ⟨instant, mem_timestamps_cons given raws, rfl⟩
        | other word => exact Or.inl rfl
      rcases List.mem_cons.mp h with rfl | later
      · exact own rfl
      · rcases ih later with same | ⟨instant, member, same⟩
        · exact own same
        · exact Or.inr ⟨instant, timestamps_subset_cons raw raws member, same⟩

/-! ## Lines that do not begin with a blank one -/

/-- The lines do not begin with a blank one. -/
def Fresh (raws : List Bytes) : Prop := ∀ raw ∈ raws.head?, FirstWord.ofLine raw ≠ .missing

instance (raws : List Bytes) : Decidable (Fresh raws) :=
  inferInstanceAs (Decidable (∀ raw ∈ raws.head?, FirstWord.ofLine raw ≠ .missing))

/-- The first of dated lines has a timestamp, if it is not blank. -/
theorem Fresh.exists_timestamp {raw : Bytes} {raws : List Bytes} (fresh : Fresh (raw :: raws))
    (dated : Dated raw) : ∃ instant, FirstWord.ofLine raw = .timestamp instant := by
  cases given : FirstWord.ofLine raw with
  | missing => exact absurd given (fresh raw rfl)
  | timestamp instant => exact ⟨instant, rfl⟩
  | other word => exact absurd given (dated word)

variable {raws : List Bytes}

/-- It does not matter what came before them. -/
theorem Fresh.map_unnumbered (fresh : Fresh raws) (dated : ∀ raw ∈ raws, Dated raw) (side : Side)
    (number number' : Nat) (before before' : Key) :
    (numbered side number before raws).map unnumbered =
      (numbered side number' before' raws).map unnumbered := by
  cases raws with
  | nil => rfl
  | cons raw raws =>
      obtain ⟨instant, stamped⟩ := fresh.exists_timestamp (dated raw List.mem_cons_self)
      have after : ∀ before : Key, before.after raw = some instant := by
        intro before
        rw [Key.after, stamped]
      rw [numbered, numbered, List.map_cons, List.map_cons, after, after,
        map_unnumbered_numbered side (number + 1) (number' + 1)]
      rw [following, following, after, after]
      rfl

/-- All of them have timestamps of their own content. -/
theorem Fresh.key_of_mem (fresh : Fresh raws) (dated : ∀ raw ∈ raws, Dated raw) {side : Side}
    {number : Nat} {before : Key} {l : Line} (h : l ∈ numbered side number before raws) :
    ∃ instant ∈ timestamps raws, l.key = some instant := by
  cases raws with
  | nil => cases h
  | cons raw raws =>
      obtain ⟨instant, stamped⟩ := fresh.exists_timestamp (dated raw List.mem_cons_self)
      have own : before.after raw = some instant := by
        rw [Key.after, stamped]
      have first := mem_timestamps_cons stamped raws
      rcases List.mem_cons.mp h with rfl | later
      · exact ⟨instant, first, own⟩
      · rcases key_of_mem_numbered later with same | ⟨instant', member, same⟩
        · exact ⟨instant, first, same.trans own⟩
        · exact ⟨instant', timestamps_subset_cons raw raws member, same⟩

/-- **A content that goes on** after a line end has the lines of the first part and then
those of the second, which have numbers of their own only. -/
theorem ofContent_append {c d : Bytes} (ended : c.ended = c) (fresh : Fresh d.lines)
    (dated : ∀ raw ∈ d.lines, Dated raw) (side : Side) :
    ∃ number before,
      ofContent side (c ++ d) = ofContent side c ++ numbered side number before d.lines ∧
        (numbered side number before d.lines).map unnumbered =
          (ofContent side d).map unnumbered := by
  refine ⟨1 + c.lines.length, lastKey none (ofContent side c), ?_,
    fresh.map_unnumbered dated side _ 1 _ none⟩
  rw [ofContent, Bytes.lines_append_of_ended ended, numbered_append, ← ofContent]

/-! ## Lines that go back -/

/-- Numbers do not matter to what goes back in time. -/
theorem descents_map_unnumbered (before : Key) (ls : List Line) :
    descents before (ls.map unnumbered) = descents before ls := by
  induction ls generalizing before with
  | nil => rfl
  | cons l ls ih =>
      rw [List.map_cons, descents, descents, ih]
      rfl

/-- Nor does a key that none of the lines is earlier than. -/
theorem descents_of_notLater {before : Key} {ls : List Line}
    (h : ∀ l ∈ ls, Key.notLater before l.key = true) : descents before ls = descents none ls := by
  cases ls with
  | nil => rfl
  | cons l ls =>
      rw [descents, descents, if_pos (h l List.mem_cons_self), if_pos (Key.none_notLater l.key)]

/-- **Lines that are not earlier than all before them** go back in time as often as on
their own. -/
theorem descents_append_of_notLater {ls ls' : List Line}
    (h : ∀ l ∈ ls, ∀ l' ∈ ls', Key.notLater l.key l'.key = true) :
    descents none (ls ++ ls') = descents none ls + descents none ls' := by
  rw [descents_append]
  congr 1
  refine descents_of_notLater fun l' member => ?_
  rcases lastKey_eq_or none ls with same | ⟨l, last, same⟩
  · rw [same]
    exact Key.none_notLater l'.key
  · rw [same]
    exact h l last l' member

end Line

end Interleave
