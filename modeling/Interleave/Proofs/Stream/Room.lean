/-
# Writing into bounded room

A sink takes bytes as long as it has room, whatever it takes at a time.  What fits is
taken whole; of what does not fit exactly as much is taken as there is room for, and
then the sink refuses.

* `writeAll_of_fits`, `writeAll_of_short` : one run of bytes;
* `writeEach_of_fits`, `writeEach_of_short` : several runs, one after another;
* `contents_of_writeEach_ok`, `contents_of_writeEach_error` : what has been written then.
-/
import Interleave.Stream.Sink

namespace Interleave

namespace Sink

/-! ## Taking bytes -/

/-- There is room for so many bytes. -/
def Fits (s : Sink) (n : Nat) : Prop := ∀ room, s.room = some room → n ≤ room

/-- Without a bound there is room for everything. -/
theorem fits_of_room_eq_none {s : Sink} (h : s.room = none) (n : Nat) : s.Fits n := by
  intro room given
  rw [h] at given
  cases given

/-- What does not fit is more than the bound. -/
theorem exists_room_of_not_fits {s : Sink} {n : Nat} (h : ¬ s.Fits n) :
    ∃ room, s.room = some room ∧ room < n := by
  cases given : s.room with
  | none => exact absurd (fits_of_room_eq_none given n) h
  | some room =>
      refine ⟨room, rfl, Nat.lt_of_not_le fun within => h ?_⟩
      intro room' same
      rw [given, Option.some.injEq] at same
      omega

/-- Taking nothing changes nothing. -/
theorem take_nil (s : Sink) : s.take [] = s := by
  obtain ⟨room, perCall, refusal, flushFailure, taken, flushes⟩ := s
  cases room <;> rfl

/-- Bytes are taken after bytes. -/
theorem take_take (s : Sink) (a b : Bytes) : (s.take a).take b = s.take (a ++ b) := by
  obtain ⟨room, perCall, refusal, flushFailure, taken, flushes⟩ := s
  unfold take
  rw [List.reverseAux_eq, List.reverseAux_eq, List.reverseAux_eq, List.reverse_append,
    List.append_assoc, Option.map_map, List.length_append]
  congr 2
  funext n
  exact Nat.sub_sub n a.length b.length

/-- Bytes that are taken use up room. -/
theorem room_take {s : Sink} {room : Nat} (given : s.room = some room) (part : Bytes) :
    (s.take part).room = some (room - part.length) := by
  rw [take, given]
  rfl

/-- A portion keeps to the room. -/
theorem fits_portion (s : Sink) (run : Bytes) : s.Fits (s.portion run).length := by
  intro room given
  unfold portion
  rw [given]
  exact List.length_take_le room _

/-- Only a sink without room takes nothing of something. -/
theorem room_of_portion_eq_nil {s : Sink} {run : Bytes} (h : s.portion run = [])
    (ne : run ≠ []) : s.room = some 0 := by
  have asked : ∀ n, run.take (max 1 n) ≠ [] := by
    intro n empty
    rcases List.take_eq_nil_iff.mp empty with zero | empty
    · omega
    · exact ne empty
  unfold portion at h
  cases room : s.room with
  | none =>
      rw [room] at h
      cases most : s.perCall with
      | none =>
          rw [most] at h
          exact absurd h ne
      | some most' =>
          rw [most] at h
          exact absurd h (asked most')
  | some n =>
      rw [room] at h
      rcases List.take_eq_nil_iff.mp h with zero | empty
      · rw [zero]
      · cases most : s.perCall with
        | none =>
            rw [most] at empty
            exact absurd empty ne
        | some most' =>
            rw [most] at empty
            exact absurd empty (asked most')

/-! ## One run of bytes -/

/-- **What fits is taken whole.** -/
theorem writeAll_of_fits {s : Sink} {run : Bytes} (h : s.Fits run.length) :
    s.writeAll run = (.ok (), s.take run) := by
  fun_induction writeAll s run with
  | case1 s => rw [take_nil]
  | case2 s run ne nothing =>
      have full := h 0 (room_of_portion_eq_nil nothing ne)
      exact absurd (List.length_eq_zero_iff.mp (Nat.le_zero.mp full)) ne
  | case3 s run ne b part portion ih =>
      obtain ⟨tail, rfl⟩ : b :: part <+: run := portion ▸ s.portion_prefix run
      have rest : (b :: part ++ tail).drop (part.length + 1) = tail := List.drop_left
      rw [rest] at ih ⊢
      rw [ih, take_take]
      intro room left
      obtain ⟨whole, given, rfl⟩ := Option.map_eq_some_iff.mp left
      have := h whole given
      rw [List.length_append] at this
      omega

/-- **Of what does not fit** as much is taken as there is room for. -/
theorem writeAll_of_short {s : Sink} {run : Bytes} {room : Nat} (given : s.room = some room)
    (h : room < run.length) : s.writeAll run = (.error s.refuse, s.take (run.take room)) := by
  fun_induction writeAll s run generalizing room with
  | case1 s => exact absurd h (Nat.not_lt_zero room)
  | case2 s run ne nothing =>
      rw [room_of_portion_eq_nil nothing ne, Option.some.injEq] at given
      rw [← given, List.take_zero, take_nil]
  | case3 s run ne b part portion ih =>
      -- A portion keeps to the room, so what is left is still more than the room left.
      obtain ⟨tail, rfl⟩ : b :: part <+: run := portion ▸ s.portion_prefix run
      have rest : (b :: part ++ tail).drop (part.length + 1) = tail := List.drop_left
      have within : (b :: part).length ≤ room := by
        have bound := s.fits_portion (b :: part ++ tail) room given
        rwa [portion] at bound
      rw [List.length_append] at h
      rw [rest] at ih ⊢
      rw [ih (room_take given _) (by omega), take_take, List.take_append,
        List.take_of_length_le within]
      rfl

/-! ## Several runs -/

/-- Room for all is room for the first. -/
theorem Fits.mono {s : Sink} {m n : Nat} (h : s.Fits n) (le : m ≤ n) : s.Fits m :=
  fun room given => Nat.le_trans le (h room given)

/-- What fits after bytes have been taken. -/
theorem fits_take {s : Sink} {part : Bytes} {n : Nat} (h : s.Fits (part.length + n)) :
    (s.take part).Fits n := by
  intro room left
  obtain ⟨whole, given, rfl⟩ := Option.map_eq_some_iff.mp left
  have := h whole given
  omega

/-- Runs that fit together are taken one after another. -/
theorem writeEach_of_fits {s : Sink} {runs : List Bytes} (h : s.Fits runs.flatten.length) :
    ByteSink.writeEach s runs = (.ok (), s.take runs.flatten) := by
  induction runs generalizing s with
  | nil =>
      rw [List.flatten_nil, take_nil]
      rfl
  | cons run runs ih =>
      rw [List.flatten_cons, List.length_append] at h
      have first : ByteSink.writeAll s run = (.ok (), s.take run) :=
        writeAll_of_fits (h.mono (Nat.le_add_right _ _))
      rw [ByteSink.writeEach, first]
      show ByteSink.writeEach (s.take run) runs = _
      rw [ih (fits_take h), take_take, List.flatten_cons]

/-- Of runs that do not fit together as much is taken as there is room for, wherever it
ends. -/
theorem writeEach_of_short {s : Sink} {runs : List Bytes} {room : Nat}
    (given : s.room = some room) (h : room < runs.flatten.length) :
    ByteSink.writeEach s runs = (.error s.refuse, s.take (runs.flatten.take room)) := by
  induction runs generalizing s room with
  | nil => exact absurd h (Nat.not_lt_zero room)
  | cons run runs ih =>
      rw [List.flatten_cons, List.length_append] at h
      rw [List.flatten_cons, ByteSink.writeEach]
      by_cases excess : room < run.length
      · have first : ByteSink.writeAll s run = (.error s.refuse, s.take (run.take room)) :=
          writeAll_of_short given excess
        rw [first, List.take_append_of_le_length (Nat.le_of_lt excess)]
      · have within : run.length ≤ room := Nat.le_of_not_lt excess
        have first : ByteSink.writeAll s run = (.ok (), s.take run) := by
          refine writeAll_of_fits fun n same => ?_
          rw [given, Option.some.injEq] at same
          omega
        rw [first]
        show ByteSink.writeEach (s.take run) runs = _
        rw [ih (room_take given run) (by omega), take_take, List.take_append,
          List.take_of_length_le within]
        rfl

/-- Runs that are written come last, all of them. -/
theorem contents_of_writeEach_ok {s s' : Sink} {runs : List Bytes}
    (h : ByteSink.writeEach s runs = (.ok (), s')) : s'.contents = s.contents ++ runs.flatten := by
  by_cases fits : s.Fits runs.flatten.length
  · rw [writeEach_of_fits fits] at h
    cases h
    exact contents_take s _
  · obtain ⟨room, given, short⟩ := exists_room_of_not_fits fits
    rw [writeEach_of_short given short] at h
    cases h

/-- Of runs that are refused only a front is written, and not all. -/
theorem contents_of_writeEach_error {s s' : Sink} {runs : List Bytes} {cause : IoError}
    (h : ByteSink.writeEach s runs = (.error cause, s')) :
    ∃ part, part <+: runs.flatten ∧ part ≠ runs.flatten ∧ s'.contents = s.contents ++ part := by
  by_cases fits : s.Fits runs.flatten.length
  · rw [writeEach_of_fits fits] at h
    cases h
  · obtain ⟨room, given, short⟩ := exists_room_of_not_fits fits
    rw [writeEach_of_short given short] at h
    cases h
    refine ⟨_, List.take_prefix room _, fun whole => ?_, contents_take s _⟩
    have size := congrArg List.length whole
    rw [List.length_take] at size
    omega

end Sink

end Interleave
