/-
# The lines of a run of bytes

A line reaches up to and including a line end.  What stands after the last line end
is a line too, the only one that may lack its line end.

* `Bytes.lines` : the lines;
* `flatten_lines` : no byte is lost and none is added;
* `lines_flatten` : lines that all have their line ends are found again in the run
  they make up.
-/
import Interleave.Text.Ascii

namespace Interleave

namespace Bytes

/-! ## Cutting at line ends -/

/-- The lines of a run of bytes. -/
def lines : Bytes → List Bytes
  | [] => []
  | b :: rest =>
      if b = newline then [b] :: lines rest
      else
        match lines rest with
        | [] => [[b]]
        | line :: others => (b :: line) :: others

/-- The run ends in its only line end. -/
def IsEnded (raw : Bytes) : Prop :=
  ∃ body : Bytes, newline ∉ body ∧ raw = body ++ [newline]

/-- The bytes with a line end after them where there are any and it is missing. -/
def ended (c : Bytes) : Bytes :=
  if c = [] ∨ c.getLast? = some newline then c else c ++ [newline]

/-- **Nothing is lost.**  The lines one after another are the run. -/
theorem flatten_lines (c : Bytes) : (lines c).flatten = c := by
  induction c with
  | nil => rfl
  | cons b rest ih =>
      rw [lines]
      split
      · rw [List.flatten_cons, ih]
        rfl
      · cases given : lines rest with
        | nil =>
            rw [given] at ih
            rw [← ih]
            rfl
        | cons line others =>
            rw [given, List.flatten_cons] at ih
            rw [← ih]
            rfl

/-! ## The first line -/

/-- A line end closes the first line. -/
theorem lines_append_newline {body : Bytes} (h : newline ∉ body) (rest : Bytes) :
    lines (body ++ newline :: rest) = (body ++ [newline]) :: lines rest := by
  induction body with
  | nil =>
      show lines (newline :: rest) = [newline] :: lines rest
      rw [lines, if_pos rfl]
  | cons b body ih =>
      rw [List.mem_cons, not_or] at h
      rw [List.cons_append, lines, if_neg (Ne.symm h.1), ih h.2]
      rfl

/-- A line with its line end is the first one of the run it begins. -/
theorem lines_append_of_isEnded {raw : Bytes} (h : IsEnded raw) (rest : Bytes) :
    lines (raw ++ rest) = raw :: lines rest := by
  obtain ⟨body, clean, rfl⟩ := h
  rw [List.append_assoc, List.singleton_append, lines_append_newline clean]

/-- Without a line end a run that is not empty is one line. -/
theorem lines_of_not_mem {raw : Bytes} (h : newline ∉ raw) (ne : raw ≠ []) :
    lines raw = [raw] := by
  induction raw with
  | nil => exact absurd rfl ne
  | cons b raw ih =>
      rw [List.mem_cons, not_or] at h
      rw [lines, if_neg (Ne.symm h.1)]
      by_cases empty : raw = []
      · rw [empty]
        rfl
      · rw [ih h.2 empty]

/-- The first line goes on at least as far as there is no line end. -/
theorem lines_append_of_not_mem {raw : Bytes} (h : newline ∉ raw) (ne : raw ≠ [])
    (rest : Bytes) : ∃ more others, lines (raw ++ rest) = (raw ++ more) :: others := by
  induction raw with
  | nil => exact absurd rfl ne
  | cons b raw ih =>
      rw [List.mem_cons, not_or] at h
      rw [List.cons_append, lines, if_neg (Ne.symm h.1)]
      by_cases empty : raw = []
      · rw [empty, List.nil_append]
        cases lines rest with
        | nil => exact ⟨[], [], rfl⟩
        | cons line others => exact ⟨line, others, rfl⟩
      · obtain ⟨more, others, given⟩ := ih h.2 empty
        rw [given]
        exact ⟨more, others, rfl⟩

/-! ## Lines that have their line ends -/

/-- A run is empty, or one line without a line end, or a line and a further run. -/
theorem line_induction {motive : Bytes → Prop} (nil : motive [])
    (last : ∀ raw, newline ∉ raw → raw ≠ [] → motive raw)
    (line : ∀ raw rest, IsEnded raw → motive rest → motive (raw ++ rest)) (c : Bytes) :
    motive c := by
  -- Induction on the length: what follows the first line end is a shorter run.
  induction size : c.length using Nat.strongRecOn generalizing c with
  | _ n ih =>
      by_cases more : newline ∈ c
      · obtain ⟨body, rest, rfl, clean⟩ := List.eq_append_cons_of_mem more
        rw [List.length_append, List.length_cons] at size
        rw [List.append_cons]
        exact line _ rest ⟨body, clean, rfl⟩ (ih rest.length (by omega) rest rfl)
      · by_cases empty : c = []
        · rw [empty]
          exact nil
        · exact last c more empty

/-- The first lines are the lines of the front they make up. -/
theorem lines_flatten_take (c : Bytes) (n : Nat) :
    lines ((lines c).take n).flatten = (lines c).take n := by
  induction c using line_induction generalizing n with
  | nil => rw [lines, List.take_nil, List.flatten_nil, lines]
  | last raw clean ne =>
      rw [lines_of_not_mem clean ne]
      cases n with
      | zero => rfl
      | succ n =>
          rw [List.take_succ_cons, List.take_nil, List.flatten_singleton,
            lines_of_not_mem clean ne]
  | line raw rest closed ih =>
      rw [lines_append_of_isEnded closed]
      cases n with
      | zero => rfl
      | succ n =>
          rw [List.take_succ_cons, List.flatten_cons, lines_append_of_isEnded closed, ih]

/-- A run that ends in a line end lacks none. -/
theorem ended_of_isEnded {raw : Bytes} (h : IsEnded raw) : ended raw = raw := by
  obtain ⟨body, _, rfl⟩ := h
  rw [ended, if_pos (Or.inr List.getLast?_concat)]

/-- A run without a line end lacks one. -/
theorem ended_of_not_mem {raw : Bytes} (h : newline ∉ raw) (ne : raw ≠ []) :
    ended raw = raw ++ [newline] := by
  rw [ended, if_neg]
  rintro (empty | last)
  · exact ne empty
  · exact h (List.mem_of_getLast? last)

/-- What a run lacks is lacking at its end. -/
theorem ended_append {raw : Bytes} (h : IsEnded raw) (rest : Bytes) :
    ended (raw ++ rest) = raw ++ ended rest := by
  by_cases empty : rest = []
  · rw [empty, List.append_nil, ended_of_isEnded h]
    exact (List.append_nil raw).symm
  · have last : (raw ++ rest).getLast? = rest.getLast? := by
      rw [List.getLast?_append, List.getLast?_eq_some_getLast empty, Option.some_or]
    have full : raw ++ rest ≠ [] := List.append_ne_nil_of_right_ne_nil raw empty
    rw [ended, ended, last]
    by_cases closed : rest.getLast? = some newline
    · rw [if_pos (Or.inr closed), if_pos (Or.inr closed)]
    · rw [if_neg (not_or.mpr ⟨full, closed⟩), if_neg (not_or.mpr ⟨empty, closed⟩),
        List.append_assoc]

/-- After a run that lacks no line end the lines begin anew. -/
theorem lines_append_of_ended {c : Bytes} (h : ended c = c) (d : Bytes) :
    lines (c ++ d) = lines c ++ lines d := by
  induction c using line_induction with
  | nil => rfl
  | last raw clean ne =>
      rw [ended_of_not_mem clean ne] at h
      exact absurd (List.append_right_eq_self.mp h) (List.cons_ne_nil newline [])
  | line raw rest closed ih =>
      rw [ended_append closed] at h
      rw [List.append_assoc, lines_append_of_isEnded closed, lines_append_of_isEnded closed,
        ih (List.append_cancel_left h), List.cons_append]

end Bytes

end Interleave
