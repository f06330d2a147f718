/-
# Leaving lines out

A line that is refused leaves no trace.  What an input gives when it is read on past the
failures is what it would give if the lines that are refused had not been there.  Only
their numbers tell.

* `Bytes.without` : a content without some of its lines;
* `lines_without` : the lines that are left;
* `Given` : a line that is given, with the count of those that go back in time;
* `given_of_bytes` : what an input without limit and faults gives;
* `Given.forall₂_spared` : what it gives when lines are left out;
* `thinned_attempts` : lines that are refused may be left out of a source.
-/
import Mathlib.Data.List.Forall2
import Interleave.Proofs.Log.Start

namespace Interleave

/-! ## Contents without some of their lines -/

namespace Bytes

/-- The lines that are left when some are dropped, by their numbers.  The first has the
given number. -/
def spared (dropped : Nat → Bool) : Nat → List Bytes → List Bytes
  | _, [] => []
  | number, raw :: raws =>
      if dropped number then spared dropped (number + 1) raws
      else raw :: spared dropped (number + 1) raws

/-- The content without the lines that are dropped. -/
def without (dropped : Nat → Bool) (c : Bytes) : Bytes := (spared dropped 1 c.lines).flatten

variable {dropped : Nat → Bool}

/-- What is left are some of the lines. -/
theorem spared_sublist (dropped : Nat → Bool) (number : Nat) (raws : List Bytes) :
    (spared dropped number raws).Sublist raws := by
  induction raws generalizing number with
  | nil => exact List.Sublist.slnil
  | cons raw raws ih =>
      unfold spared
      split
      · exact (ih (number + 1)).cons raw
      · exact (ih (number + 1)).cons_cons raw

/-- Some of the lines of a content are again the lines of what they make up, since none but
the last may lack its line end. -/
theorem lines_flatten_of_sublist {c : Bytes} {ls : List Bytes} (h : ls.Sublist c.lines) :
    lines ls.flatten = ls := by
  induction c using line_induction generalizing ls with
  | nil =>
      rw [lines, List.sublist_nil] at h
      rw [h]
      rfl
  | last raw clean ne =>
      rw [lines_of_not_mem clean ne] at h
      rcases List.sublist_singleton.mp h with rfl | rfl
      · rfl
      · simpa using lines_of_not_mem clean ne
  | line raw rest closed ih =>
      rw [lines_append_of_isEnded closed] at h
      cases h with
      | cons _ rest => exact ih rest
      | cons_cons _ rest => rw [List.flatten_cons, lines_append_of_isEnded closed, ih rest]

/-- **The lines that are left** are the lines of the content without the others. -/
theorem lines_without (dropped : Nat → Bool) (c : Bytes) :
    (c.without dropped).lines = spared dropped 1 c.lines :=
  lines_flatten_of_sublist (spared_sublist dropped 1 c.lines)

end Bytes

/-! ## Lines with their counts -/

/-- A line that an input has given, and how many lines it has then counted that go back in
time. -/
structure Given where
  line : Line
  descents : Nat
  deriving DecidableEq, Repr

/-- What an attempt has given. -/
def Reading.given? (r : Reading) : Option Given := r.line?.map fun l => ⟨l, r.input.descents⟩

/-- What is given in so many attempts, some of which may fail. -/
def Input.given (i : Input) (attempts : Nat) : List Given :=
  (i.attempts attempts).filterMap Reading.given?

namespace Given

/-- The line, further down by so many lines. -/
def moved (distance : Nat) (g : Given) : Given :=
  { g with line := { g.line with number := g.line.number + distance } }

/-- What an input gives that is read on past the lines it refuses. -/
def ofRaws (side : Side) : Nat → Key → Nat → List Bytes → List Given
  | _, _, _, [] => []
  | number, before, count, raw :: raws =>
      if Line.Dated raw then
        let l := Line.following side number before raw
        let count := count + if Key.notLater before l.key then 0 else 1
        ⟨l, count⟩ :: ofRaws side (number + 1) l.key count raws
      else ofRaws side (number + 1) before count raws

/-- It gives the lines that are blank or begin with a timestamp. -/
theorem map_raw_ofRaws (side : Side) (number : Nat) (before : Key) (count : Nat)
    (raws : List Bytes) :
    (ofRaws side number before count raws).map (fun g => g.line.raw) =
      raws.filter (fun raw => Line.Dated raw) := by
  induction raws generalizing number before count with
  | nil => rfl
  | cons raw raws ih =>
      by_cases dated : Line.Dated raw
      · simp [ofRaws, dated, ih, Line.following]
      · simp [ofRaws, dated, ih]

/-- How many of the numbers before this one are dropped. -/
def gap (dropped : Nat → Bool) (number : Nat) : Nat :=
  (List.range' 1 (number - 1)).countP dropped

/-- No number comes before the first. -/
theorem gap_one (dropped : Nat → Bool) : gap dropped 1 = 0 := rfl

/-- A number that is dropped comes before the next one. -/
theorem gap_succ (dropped : Nat → Bool) {number : Nat} (pos : 1 ≤ number) :
    gap dropped (number + 1) = gap dropped number + if dropped number then 1 else 0 := by
  obtain ⟨n, rfl⟩ : ∃ n, number = n + 1 := ⟨number - 1, by omega⟩
  unfold gap
  simp [List.range'_concat, List.countP_append, List.countP_singleton, Nat.add_comm]

/-- **Lines that are left out** change nothing about the others but their numbers. -/
theorem forall₂_spared {dropped : Nat → Bool} {side : Side} {number number' : Nat}
    {before : Key} {count : Nat} {raws : List Bytes} (pos : 1 ≤ number)
    (refused : ∀ k raw, raws[k]? = some raw → dropped (number + k) = true → ¬ Line.Dated raw)
    (distance : number = number' + gap dropped number) :
    List.Forall₂ (fun g g' => g = g'.moved (gap dropped g.line.number))
      (ofRaws side number before count raws)
      (ofRaws side number' before count (Bytes.spared dropped number raws)) := by
  induction raws generalizing number number' before count with
  | nil => exact .nil
  | cons raw raws ih =>
      have later : ∀ k raw, raws[k]? = some raw → dropped (number + 1 + k) = true →
          ¬ Line.Dated raw := by
        intro k raw' there drop
        apply refused (k + 1) raw' there
        rwa [Nat.add_assoc, Nat.add_comm 1] at drop
      have next := gap_succ dropped pos
      unfold Bytes.spared
      by_cases drop : dropped number = true
      · -- The line is refused here, and it is not there.
        have undated := refused 0 raw rfl drop
        rw [if_pos drop]
        rw [if_pos drop] at next
        rw [ofRaws, if_neg undated]
        exact ih (by omega) later (by omega)
      · rw [if_neg drop]
        rw [if_neg drop] at next
        rw [ofRaws, ofRaws]
        by_cases dated : Line.Dated raw
        · rw [if_pos dated, if_pos dated]
          refine .cons ?_ (ih (by omega) later (by omega))
          dsimp only [moved, Line.following]
          rw [← distance]
          rfl
        · rw [if_neg dated, if_neg dated]
          exact ih (by omega) later (by omega)

end Given

/-! ## What an input gives that is read on -/

namespace Input

/-- What the first attempt gives comes before the rest. -/
theorem given_succ (i : Input) (n : Nat) :
    i.given (n + 1) = i.next.given?.toList ++ i.next.input.given n := by
  rw [given, attempts, List.filterMap_cons]
  cases i.next.given? <;> rfl

/-- **What an input gives** that has no limit and no faults, when it is read on past the
lines it refuses. -/
theorem given_of_bytes {i : Input} {c : Bytes} {n : Nat} (free : i.limit = none)
    (tape : i.reader.tape = Tape.ofBytes c) (enough : c.lines.length ≤ n) :
    i.given n =
      Given.ofRaws i.side (i.lineNumber + 1) i.lastTimestamp i.descents c.lines := by
  induction n generalizing i c with
  | zero =>
      have nothing : c.lines = [] := List.length_eq_zero_iff.mp (by omega)
      rw [nothing]
      rfl
  | succ n ih =>
      rw [given_succ]
      by_cases empty : c = []
      · subst empty
        obtain ⟨ended, left, limit⟩ := next_of_nothing tape
        rw [ih (c := []) (limit.trans free) left (Nat.zero_le n)]
        simp [Reading.given?, Reading.line?, ended, Bytes.lines, Given.ofRaws]
      · have asked : i.quota = none := by
          rw [quota, free]
          rfl
        obtain ⟨answers, left, -, limit, number⟩ := next_of_piece tape empty
        have side := i.next_input.1
        have lines := Bytes.lines_eq_cons empty
        rw [asked] at answers left
        rw [lines, List.length_cons] at enough
        have rest := ih (limit.trans free) left (by omega)
        have short : ∀ most, i.limit = some most → (c.piece none).length ≤ most := by
          intro most limited
          rw [free] at limited
          cases limited
        rw [side, number] at rest
        rw [rest, lines, Given.ofRaws]
        rcases answers.otherwise short with ⟨l, given, raw⟩ | ⟨word, other, given⟩
        · have took := took_of_next given
          rw [← raw, if_pos took.admitted.2, ← took.line_eq, took.lastTimestamp,
            descents_next given]
          simp [Reading.given?, Reading.line?, given, descents_next given]
        · have undated : ¬ Line.Dated (c.piece none) := fun dated => dated word other
          obtain ⟨last, descents⟩ := next_error given
          rw [if_neg undated, last, descents]
          simp [Reading.given?, Reading.line?, given]

end Input

/-- What a source without limit and faults gives when it is read on. -/
theorem Source.Plain.given {s : Source} (plain : s.Plain) (side : Side) {n : Nat}
    (enough : s.content.lines.length ≤ n) :
    (s.input side).given n = Given.ofRaws side 1 none 0 s.content.lines :=
  Input.given_of_bytes (i := s.input side) plain.limitless
    (tape_of_faultless side plain.faultless) enough

/-- **Lines that are refused leave no trace.**  A source without limit and faults is read to
its end, past the lines that it refuses.  It gives the lines that are blank or begin with a
timestamp.  They are those that it gives when any of the refused lines are left out of its
content, and so are the counts of lines that go back in time after each of them; a line is
only further down, by as many as are left out before it.  And whatever an input has been
through, an attempt that fails leaves its last timestamp and its count alone. -/
theorem thinned_attempts (s : Source) (side : Side) (plain : s.Plain) (dropped : Nat → Bool)
    (refused : ∀ k raw, s.content.lines[k]? = some raw → dropped (k + 1) = true →
      ¬ Line.Dated raw)
    (n : Nat) (enough : s.content.lines.length ≤ n) :
    let thinned := { s with content := s.content.without dropped }
    ((s.input side).given n).map (fun g => g.line.raw) =
        s.content.lines.filter (fun raw => Line.Dated raw) ∧
      List.Forall₂ (fun g g' => g = g'.moved (Given.gap dropped g.line.number))
        ((s.input side).given n) ((thinned.input side).given n) ∧
      ∀ (i : Input) failure, i.next.result = .error failure →
        i.next.input.lastTimestamp = i.lastTimestamp ∧ i.next.input.descents = i.descents := by
  intro thinned
  have plain' : thinned.Plain := ⟨plain.limitless, plain.faultless⟩
  have fewer : thinned.content.lines.length ≤ n := by
    show (s.content.without dropped).lines.length ≤ n
    rw [Bytes.lines_without]
    exact Nat.le_trans (Bytes.spared_sublist dropped 1 _).length_le enough
  refine ⟨?_, ?_, fun i failure => Input.next_error⟩
  · rw [plain.given side enough, Given.map_raw_ofRaws]
  · rw [plain.given side enough, plain'.given side fewer]
    show List.Forall₂ _ _ (Given.ofRaws side 1 none 0 (s.content.without dropped).lines)
    rw [Bytes.lines_without]
    apply Given.forall₂_spared (Nat.le_refl 1)
    · intro k raw there drop
      rw [Nat.add_comm] at drop
      exact refused k raw there drop
    · rw [Given.gap_one]

/-- The second line and the last are refused.  The last but one goes back in time all the
same, and the blank line before it has the key of the first. -/
theorem thinned_attempts_around_descent :
    let s : Source :=
      { path := "l.log"
        content := Ascii.encode "2024-01-02T00:00:00Z a\nx\n\n2024-01-01T00:00:00Z b\ny"
        chunk := some 7 }
    let dropped := fun number => number == 2 || number == 5
    let thinned := { s with content := s.content.without dropped }
    thinned.content = Ascii.encode "2024-01-02T00:00:00Z a\n\n2024-01-01T00:00:00Z b\n" ∧
      ((s.input .left).given 5).map (fun g => (g.line.number, g.descents)) =
        [(1, 0), (3, 0), (4, 1)] ∧
      List.Forall₂ (fun g g' => g = g'.moved (Given.gap dropped g.line.number))
        ((s.input .left).given 5) ((thinned.input .left).given 5) := by
  intro s dropped thinned
  have lines : s.content.lines =
      [Ascii.encode "2024-01-02T00:00:00Z a\n", Ascii.encode "x\n", [newline],
        Ascii.encode "2024-01-01T00:00:00Z b\n", Ascii.encode "y"] := by decide +kernel
  have refused : ∀ k raw, s.content.lines[k]? = some raw → dropped (k + 1) = true →
      ¬ Line.Dated raw := by
    intro k raw there drop
    have place : k = 1 ∨ k = 4 := by simpa [dropped] using drop
    rw [lines] at there
    rcases place with rfl | rfl
    · cases there
      decide +kernel
    · cases there
      decide +kernel
  have enough : s.content.lines.length ≤ 5 := by
    rw [lines]
    decide
  obtain ⟨-, same, -⟩ := thinned_attempts s .left ⟨rfl, rfl⟩ dropped refused 5 enough
  exact ⟨by decide +kernel, by decide +kernel, same⟩

end Interleave
