/-
# Attempt after attempt

Attempts on an input may go on after one that has failed.  Each is made on the input as
the attempts before it have left it, so what holds of one attempt carries over to any
number of them.

* `Input.after` : an input after so many attempts;
* `getElem?_attempts` : an attempt is made on what the attempts before it leave;
* `attempts_succ_concat` : the last of them is made after all others;
* `Input.yielded` : the lines that are given;
* `number_yielded` : their numbers grow.
-/
import Interleave.Proofs.Log.Feed

namespace Interleave

/-! ## What an attempt gives -/

/-- The line that an attempt has given. -/
def Reading.line? (r : Reading) : Option Line :=
  match r.result with
  | .ok line => line
  | .error _ => none

/-- An attempt has given a line if its result is that line. -/
theorem Reading.result_of_line? {r : Reading} {l : Line} (h : r.line? = some l) :
    r.result = .ok (some l) := by
  rw [line?] at h
  split at h
  · next given => rw [given, h]
  · cases h

namespace Input

/-! ## The input after some attempts -/

/-- An input after a number of attempts. -/
def after : Nat → Input → Input
  | 0, i => i
  | n + 1, i => (i.after n).next.input

/-- What the first attempt leaves is what the others are made on. -/
theorem after_succ (i : Input) (n : Nat) : i.after (n + 1) = i.next.input.after n := by
  induction n with
  | zero => rfl
  | succ n ih => rw [after, ih, after]

/-- An attempt leaves the side, the path and the limit of an input alone. -/
theorem next_input (i : Input) :
    i.next.input.side = i.side ∧ i.next.input.path = i.path ∧ i.next.input.limit = i.limit := by
  unfold next
  split
  · exact ⟨rfl, rfl, rfl⟩
  · exact ⟨rfl, rfl, rfl⟩
  · exact (accept_input _ _).2.2

/-- So do any number of attempts. -/
theorem after_input (i : Input) (n : Nat) :
    (i.after n).side = i.side ∧ (i.after n).path = i.path ∧ (i.after n).limit = i.limit := by
  induction n with
  | zero => exact ⟨rfl, rfl, rfl⟩
  | succ n ih =>
      obtain ⟨side, path, limit⟩ := (i.after n).next_input
      exact ⟨side.trans ih.1, path.trans ih.2.1, limit.trans ih.2.2⟩

/-- As many attempts are made as are asked for. -/
theorem length_attempts (n : Nat) (i : Input) : (attempts n i).length = n := by
  induction n generalizing i with
  | zero => rfl
  | succ n ih => rw [attempts, List.length_cons, ih]

/-- **Each attempt** is made on the input as the attempts before it leave it. -/
theorem getElem?_attempts {n k : Nat} {i : Input} {reading : Reading}
    (h : (attempts n i)[k]? = some reading) : reading = (i.after k).next := by
  induction n generalizing i k with
  | zero => cases h
  | succ n ih =>
      cases k with
      | zero => exact (Option.some.inj h).symm
      | succ k =>
          rw [after_succ]
          exact ih h

/-- One attempt more comes after all others. -/
theorem attempts_succ_concat (n : Nat) (i : Input) :
    attempts (n + 1) i = attempts n i ++ [(i.after n).next] := by
  induction n generalizing i with
  | zero => rfl
  | succ n ih => rw [attempts, ih, attempts, List.cons_append, after_succ]

/-! ## The lines that are given -/

/-- The lines that are given in so many attempts, some of which may fail. -/
def yielded (i : Input) (attempts : Nat) : List Line :=
  (i.attempts attempts).filterMap Reading.line?

/-- The first attempt gives its line before the others. -/
theorem yielded_succ (i : Input) (n : Nat) :
    i.yielded (n + 1) = i.next.line?.toList ++ i.next.input.yielded n := by
  rw [yielded, attempts, List.filterMap_cons]
  cases i.next.line? <;> rfl

/-- The last attempt gives its line after the others. -/
theorem yielded_succ_concat (i : Input) (n : Nat) :
    i.yielded (n + 1) = i.yielded n ++ (i.after n).next.line?.toList := by
  rw [yielded, attempts_succ_concat, List.filterMap_append, ← yielded, List.filterMap_cons]
  cases (i.after n).next.line? <;> rfl

/-- Lines are counted, never uncounted. -/
theorem lineNumber_le_next (i : Input) : i.lineNumber ≤ i.next.input.lineNumber := by
  rw [next]
  split
  · exact Nat.le_refl _
  · exact Nat.le_refl _
  · rw [(accept_input _ _).2.1]
    exact Nat.le_succ _

/-- What an attempt has done that gives a line. -/
theorem took_of_next {i : Input} {l : Line} (h : i.next.result = .ok (some l)) :
    i.Took l i.next.input := by
  rcases i.next_cases with ⟨l', given, took⟩ | ⟨given, -⟩ | ⟨failure, given, -⟩
  · rw [given] at h
    cases h
    exact took
  · rw [given] at h
    cases h
  · rw [given] at h
    cases h

/-- A line that is given has the next number. -/
theorem number_of_next {i : Input} {l : Line} (h : i.next.result = .ok (some l)) :
    l.number = i.lineNumber + 1 ∧ i.next.input.lineNumber = i.lineNumber + 1 :=
  ⟨congrArg Line.number (took_of_next h).line_eq, (took_of_next h).lineNumber⟩

/-- **The numbers grow** from each line that is given to the next, whatever fails in
between. -/
theorem number_yielded (i : Input) (n : Nat) :
    (∀ l ∈ i.yielded n, i.lineNumber < l.number) ∧
      (i.yielded n).Pairwise fun a b => a.number < b.number := by
  induction n generalizing i with
  | zero => exact ⟨nofun, List.Pairwise.nil⟩
  | succ n ih =>
      obtain ⟨later, grow⟩ := ih i.next.input
      have counted := i.lineNumber_le_next
      rw [yielded_succ]
      cases given : i.next.line? with
      | none => exact ⟨fun l member => Nat.lt_of_le_of_lt counted (later l member), grow⟩
      | some l =>
          have number := number_of_next (Reading.result_of_line? given)
          refine ⟨?_, List.pairwise_cons.mpr ⟨fun l' member => ?_, grow⟩⟩
          · intro l' member
            rcases List.mem_cons.mp member with rfl | member
            · omega
            · exact Nat.lt_of_le_of_lt counted (later l' member)
          · have := later l' member
            omega

end Input

end Interleave
