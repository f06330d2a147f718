/-
# Going back in time

A line goes back in time where its key is earlier than that of the line before it.  An
input counts the lines that do, and a blank line never does, since it has the key of
the line before.

* `Line.descents` : how many lines go back in time;
* `descents_eq_zero_iff` : none does exactly if the lines are in order;
* `descents_append` : lines after lines;
* `Input.drained` : an input of which all lines have been taken;
* `descents_drained` : what it has counted.
-/
import Interleave.Proofs.Log.Source
import Interleave.Proofs.Order.Key

namespace Interleave

/-! ## Lines that go back -/

namespace Line

/-- How many lines are earlier than the line before them, where the first comes after
the key `before`. -/
def descents : Key → List Line → Nat
  | _, [] => 0
  | before, l :: ls => (if Key.notLater before l.key then 0 else 1) + descents l.key ls

/-- The key of the last line, or `before` if there is none. -/
def lastKey : Key → List Line → Key
  | before, [] => before
  | _, l :: ls => lastKey l.key ls

/-- **No line goes back** exactly if the lines are in order, and none is earlier than
what comes before them. -/
theorem descents_eq_zero_iff (before : Key) (ls : List Line) :
    descents before ls = 0 ↔
      (∀ l ∈ ls, Key.notLater before l.key = true) ∧
        ls.Pairwise fun a b => a.notLater b = true := by
  induction ls generalizing before with
  | nil => simp [descents]
  | cons l ls ih =>
      have step : descents before (l :: ls) = 0 ↔
          Key.notLater before l.key = true ∧ descents l.key ls = 0 := by
        rw [descents]
        split
        · next first => simp [first]
        · next first => simp [first]
      rw [step, ih, List.pairwise_cons]
      constructor
      · rintro ⟨first, follow, ordered⟩
        refine ⟨fun l' member => ?_, follow, ordered⟩
        rcases List.mem_cons.mp member with rfl | later
        · exact first
        · exact Key.notLater_trans first (follow l' later)
      · rintro ⟨first, follow, ordered⟩
        exact ⟨first l List.mem_cons_self, follow, ordered⟩

/-- **Lines after lines** go back as often as both do, seen from where they stand. -/
theorem descents_append (before : Key) (ls ls' : List Line) :
    descents before (ls ++ ls') = descents before ls + descents (lastKey before ls) ls' := by
  induction ls generalizing before with
  | nil => exact (Nat.zero_add _).symm
  | cons l ls ih => rw [List.cons_append, descents, descents, ih, lastKey, Nat.add_assoc]

/-- The last key of lines after lines. -/
theorem lastKey_append (before : Key) (ls ls' : List Line) :
    lastKey before (ls ++ ls') = lastKey (lastKey before ls) ls' := by
  induction ls generalizing before with
  | nil => rfl
  | cons l ls ih => exact ih l.key

/-- The last key is that of a line, or the one before all lines. -/
theorem lastKey_eq_or (before : Key) (ls : List Line) :
    lastKey before ls = before ∨ ∃ l ∈ ls, lastKey before ls = l.key := by
  induction ls generalizing before with
  | nil => exact Or.inl rfl
  | cons l ls ih =>
      refine Or.inr ?_
      rcases ih l.key with same | ⟨l', member, same⟩
      · exact ⟨l, List.mem_cons_self, same⟩
      · exact ⟨l', List.mem_cons_of_mem l member, same⟩

end Line

/-! ## What an input counts -/

namespace Input

/-- A timestamp goes back in time if the one before it is later. -/
theorem goesBack_eq (i : Input) (instant : Instant) :
    i.goesBack instant = !Key.notLater i.lastTimestamp (some instant) := by
  rw [goesBack]
  cases i.lastTimestamp with
  | none => rfl
  | some last =>
      show decide (instant < last) = !decide (last ≤ instant)
      rw [← decide_not, decide_eq_decide, Instant.not_le]

/-- A line that is accepted is counted if it goes back in time. -/
theorem descents_accept {i : Input} {raw : Bytes} {l : Line}
    (h : (i.accept raw).result = .ok (some l)) :
    (i.accept raw).input.descents =
      i.descents + if Key.notLater i.lastTimestamp l.key then 0 else 1 := by
  unfold accept at h ⊢
  split at h
  · cases h
  · split at h
    · cases h
      rw [if_pos (Key.notLater_refl i.lastTimestamp)]
      rfl
    · next instant _ =>
        cases h
        show (if i.goesBack instant then i.descents + 1 else i.descents) = _
        rw [goesBack_eq]
        cases Key.notLater i.lastTimestamp (some instant) <;> rfl
    · cases h

/-- A line that is given is counted if it goes back in time. -/
theorem descents_next {i : Input} {l : Line} (h : i.next.result = .ok (some l)) :
    i.next.input.descents =
      i.descents + if Key.notLater i.lastTimestamp l.key then 0 else 1 := by
  unfold next at h ⊢
  split at h
  · cases h
  · cases h
  · exact descents_accept h

/-! ## An input that has been read to its end -/

/-- The input after its last attempt, at which it has ended or failed. -/
def drained (i : Input) : Input :=
  match _given : i.next.result with
  | .ok (some _) => i.next.input.drained
  | _ => i.next.input
termination_by i.remaining
decreasing_by exact remaining_next_lt (by assumption)

theorem drained_of_line {i : Input} {l : Line} (h : i.next.result = .ok (some l)) :
    i.drained = i.next.input.drained := by
  rw [drained]
  split <;> simp_all

theorem drained_of_end {i : Input} (h : i.next.result = .ok none) :
    i.drained = i.next.input := by
  rw [drained]
  split <;> simp_all

/-- **What an input has counted** when it has been read to its end: its lines that go
back in time. -/
theorem descents_drained {i : Input} (whole : i.feed.failure? = none) :
    i.drained.descents = i.descents + Line.descents i.lastTimestamp i.feed.lines := by
  induction i using feed_induction with
  | line i l given took ih =>
      rw [feed_of_line given] at whole
      rw [drained_of_line given, ih whole, descents_next given, took.lastTimestamp,
        feed_of_line given, Feed.lines, Line.descents, Nat.add_assoc]
  | done i given empty =>
      rw [drained_of_end given, next_of_end given, feed_of_end given]
      rfl
  | broken i failure given place why =>
      rw [feed_of_error given] at whole
      cases whole

end Input

/-- A source that does not fail has counted the lines of its content that go back in
time. -/
theorem Source.descents_drained {s : Source} {side : Side}
    (whole : (s.input side).feed.failure? = none) :
    (s.input side).drained.descents = Line.descents none (Line.ofContent side s.content) := by
  rw [Input.descents_drained whole, lines_feed_of_whole whole]
  exact Nat.zero_add _

end Interleave
