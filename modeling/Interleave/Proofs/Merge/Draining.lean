/-
# The inputs after a merge

A merge that succeeds has read each of its inputs to its end.  What becomes of an input
is then no matter of the merge: it is what becomes of it where it is read on its own.

* `Merging.drained` : the input of a side, read to its end;
* `drained_fetch`, `drained_turn` : no step changes it;
* `drained_merge` : a merge that succeeds leaves the inputs drained;
* `descents_merge` : what two sources have counted then.
-/
import Interleave.Proofs.Log.Descents
import Interleave.Proofs.Merge.Course

namespace Interleave

/-! ## Draws and slots -/

namespace Draw

variable {slots : Both Slot}

/-- A line is drawn from a slot that holds one, and the other slot stays as it is. -/
theorem get_slots {d : Draw} (h : ofSlots slots = some d) :
    (slots.get d.side).line = some d.line ∧ d.slots.get d.side.other = slots.get d.side.other := by
  obtain ⟨⟨left⟩, ⟨right⟩⟩ := slots
  cases left <;> cases right <;> simp only [ofSlots, Slot.lift] at h
  · cases h
  · cases h
    exact ⟨rfl, rfl⟩
  · cases h
    exact ⟨rfl, rfl⟩
  · split at h <;> cases h <;> exact ⟨rfl, rfl⟩

/-- Where no line is drawn no slot holds one. -/
theorem line_of_none (h : ofSlots slots = none) (side : Side) : (slots.get side).line = none := by
  obtain ⟨⟨left⟩, ⟨right⟩⟩ := slots
  cases left <;> cases right <;> simp only [ofSlots, Slot.lift] at h
  · cases side <;> rfl
  · cases h
  · cases h
  · split at h <;> cases h

end Draw

/-! ## Step after step -/

/-- The input behind a slot, read to its end.  Where no line waits it has been. -/
def Slot.drained (s : Slot) (i : Input) : Input :=
  match s.line with
  | none => i
  | some _ => i.drained

namespace Merging

variable {σ : Type}

/-- The input of a side, read to its end. -/
def drained (m : Merging σ) (side : Side) : Input :=
  (m.slots.get side).drained (m.inputs.get side)

/-- Where no line waits the inputs have been read to their ends. -/
theorem drained_of_no_draw {m : Merging σ} (drawn : Draw.ofSlots m.slots = none) (side : Side) :
    m.drained side = m.inputs.get side := by
  rw [drained, Slot.drained, Draw.line_of_none drawn side]

/-- Taking a line changes nothing about how the input of the side ends, and nothing at
all on the other side. -/
theorem drained_fetch {m m' : Merging σ} {side : Side} (h : m.fetch side = .going m') :
    m'.drained side = (m.inputs.get side).drained ∧
      m'.drained side.other = m.drained side.other ∧
      m'.inputs.get side.other = m.inputs.get side.other := by
  obtain ⟨line, given, rfl⟩ := fetch_eq_going h
  refine ⟨?_, ?_, Both.get_set_other _ _ _⟩
  · rw [drained, received, Both.get_set_self, Both.get_set_self, given]
    cases line with
    | none => exact (Input.drained_of_end given).symm
    | some l => exact (Input.drained_of_line given).symm
  · rw [drained, received, Both.get_set_other, Both.get_set_other, ← drained]

variable [ByteSink σ]

/-- A turn changes nothing about how the inputs end. -/
theorem drained_turn {m m' : Merging σ} {d : Draw} (drawn : Draw.ofSlots m.slots = some d)
    (h : m.turn d = .going m') (side : Side) : m'.drained side = m.drained side := by
  obtain ⟨held, kept⟩ := Draw.get_slots drawn
  obtain ⟨sink, -, fetched⟩ := turn_eq_going h
  obtain ⟨own, other, -⟩ := drained_fetch fetched
  by_cases same : side = d.side
  · rw [same, own, drained, Slot.drained, held]
    rfl
  · rw [Side.eq_other_of_ne same, other, drained, drained, ← kept]
    rfl

/-- A run that succeeds has read the inputs to their ends. -/
theorem drained_run {m : Merging σ} {tally : Tally} (h : m.run.result = .ok tally)
    (side : Side) : m.run.last.inputs.get side = m.drained side := by
  induction m using run_induction with
  | finish m drawn =>
      rw [run_eq, drawn, drained_of_no_draw drawn]
      dsimp only
      rw [finish]
      cases ByteSink.flush m.sink with
      | mk result sink => cases result <;> rfl
  | turn m d drawn ih =>
      rw [run_eq, drawn] at h ⊢
      dsimp only at h ⊢
      cases after : m.turn d with
      | stopped failure m' =>
          rw [after] at h
          cases h
      | going m' =>
          rw [after] at h
          exact (ih m' after h).trans (drained_turn drawn after side)

end Merging

/-- **A merge that succeeds** has read its inputs to their ends. -/
theorem drained_merge {σ : Type} [ByteSink σ] {inputs : Both Input} {sink : σ} {tally : Tally}
    (h : (merge inputs sink).result = .ok tally) (side : Side) :
    (merge inputs sink).last.inputs.get side = (inputs.get side).drained := by
  rw [merge_eq] at h ⊢
  cases first : (Merging.start inputs sink).fetch .left with
  | stopped failure m =>
      rw [first] at h
      cases h
  | going m =>
      rw [first] at h
      dsimp only [Progress.ending] at h ⊢
      cases second : m.fetch .right with
      | stopped failure m' =>
          rw [second] at h
          cases h
      | going m' =>
          rw [second] at h
          obtain ⟨left, -, right⟩ := Merging.drained_fetch first
          obtain ⟨right', left', -⟩ := Merging.drained_fetch second
          refine (Merging.drained_run h side).trans ?_
          cases side with
          | left => exact left'.trans left
          | right => exact right'.trans (congrArg Input.drained right)

/-- Two sources that have been merged have counted their lines that go back in time. -/
theorem Source.descents_merge {σ : Type} [ByteSink σ] {sources : Both Source} {sink : σ}
    {tally : Tally} (h : (merge (inputs sources) sink).result = .ok tally)
    (whole : ∀ side, ((sources.get side).input side).feed.failure? = none) (side : Side) :
    ((merge (inputs sources) sink).last.inputs.get side).descents =
      Line.descents none (Line.ofContent side (sources.get side).content) := by
  rw [drained_merge h, get_inputs, descents_drained (whole side)]

end Interleave
