/-
# A plan behind buffers

A plan that is carried out behind buffers ends as it would without them if the device
has room for all of its bytes.  Where it has not, the refusal may come late, and a plan
that is stopped may be stopped before it comes; but a plan that is not stopped never
ends well.  In the end the device has all the bytes it takes, in order.

* `Plan.outcome` : how a plan ends where there is room;
* `perform_blockBuffered` : what comes of a plan behind buffers, step after step;
* `delivered_perform` : what has reached the device after closing;
* `result_of_fits`, `result_of_not_fits` : how the plan ends.
-/
import Interleave.Proofs.Merge.Written
import Interleave.Proofs.Stream.Passage

namespace Interleave

namespace Plan

/-- How a plan ends where there is room for all of its bytes. -/
def outcome (p : Plan) (t : Tally) : Except Failure Tally :=
  match p.stop? with
  | none => .ok (p.tally t)
  | some (_, failure) => .error failure

/-- A plan that is not stopped ends well. -/
theorem outcome_eq_ok_iff {p : Plan} {t : Tally} :
    (∃ tally, p.outcome t = .ok tally) ↔ p.stop? = none := by
  rw [outcome]
  cases p.stop? <;> simp

/-- A plan that is stopped ends with a failure. -/
theorem outcome_eq_error_iff {p : Plan} {t : Tally} {failure : Failure} :
    p.outcome t = .error failure ↔ ∃ side, p.stop? = some (side, failure) := by
  rw [outcome]
  cases p.stop? with
  | none => simp
  | some halt => simp [Prod.ext_iff]

/-- Into a sink that takes everything all bytes are written, and the plan ends so. -/
theorem perform_of_open {p : Plan} {s : Sink} {t : Tally} (boundless : s.room = none)
    (calm : s.flushFailure = none) :
    (p.perform s t).result = p.outcome t ∧
      (p.perform s t).sink.contents = s.contents ++ p.bytes := by
  rw [perform_of_fits (Sink.fits_of_room_eq_none boundless _), outcome]
  cases p.stop? with
  | none =>
      dsimp only
      rw [close_sink]
      have calm : (s.take p.bytes).flushFailure = none := calm
      rw [calm]
      exact ⟨rfl, Sink.contents_take s _⟩
  | some halt => exact ⟨rfl, Sink.contents_take s _⟩

variable {p : Plan} {device : Sink} {t : Tally}

/-- **A plan behind buffers** ends as it is planned, and if it is not stopped the device
has room for all that is due; or it ends at the refusal of the device. -/
theorem perform_blockBuffered {b : BlockBuffered} {due : Bytes}
    (h : BlockBuffered.Passes device due (.ok (), b)) (calm : device.flushFailure = none) :
    ((p.perform b t).result = p.outcome t ∧
        (p.stop? = none → device.Fits (due ++ p.bytes).length) ∧
        BlockBuffered.Passes device (due ++ p.bytes) (.ok (), (p.perform b t).sink)) ∨
      ((p.perform b t).result = .error (.cannotWrite device.refuse) ∧
        BlockBuffered.Passes device (due ++ p.bytes)
          (.error device.refuse, (p.perform b t).sink)) := by
  induction p generalizing b due t with
  | finish =>
      obtain ⟨passed, fits⟩ := BlockBuffered.passes_flush h calm
      have nothing : due ++ finish.bytes = due := List.append_nil due
      rw [nothing, perform, close]
      cases flushed : ByteSink.flush b with
      | mk result b' =>
          rw [show b.flush = (result, b') from flushed] at passed fits
          cases result with
          | ok => exact Or.inl ⟨rfl, fun _ => fits rfl, passed⟩
          | error cause =>
              obtain ⟨rfl, -⟩ := passed.of_error
              exact Or.inr ⟨rfl, passed⟩
  | halt side failure =>
      have nothing : due ++ (halt side failure).bytes = due := List.append_nil due
      rw [nothing]
      refine Or.inl ⟨rfl, fun whole => ?_, h⟩
      cases whole
  | write pick rest ih =>
      have passed := BlockBuffered.passes_writeEach h pick.line.parts
      rw [bytes_write, ← List.append_assoc, perform]
      cases written : ByteSink.writeEach b pick.line.parts with
      | mk result b' =>
          rw [written] at passed
          cases result with
          | ok => exact ih passed
          | error cause =>
              obtain ⟨rfl, -⟩ := passed.of_error
              exact Or.inr ⟨rfl, passed.append rest.bytes⟩

variable (calm : device.flushFailure = none)

include calm

/-- A plan behind buffers that hold nothing yet. -/
theorem perform_ofDevice :
    ((p.perform (BlockBuffered.ofDevice device) t).result = p.outcome t ∧
        (p.stop? = none → device.Fits p.bytes.length) ∧
        BlockBuffered.Passes device p.bytes
          (.ok (), (p.perform (BlockBuffered.ofDevice device) t).sink)) ∨
      ((p.perform (BlockBuffered.ofDevice device) t).result =
          .error (.cannotWrite device.refuse) ∧
        BlockBuffered.Passes device p.bytes
          (.error device.refuse, (p.perform (BlockBuffered.ofDevice device) t).sink)) := by
  have performed := perform_blockBuffered (p := p) (t := t)
    (BlockBuffered.passes_ofDevice device) calm
  rwa [List.nil_append] at performed

/-- **What has reached the device** after closing is all that it takes of the bytes,
however the plan has ended. -/
theorem delivered_perform :
    (p.perform (BlockBuffered.ofDevice device) t).sink.close.delivered =
      device.contents ++ device.admitted p.bytes := by
  rcases perform_ofDevice (p := p) (t := t) calm with ⟨-, -, passed⟩ | ⟨-, passed⟩
  · have closed := BlockBuffered.delivered_close passed calm
    exact closed
  · have closed := BlockBuffered.delivered_close passed calm
    exact closed

/-- Where there is room the plan ends as it is planned. -/
theorem result_of_fits (fits : device.Fits p.bytes.length) :
    (p.perform (BlockBuffered.ofDevice device) t).result = p.outcome t := by
  rcases perform_ofDevice (p := p) (t := t) calm with ⟨result, -, -⟩ | ⟨-, passed⟩
  · exact result
  · exact absurd fits passed.of_error.2

/-- Where there is not, it ends at the refusal, or before it where it is stopped. -/
theorem result_of_not_fits (short : ¬ device.Fits p.bytes.length) :
    (p.perform (BlockBuffered.ofDevice device) t).result =
        .error (.cannotWrite device.refuse) ∨
      ∃ side failure, p.stop? = some (side, failure) ∧
        (p.perform (BlockBuffered.ofDevice device) t).result = .error failure := by
  rcases perform_ofDevice (p := p) (t := t) calm with ⟨result, fits, -⟩ | ⟨result, -⟩
  · right
    cases stop : p.stop? with
    | none => exact absurd (fits stop) short
    | some halt =>
        rw [outcome, stop] at result
        exact ⟨halt.1, halt.2, rfl, result⟩
  · exact Or.inl result

end Plan

end Interleave
