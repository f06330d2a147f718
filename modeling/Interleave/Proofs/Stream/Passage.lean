/-
# What passes through the buffers

Buffers hold bytes back and pass them on in order.  Whatever has been written to them,
its front has been taken by the device and the rest is held back; and once the device
has refused bytes, it has taken all that it had room for.

* `Sink.admitted` : what a device takes of the bytes that are due to it;
* `Passage` : how far the bytes that are due have come;
* `LineBuffered.passes_writeAll`, `BlockBuffered.passes_writeAll` : writing adds to the
  bytes that are due;
* `BlockBuffered.passes_flush` : flushing leaves none of them held back;
* `BlockBuffered.delivered_close` : after closing, the device has what it takes of them.
-/
import Interleave.Proofs.Stream.Room
import Interleave.Stream.Buffered

namespace Interleave

namespace Sink

variable {s s' : Sink}

/-! ## Devices -/

/-- What a sink takes of a run of bytes, all that it has room for. -/
def admitted (s : Sink) (run : Bytes) : Bytes :=
  match s.room with
  | none => run
  | some room => run.take room

/-- What fits is taken. -/
theorem admitted_of_fits {run : Bytes} (h : s.Fits run.length) : s.admitted run = run := by
  rw [admitted]
  cases given : s.room with
  | none => rfl
  | some room => exact List.take_of_length_le (h room given)

/-- The sink `s'` is the sink `s` after it has taken a run of bytes, whether or not it
has been flushed. -/
def Took (s : Sink) (run : Bytes) (s' : Sink) : Prop :=
  ∃ flushes, s' = { s.take run with flushes := flushes }

/-- Nothing has been taken yet. -/
theorem took_nil (s : Sink) : s.Took [] s := ⟨s.flushes, by rw [take_nil]⟩

/-- A sink that can be flushed only counts that. -/
theorem flush_of_calm (calm : s.flushFailure = none) :
    s.flush = (.ok (), { s with flushes := s.flushes + 1 }) := by
  unfold flush
  rw [calm]

namespace Took

variable {run : Bytes}

/-- Bytes are taken after bytes. -/
theorem take (h : s.Took run s') (more : Bytes) : s.Took (run ++ more) (s'.take more) := by
  obtain ⟨flushes, rfl⟩ := h
  exact ⟨flushes, by rw [← take_take]; rfl⟩

/-- The bytes taken come last. -/
theorem contents (h : s.Took run s') : s'.contents = s.contents ++ run := by
  obtain ⟨flushes, rfl⟩ := h
  exact contents_take s run

/-- Bytes that are taken use up room. -/
theorem room {room : Nat} (h : s.Took run s') (given : s.room = some room) :
    s'.room = some (room - run.length) := by
  obtain ⟨flushes, rfl⟩ := h
  exact room_take given run

/-- What fits after the bytes that are taken. -/
theorem fits {n : Nat} (h : s.Took run s') (fits : s.Fits (run.length + n)) : s'.Fits n := by
  obtain ⟨flushes, rfl⟩ := h
  exact fits_take fits

/-- The sink refuses as before. -/
theorem refuse (h : s.Took run s') : s'.refuse = s.refuse := by
  obtain ⟨flushes, rfl⟩ := h
  rfl

/-- The sink fails to be flushed as before. -/
theorem flushFailure (h : s.Took run s') : s'.flushFailure = s.flushFailure := by
  obtain ⟨flushes, rfl⟩ := h
  rfl

/-- Flushing takes no bytes. -/
theorem flush (h : s.Took run s') (calm : s.flushFailure = none) :
    s'.flush.1 = .ok () ∧ s.Took run s'.flush.2 := by
  have calm' : s'.flushFailure = none := h.flushFailure.trans calm
  obtain ⟨flushes, rfl⟩ := h
  rw [flush_of_calm calm']
  exact ⟨rfl, flushes + 1, rfl⟩

end Took

end Sink

/-! ## Passages -/

/-- How far the bytes have come that are due to a device, where `back` is held back on
their way. -/
inductive Passage (device : Sink) (due : Bytes) :
    Except IoError Unit → Sink → Bytes → Prop where
  /-- The device has taken their front, and the rest is held back. -/
  | held {front back : Bytes} {now : Sink} :
      due = front ++ back → device.Fits front.length → device.Took front now →
      Passage device due (.ok ()) now back
  /-- The device has taken what it had room for, and refuses the rest. -/
  | refused {room : Nat} {now : Sink} (back : Bytes) :
      device.room = some room → room < due.length → device.Took (due.take room) now →
      Passage device due (.error device.refuse) now back

namespace Passage

variable {device now : Sink} {due back : Bytes} {result : Except IoError Unit}

/-- In the beginning all that is due is held back. -/
theorem begin (device : Sink) (due : Bytes) : Passage device due (.ok ()) device due :=
  .held rfl (fun _ _ => Nat.zero_le _) device.took_nil

/-- Bytes that are held back are due. -/
theorem hold (h : Passage device due (.ok ()) now back) (run : Bytes) :
    Passage device (due ++ run) (.ok ()) now (back ++ run) := by
  obtain ⟨rfl, fits, took⟩ := h
  exact .held (List.append_assoc _ _ _) fits took

/-- The last of the bytes that are held back are the last that are due. -/
theorem exists_eq_append {b run : Bytes} (h : Passage device due (.ok ()) now (b ++ run)) :
    ∃ before, due = before ++ run ∧ Passage device before (.ok ()) now b := by
  obtain ⟨rfl, fits, took⟩ := h
  exact ⟨_, (List.append_assoc _ _ _).symm, .held rfl fits took⟩

/-- The device can be flushed as before. -/
theorem flushFailure (h : Passage device due result now back) :
    now.flushFailure = device.flushFailure := by
  cases h with
  | held whole fits took => exact took.flushFailure
  | refused _ given short took => exact took.flushFailure

/-- Bytes that are written to the device where none are held back. -/
theorem write (h : Passage device due (.ok ()) now []) (run : Bytes) :
    Passage device (due ++ run) (now.writeAll run).1 (now.writeAll run).2 [] := by
  obtain ⟨whole, fits, took⟩ := h
  rw [List.append_nil] at whole
  subst whole
  by_cases all : device.Fits (due ++ run).length
  · rw [List.length_append] at all
    rw [Sink.writeAll_of_fits (took.fits all)]
    refine .held (List.append_nil _).symm ?_ (took.take run)
    rwa [List.length_append]
  · obtain ⟨room, given, short⟩ := Sink.exists_room_of_not_fits all
    have within : due.length ≤ room := fits room given
    have left : room - due.length < run.length := by
      rw [List.length_append] at short
      omega
    rw [Sink.writeAll_of_short (took.room given) left, took.refuse]
    refine .refused [] given short ?_
    rw [List.take_append, List.take_of_length_le within]
    exact took.take _

/-- What is held back is written to the device. -/
theorem release (h : Passage device due (.ok ()) now back) :
    Passage device due (now.writeAll back).1 (now.writeAll back).2 [] := by
  obtain ⟨before, rfl, front⟩ := exists_eq_append (b := []) h
  exact front.write back

/-- Where nothing is held back the device has what it takes of the bytes. -/
theorem contents (h : Passage device due result now []) :
    now.contents = device.contents ++ device.admitted due := by
  cases h with
  | held whole fits took =>
      rw [List.append_nil] at whole
      rw [whole, Sink.admitted_of_fits fits, took.contents]
  | refused _ given short took => rw [took.contents, Sink.admitted, given]

/-- Bytes of which none are held back fit. -/
theorem fits_of_ok (h : Passage device due (.ok ()) now []) : device.Fits due.length := by
  obtain ⟨whole, fits, -⟩ := h
  rwa [whole, List.append_nil]

/-! ### After a refusal -/

variable {cause : IoError}

/-- What is held back after a refusal does not matter. -/
theorem forget (h : Passage device due (.error cause) now back) (back' : Bytes) :
    Passage device due (.error cause) now back' := by
  cases h with
  | refused _ given short took => exact .refused back' given short took

/-- After a refusal more may be due. -/
theorem append (h : Passage device due (.error cause) now back) (run : Bytes) :
    Passage device (due ++ run) (.error cause) now back := by
  cases h with
  | refused _ given short took =>
      refine .refused back given ?_ ?_
      · rw [List.length_append]
        omega
      · rwa [List.take_append_of_le_length (Nat.le_of_lt short)]

/-- A device refuses bytes that do not fit, always in the same way. -/
theorem of_error (h : Passage device due (.error cause) now back) :
    cause = device.refuse ∧ ¬ device.Fits due.length := by
  cases h with
  | refused _ given short took => exact ⟨rfl, fun fits => Nat.not_le_of_lt short (fits _ given)⟩

/-- A device that has refused takes no more than it has. -/
theorem contents_append_admitted (h : Passage device due (.error cause) now back)
    (run : Bytes) : now.contents ++ now.admitted run = device.contents ++ device.admitted due := by
  have full : now.room = some 0 := by
    cases h with
    | refused _ given short took =>
        rw [took.room given, List.length_take, Nat.min_eq_left (Nat.le_of_lt short), Nat.sub_self]
  rw [← (h.forget []).contents, Sink.admitted, full]
  exact List.append_nil _

end Passage

/-- No bytes are held. -/
@[simp] theorem HeldBytes.contents_empty : HeldBytes.empty.contents = [] := rfl

/-- Held bytes of no number are none. -/
theorem HeldBytes.contents_eq_nil {held : HeldBytes} (h : held.size = 0) : held.contents = [] := by
  rw [held.size_eq] at h
  rw [contents, List.length_eq_zero_iff.mp h, List.reverse_nil]

/-! ## Lines -/

namespace LineBuffered

variable {device : Sink} {due : Bytes} {b : LineBuffered}

/-- How far the bytes have come that are due to the device behind the buffer. -/
def Passes (device : Sink) (due : Bytes) (written : Except IoError Unit × LineBuffered) : Prop :=
  Passage device due written.1 written.2.device written.2.held.contents

/-- Releasing leaves nothing held back. -/
theorem passes_release (h : Passes device due (.ok (), b)) :
    Passes device due b.release ∧ b.release.2.held = .empty :=
  ⟨Passage.release h, rfl⟩

/-- Where a run asks that nothing is held back before it, the buffer is released unless
nothing is. -/
theorem exists_passes_release_if (h : Passes device due (.ok (), b)) (c : Prop) [Decidable c]
    {asks : Prop} (kept : ¬ c → asks → b.held.contents = []) :
    ∃ result b', (if c then b.release else (.ok (), b)) = (result, b') ∧
      Passes device due (result, b') ∧ (asks → b'.held.contents = []) := by
  by_cases released : c
  · obtain ⟨passed, empty⟩ := passes_release h
    refine ⟨b.release.1, b.release.2, if_pos released, passed, fun _ => ?_⟩
    rw [empty, HeldBytes.contents_empty]
  · exact ⟨.ok (), b, if_neg released, h, kept released⟩

/-- Bytes go to the device directly where none are held back before them. -/
theorem passes_direct (h : Passes device due (.ok (), b)) {run : Bytes}
    (first : run ≠ [] → b.held.contents = []) : Passes device (due ++ run) (b.direct run) := by
  by_cases none : run = []
  · have same : b.direct [] = (.ok (), b) := by
      rw [direct, Sink.writeAll, if_pos rfl]
    rw [none, List.append_nil, same]
    exact h
  · have empty := first none
    rw [Passes, empty] at h
    have written := Passage.write h run
    rw [Passes, show (b.direct run).2.held = b.held from rfl, empty]
    exact written

/-- Holding a run back adds it to what is due. -/
theorem passes_hold (h : Passes device due (.ok (), b)) (run : Bytes) :
    Passes device (due ++ run) (b.hold run) := by
  -- A run that is too long for the buffer comes to an empty one.
  have kept : ¬ capacity < b.held.size + run.length → capacity ≤ run.length →
      b.held.contents = [] :=
    fun _ long => HeldBytes.contents_eq_nil (by omega)
  obtain ⟨result, b', made, passed, empty⟩ := exists_passes_release_if h _ kept
  rw [hold, made]
  cases result with
  | error cause => exact passed.append run
  | ok =>
      dsimp only
      by_cases long : capacity ≤ run.length
      · rw [if_pos long]
        exact passes_direct passed fun _ => empty long
      · rw [if_neg long, Passes, HeldBytes.contents_push]
        exact Passage.hold passed run

/-- A run is cut into two parts. -/
theorem splitLines_append (run : Bytes) : (splitLines run).1 ++ (splitLines run).2 = run := by
  have tail : (run.reverse.takeWhile (· != newline)).reverse <:+ run := by
    have reversed := List.reverse_suffix.mpr
      (List.takeWhile_prefix (· != newline) (l := run.reverse))
    rwa [List.reverse_reverse] at reversed
  rw [splitLines]
  dsimp only
  generalize run.reverse.takeWhile (· != newline) = newest at tail ⊢
  obtain ⟨front, rfl⟩ := tail
  rw [List.length_append, List.length_reverse, Nat.add_sub_cancel, List.take_left]

/-- **Writing a run** adds it to what is due. -/
theorem passes_writeAll (h : Passes device due (.ok (), b)) (run : Bytes) :
    Passes device (due ++ run) (b.writeAll run) := by
  have parts := splitLines_append run
  rw [writeAll]
  generalize splitLines run = cut at parts ⊢
  obtain ⟨lines, tail⟩ := cut
  subst parts
  -- Complete lines find nothing held back before them.
  have kept : ¬ (if lines = [] then b.held.endsLine else true) = true → lines ≠ [] →
      b.held.contents = [] :=
    fun passing some => absurd (if_neg some) passing
  obtain ⟨result, b', made, passed, empty⟩ := exists_passes_release_if h _ kept
  dsimp only
  rw [made, ← List.append_assoc]
  cases result with
  | error cause => exact (passed.append lines).append tail
  | ok =>
      have written := passes_direct passed empty
      dsimp only
      cases direct : b'.direct lines with
      | mk result b'' =>
          rw [direct] at written
          cases result with
          | error cause => exact written.append tail
          | ok => exact passes_hold written tail

/-- **Flushing** leaves nothing held back. -/
theorem passes_flush (h : Passes device due (.ok (), b)) (calm : device.flushFailure = none) :
    Passes device due b.flush ∧ (b.flush.1 = .ok () → b.flush.2.held = .empty) := by
  obtain ⟨passed, empty⟩ := passes_release h
  rw [flush]
  cases released : b.release with
  | mk result b' =>
      rw [released] at passed empty
      cases result with
      | error cause => exact ⟨passed, nofun⟩
      | ok =>
          obtain ⟨whole, fits, took⟩ := passed
          obtain ⟨result, took⟩ := took.flush calm
          refine ⟨?_, fun _ => empty⟩
          show Passage device due b'.device.flush.1 b'.device.flush.2 _
          rw [result]
          exact .held whole fits took

/-- After flushing the device has what it takes of all that is due. -/
theorem contents_flush_of_ok (h : Passes device due (.ok (), b))
    (calm : device.flushFailure = none) :
    b.flush.2.device.contents = device.contents ++ device.admitted due := by
  obtain ⟨passed, empty⟩ := passes_flush h calm
  cases flushed : b.flush with
  | mk result b' =>
      rw [flushed] at passed empty
      cases result with
      | error cause => exact (passed.forget []).contents
      | ok =>
          have empty : b'.held = .empty := empty rfl
          rw [Passes, empty] at passed
          exact passed.contents

/-- **After flushing** the device has what it takes of all that is due. -/
theorem contents_flush {written : Except IoError Unit × LineBuffered}
    (h : Passes device due written) (calm : device.flushFailure = none) :
    written.2.flush.2.device.contents = device.contents ++ device.admitted due := by
  obtain ⟨result, b⟩ := written
  cases result with
  | ok => exact contents_flush_of_ok h calm
  | error cause =>
      -- What is still held back is due to a device that has no room.
      rw [contents_flush_of_ok (Passage.begin b.device b.held.contents) (h.flushFailure.trans calm)]
      exact h.contents_append_admitted _

end LineBuffered

/-! ## Blocks -/

namespace BlockBuffered

variable {device : Sink} {due : Bytes} {b : BlockBuffered}

/-- How far the bytes have come that are due to the device behind both buffers. -/
def Passes (device : Sink) (due : Bytes) (written : Except IoError Unit × BlockBuffered) : Prop :=
  Passage device due written.1 written.2.inner.device
    (written.2.inner.held.contents ++ written.2.held.contents)

/-- Nothing is due yet. -/
theorem passes_ofDevice (device : Sink) : Passes device [] (.ok (), .ofDevice device) :=
  Passage.begin device []

/-- Releasing passes on what the outer buffer holds. -/
theorem passes_release (h : Passes device due (.ok (), b)) :
    LineBuffered.Passes device due (b.release.1, b.release.2.inner) ∧
      b.release.2.held = .empty := by
  obtain ⟨before, rfl, inner⟩ := Passage.exists_eq_append h
  exact ⟨LineBuffered.passes_writeAll (b := b.inner) inner b.held.contents, rfl⟩

/-- **Writing a run** adds it to what is due. -/
theorem passes_writeAll (h : Passes device due (.ok (), b)) (run : Bytes) :
    Passes device (due ++ run) (b.writeAll run) := by
  -- A run that is too long for the buffer comes to an empty one.
  obtain ⟨result, b', made, passed, empty⟩ : ∃ result b',
      (if capacity < b.held.size + run.length then b.release else (.ok (), b)) = (result, b') ∧
        Passes device due (result, b') ∧ (capacity ≤ run.length → b'.held.contents = []) := by
    by_cases excess : capacity < b.held.size + run.length
    · obtain ⟨passed, empty⟩ := passes_release h
      have none : b.release.2.held.contents = [] := by
        rw [empty, HeldBytes.contents_empty]
      refine ⟨b.release.1, b.release.2, if_pos excess, ?_, fun _ => none⟩
      rw [Passes, none, List.append_nil]
      exact passed
    · exact ⟨.ok (), b, if_neg excess, h, fun long => HeldBytes.contents_eq_nil (by omega)⟩
  rw [writeAll, made]
  cases result with
  | error cause => exact passed.append run
  | ok =>
      dsimp only
      by_cases long : capacity ≤ run.length
      · have empty := empty long
        rw [Passes, empty, List.append_nil] at passed
        rw [if_pos long, Passes, empty, List.append_nil]
        exact LineBuffered.passes_writeAll (b := b'.inner) passed run
      · rw [if_neg long, Passes, HeldBytes.contents_push, ← List.append_assoc]
        exact Passage.hold passed run

/-- Writing several runs adds all of them to what is due. -/
theorem passes_writeEach (h : Passes device due (.ok (), b)) (runs : List Bytes) :
    Passes device (due ++ runs.flatten) (ByteSink.writeEach b runs) := by
  induction runs generalizing due b with
  | nil =>
      rw [List.flatten_nil, List.append_nil]
      exact h
  | cons run runs ih =>
      have first : Passes device (due ++ run) (ByteSink.writeAll b run) := passes_writeAll h run
      rw [List.flatten_cons, ← List.append_assoc, ByteSink.writeEach]
      cases written : ByteSink.writeAll b run with
      | mk result b' =>
          rw [written] at first
          cases result with
          | error cause => exact first.append runs.flatten
          | ok => exact ih first

/-- **Flushing** leaves nothing held back. -/
theorem passes_flush (h : Passes device due (.ok (), b)) (calm : device.flushFailure = none) :
    Passes device due b.flush ∧ (b.flush.1 = .ok () → device.Fits due.length) := by
  obtain ⟨passed, empty⟩ := passes_release h
  rw [flush]
  cases released : b.release with
  | mk result b' =>
      rw [released] at passed empty
      have empty : b'.held = .empty := empty
      cases result with
      | error cause => exact ⟨passed.forget _, nofun⟩
      | ok =>
          obtain ⟨flushed, none⟩ := LineBuffered.passes_flush (b := b'.inner) passed calm
          refine ⟨?_, fun done => ?_⟩
          · show Passage device due _ _ (b'.inner.flush.2.held.contents ++ b'.held.contents)
            rw [empty, HeldBytes.contents_empty, List.append_nil]
            exact flushed
          · have done : b'.inner.flush.1 = .ok () := done
            rw [LineBuffered.Passes, done, none done] at flushed
            exact flushed.fits_of_ok

/-- **Closing** gives the device what it takes of all that is due. -/
theorem delivered_close {written : Except IoError Unit × BlockBuffered}
    (h : Passes device due written) (calm : device.flushFailure = none) :
    written.2.close.delivered = device.contents ++ device.admitted due := by
  -- What is released is flushed, whether or not the device has refused some of it.
  have closed : ∀ {device due}, Passes device due (.ok (), written.2) →
      device.flushFailure = none →
      written.2.close.delivered = device.contents ++ device.admitted due :=
    fun passed calm => LineBuffered.contents_flush (passes_release passed).1 calm
  obtain ⟨result, b⟩ := written
  cases result with
  | ok => exact closed h calm
  | error cause =>
      rw [closed (Passage.begin b.inner.device _) (h.flushFailure.trans calm)]
      exact h.contents_append_admitted _

end BlockBuffered


end Interleave
