/-
# The numbers of lines

An attempt on an input is for the line at which it begins to read, and so are the number
of the line that it gives and the number in the failure that it reports.  It stays so
after attempts that have failed: a read that fails loses bytes, but none of them is a line
end.  Only a line over the limit puts the numbers out, since its rest is read as a line.

* `Reading.number?` : the number that an attempt gives or reports;
* `Input.Stands` : an input that has counted the line ends before it;
* `Stands.number?_next`, `Stands.next` : an attempt on such an input, and what it leaves;
* `numbered_attempts` : the numbers that are given or reported count line ends.
-/
import Interleave.Proofs.Log.Pieces
import Interleave.Proofs.Stream.Interruptions

namespace Interleave

namespace Reading

/-- The number of the line that an attempt gives or fails at. -/
def number? (r : Reading) : Option Nat :=
  match r.result with
  | .ok line => line.map Line.number
  | .error failure => failure.place?.map Prod.snd

/-- The attempt has met a line over the limit. -/
def isTooLong (r : Reading) : Bool :=
  match r.result with
  | .error (.lineTooLong ..) => true
  | _ => false

end Reading

/-! ## Counting line ends -/

namespace Reader

variable {r r' : Reader} {quota : Option Nat} {raw : Bytes}

/-- What is lost by an attempt that fails has no line end. -/
theorem exists_lost {cause : IoError} (h : r.gather quota = .failed cause r') :
    ∃ lost : Bytes, newline ∉ lost ∧ r.rest = lost ++ r'.rest := by
  obtain ⟨lost, clean, tape⟩ := gather_eq_failed h
  refine ⟨lost, clean, ?_⟩
  rw [← bytes_tape, ← bytes_tape, tape, Tape.bytes_append, Tape.bytes_ofBytes]
  rfl

/-- What is gathered has one line end, unless the stream or the quota is used up. -/
theorem count_newline_of_gather (h : r.gather quota = .line raw r') :
    raw.count newline = 1 ∨ r'.tape = [] ∨ quota = some raw.length := by
  obtain ⟨-, ⟨body, clean, rfl⟩ | ⟨-, used⟩⟩ := gather_line h
  · left
    simp [List.count_append, List.count_eq_zero.mpr clean]
  · exact Or.inr used

end Reader

namespace Input

/-- The input has taken the bytes of `front` off the content.  It has counted their line
ends, unless nothing is left to take. -/
structure Stands (content front : Bytes) (i : Input) : Prop where
  whole : content = front ++ i.reader.rest
  counted : i.reader.tape = [] ∨ i.lineNumber = front.count newline

/-- The number that an attempt gives or reports is the next one. -/
theorem number?_next_or (i : Input) :
    (i.next.result = .ok none ∧ i.reader.rest = []) ∨
      i.next.number? = some (i.lineNumber + 1) := by
  rcases i.next_cases with ⟨l, given, took⟩ | ⟨given, empty⟩ | ⟨failure, given, place, -⟩
  · right
    have number := (number_of_next given).1
    simp [Reading.number?, given, number]
  · left
    exact ⟨given, rest_of_tape (c := []) empty⟩
  · right
    simp [Reading.number?, given, place]

variable {content front : Bytes} {i : Input}

/-- **An attempt** gives or reports the number of the line at which it begins to read. -/
theorem Stands.number?_next (h : i.Stands content front) :
    (i.next.result = .ok none ∧ i.reader.rest = []) ∨
      i.next.number? = some (front.count newline + 1) := by
  rcases h.counted with nothing | counted
  · left
    exact ⟨(next_of_nothing nothing).1, rest_of_tape (c := []) nothing⟩
  · rw [← counted]
    exact i.number?_next_or

/-- Bytes over the limit are refused for it. -/
theorem isTooLong_accept {raw : Bytes} {most : Nat} (limit : i.limit = some most)
    (longer : most < raw.length) : (i.accept raw).isTooLong = true := by
  have excess : exceeded? i.limit raw = some most := by
    rw [exceeded?, limit, Option.filter_some, if_pos (decide_eq_true longer)]
  unfold accept
  rw [excess]
  rfl

/-- **What an attempt leaves** has again counted the line ends before it, if the attempt
has not met a line over the limit. -/
theorem Stands.next (h : i.Stands content front) (short : i.next.isTooLong = false) :
    ∃ front', i.next.input.Stands content front' := by
  have whole := h.whole
  rcases h.counted with nothing | counted
  · have left := (next_of_nothing nothing).2.1
    refine ⟨front, ?_, Or.inl left⟩
    rw [rest_of_tape (c := []) left, whole, rest_of_tape (c := []) nothing]
  · unfold Input.next at short ⊢
    cases gathered : i.reader.gather i.quota with
    | failed cause r =>
        obtain ⟨lost, clean, rest⟩ := Reader.exists_lost gathered
        refine ⟨front ++ lost, ?_, Or.inr ?_⟩
        · simp [whole, rest, fail]
        · rw [List.count_append, List.count_eq_zero.mpr clean]
          exact counted
    | line raw r =>
        have rest : raw ++ r.rest = i.reader.rest := Reader.rest_gather gathered
        have ends := Reader.count_newline_of_gather gathered
        rw [gathered] at short
        cases raw with
        | nil =>
            refine ⟨front, ?_, Or.inl ?_⟩
            · rw [whole, ← rest]
              rfl
            · show r.tape = []
              rw [Reader.gather_nil gathered i.quota_ne_zero]
              rfl
        | cons b raw =>
            let taken : Input := { i with reader := r, lineNumber := i.lineNumber + 1 }
            obtain ⟨reader, number, -⟩ := accept_input taken (b :: raw)
            refine ⟨front ++ (b :: raw), ?_, ?_⟩
            · rw [reader, whole, ← rest, List.append_assoc]
            · rw [reader, number]
              rcases ends with one | done | used
              · right
                rw [List.count_append, one, ← counted]
              · exact Or.inl done
              · -- The quota is one byte more than the limit.
                exfalso
                rw [quota, Option.map_eq_some_iff] at used
                obtain ⟨most, limit, size⟩ := used
                have longer : (taken.accept (b :: raw)).isTooLong = true :=
                  isTooLong_accept limit (by omega)
                exact Bool.false_ne_true (short.symm.trans longer)

/-- **The numbers stay right** as long as no line over the limit is met. -/
theorem Stands.after (h : i.Stands content front) (k : Nat)
    (short : ∀ j < k, (i.after j).next.isTooLong = false) :
    ∃ front', (i.after k).Stands content front' := by
  induction k with
  | zero => exact ⟨front, h⟩
  | succ k ih =>
      obtain ⟨front', stands⟩ := ih fun j before => short j (by omega)
      exact stands.next (short k (by omega))

end Input

/-- An input that has taken nothing has no line ends before it. -/
theorem Source.stands_input (s : Source) (side : Side) :
    (s.input side).Stands s.content [] := by
  constructor
  · rw [rest_input]
    rfl
  · right
    rfl

/-- Sources with the same content and limit are read alike if their faults differ in nothing
but interruptions. -/
theorem Source.alike_input (s : Source) (side : Side) {chunk : Option Nat}
    {faults : List Fault} (same : faults.filter Fault.lasts = s.faults.filter Fault.lasts) :
    ({ s with chunk, faults }.input side).Alike (s.input side) :=
  ⟨(s.input side).reader, rfl, Reader.tape_ofContent_congr same.symm s.content s.chunk chunk⟩

/-- **The numbers of lines.**  The attempts on a source go on after those that fail.  As
long as none before it has met a line over the limit, each attempt gives or reports the
number of the line at which it begins to read, which is one more than there are line ends
in the front of the content that has been taken before; it has no number only if nothing is
left to take.  What the attempts give does not depend on the deliveries, nor on
interruptions among the faults. -/
theorem numbered_attempts (s : Source) (side : Side) (n : Nat) :
    let start := s.input side
    let readings := Input.attempts n start
    (∀ k reading, readings[k]? = some reading →
      (∀ earlier ∈ readings.take k, earlier.isTooLong = false) →
      ∃ front, s.content = front ++ (start.after k).reader.rest ∧
        ((reading.result = .ok none ∧ (start.after k).reader.rest = []) ∨
          reading.number? = some (front.count newline + 1))) ∧
      ∀ chunk faults, faults.filter Fault.lasts = s.faults.filter Fault.lasts →
        (Input.attempts n ({ s with chunk, faults }.input side)).map Reading.result =
          readings.map Reading.result := by
  intro start readings
  constructor
  · intro k reading made short
    have none_before : ∀ j < k, (start.after j).next.isTooLong = false := by
      intro j before
      have size : k < readings.length := (List.getElem?_eq_some_iff.mp made).1
      have there : readings[j]? = some readings[j] := List.getElem?_eq_getElem (by omega)
      rw [← Input.getElem?_attempts there]
      apply short
      exact List.mem_take_iff_getElem.mpr ⟨j, by omega, rfl⟩
    obtain ⟨front, stands⟩ := (s.stands_input side).after k none_before
    refine ⟨front, stands.whole, ?_⟩
    rw [Input.getElem?_attempts made]
    exact stands.number?_next
  · intro chunk faults same
    exact (s.alike_input side same).attempts n

/-- The first line is refused and the read of the second fails in its middle.  What is read
after that is still of the second line. -/
theorem numbered_attempts_after_fault :
    let s : Source :=
      { path := "l.log"
        content := Ascii.encode "a\n2024-01-01T00:00:00Z b\n"
        faults := [⟨4, .system 5⟩] }
    ∃ first second third, Input.attempts 3 (s.input .left) = [first, second, third] ∧
      first.line? = none ∧ second.line? = none ∧ third.number? = some 2 := by
  intro s
  obtain ⟨numbers, -⟩ := numbered_attempts s .left 3
  have short : ∀ earlier ∈ (Input.attempts 3 (s.input .left)).take 2,
      earlier.isTooLong = false := by decide +kernel
  obtain ⟨front, whole, third⟩ := numbers 2 _ rfl short
  have left : ((s.input .left).after 2).reader.rest = Ascii.encode "24-01-01T00:00:00Z b\n" := by
    decide +kernel
  rw [left] at whole third
  have taken : front = Ascii.encode "a\n20" := by
    refine List.append_cancel_right (whole.symm.trans ?_)
    decide +kernel
  refine ⟨_, _, _, rfl, by decide +kernel, by decide +kernel, ?_⟩
  rcases third with ⟨-, nothing⟩ | number
  · exact absurd nothing (by decide +kernel)
  · rw [number, taken]
    decide +kernel

end Interleave
