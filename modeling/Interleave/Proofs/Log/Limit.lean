/-
# An input without its limit

A limit makes an input fail at a line that is longer.  It does nothing else: up to
there an input without the limit gives the same lines, meets the same failures and
reports the same.

* `Input.unlimited` : the input without its limit;
* `Input.Overlong` : the failure is that of a line over the limit;
* `next_unlimited_or` : one attempt, with the limit and without;
* `Source.Reached` : an input has come to some place in a source.
-/
import Interleave.Proofs.Log.Source
import Interleave.Proofs.Stream.Quota

namespace Interleave

namespace Input

/-- The input without its limit. -/
def unlimited (i : Input) : Input := { i with limit := none }

/-- The next line is longer than the limit, and the failure says so. -/
def Overlong (i : Input) (failure : Failure) : Prop :=
  ∃ most line others, i.limit = some most ∧ i.reader.rest.lines = line :: others ∧
    most < line.length ∧ failure = .lineTooLong i.path (i.lineNumber + 1) (most + 1) most

end Input

/-- The attempt with the input after it without its limit. -/
def Reading.unlimited (r : Reading) : Reading := { r with input := r.input.unlimited }

namespace Input

/-- Bytes that keep to the limit are treated alike without it. -/
theorem accept_unlimited {i : Input} {raw : Bytes} (short : exceeded? i.limit raw = none) :
    i.unlimited.accept raw = (i.accept raw).unlimited := by
  have free : exceeded? i.unlimited.limit raw = none := rfl
  unfold accept
  rw [short, free]
  dsimp only
  cases FirstWord.ofLine raw with
  | missing => rfl
  | timestamp instant => rfl
  | other word => rfl

/-- The bytes that the next attempt gathers are more than the limit. -/
def Exceeds (i : Input) : Prop :=
  ∃ raw r most, i.reader.gather i.quota = .line raw r ∧ i.limit = some most ∧ most < raw.length

/-- Bytes over the limit are refused for it. -/
theorem next_of_exceeds {i : Input} (h : i.Exceeds) :
    ∃ failure, i.next.result = .error failure ∧ i.Overlong failure := by
  obtain ⟨raw, r, most, gathered, limit, longer⟩ := h
  have ne : raw ≠ [] := List.ne_nil_of_length_pos (Nat.zero_lt_of_lt longer)
  have size : raw.length = most + 1 := by
    have quota : i.quota = some (most + 1) := by
      rw [quota, limit]
      rfl
    have within := Reader.length_le_of_gather (quota ▸ gathered)
    omega
  obtain ⟨more, others, lines⟩ := Reader.lines_rest_of_gather gathered ne
  refine ⟨.lineTooLong i.path (i.lineNumber + 1) (most + 1) most, ?_, most, raw ++ more, others,
    limit, lines, ?_, rfl⟩
  · obtain ⟨b, raw', rfl⟩ := List.exists_cons_of_ne_nil ne
    have excess : exceeded? i.limit (b :: raw') = some most := by
      rw [exceeded?, limit, Option.filter_some, if_pos (decide_eq_true longer)]
    rw [next, gathered]
    dsimp only
    rw [accept, excess, ← size]
    rfl
  · rw [List.length_append]
    omega

/-- Bytes within the limit are gathered without it too. -/
theorem gather_none_of_not_exceeds {i : Input} (h : ¬ i.Exceeds) :
    i.reader.gather none = i.reader.gather i.quota := by
  cases limit : i.limit with
  | none =>
      rw [quota, limit]
      rfl
  | some most =>
      have quota : i.quota = some (most + 1) := by
        rw [quota, limit]
        rfl
      rw [quota]
      refine (Reader.gather_none_or i.reader (most + 1)).resolve_right ?_
      rintro ⟨raw, r, gathered, used⟩
      exact h ⟨raw, r, most, quota ▸ gathered, limit, by omega⟩

/-- **One attempt, with the limit and without.**  The two differ only where the next
line is over the limit, and then the attempt fails for that. -/
theorem next_unlimited_or (i : Input) :
    i.unlimited.next = i.next.unlimited ∨
      ∃ failure, i.next.result = .error failure ∧ i.Overlong failure := by
  by_cases longer : i.Exceeds
  · exact Or.inr (next_of_exceeds longer)
  · refine Or.inl ?_
    have free : i.unlimited.reader.gather i.unlimited.quota = i.reader.gather i.quota :=
      gather_none_of_not_exceeds longer
    rw [next, next, free]
    cases gathered : i.reader.gather i.quota with
    | failed cause r => rfl
    | line raw r =>
        cases raw with
        | nil => rfl
        | cons b raw =>
            refine accept_unlimited (i := { i with reader := r, lineNumber := i.lineNumber + 1 }) ?_
            refine exceeded?_eq_none_iff.mpr fun most limit => Nat.le_of_not_lt fun excess => ?_
            exact longer ⟨b :: raw, r, most, gathered, limit, excess⟩

end Input

/-! ## Along a source -/

namespace Source

/-- The source without its limit. -/
def unlimited (s : Source) : Source := { s with limit := none }

/-- Some line of the source is longer than the limit, and the failure names it. -/
def Overlong (s : Source) (failure : Failure) : Prop :=
  ∃ most number line, s.limit = some most ∧ s.content.lines[number]? = some line ∧
    most < line.length ∧ failure = .lineTooLong s.path (number + 1) (most + 1) most

/-- The input has taken some lines of the source, as many as it says. -/
structure Reached (s : Source) (i : Input) : Prop where
  path : i.path = s.path
  limit : i.limit = s.limit
  lines : i.reader.rest.lines = s.content.lines.drop i.lineNumber

/-- An input that has taken nothing yet. -/
theorem reached_input (s : Source) (side : Side) : s.Reached (s.input side) where
  path := rfl
  limit := rfl
  lines := by
    rw [rest_input]
    rfl

/-- Where an attempt does not fail an input comes further in its source. -/
theorem Reached.next {s : Source} {i : Input} (h : s.Reached i) {line : Option Line}
    (given : i.next.result = .ok line) : s.Reached i.next.input := by
  rcases i.next_cases with ⟨l, -, took⟩ | ⟨none, empty⟩ | ⟨failure, fails, -⟩
  · refine ⟨took.path.trans h.path, took.limit.trans h.limit, ?_⟩
    have rest := took.lines
    rw [h.lines] at rest
    rw [took.lineNumber, ← List.drop_drop, rest]
    rfl
  · rw [Input.next_of_end none]
    have nothing : i.reader.rest = [] := by
      rw [← Reader.bytes_tape, empty]
      rfl
    have end_reached := h.lines
    rw [nothing] at end_reached
    exact ⟨h.path, h.limit, end_reached⟩
  · rw [fails] at given
    cases given

/-- A line over the limit that is met is one of the source. -/
theorem Reached.overlong {s : Source} {i : Input} (h : s.Reached i) {failure : Failure}
    (longer : i.Overlong failure) : s.Overlong failure := by
  obtain ⟨most, line, others, limit, lines, excess, rfl⟩ := longer
  refine ⟨most, i.lineNumber, line, h.limit ▸ limit, ?_, excess, by rw [h.path]⟩
  rw [h.lines] at lines
  rw [← List.head?_drop, lines]
  rfl

end Source

end Interleave
