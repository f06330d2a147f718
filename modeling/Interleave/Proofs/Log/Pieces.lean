/-
# The pieces of a content

Attempt after attempt an input takes its content piece by piece: a line at a time, or
as much of it as the limit lets through and one byte more.  The attempts go on after a
line that is refused, and nothing of the content is passed over.

* `Bytes.pieces` : the pieces of a content;
* `flatten_pieces` : they make up the content;
* `gather_piece` : a piece is what is gathered of a stream without failures;
* `Input.Alike` : inputs whose streams differ only in their deliveries;
* `attempts_pieces` : what the attempts on a source make of its pieces.
-/
import Interleave.Proofs.Log.Attempts
import Interleave.Proofs.Log.Source
import Interleave.Proofs.Stream.Quota

namespace Interleave

/-! ## Pieces -/

namespace Bytes

/-- The first line of a run, or as many bytes of it as a quota lets through. -/
def piece (quota : Option Nat) (c : Bytes) : Bytes :=
  match quota with
  | none => c.lines.headD []
  | some most => (c.lines.headD []).take most

/-- The first line is the front of the run. -/
theorem headD_lines_isFront (c : Bytes) : c.lines.headD [] <+: c := by
  conv => rhs; rw [← flatten_lines c]
  cases c.lines with
  | nil => exact List.nil_prefix
  | cons line others => exact List.prefix_append line others.flatten

/-- A piece is the front of the run. -/
theorem piece_isFront (quota : Option Nat) (c : Bytes) : c.piece quota <+: c := by
  cases quota with
  | none => exact headD_lines_isFront c
  | some most => exact (List.take_prefix most _).trans (headD_lines_isFront c)

/-- Of nothing the piece is nothing. -/
theorem piece_nil (quota : Option Nat) : piece quota [] = [] :=
  List.prefix_nil.mp (piece_isFront quota [])

/-- A quota of no bytes gives no bytes. -/
theorem piece_zero (c : Bytes) : c.piece (some 0) = [] :=
  List.take_zero (l := c.lines.headD [])

/-- A piece and what follows it are the run. -/
theorem piece_append_drop (quota : Option Nat) (c : Bytes) :
    c.piece quota ++ c.drop (c.piece quota).length = c := by
  obtain ⟨rest, whole⟩ := c.piece_isFront quota
  have follows : c.drop (c.piece quota).length = rest := by
    conv => lhs; arg 2; rw [← whole]
    exact List.drop_left
  rw [follows, whole]

/-- The first line of a run begins with its first byte and goes on unless that ends it. -/
theorem headD_lines_cons (b : UInt8) (c : Bytes) :
    (lines (b :: c)).headD [] = if b = newline then [b] else b :: (lines c).headD [] := by
  rw [lines]
  split
  · rfl
  · cases lines c with
    | nil => rfl
    | cons line others => rfl

/-- A piece begins with the first byte and goes on unless that ends the line. -/
theorem piece_cons {quota : Option Nat} (asked : quota ≠ some 0) (b : UInt8) (c : Bytes) :
    piece quota (b :: c) =
      if b = newline then [b] else b :: c.piece (quota.map (· - 1)) := by
  cases quota with
  | none => exact headD_lines_cons b c
  | some most =>
      obtain ⟨most, rfl⟩ : ∃ n, most = n + 1 :=
        Nat.exists_eq_succ_of_ne_zero fun zero => asked (congrArg some zero)
      show List.take (most + 1) ((lines (b :: c)).headD []) = _
      rw [headD_lines_cons]
      split
      · rw [List.take_succ_cons, List.take_nil]
      · rfl

/-- Of a run that has bytes a piece has some too. -/
theorem piece_ne_nil {quota : Option Nat} (asked : quota ≠ some 0) {c : Bytes} (ne : c ≠ []) :
    c.piece quota ≠ [] := by
  obtain ⟨b, c, rfl⟩ := List.exists_cons_of_ne_nil ne
  rw [piece_cons asked]
  split
  · exact List.cons_ne_nil b []
  · exact List.cons_ne_nil b _

/-- The pieces of a run, one after another: each is the rest of the run up to a line
end, or one byte more than the limit if that is less, or all that is left. -/
def pieces (limit : Option Nat) (c : Bytes) : List Bytes :=
  if c = [] then []
  else
    c.piece (limit.map (· + 1)) ::
      pieces limit (c.drop (c.piece (limit.map (· + 1))).length)
termination_by c.length
decreasing_by
  have ne : c ≠ [] := by assumption
  have some_taken := List.length_pos_iff.mpr (piece_ne_nil (Input.map_succ_ne_zero limit) ne)
  have some_there := List.length_pos_iff.mpr ne
  rw [List.length_drop]
  omega

/-- There is nothing in pieces where there is nothing. -/
@[simp] theorem pieces_nil (limit : Option Nat) : pieces limit [] = [] := by
  rw [pieces, if_pos rfl]

/-- The first piece and the pieces of what follows it. -/
theorem pieces_of_ne_nil (limit : Option Nat) {c : Bytes} (ne : c ≠ []) :
    c.pieces limit =
      c.piece (limit.map (· + 1)) ::
        pieces limit (c.drop (c.piece (limit.map (· + 1))).length) := by
  rw [pieces, if_neg ne]

/-- **No byte is passed over.**  The pieces make up the run. -/
theorem flatten_pieces (limit : Option Nat) (c : Bytes) : (c.pieces limit).flatten = c := by
  fun_induction pieces limit c with
  | case1 => rfl
  | case2 c ne ih => rw [List.flatten_cons, ih, piece_append_drop]

/-- A piece has bytes, and at most one more than the limit. -/
theorem length_of_mem_pieces {limit : Option Nat} {c piece : Bytes}
    (h : piece ∈ c.pieces limit) :
    piece ≠ [] ∧ ∀ most, limit = some most → piece.length ≤ most + 1 := by
  fun_induction pieces limit c with
  | case1 => cases h
  | case2 c ne ih =>
      rcases List.mem_cons.mp h with rfl | later
      · refine ⟨piece_ne_nil (Input.map_succ_ne_zero limit) ne, ?_⟩
        rintro most rfl
        exact List.length_take_le _ _
      · exact ih later

end Bytes

/-! ## Gathering a piece -/

/-- Off a tape of bytes a piece is cut. -/
theorem Tape.cut_ofBytes (quota : Option Nat) (taken c : Bytes) :
    cut quota taken (ofBytes c) =
      .line (taken.reverse ++ c.piece quota) (ofBytes (c.drop (c.piece quota).length)) := by
  induction c generalizing quota taken with
  | nil =>
      rw [Bytes.piece_nil, List.append_nil]
      by_cases zero : quota = some 0
      · rw [zero]
        rfl
      · exact cut_nil zero taken
  | cons b c ih =>
      by_cases zero : quota = some 0
      · rw [zero, Bytes.piece_zero, List.append_nil]
        rfl
      · rw [Bytes.piece_cons zero, ofBytes_cons, cut]
        · by_cases ends : b = newline
          · rw [if_pos ends, if_pos ends, List.reverse_cons]
            rfl
          · rw [if_neg ends, if_neg ends, ih, List.reverse_cons, List.append_assoc]
            rfl
        · exact zero

/-- **Gathering a piece.**  Of a stream without failures a piece is gathered, and what
follows it is left. -/
theorem Reader.gather_piece {r : Reader} {c : Bytes} (tape : r.tape = Tape.ofBytes c)
    (quota : Option Nat) :
    ∃ r', r.gather quota = .line (c.piece quota) r' ∧
      r'.tape = Tape.ofBytes (c.drop (c.piece quota).length) := by
  have cut := r.onTape_gather quota
  rw [tape, Tape.cut_ofBytes] at cut
  cases gathered : r.gather quota with
  | failed cause r' =>
      rw [gathered] at cut
      cases cut
  | line raw r' =>
      rw [gathered] at cut
      obtain ⟨rfl, rest⟩ := Tape.Cut.line.inj cut
      exact ⟨r', rfl, rest⟩

/-! ## Streams that differ only in their deliveries -/

namespace Input

/-- The two inputs differ at most in how their streams deliver what is on their tape. -/
def Alike (i j : Input) : Prop := ∃ r : Reader, j = { i with reader := r } ∧ r.tape = i.reader.tape

/-- Bytes are accepted or refused alike. -/
theorem Alike.accept {i j : Input} (h : i.Alike j) (raw : Bytes) :
    (i.accept raw).result = (j.accept raw).result ∧
      (i.accept raw).input.Alike (j.accept raw).input := by
  obtain ⟨r, rfl, tape⟩ := h
  unfold Input.accept
  dsimp only
  cases exceeded? i.limit raw with
  | some most => exact ⟨rfl, r, rfl, tape⟩
  | none =>
      cases FirstWord.ofLine raw with
      | missing => exact ⟨rfl, r, rfl, tape⟩
      | timestamp instant => exact ⟨rfl, r, rfl, tape⟩
      | other word => exact ⟨rfl, r, rfl, tape⟩

/-- **An attempt** on inputs that are alike gives the same. -/
theorem Alike.next {i j : Input} (h : i.Alike j) :
    i.next.result = j.next.result ∧ i.next.input.Alike j.next.input := by
  obtain ⟨r, rfl, tape⟩ := h
  have same : (r.gather i.quota).onTape = (i.reader.gather i.quota).onTape := by
    rw [Reader.onTape_gather, Reader.onTape_gather, tape]
  have quota : ({ i with reader := r } : Input).quota = i.quota := rfl
  rw [Input.next, Input.next, quota]
  dsimp only
  cases gathered : i.reader.gather i.quota with
  | failed cause r₁ =>
      cases gathered' : r.gather i.quota with
      | failed cause' r₂ =>
          rw [gathered, gathered'] at same
          obtain ⟨rfl, rest⟩ := Tape.Cut.failed.inj same
          exact ⟨rfl, r₂, rfl, rest⟩
      | line raw' r₂ =>
          rw [gathered, gathered'] at same
          cases same
  | line raw r₁ =>
      cases gathered' : r.gather i.quota with
      | failed cause' r₂ =>
          rw [gathered, gathered'] at same
          cases same
      | line raw' r₂ =>
          rw [gathered, gathered'] at same
          obtain ⟨rfl, rest⟩ := Tape.Cut.line.inj same
          cases raw' with
          | nil => exact ⟨rfl, r₂, rfl, rest⟩
          | cons b raw => exact Alike.accept ⟨r₂, rfl, rest⟩ (b :: raw)

/-- The attempts on inputs that are alike give the same. -/
theorem Alike.attempts {i j : Input} (h : i.Alike j) (n : Nat) :
    (Input.attempts n i).map Reading.result = (Input.attempts n j).map Reading.result := by
  induction n generalizing i j with
  | zero => rfl
  | succ n ih =>
      obtain ⟨same, alike⟩ := h.next
      rw [Input.attempts, Input.attempts, List.map_cons, List.map_cons, same, ih alike]

/-! ## Attempts on pieces -/

/-- What an attempt makes of a piece: it reports a line over the limit exactly if the
piece is over the limit, and gives the line otherwise, or reports its first word. -/
structure Answers (path : String) (limit : Option Nat) (number : Nat) (piece : Bytes)
    (result : Except Failure (Option Line)) : Prop where
  tooLong : ∀ most, limit = some most →
    (result = .error (.lineTooLong path number (most + 1) most) ↔ most < piece.length)
  otherwise : (∀ most, limit = some most → piece.length ≤ most) →
    (∃ l, result = .ok (some l) ∧ l.raw = piece) ∨
      ∃ word, FirstWord.ofLine piece = .other word ∧
        result = .error (.notTimestamped path number (Utf8.decodeLossy word))

/-- Bytes that have been taken are answered. -/
theorem answers_accept {i : Input} {raw : Bytes}
    (within : ∀ most, i.limit = some most → raw.length ≤ most + 1) :
    Answers i.path i.limit i.lineNumber raw (i.accept raw).result := by
  unfold accept
  cases excess : exceeded? i.limit raw with
  | some most =>
      obtain ⟨limit, longer⟩ := Option.filter_eq_some_iff.mp excess
      have longer : most < raw.length := of_decide_eq_true longer
      have size : raw.length = most + 1 := Nat.le_antisymm (within most limit) longer
      refine ⟨fun most' limit' => ?_, fun short => ?_⟩
      · rw [limit, Option.some.injEq] at limit'
        subst limit'
        rw [size]
        exact ⟨fun _ => Nat.lt_succ_self most, fun _ => rfl⟩
      · exact absurd longer (Nat.not_lt_of_le (short most limit))
  | none =>
      have short := exceeded?_eq_none_iff.mp excess
      cases first : FirstWord.ofLine raw with
      | missing =>
          refine ⟨fun most limit => ⟨nofun, fun longer => ?_⟩, fun _ => Or.inl ⟨_, rfl, rfl⟩⟩
          exact absurd longer (Nat.not_lt_of_le (short most limit))
      | timestamp instant =>
          refine ⟨fun most limit => ⟨nofun, fun longer => ?_⟩, fun _ => Or.inl ⟨_, rfl, rfl⟩⟩
          exact absurd longer (Nat.not_lt_of_le (short most limit))
      | other word =>
          refine ⟨fun most limit => ⟨nofun, fun longer => ?_⟩, fun _ => Or.inr ⟨word, first, rfl⟩⟩
          exact absurd longer (Nat.not_lt_of_le (short most limit))

/-- The bytes not yet taken, told from the tape. -/
theorem rest_of_tape {i : Input} {c : Bytes} (tape : i.reader.tape = Tape.ofBytes c) :
    i.reader.rest = c := by
  rw [← Reader.bytes_tape, tape, Tape.bytes_ofBytes]

/-- **An attempt on what has bytes** takes a piece and answers it. -/
theorem next_of_piece {i : Input} {c : Bytes} (tape : i.reader.tape = Tape.ofBytes c)
    (ne : c ≠ []) :
    Answers i.path i.limit (i.lineNumber + 1) (c.piece i.quota) i.next.result ∧
      i.next.input.reader.tape = Tape.ofBytes (c.drop (c.piece i.quota).length) ∧
      i.next.input.path = i.path ∧ i.next.input.limit = i.limit ∧
      i.next.input.lineNumber = i.lineNumber + 1 := by
  obtain ⟨r, gathered, rest⟩ := Reader.gather_piece tape i.quota
  have within : ∀ most, i.limit = some most → (c.piece i.quota).length ≤ most + 1 := by
    intro most limit
    have asked : i.reader.gather (some (most + 1)) = .line (c.piece i.quota) r := by
      rw [← gathered, quota, limit]
      rfl
    exact Reader.length_le_of_gather asked
  obtain ⟨b, raw, taken⟩ := List.exists_cons_of_ne_nil (Bytes.piece_ne_nil i.quota_ne_zero ne)
  have next_eq : i.next =
      { i with reader := r, lineNumber := i.lineNumber + 1 }.accept (c.piece i.quota) := by
    rw [next, gathered, taken]
  obtain ⟨reader, number, -, path, limit⟩ :=
    accept_input { i with reader := r, lineNumber := i.lineNumber + 1 } (c.piece i.quota)
  rw [next_eq]
  refine ⟨answers_accept (i := { i with reader := r, lineNumber := i.lineNumber + 1 }) within,
    ?_, path, limit, number⟩
  rw [reader]
  exact rest

/-- An attempt on what has no bytes gives nothing and leaves nothing. -/
theorem next_of_nothing {i : Input} (tape : i.reader.tape = []) :
    i.next.result = .ok none ∧ i.next.input.reader.tape = [] ∧
      i.next.input.limit = i.limit := by
  obtain ⟨r, gathered, rest⟩ := Reader.gather_piece (c := []) tape i.quota
  rw [Bytes.piece_nil] at gathered rest
  rw [next, gathered]
  exact ⟨rfl, rest, rfl⟩

/-- **Attempt after attempt** the pieces are taken and answered, and then the input has
ended. -/
theorem attempts_of_pieces {i : Input} {c : Bytes} (tape : i.reader.tape = Tape.ofBytes c)
    (n k : Nat) {reading : Reading} (made : (attempts n i)[k]? = some reading) :
    reading.input.reader.rest = ((c.pieces i.limit).drop (k + 1)).flatten ∧
      match (c.pieces i.limit)[k]? with
      | none => reading.result = .ok none
      | some piece => Answers i.path i.limit (i.lineNumber + (k + 1)) piece reading.result := by
  induction n generalizing i c k with
  | zero => cases made
  | succ n ih =>
      rw [attempts] at made
      by_cases empty : c = []
      · subst empty
        obtain ⟨result, left, limit⟩ := next_of_nothing tape
        rw [Bytes.pieces_nil]
        cases k with
        | zero =>
            cases made
            exact ⟨rest_of_tape left, result⟩
        | succ k =>
            have later := ih (c := []) left k made
            rw [limit, Bytes.pieces_nil] at later
            exact later
      · obtain ⟨answers, left, path, limit, number⟩ := next_of_piece tape empty
        rw [Bytes.pieces_of_ne_nil i.limit empty]
        cases k with
        | zero =>
            cases made
            refine ⟨?_, answers⟩
            rw [rest_of_tape left, List.drop_one, List.tail_cons, Bytes.flatten_pieces]
            rfl
        | succ k =>
            have later := ih left k made
            rw [path, limit, number, Nat.add_assoc, Nat.add_comm 1] at later
            exact later

end Input

/-- **The attempts on a source.**  Its stream may be interrupted, and the attempts go on
after a line that is refused.  The pieces of the content, at most one byte more than the
limit each, are taken one after another, one by each attempt; an attempt reports a line
over the limit exactly if its piece is over it, and otherwise gives the piece as a line
or reports its first word.  After the last piece there is no line.  All of this does not
depend on the deliveries and the interruptions. -/
theorem attempts_pieces (s : Source) (side : Side)
    (interrupted : ∀ fault ∈ s.faults, fault.cause.isInterrupted = true) (n : Nat) :
    let pieces := s.content.pieces s.limit
    let readings := Input.attempts n (s.input side)
    pieces.flatten = s.content ∧
      (∀ piece ∈ pieces, piece ≠ [] ∧ ∀ most, s.limit = some most → piece.length ≤ most + 1) ∧
      readings.length = n ∧
      (∀ k reading, readings[k]? = some reading →
        reading.input.reader.rest = (pieces.drop (k + 1)).flatten ∧
          match pieces[k]? with
          | none => reading.result = .ok none
          | some piece => Input.Answers s.path s.limit (k + 1) piece reading.result) ∧
      ∀ chunk faults, (∀ fault ∈ faults, fault.cause.isInterrupted = true) →
        (Input.attempts n ({ s with chunk, faults }.input side)).map Reading.result =
          readings.map Reading.result := by
  intro pieces readings
  have tape : ∀ chunk faults, (∀ fault ∈ faults, fault.cause.isInterrupted = true) →
      ({ s with chunk, faults }.input side).reader.tape = Tape.ofBytes s.content :=
    fun chunk faults interrupted =>
      Reader.tape_ofContent_of_interrupted interrupted s.content chunk
  refine ⟨Bytes.flatten_pieces s.limit s.content, fun piece => Bytes.length_of_mem_pieces,
    Input.length_attempts n _, fun k reading made => ?_, fun chunk faults interrupted' => ?_⟩
  · have answered := Input.attempts_of_pieces (tape s.chunk s.faults interrupted) n k made
    have first : (s.input side).lineNumber + (k + 1) = k + 1 := Nat.zero_add (k + 1)
    rw [first] at answered
    exact answered
  · refine Input.Alike.attempts ⟨(s.input side).reader, rfl, ?_⟩ n
    exact (tape s.chunk s.faults interrupted).trans (tape chunk faults interrupted').symm

/-- The first line has as many bytes as the limit allows; of the second, which has two
more, the line end is left over and read as a blank line. -/
theorem attempts_pieces_past_long_line :
    let source : Source :=
      { path := "l.log"
        content := Ascii.encode "2024-01-01T00:00:00Z a\n2024-01-02T00:00:00Z bcd\n"
        chunk := some 3
        faults := [⟨5, .system 4⟩]
        limit := some 23 }
    let readings := Input.attempts 4 (source.input .left)
    ∃ first second third fourth, readings = [first, second, third, fourth] ∧
      (∃ l, first.result = .ok (some l) ∧ l.raw = Ascii.encode "2024-01-01T00:00:00Z a\n") ∧
      second.result = .error (.lineTooLong "l.log" 2 24 23) ∧
      (∃ l, third.result = .ok (some l) ∧ l.raw = [newline]) ∧
      fourth.result = .ok none := by
  intro source readings
  have pieces : source.content.pieces (some 23) =
      [Ascii.encode "2024-01-01T00:00:00Z a\n", Ascii.encode "2024-01-02T00:00:00Z bcd",
        [newline]] := by decide +kernel
  obtain ⟨-, -, -, answered, -⟩ := attempts_pieces source .left (by decide) 4
  have limit : source.limit = some 23 := rfl
  rw [limit, pieces] at answered
  have one := (answered 0 _ rfl).2
  have two := (answered 1 _ rfl).2
  have three := (answered 2 _ rfl).2
  refine ⟨_, _, _, _, rfl, ?_, ?_, ?_, (answered 3 _ rfl).2⟩
  · refine (one.otherwise (by decide +kernel)).resolve_right ?_
    rintro ⟨word, other, -⟩
    exact absurd other ((by decide +kernel : Line.Dated _) word)
  · exact (two.tooLong 23 rfl).mpr (by decide +kernel)
  · refine (three.otherwise (by decide +kernel)).resolve_right ?_
    rintro ⟨word, other, -⟩
    exact absurd other ((by decide +kernel : Line.Dated _) word)

end Interleave
