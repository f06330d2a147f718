/-
# What an input gives

Read on its own, an input gives line after line until it ends or fails.  Which lines
these are can be told from the content: they are its lines in order, numbered from 1,
each with the closest timestamp up to it as its key.  An input that fails gives only
the first of them.

* `Line.ofContent` : the lines of a content;
* `Input.feed` : what an input gives;
* `results_readings` : the feed is what the attempts on the input give, one by one;
* `lines_feed` : the lines that are given are the first lines of the content;
* `failure?_feed_eq_none` : what it takes for an input not to fail.
-/
import Interleave.Merge.Input
import Interleave.Proofs.Stream.Tape

namespace Interleave

/-! ## The lines of a content -/

/-- The key of a line: its own timestamp, or where it is blank the key before it. -/
def Key.after (before : Key) (raw : Bytes) : Key :=
  match FirstWord.ofLine raw with
  | .timestamp instant => some instant
  | _ => before

namespace Line

/-- The line with these bytes and this number, after a line with key `before`. -/
def following (side : Side) (number : Nat) (before : Key) (raw : Bytes) : Line :=
  ⟨side, number, before.after raw, raw, (firstWord raw).isNone⟩

/-- Lines numbered one after another, each with its key. -/
def numbered (side : Side) : Nat → Key → List Bytes → List Line
  | _, _, [] => []
  | number, before, raw :: raws =>
      following side number before raw :: numbered side (number + 1) (before.after raw) raws

/-- The lines of a content. -/
def ofContent (side : Side) (content : Bytes) : List Line :=
  numbered side 1 none content.lines

/-- Numbering the lines leaves their bytes alone. -/
theorem map_raw_numbered (side : Side) (number : Nat) (before : Key) (raws : List Bytes) :
    (numbered side number before raws).map Line.raw = raws := by
  induction raws generalizing number before with
  | nil => rfl
  | cons raw raws ih => rw [numbered, List.map_cons, ih, following]

/-- Numbering the first lines only. -/
theorem numbered_take (side : Side) (number : Nat) (before : Key) (raws : List Bytes)
    (n : Nat) :
    numbered side number before (raws.take n) = (numbered side number before raws).take n := by
  induction raws generalizing number before n with
  | nil => rw [List.take_nil, numbered, List.take_nil]
  | cons raw raws ih =>
      cases n with
      | zero => rfl
      | succ n => rw [List.take_succ_cons, numbered, numbered, List.take_succ_cons, ih]

/-- Lines are numbered for one side. -/
theorem side_of_mem_numbered {side : Side} {number : Nat} {before : Key} {raws : List Bytes}
    {l : Line} (h : l ∈ numbered side number before raws) : l.side = side := by
  induction raws generalizing number before with
  | nil => cases h
  | cons raw raws ih =>
      rcases List.mem_cons.mp h with rfl | h
      · rfl
      · exact ih h

end Line

/-! ## Feeds -/

/-- What an input gives, line after line, up to its end or its first failure. -/
inductive Feed where
  | done
  | broken (failure : Failure)
  | line (l : Line) (rest : Feed)

namespace Feed

/-- The lines that are given. -/
def lines : Feed → List Line
  | .done => []
  | .broken _ => []
  | .line l rest => l :: rest.lines

/-- The failure at the end, if there is one. -/
def failure? : Feed → Option Failure
  | .done => none
  | .broken failure => some failure
  | .line _ rest => rest.failure?

/-- The results of the attempts, one by one. -/
def results : Feed → List (Except Failure (Option Line))
  | .done => [.ok none]
  | .broken failure => [.error failure]
  | .line l rest => .ok (some l) :: rest.results

/-- The feed with an end in place of its failure. -/
def mend : Feed → Feed
  | .done => .done
  | .broken _ => .done
  | .line l rest => .line l rest.mend

@[simp] theorem lines_mend (f : Feed) : f.mend.lines = f.lines := by
  induction f with
  | done => rfl
  | broken failure => rfl
  | line l rest ih => rw [mend, lines, lines, ih]

@[simp] theorem failure?_mend (f : Feed) : f.mend.failure? = none := by
  induction f with
  | done => rfl
  | broken failure => rfl
  | line l rest ih => rw [mend, failure?, ih]

/-- A feed is its lines and its failure. -/
theorem ext {f g : Feed} (same : f.lines = g.lines) (end_same : f.failure? = g.failure?) :
    f = g := by
  induction f generalizing g with
  | done =>
      cases g with
      | done => rfl
      | broken failure => cases end_same
      | line l rest => cases same
  | broken failure =>
      cases g with
      | done => cases end_same
      | broken failure' =>
          cases end_same
          rfl
      | line l rest => cases same
  | line l rest ih =>
      cases g with
      | done => cases same
      | broken failure => cases same
      | line l' rest' =>
          rw [lines, lines, List.cons.injEq] at same
          rw [same.1, ih same.2 end_same]

/-- The first feed gives what the second gives, unless it fails before. -/
inductive Shortens : Feed → Feed → Prop where
  | refl (f : Feed) : Shortens f f
  | broken (failure : Failure) (g : Feed) : Shortens (.broken failure) g
  | line (l : Line) {f g : Feed} : Shortens f g → Shortens (.line l f) (.line l g)

theorem shortens_mend (f : Feed) : f.Shortens f.mend := by
  induction f with
  | done => exact .refl .done
  | broken failure => exact .broken failure .done
  | line l rest ih => exact .line l ih

/-- A feed that has not failed has ended where the other has. -/
theorem Shortens.eq_done {g : Feed} (h : Shortens .done g) : g = .done := by
  cases h
  rfl

/-- A line that is given is given by both. -/
theorem Shortens.exists_line {l : Line} {f g : Feed} (h : Shortens (.line l f) g) :
    ∃ rest, g = .line l rest ∧ f.Shortens rest := by
  cases h with
  | refl => exact ⟨f, rfl, .refl f⟩
  | line _ rest => exact ⟨_, rfl, rest⟩

/-- The attempts give the lines and then the end or the failure. -/
theorem results_eq (f : Feed) :
    f.results = f.lines.map (fun l => .ok (some l)) ++
      [match f.failure? with
        | none => .ok none
        | some failure => .error failure] := by
  induction f with
  | done => rfl
  | broken failure => rfl
  | line l rest ih => rw [results, ih, lines, List.map_cons, List.cons_append, failure?]

end Feed

/-! ## One attempt -/

/-- The input a failure is about, and the line at which it is met. -/
def Failure.place? : Failure → Option (String × Nat)
  | .cannotRead path line _ => some (path, line)
  | .lineTooLong path line _ _ => some (path, line)
  | .notTimestamped path line _ => some (path, line)
  | .cannotOpen _ _ => none
  | .cannotWrite _ => none

/-- The bytes are blank or begin with a timestamp. -/
def Line.Dated (raw : Bytes) : Prop := ∀ word, FirstWord.ofLine raw ≠ .other word

instance Line.decidableDated (raw : Bytes) : Decidable (Line.Dated raw) :=
  match given : FirstWord.ofLine raw with
  | .missing => .isTrue fun word other => by rw [given] at other; cases other
  | .timestamp _ => .isTrue fun word other => by rw [given] at other; cases other
  | .other word => .isFalse fun dated => dated word given

/-- The bytes make a line under the limit: they keep to it, and they are blank or
begin with a timestamp. -/
def Line.Admitted (limit : Option Nat) (raw : Bytes) : Prop :=
  (∀ most, limit = some most → raw.length ≤ most) ∧ Line.Dated raw

namespace Input

/-- What an attempt that gives a line has done. -/
structure Took (i : Input) (l : Line) (after : Input) : Prop where
  /-- The bytes of the line have been gathered. -/
  gathered : i.reader.gather i.quota = .line l.raw after.reader
  ne_nil : l.raw ≠ []
  admitted : Line.Admitted i.limit l.raw
  line_eq : l = .following i.side (i.lineNumber + 1) i.lastTimestamp l.raw
  lineNumber : after.lineNumber = i.lineNumber + 1
  lastTimestamp : after.lastTimestamp = l.key
  side : after.side = i.side
  path : after.path = i.path
  limit : after.limit = i.limit

/-- The limit is exceeded by the lines that are longer. -/
theorem exceeded?_eq_none_iff {limit : Option Nat} {raw : Bytes} :
    exceeded? limit raw = none ↔ ∀ most, limit = some most → raw.length ≤ most := by
  cases limit with
  | none => simp [exceeded?]
  | some most => simp [exceeded?]

/-- The lines without a first word are those in which none is found. -/
theorem isNone_firstWord (raw : Bytes) :
    (firstWord raw).isNone = true ↔ FirstWord.ofLine raw = .missing := by
  unfold FirstWord.ofLine
  cases firstWord raw with
  | none => simp
  | some word => cases given : FirstWord.instant? word <;> simp [given]

/-- Bytes are accepted as a line, or they are refused because they are none. -/
theorem accept_cases (i : Input) (raw : Bytes) :
    (Line.Admitted i.limit raw ∧
      (i.accept raw).result = .ok (some (.following i.side i.lineNumber i.lastTimestamp raw)) ∧
      (i.accept raw).input.lastTimestamp = i.lastTimestamp.after raw) ∨
    (¬ Line.Admitted i.limit raw ∧
      ∃ failure, (i.accept raw).result = .error failure ∧
        failure.place? = some (i.path, i.lineNumber)) := by
  unfold accept
  cases excess : exceeded? i.limit raw with
  | some most =>
      refine Or.inr ⟨?_, _, rfl, rfl⟩
      rintro ⟨short, _⟩
      rw [exceeded?_eq_none_iff.mpr short] at excess
      cases excess
  | none =>
      have short := exceeded?_eq_none_iff.mp excess
      cases given : FirstWord.ofLine raw with
      | missing =>
          have word := (isNone_firstWord raw).mpr given
          refine Or.inl ⟨⟨short, by rw [Line.Dated, given]; exact nofun⟩, ?_, ?_⟩
          · rw [Line.following, Key.after, given, word]
            rfl
          · rw [Key.after, given]
            rfl
      | timestamp instant =>
          have word : (firstWord raw).isNone = false := by
            rw [Bool.eq_false_iff, ne_eq, isNone_firstWord, given]
            exact nofun
          refine Or.inl ⟨⟨short, by rw [Line.Dated, given]; exact nofun⟩, ?_, ?_⟩
          · rw [Line.following, Key.after, given, word]
            rfl
          · rw [Key.after, given]
            rfl
      | other word =>
          refine Or.inr ⟨?_, _, rfl, rfl⟩
          rintro ⟨_, dated⟩
          exact dated word given

/-- Accepting a line leaves the rest of an input alone. -/
theorem accept_input (i : Input) (raw : Bytes) :
    (i.accept raw).input.reader = i.reader ∧ (i.accept raw).input.lineNumber = i.lineNumber ∧
      (i.accept raw).input.side = i.side ∧ (i.accept raw).input.path = i.path ∧
      (i.accept raw).input.limit = i.limit := by
  unfold accept
  split
  · exact ⟨rfl, rfl, rfl, rfl, rfl⟩
  · split <;> exact ⟨rfl, rfl, rfl, rfl, rfl⟩

/-- One more than a limit is not zero. -/
theorem map_succ_ne_zero (limit : Option Nat) : limit.map (· + 1) ≠ some 0 := by
  intro zero
  obtain ⟨most, -, impossible⟩ := Option.map_eq_some_iff.mp zero
  cases impossible

/-- More than no bytes are asked for. -/
theorem quota_ne_zero (i : Input) : i.quota ≠ some 0 := map_succ_ne_zero i.limit

/-- Bytes that keep to the limit are a whole line of what there was. -/
theorem lines_rest {i : Input} {raw : Bytes} {r : Reader}
    (gathered : i.reader.gather i.quota = .line raw r) (ne : raw ≠ [])
    (short : ∀ most, i.limit = some most → raw.length ≤ most) :
    i.reader.rest.lines = raw :: r.rest.lines := by
  have whole : raw ++ r.rest = i.reader.rest := Reader.rest_gather gathered
  rw [← whole]
  obtain ⟨-, ended | ⟨clean, done | used⟩⟩ := Reader.gather_line gathered
  · exact Bytes.lines_append_of_isEnded ended r.rest
  · have empty : r.rest = [] := by
      rw [← Reader.bytes_tape, done]
      rfl
    rw [empty, List.append_nil, Bytes.lines_of_not_mem clean ne]
    rfl
  · rw [quota, Option.map_eq_some_iff] at used
    obtain ⟨most, given, excess⟩ := used
    have := short most given
    omega

/-- Bytes that are no line show that the content has a line that is none. -/
theorem exists_not_admitted {i : Input} {raw : Bytes} {r : Reader}
    (gathered : i.reader.gather i.quota = .line raw r) (ne : raw ≠ [])
    (refused : ¬ Line.Admitted i.limit raw) :
    ∃ line ∈ i.reader.rest.lines, ¬ Line.Admitted i.limit line := by
  by_cases short : ∀ most, i.limit = some most → raw.length ≤ most
  · refine ⟨raw, ?_, refused⟩
    rw [lines_rest gathered ne short]
    exact List.mem_cons_self
  · -- Too long, and what is cut off there may go on in the content.
    obtain ⟨more, others, first⟩ := Reader.lines_rest_of_gather gathered ne
    refine ⟨raw ++ more, ?_, ?_⟩
    · rw [first]
      exact List.mem_cons_self
    · rintro ⟨fits, _⟩
      refine short fun most given => ?_
      have := fits most given
      rw [List.length_append] at this
      omega

/-- **One attempt.**  It gives a line, or the input has ended, or it fails, and then
the stream fails or the content has a line that is none. -/
theorem next_cases (i : Input) :
    (∃ l, i.next.result = .ok (some l) ∧ i.Took l i.next.input) ∨
    (i.next.result = .ok none ∧ i.reader.tape = []) ∨
    (∃ failure, i.next.result = .error failure ∧
      failure.place? = some (i.path, i.lineNumber + 1) ∧
      ((∃ cause, .failure cause ∈ i.reader.tape) ∨
        ∃ line ∈ i.reader.rest.lines, ¬ Line.Admitted i.limit line)) := by
  unfold next
  split
  · next cause reader gathered =>
      exact Or.inr (Or.inr ⟨_, rfl, rfl, Or.inl ⟨cause, Reader.gather_failed gathered⟩⟩)
  · next reader gathered =>
      refine Or.inr (Or.inl ⟨rfl, ?_⟩)
      obtain ⟨front, ended | ⟨-, done | used⟩⟩ := Reader.gather_line gathered
      · obtain ⟨body, -, empty⟩ := ended
        cases body <;> cases empty
      · rw [front, done]
        rfl
      · exact absurd used i.quota_ne_zero
  · next b raw reader gathered =>
      have kept := accept_input { i with reader, lineNumber := i.lineNumber + 1 } (b :: raw)
      rcases accept_cases { i with reader, lineNumber := i.lineNumber + 1 } (b :: raw) with
        ⟨admitted, given, key⟩ | ⟨refused, failure, given, place⟩
      · refine Or.inl ⟨_, given, ?_, List.cons_ne_nil b raw, admitted, rfl, kept.2.1, key,
          kept.2.2.1, kept.2.2.2.1, kept.2.2.2.2⟩
        rw [kept.1]
        exact gathered
      · exact Or.inr (Or.inr ⟨failure, given, place,
          Or.inr (exists_not_admitted gathered (List.cons_ne_nil b raw) refused)⟩)

/-- At its end an input has nothing left to read, and is otherwise as before. -/
theorem next_of_end {i : Input} (h : i.next.result = .ok none) :
    i.next.input = { i with reader := ⟨[], []⟩ } := by
  unfold next at h ⊢
  split at h
  · cases h
  · next reader gathered => rw [Reader.gather_nil gathered i.quota_ne_zero]
  · next b raw reader gathered =>
      rcases accept_cases { i with reader, lineNumber := i.lineNumber + 1 } (b :: raw) with
        ⟨-, given, -⟩ | ⟨-, failure, given, -⟩
      · rw [given] at h
        cases h
      · rw [given] at h
        cases h

/-- A line that is given comes off the tape. -/
theorem Took.tape {i after : Input} {l : Line} (h : i.Took l after) :
    i.reader.tape = Tape.ofBytes l.raw ++ after.reader.tape :=
  (Reader.gather_line h.gathered).1

/-- A line that is given is the first of the content. -/
theorem Took.lines {i after : Input} {l : Line} (h : i.Took l after) :
    i.reader.rest.lines = l.raw :: after.reader.rest.lines :=
  lines_rest h.gathered h.ne_nil h.admitted.1

/-! ## All attempts -/

/-- What an input gives. -/
def feed (i : Input) : Feed :=
  match _given : i.next.result with
  | .ok (some l) => .line l i.next.input.feed
  | .ok none => .done
  | .error failure => .broken failure
termination_by i.remaining
decreasing_by exact remaining_next_lt (by assumption)

/-- The feed after a line has been given. -/
theorem feed_of_line {i : Input} {l : Line} (h : i.next.result = .ok (some l)) :
    i.feed = .line l i.next.input.feed := by
  rw [feed]
  split <;> simp_all

/-- The feed of an input that has ended. -/
theorem feed_of_end {i : Input} (h : i.next.result = .ok none) : i.feed = .done := by
  rw [feed]
  split <;> simp_all

/-- The feed of an input that fails. -/
theorem feed_of_error {i : Input} {failure : Failure} (h : i.next.result = .error failure) :
    i.feed = .broken failure := by
  rw [feed]
  split <;> simp_all

/-- What holds of an input that has ended or fails, and of an input that gives a line
if it holds after that line, holds of every input. -/
theorem feed_induction {motive : Input → Prop}
    (line : ∀ i l, i.next.result = .ok (some l) → i.Took l i.next.input →
      motive i.next.input → motive i)
    (done : ∀ i, i.next.result = .ok none → i.reader.tape = [] → motive i)
    (broken : ∀ i failure, i.next.result = .error failure →
      failure.place? = some (i.path, i.lineNumber + 1) →
      ((∃ cause, .failure cause ∈ i.reader.tape) ∨
        ∃ line ∈ i.reader.rest.lines, ¬ Line.Admitted i.limit line) → motive i)
    (i : Input) : motive i := by
  -- Every line takes bytes, so fewer remain after it.
  induction size : i.remaining using Nat.strongRecOn generalizing i with
  | _ n ih =>
      rcases i.next_cases with ⟨l, given, took⟩ | ⟨given, empty⟩ | ⟨failure, given, place, why⟩
      · exact line i l given took (ih _ (size ▸ remaining_next_lt given) _ rfl)
      · exact done i given empty
      · exact broken i failure given place why

/-- **The feed is what the attempts give.** -/
theorem results_readings (i : Input) : i.readings.map Reading.result = i.feed.results := by
  induction i using feed_induction with
  | line i l given took ih =>
      rw [feed_of_line given, Feed.results, ← ih, readings]
      split
      · rw [List.map_cons, given]
      · next none => exact absurd given (none l)
  | done i given empty =>
      rw [feed_of_end given, Feed.results, readings]
      split <;> simp_all
  | broken i failure given place why =>
      rw [feed_of_error given, Feed.results, readings]
      split <;> simp_all

/-- **The lines that are given.**  They are the first lines of the content, and all of
them where the input does not fail. -/
theorem lines_feed (i : Input) :
    ∃ others, Line.numbered i.side (i.lineNumber + 1) i.lastTimestamp i.reader.rest.lines =
        i.feed.lines ++ others ∧ (i.feed.failure? = none → others = []) := by
  induction i using feed_induction with
  | line i l given took ih =>
      -- The numbering goes on with the number and the key of this line.
      obtain ⟨others, rest, all⟩ := ih
      refine ⟨others, ?_, ?_⟩
      · rw [feed_of_line given, Feed.lines, List.cons_append, ← rest, took.lines,
          Line.numbered, ← took.line_eq, took.side, took.lineNumber, took.lastTimestamp]
        congr 2
        rw [took.line_eq]
        rfl
      · intro whole
        rw [feed_of_line given] at whole
        exact all whole
  | done i given empty =>
      refine ⟨[], ?_, fun _ => rfl⟩
      have nothing : i.reader.rest = [] := by
        rw [← Reader.bytes_tape, empty]
        rfl
      rw [feed_of_end given, nothing]
      rfl
  | broken i failure given place why =>
      refine ⟨_, by rw [feed_of_error given, Feed.lines, List.nil_append], ?_⟩
      intro whole
      rw [feed_of_error given] at whole
      cases whole

/-- A failure is met at the line after those that are given. -/
theorem place?_of_failure?_feed {i : Input} {failure : Failure}
    (h : i.feed.failure? = some failure) :
    failure.place? = some (i.path, i.lineNumber + i.feed.lines.length + 1) := by
  induction i using feed_induction with
  | line i l given took ih =>
      rw [feed_of_line given] at h ⊢
      rw [ih h, took.path, took.lineNumber, Feed.lines, List.length_cons]
      congr 2
      omega
  | done i given empty =>
      rw [feed_of_end given] at h
      cases h
  | broken i failure' given place why =>
      rw [feed_of_error given] at h ⊢
      cases h
      exact place

/-- **What it takes for an input not to fail.**  The stream has no failure and each
line of the content is one under the limit. -/
theorem failure?_feed_eq_none {i : Input} (steady : ∀ cause, .failure cause ∉ i.reader.tape)
    (admitted : ∀ raw ∈ i.reader.rest.lines, Line.Admitted i.limit raw) :
    i.feed.failure? = none := by
  induction i using feed_induction with
  | line i l given took ih =>
      rw [feed_of_line given, Feed.failure?]
      refine ih ?_ ?_
      · intro cause member
        refine steady cause ?_
        rw [took.tape]
        exact List.mem_append_right _ member
      · intro raw member
        rw [took.limit]
        refine admitted raw ?_
        rw [took.lines]
        exact List.mem_cons_of_mem _ member
  | done i given empty =>
      rw [feed_of_end given]
      rfl
  | broken i failure given place why =>
      rcases why with ⟨cause, member⟩ | ⟨raw, member, refused⟩
      · exact absurd member (steady cause)
      · exact absurd (admitted raw member) refused

/-- The lines that are given come off the tape one after another. -/
theorem tape_feed (i : Input) :
    ∃ t, i.reader.tape = Tape.ofBytes (i.feed.lines.map Line.raw).flatten ++ t := by
  induction i using feed_induction with
  | line i l given took ih =>
      obtain ⟨t, rest⟩ := ih
      refine ⟨t, ?_⟩
      rw [took.tape, rest, feed_of_line given, Feed.lines, List.map_cons, List.flatten_cons,
        Tape.ofBytes_append, List.append_assoc]
  | done i given empty =>
      rw [feed_of_end given]
      exact ⟨i.reader.tape, rfl⟩
  | broken i failure given place why =>
      rw [feed_of_error given]
      exact ⟨i.reader.tape, rfl⟩

/-- The lines that are given are lines under the limit. -/
theorem admitted_of_mem_feed {i : Input} {l : Line} (h : l ∈ i.feed.lines) :
    Line.Admitted i.limit l.raw := by
  induction i using feed_induction with
  | line i l' given took ih =>
      rw [feed_of_line given, Feed.lines, List.mem_cons] at h
      rcases h with rfl | h
      · exact took.admitted
      · rw [← took.limit]
        exact ih h
  | done i given empty =>
      rw [feed_of_end given] at h
      cases h
  | broken i failure given place why =>
      rw [feed_of_error given] at h
      cases h

end Input

end Interleave
