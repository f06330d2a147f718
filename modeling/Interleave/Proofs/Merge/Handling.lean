/-
# Working by hand

At the bench lines are taken, lifted, put back and written one by one, in any order.
Whatever is done, no line is written twice and none before an earlier one of its side.
A line may get lost, but only where one is taken while another is in stock, or lifted
into a hand that holds one.

* `Stock` : the lines of a side that are held or wait;
* `Stock.Step`, `step_apply` : what a move does with them;
* `Bench.acts` : what moves do, as a merge would record it;
* `lines_after` : what is written and in stock is what has been taken, or some of it;
* `lines_after_of_sparing` : all of it, where no line gets lost;
* `handled_lines` : what becomes of the lines of a source.
-/
import Interleave.Merge.Bench
import Interleave.Proofs.Log.Attempts
import Interleave.Proofs.Log.Source
import Interleave.Proofs.Merge.History

open scoped List

namespace Interleave

/-! ## What is in stock -/

/-- The lines of a side that have been taken and not been written. -/
structure Stock where
  /-- The line in hand. -/
  hand : Option Line
  /-- The line that waits. -/
  slot : Option Line
  deriving DecidableEq, Repr

namespace Stock

/-- The lines in stock, in the order in which they have been taken. -/
def lines (s : Stock) : List Line := s.hand.toList ++ s.slot.toList

/-- What a move does that does some acts, seen from one side. -/
inductive Step (side : Side) : Move → List Act → Stock → Stock → Prop where
  /-- The move is none of the side, or does nothing. -/
  | idle (move : Move) {acts : List Act} (stock : Stock) :
      Act.handed side acts = [] → Act.written side acts = [] → Step side move acts stock stock
  /-- A line is taken, or the end of the input is met.  What has waited is dropped. -/
  | took (line hand slot : Option Line) :
      Step side (.fetch side) [.read side (.ok line)] ⟨hand, slot⟩ ⟨hand, line⟩
  /-- The line that waits is lifted, if there is one.  What was held is dropped. -/
  | lifted (hand slot : Option Line) : Step side (.lift side) [] ⟨hand, slot⟩ ⟨slot, none⟩
  /-- The line in hand is put back.  What has waited is dropped. -/
  | putBack (l : Line) (slot : Option Line) :
      Step side (.putBack side) [] ⟨some l, slot⟩ ⟨none, some l⟩
  | wrote (l : Line) (slot : Option Line) :
      Step side (.write side) [.wrote side l] ⟨some l, slot⟩ ⟨none, slot⟩

variable {side : Side} {move : Move} {acts : List Act} {s s' : Stock}

/-- **One move.**  What it writes and what it leaves in stock has been in stock or is
taken, in that order. -/
theorem Step.lines (step : Step side move acts s s') :
    Act.written side acts ++ s'.lines <+ s.lines ++ Act.handed side acts := by
  cases step with
  | idle _ _ handed written => simp [handed, written]
  | took line hand slot => simp [Stock.lines]
  | lifted hand slot => simp [Stock.lines]
  | putBack l slot => simp [Stock.lines]
  | wrote l slot => simp [Stock.lines]

/-- **One move that spares the stock.**  Nothing is lost where lines are taken only when
there is none in stock, and lifted only into an empty hand. -/
theorem Step.lines_of_sparing (step : Step side move acts s s') (single : s.lines.length ≤ 1)
    (takes : move = .fetch side → s.lines = []) (lifts : move = .lift side → s.hand = none) :
    Act.written side acts ++ s'.lines = s.lines ++ Act.handed side acts ∧
      s'.lines.length ≤ 1 := by
  cases step with
  | idle _ _ handed written =>
      rw [handed, written, List.append_nil, List.nil_append]
      exact ⟨rfl, single⟩
  | took line hand slot =>
      obtain ⟨rfl, rfl⟩ : hand = none ∧ slot = none := by
        simpa [Stock.lines] using takes rfl
      cases line <;> simp [Stock.lines]
  | lifted hand slot =>
      obtain rfl : hand = none := lifts rfl
      cases slot <;> simp [Stock.lines]
  | putBack l slot =>
      -- The held line is the only one in stock, so none has waited.
      cases slot with
      | none => simp [Stock.lines]
      | some l' => simp [Stock.lines] at single
  | wrote l slot =>
      cases slot with
      | none => simp [Stock.lines]
      | some l' => simp [Stock.lines] at single

end Stock

namespace Bench

variable {σ : Type}

/-- A bench at which nothing has been done. -/
def ofSources (sources : Both Source) (sink : σ) : Bench σ :=
  { inputs := Source.inputs sources, sink }

/-- The lines of a side that are held or wait. -/
def stock (b : Bench σ) (side : Side) : Stock := ⟨b.hands.get side, (b.slots.get side).line⟩

/-! ## What a move does -/

/-- An attempt to take a line leaves what it gives in the slot. -/
theorem fetch_snd (b : Bench σ) (side : Side) :
    (b.fetch side).2 = { b with
      inputs := b.inputs.set side (b.inputs.get side).next.input
      slots := b.slots.set side
        ((b.slots.get side).receive (b.inputs.get side).next.result) } := by
  rw [fetch]
  cases (b.inputs.get side).next.result <;> rfl

/-- Taking a line, seen from one side. -/
theorem step_fetch (b : Bench σ) (s side : Side) :
    Stock.Step side (.fetch s) [.read s (b.inputs.get s).next.result] (b.stock side)
      ((b.fetch s).2.stock side) := by
  rw [fetch_snd]
  by_cases own : s = side
  · subst own
    cases (b.inputs.get s).next.result with
    | error failure =>
        have idle : Stock.Step s (.fetch s) [.read s (.error failure)] (b.stock s) (b.stock s) :=
          .idle _ _ rfl rfl
        simpa [stock, Slot.receive] using idle
    | ok line =>
        have took : Stock.Step s (.fetch s) [.read s (.ok line)] (b.stock s)
          ⟨(b.stock s).hand, line⟩ := .took line _ _
        simpa [stock, Slot.receive] using took
  · have same : Stock.Step side (.fetch s) [.read s (b.inputs.get s).next.result]
        (b.stock side) (b.stock side) := .idle _ _ (Act.handed_read_ne own _) rfl
    simpa [stock, Both.get_set_ne _ _ own] using same

/-- Lifting a line, seen from one side. -/
theorem step_lift (b : Bench σ) (s side : Side) :
    Stock.Step side (.lift s) [] (b.stock side) ((b.lift s).2.stock side) := by
  by_cases own : s = side
  · subst own
    have lifted : Stock.Step s (.lift s) [] (b.stock s) ⟨(b.stock s).slot, none⟩ := .lifted _ _
    simpa [lift, stock, holding, Slot.lift] using lifted
  · have same : Stock.Step side (.lift s) [] (b.stock side) (b.stock side) := .idle _ _ rfl rfl
    simpa [lift, stock, holding, Both.get_set_ne _ _ own] using same

/-- Putting a line back, seen from one side. -/
theorem step_putBack (b : Bench σ) (s side : Side) :
    Stock.Step side (.putBack s) [] (b.stock side) ((b.putBack s).2.stock side) := by
  rw [putBack]
  cases held : b.hands.get s with
  | none => exact .idle _ _ rfl rfl
  | some l =>
      by_cases own : s = side
      · subst own
        have put : Stock.Step s (.putBack s) [] ⟨some l, (b.slots.get s).line⟩ ⟨none, some l⟩ :=
          .putBack l _
        simpa [stock, holding, Slot.putBack, held] using put
      · have same : Stock.Step side (.putBack s) [] (b.stock side) (b.stock side) :=
          .idle _ _ rfl rfl
        simpa [stock, holding, Both.get_set_ne _ _ own] using same

variable [ByteSink σ]

/-- What a move does with an input or with the sink. -/
def act? (b : Bench σ) : Move → Option Act
  | .fetch side => some (.read side (b.inputs.get side).next.result)
  | .write side =>
      match (b.write side).1 with
      | .done => (b.hands.get side).map (.wrote side)
      | _ => none
  | _ => none

/-- Writing a line, seen from one side. -/
theorem step_write (b : Bench σ) (s side : Side) :
    Stock.Step side (.write s) (b.act? (.write s)).toList (b.stock side)
      ((b.write s).2.stock side) := by
  rw [act?, write]
  cases held : b.hands.get s with
  | none => exact .idle _ _ rfl rfl
  | some l =>
      dsimp only
      cases ByteSink.writeEach b.sink l.parts with
      | mk result sink =>
          cases result with
          | error cause => exact .idle _ _ rfl rfl
          | ok _ =>
              by_cases own : s = side
              · subst own
                have wrote : Stock.Step s (.write s) [.wrote s l] ⟨some l, (b.slots.get s).line⟩
                  ⟨none, (b.slots.get s).line⟩ := .wrote l _
                simpa [stock, holding, held] using wrote
              · have same : Stock.Step side (.write s) [.wrote s l] (b.stock side) (b.stock side) :=
                  .idle _ _ rfl (Act.written_wrote_ne own l)
                simpa [stock, holding, Both.get_set_ne _ _ own] using same

/-- **A move, seen from one side.** -/
theorem step_apply (b : Bench σ) (move : Move) (side : Side) :
    Stock.Step side move (b.act? move).toList (b.stock side) ((b.apply move).2.stock side) := by
  cases move with
  | fetch s => exact b.step_fetch s side
  | lift s => exact b.step_lift s side
  | putBack s => exact b.step_putBack s side
  | write s => exact b.step_write s side
  | choose => exact .idle _ _ rfl rfl
  | look => exact .idle _ _ rfl rfl

/-! ## Many moves -/

/-- What moves do, in order. -/
def acts (b : Bench σ) : List Move → List Act
  | [] => []
  | move :: moves => (b.act? move).toList ++ (b.apply move).2.acts moves

/-- The bench after moves. -/
def after (b : Bench σ) (moves : List Move) : Bench σ := (b.applyAll moves).2

@[simp] theorem after_nil (b : Bench σ) : b.after [] = b := rfl

theorem after_cons (b : Bench σ) (move : Move) (moves : List Move) :
    b.after (move :: moves) = (b.apply move).2.after moves := rfl

/-- **Whatever the moves are**, what they write and leave in stock has been in stock or is
taken, in that order. -/
theorem lines_after (b : Bench σ) (moves : List Move) (side : Side) :
    Act.written side (b.acts moves) ++ ((b.after moves).stock side).lines <+
      (b.stock side).lines ++ Act.handed side (b.acts moves) := by
  induction moves generalizing b with
  | nil => simp [acts]
  | cons move moves ih =>
      have first := (b.step_apply move side).lines
      have rest := ih (b.apply move).2
      rw [acts, Act.written_append, Act.handed_append, after_cons, List.append_assoc]
      calc
        _ <+ Act.written side (b.act? move).toList ++ (((b.apply move).2.stock side).lines ++
            Act.handed side ((b.apply move).2.acts moves)) := rest.append_left _
        _ = Act.written side (b.act? move).toList ++ ((b.apply move).2.stock side).lines ++
            Act.handed side ((b.apply move).2.acts moves) := (List.append_assoc ..).symm
        _ <+ (b.stock side).lines ++ Act.handed side (b.act? move).toList ++
            Act.handed side ((b.apply move).2.acts moves) := first.append_right _
        _ = _ := List.append_assoc ..

/-- Something is so at each of the moves. -/
def Throughout (P : Bench σ → Move → Prop) (b : Bench σ) : List Move → Prop
  | [] => True
  | move :: moves => P b move ∧ Throughout P (b.apply move).2 moves

/-- A line of the side is taken only where none is in stock. -/
def TakesIntoEmpty (side : Side) (b : Bench σ) (move : Move) : Prop :=
  move = .fetch side → (b.stock side).lines = []

/-- A line of the side is lifted only into an empty hand. -/
def LiftsIntoEmpty (side : Side) (b : Bench σ) (move : Move) : Prop :=
  move = .lift side → (b.stock side).hand = none

/-- A line of the side is put back only where none waits. -/
def PutsBackIntoEmpty (side : Side) (b : Bench σ) (move : Move) : Prop :=
  move = .putBack side → (b.stock side).slot = none

/-- **No line is lost** where lines are taken only when there is none in stock, and lifted
only into an empty hand. -/
theorem lines_after_of_sparing {b : Bench σ} {moves : List Move} {side : Side}
    (single : (b.stock side).lines.length ≤ 1)
    (takes : b.Throughout (TakesIntoEmpty side) moves)
    (lifts : b.Throughout (LiftsIntoEmpty side) moves) :
    Act.written side (b.acts moves) ++ ((b.after moves).stock side).lines =
        (b.stock side).lines ++ Act.handed side (b.acts moves) ∧
      ((b.after moves).stock side).lines.length ≤ 1 := by
  induction moves generalizing b with
  | nil => simpa [acts] using single
  | cons move moves ih =>
      obtain ⟨first, single⟩ :=
        (b.step_apply move side).lines_of_sparing single takes.1 lifts.1
      obtain ⟨rest, last⟩ := ih single takes.2 lifts.2
      refine ⟨?_, last⟩
      rw [acts, Act.written_append, Act.handed_append, after_cons, List.append_assoc, rest,
        ← List.append_assoc, first, List.append_assoc]

/-! ## What is taken -/

/-- Only taking a line of a side changes its input. -/
theorem inputs_apply {move : Move} {side : Side} (h : move ≠ .fetch side) (b : Bench σ) :
    (b.apply move).2.inputs.get side = b.inputs.get side ∧
      Act.handed side (b.act? move).toList = [] := by
  cases move with
  | fetch s =>
      have own : s ≠ side := fun same => h (congrArg Move.fetch same)
      rw [apply, fetch_snd]
      exact ⟨Both.get_set_ne _ _ own, Act.handed_read_ne own _⟩
  | lift s => exact ⟨rfl, rfl⟩
  | putBack s =>
      refine ⟨?_, rfl⟩
      rw [apply, putBack]
      cases b.hands.get s <;> rfl
  | write s =>
      rw [apply, act?, write]
      cases b.hands.get s with
      | none => exact ⟨rfl, rfl⟩
      | some l =>
          dsimp only
          cases ByteSink.writeEach b.sink l.parts with
          | mk result sink => cases result <;> exact ⟨rfl, rfl⟩
  | choose => exact ⟨rfl, rfl⟩
  | look => exact ⟨rfl, rfl⟩

end Bench

/-! ## What is taken from an input -/

namespace Bench

variable {σ : Type} [ByteSink σ]

/-- **What is taken** of a side is what its input gives in as many attempts. -/
theorem handed_acts (b : Bench σ) (moves : List Move) (side : Side) :
    Act.handed side (b.acts moves) = (b.inputs.get side).yielded (moves.count (.fetch side)) := by
  induction moves generalizing b with
  | nil => rfl
  | cons move moves ih =>
      rw [acts, Act.handed_append, ih]
      by_cases takes : move = .fetch side
      · subst takes
        have first : Act.handed side (b.act? (.fetch side)).toList =
            (b.inputs.get side).next.line?.toList := by
          rw [act?, Reading.line?]
          cases (b.inputs.get side).next.result with
          | error failure => rfl
          | ok line => simp
        have after : (b.apply (.fetch side)).2.inputs.get side =
            (b.inputs.get side).next.input := by
          rw [apply, fetch_snd, Both.get_set_self]
        rw [first, after, List.count_cons_self, Input.yielded_succ]
      · obtain ⟨same, nothing⟩ := inputs_apply takes b
        rw [same, nothing, List.count_cons_of_ne takes]
        rfl

omit [ByteSink σ] in
/-- **An attempt that fails** leaves everything but the input as it was. -/
theorem fetch_failed {b : Bench σ} {side : Side} {failure : Failure}
    (h : (b.fetch side).1 = .failed failure) :
    (b.fetch side).2 =
      { b with inputs := b.inputs.set side (b.inputs.get side).next.input } := by
  have given : (b.inputs.get side).next.result = .error failure := by
    rw [fetch] at h
    cases given : (b.inputs.get side).next.result with
    | error failure' =>
        simp only [given] at h
        cases h
        rfl
    | ok line =>
        simp only [given] at h
        cases h
  have same : b.slots.set side (b.slots.get side) = b.slots := by cases side <;> rfl
  rw [fetch_snd, given, Slot.receive, same]

/-- A sink without a bound takes the record of the line that is written. -/
theorem sink_apply {b : Bench Sink} (boundless : b.sink.room = none) (move : Move) :
    (b.apply move).2.sink =
      b.sink.take (((b.act? move).toList.filterMap Act.line?).map Line.record).flatten := by
  cases move with
  | fetch s =>
      rw [apply, fetch_snd]
      exact (Sink.take_nil _).symm
  | lift s => exact (Sink.take_nil _).symm
  | putBack s =>
      rw [apply, putBack]
      cases b.hands.get s <;> exact (Sink.take_nil _).symm
  | write s =>
      rw [apply, act?, write]
      cases b.hands.get s with
      | none => exact (Sink.take_nil _).symm
      | some l =>
          dsimp only
          rw [Sink.writeEach_of_fits (Sink.fits_of_room_eq_none boundless _)]
          exact congrArg b.sink.take (List.append_nil _).symm
  | choose => exact (Sink.take_nil _).symm
  | look => exact (Sink.take_nil _).symm

/-- **What a sink without a bound holds** is what the moves have written. -/
theorem contents_after {b : Bench Sink} (boundless : b.sink.room = none) (moves : List Move) :
    (b.after moves).sink.contents =
      b.sink.contents ++ (((b.acts moves).filterMap Act.line?).map Line.record).flatten := by
  induction moves generalizing b with
  | nil => exact (List.append_nil _).symm
  | cons move moves ih =>
      have first := sink_apply boundless move
      have still : (b.apply move).2.sink.room = none := by
        rw [first, Sink.take, boundless]
        rfl
      rw [after_cons, ih still, first, Sink.contents_take, acts, List.filterMap_append,
        List.map_append, List.flatten_append, List.append_assoc]

end Bench

/-- **Lines worked by hand.**  Whatever is done at the bench with the lines of a source,
those that are written are some of those that it yields, in their order and each at most
once.  An attempt to take a line that fails leaves everything else as it was, so that the
line that waits can be lifted afterwards.  And if lines are taken only when there is none
in stock, and lifted only into an empty hand, no line is lost: what is written and the
line in stock, if there is one, are all that the source has yielded. -/
theorem handled_lines (sources : Both Source) (s : Sink) (moves : List Move) (side : Side) :
    let start := Bench.ofSources sources s
    let bench := start.after moves
    let written := Act.written side (start.acts moves)
    let yielded := ((sources.get side).input side).yielded (moves.count (.fetch side))
    (written <+ yielded ∧ written.Pairwise fun a b => a.number < b.number) ∧
      (∀ failure, (bench.fetch side).1 = .failed failure →
        (bench.fetch side).2 = { bench with inputs := (bench.fetch side).2.inputs } ∧
        ((bench.fetch side).2.lift side).1 = .lifted (bench.slots.get side).line) ∧
      (start.Throughout (Bench.TakesIntoEmpty side) moves →
        start.Throughout (Bench.LiftsIntoEmpty side) moves →
        written ++ (bench.stock side).lines = yielded ∧ (bench.stock side).lines.length ≤ 1) ∧
      (s.room = none → bench.sink.contents =
        s.contents ++ (((start.acts moves).filterMap Act.line?).map Line.record).flatten) := by
  intro start bench written yielded
  have taken : Act.handed side (start.acts moves) = yielded := by
    have source : start.inputs.get side = (sources.get side).input side :=
      Source.get_inputs sources side
    rw [start.handed_acts, source]
  have nothing : start.stock side = ⟨none, none⟩ := by cases side <;> rfl
  have some : written <+ yielded := by
    have lines := start.lines_after moves side
    rw [nothing, taken] at lines
    exact (List.sublist_append_left _ _).trans lines
  refine ⟨⟨some, ?_⟩, fun failure failed => ?_, fun takes lifts => ?_, fun boundless => ?_⟩
  · exact (Input.number_yielded _ _).2.sublist some
  · rw [Bench.fetch_failed failed]
    exact ⟨rfl, rfl⟩
  · have single : (start.stock side).lines.length ≤ 1 := by
      rw [nothing]
      exact Nat.zero_le 1
    have lines := Bench.lines_after_of_sparing single takes lifts
    rw [nothing, taken] at lines
    exact lines
  · exact Bench.contents_after boundless moves

/-- Lifting once more drops the line that is held, with nothing waiting to take its place.
It is the only line that has been taken, and none is put back. -/
theorem held_line_dropped :
    let left := Ascii.encode "2024-01-01T00:00:00Z a\n"
    let sources : Both Source :=
      ⟨{ path := "left.log", content := left }, { path := "right.log", content := [] }⟩
    let start := Bench.ofSources sources ({} : Sink)
    let moves := [Move.fetch .left, .lift .left, .lift .left, .write .left]
    start.Throughout (Bench.TakesIntoEmpty .left) moves ∧
      start.Throughout (Bench.PutsBackIntoEmpty .left) moves ∧
      Act.written .left (start.acts moves) ++ ((start.after moves).stock .left).lines ≠
        ((sources.get .left).input .left).yielded (moves.count (.fetch .left)) := by
  intro left sources start moves
  refine ⟨⟨fun _ => rfl, nofun, nofun, nofun, trivial⟩, ⟨nofun, nofun, nofun, nofun, trivial⟩, ?_⟩
  decide +kernel

/-- The same line is lifted, put back, lifted again and written, and nothing is lost. -/
theorem handled_lines_put_back :
    let left := Ascii.encode "2024-01-01T00:00:00Z a\n"
    let sources : Both Source :=
      ⟨{ path := "left.log", content := left }, { path := "right.log", content := [] }⟩
    let start := Bench.ofSources sources ({} : Sink)
    let moves := [Move.fetch .left, .lift .left, .putBack .left, .lift .left, .write .left]
    start.Throughout (Bench.TakesIntoEmpty .left) moves ∧
      start.Throughout (Bench.LiftsIntoEmpty .left) moves ∧
      Act.written .left (start.acts moves) ++ ((start.after moves).stock .left).lines =
        ((sources.get .left).input .left).yielded 1 ∧
      (((sources.get .left).input .left).yielded 1).length = 1 := by
  intro left sources start moves
  have takes : start.Throughout (Bench.TakesIntoEmpty .left) moves :=
    ⟨fun _ => rfl, nofun, nofun, nofun, nofun, trivial⟩
  have lifts : start.Throughout (Bench.LiftsIntoEmpty .left) moves :=
    ⟨nofun, fun _ => by decide +kernel, nofun, fun _ => by decide +kernel, nofun, trivial⟩
  obtain ⟨-, -, spared, -⟩ := handled_lines sources {} moves .left
  exact ⟨takes, lifts, (spared takes lifts).1, by decide +kernel⟩

end Interleave
