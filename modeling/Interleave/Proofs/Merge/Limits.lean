/-
# A merge without its limits

A limit on the length of lines never changes what a merge writes, it can only stop it.
The merge with limits and the one without take the same steps until a line over its
limit is met; there the first stops and the second goes on.

* `Outcome.Agrees` : how the two merges may end;
* `agrees_run`, `agrees_merge` : they end so;
* `limited_merge` : what the limits of two sources do to their merge.
-/
import Interleave.Proofs.Log.Limit
import Interleave.Proofs.Merge.Course
import Interleave.Proofs.Merge.Sources

namespace Interleave

/-! ## Steps without limits -/

section Steps

variable {σ : Type}

/-- The merge under way without the limits of its inputs. -/
def Merging.unlimited (m : Merging σ) : Merging σ :=
  { m with inputs := m.inputs.map Input.unlimited }

/-- The step that leads to the same without limits. -/
def Progress.unlimited : Progress σ → Progress σ
  | .going m => .going m.unlimited
  | .stopped failure m => .stopped failure m.unlimited

/-- The outcome without the limits of the inputs. -/
def Outcome.unlimited (o : Outcome σ) : Outcome σ := ⟨o.result, o.last.unlimited⟩

namespace Merging

/-- Receiving a line does not depend on limits. -/
theorem unlimited_received (m : Merging σ) (side : Side) (reading : Reading) :
    m.unlimited.received side reading.unlimited = (m.received side reading).unlimited := by
  cases side <;> rfl

/-- **Asking a side, with the limits and without.**  The two differ only where the next
line is over its limit, and then the merge with limits stops for that. -/
theorem fetch_unlimited_or (m : Merging σ) (side : Side) :
    m.unlimited.fetch side = (m.fetch side).unlimited ∨
      ∃ failure m', m.fetch side = .stopped failure m' ∧ (m.inputs.get side).Overlong failure := by
  have input : m.unlimited.inputs.get side = (m.inputs.get side).unlimited := Both.get_map _ _ _
  rw [fetch, fetch, input]
  rcases (m.inputs.get side).next_unlimited_or with same | ⟨failure, fails, longer⟩
  · refine Or.inl ?_
    have result : (m.inputs.get side).next.unlimited.result =
        (m.inputs.get side).next.result := rfl
    rw [same, absorb, absorb, unlimited_received, result]
    cases (m.inputs.get side).next.result with
    | ok line => rfl
    | error failure => rfl
  · refine Or.inr ⟨failure, m.received side (m.inputs.get side).next, ?_, longer⟩
    rw [absorb, fails]

variable [ByteSink σ]

/-- Writing a line does not depend on limits. -/
theorem write_unlimited (m : Merging σ) (d : Draw) :
    m.unlimited.write d = (m.write d).unlimited := by
  have same : m.unlimited.sink = m.sink := rfl
  rw [write, write, same]
  cases ByteSink.writeEach m.sink d.line.parts with
  | mk result sink =>
      cases result with
      | error cause => rfl
      | ok _ => rfl

/-- The end of a merge does not depend on limits. -/
theorem finish_unlimited (m : Merging σ) : m.unlimited.finish = m.finish.unlimited := by
  have same : m.unlimited.sink = m.sink := rfl
  rw [finish, finish, same]
  cases ByteSink.flush m.sink with
  | mk result sink =>
      cases result with
      | error cause => rfl
      | ok _ => rfl

end Merging

end Steps

/-! ## Two merges -/

/-- How a merge with limits and the same without may end: alike in everything, or the
first has been stopped at a line over its limit, and the second has written more. -/
def Outcome.Agrees (sources : Both Source) (limited free : Outcome Sink) : Prop :=
  free = limited.unlimited ∨
    (∃ side failure, limited.result = .error failure ∧ (sources.get side).Overlong failure) ∧
      limited.last.sink.contents <+: free.last.sink.contents

/-- The inputs of a merge under way have come to some place in their sources. -/
def Merging.Reached (sources : Both Source) (m : Merging Sink) : Prop :=
  ∀ side, (sources.get side).Reached (m.inputs.get side)

variable {sources : Both Source}

/-- Asking a side that does not fail leads further in its source. -/
theorem Merging.Reached.fetch {m m' : Merging Sink} {side : Side} (h : m.Reached sources)
    (going : m.fetch side = .going m') : m'.Reached sources := by
  obtain ⟨line, given, rfl⟩ := fetch_eq_going going
  intro side'
  by_cases own : side = side'
  · subst own
    rw [received, Both.get_set_self]
    exact (h side).next given
  · rw [received, Both.get_set_ne _ _ own]
    exact h side'

/-- Writing a line leads nowhere in a source. -/
theorem Merging.Reached.write {m m' : Merging Sink} {d : Draw} (h : m.Reached sources)
    (going : m.write d = .going m') : m'.Reached sources := by
  obtain ⟨sink, -, rfl⟩ := write_eq_going going
  exact h

/-- Where what follows agrees, a side is asked in agreement before it. -/
theorem Outcome.Agrees.fetch {m : Merging Sink} {side : Side} (reached : m.Reached sources)
    {rest rest' : Merging Sink → Outcome Sink}
    (keeps : ∀ m', m'.sink.contents <+: (rest' m').last.sink.contents)
    (follows : ∀ m', m.fetch side = .going m' → Agrees sources (rest m') (rest' m'.unlimited)) :
    Agrees sources ((m.fetch side).ending rest) ((m.unlimited.fetch side).ending rest') := by
  rcases m.fetch_unlimited_or side with same | ⟨failure, m', stopped, longer⟩
  · rw [same]
    cases step : m.fetch side with
    | stopped failure m' => exact Or.inl rfl
    | going m' => exact follows m' step
  · have written : m'.sink = m.sink := by
      have sink := m.sink_fetch side
      rwa [stopped] at sink
    refine Or.inr ⟨⟨side, failure, ?_, (reached side).overlong longer⟩, ?_⟩
    · rw [stopped]
      rfl
    · rw [stopped]
      show m'.sink.contents <+: _
      rw [written]
      exact m.unlimited.contents_fetch_ending keeps side

/-- **Two runs**, with the limits and without, agree. -/
theorem Merging.agrees_run (m : Merging Sink) (reached : m.Reached sources) :
    Outcome.Agrees sources m.run m.unlimited.run := by
  induction m using run_induction with
  | finish m drawn =>
      have drawn' : Draw.ofSlots m.unlimited.slots = none := drawn
      rw [run_eq, run_eq, drawn, drawn']
      exact Or.inl m.finish_unlimited
  | turn m d drawn ih =>
      have drawn' : Draw.ofSlots m.unlimited.slots = some d := drawn
      rw [run_eq, run_eq m.unlimited, drawn, drawn']
      dsimp only
      rw [turn_ending, turn_ending, write_unlimited]
      cases written : m.write d with
      | stopped failure m' => exact Or.inl rfl
      | going m' =>
          refine Outcome.Agrees.fetch (reached.write written) contents_run fun m'' going => ?_
          refine ih m'' ?_ ((reached.write written).fetch going)
          rw [turn, written]
          exact going

/-- **Two merges**, with the limits and without, agree. -/
theorem Source.agrees_merge (sources : Both Source) (s : Sink) :
    Outcome.Agrees sources (merge (inputs sources) s)
      (merge (inputs (sources.map unlimited)) s) := by
  have begun : (Merging.start (inputs sources) s).Reached sources := by
    intro side
    show (sources.get side).Reached ((inputs sources).get side)
    rw [get_inputs]
    exact reached_input _ side
  have free : Merging.start (inputs (sources.map unlimited)) s =
      (Merging.start (inputs sources) s).unlimited := rfl
  rw [merge_eq, merge_eq, free]
  refine Outcome.Agrees.fetch begun ?_ fun m going => ?_
  · exact fun m => m.contents_fetch_ending Merging.contents_run .right
  · exact Outcome.Agrees.fetch (begun.fetch going) Merging.contents_run fun m' going' =>
      m'.agrees_run ((begun.fetch going).fetch going')

/-- **What limits do.**  If each line keeps to the limit of its source, the merge with
limits and the one without end alike.  In any case the first writes the beginning of
what the second writes, and where they do not end alike it has been stopped at a line
over its limit: it reports one byte more than the limit, which is all it has taken of
the line. -/
theorem limited_merge (sources : Both Source) (s : Sink) :
    let limited := merge (Source.inputs sources) s
    let free := merge (Source.inputs (sources.map Source.unlimited)) s
    ((∀ side, ∀ line ∈ (sources.get side).content.lines,
          ∀ most, (sources.get side).limit = some most → line.length ≤ most) →
        limited.result = free.result ∧ limited.last.sink = free.last.sink ∧
          ∀ side, (limited.last.inputs.get side).descents =
            (free.last.inputs.get side).descents) ∧
      limited.last.sink.contents <+: free.last.sink.contents ∧
      (limited.result ≠ free.result →
        ∃ side most number line, (sources.get side).limit = some most ∧
          (sources.get side).content.lines[number]? = some line ∧ most < line.length ∧
          limited.result =
            .error (.lineTooLong (sources.get side).path (number + 1) (most + 1) most)) := by
  intro limited free
  rcases Source.agrees_merge sources s with alike | ⟨⟨side, failure, stopped, longer⟩, less⟩
  · have alike : free = limited.unlimited := alike
    rw [alike]
    refine ⟨fun _ => ⟨rfl, rfl, fun side => by cases side <;> rfl⟩, List.prefix_rfl, ?_⟩
    exact fun differ => absurd rfl differ
  · obtain ⟨most, number, line, limit, found, excess, rfl⟩ := longer
    refine ⟨fun short => ?_, less, fun _ => ?_⟩
    · have within := short side line (List.mem_of_getElem? found) most limit
      exact absurd excess (Nat.not_lt_of_le within)
    · exact ⟨side, most, number, line, limit, found, excess, stopped⟩

/-- The first left line has as many bytes as the limit allows, and the second one has
two more. -/
theorem limited_merge_at_second_line :
    let left := Ascii.encode "2024-01-01T00:00:00Z a\n2024-01-02T00:00:00Z bcd\n"
    let right := Ascii.encode "2024-01-03T00:00:00Z x\n"
    let sources : Both Source :=
      ⟨{ path := "l.log", content := left, limit := some 23 },
        { path := "r.log", content := right }⟩
    let limited := merge (Source.inputs sources) ({} : Sink)
    let free := merge (Source.inputs (sources.map Source.unlimited)) ({} : Sink)
    (∃ tally, free.result = .ok tally) ∧
      limited.result = .error (.lineTooLong "l.log" 2 24 23) ∧
      limited.last.sink.contents <+: free.last.sink.contents := by
  intro left right sources limited free
  have lines : left.lines = [Ascii.encode "2024-01-01T00:00:00Z a\n",
      Ascii.encode "2024-01-02T00:00:00Z bcd\n"] := by decide +kernel
  -- Without the limit the merge succeeds, and with it it cannot.
  have whole : ∀ side, (((sources.map Source.unlimited).get side).input side).feed.failure? =
      none :=
    Source.whole_of_dated (by rintro (_ | _) <;> rfl) (by rintro (_ | _) <;> rfl)
      (by rintro (_ | _) <;> decide +kernel)
  have succeeds := (Source.merge_of_whole (s := {}) (Sink.fits_of_room_eq_none rfl _)
    ((Source.stop?_plan_eq_none_iff _).mpr whole)).1
  have differ : limited.result ≠ free.result := by
    intro same
    have reads := (Source.of_result_ok (same.trans succeeds)).1 .left
    have member : Ascii.encode "2024-01-02T00:00:00Z bcd\n" ∈
        ((sources.get .left).input .left).feed.lines.map Line.raw := by
      rw [Source.lines_feed_of_whole reads, Line.ofContent, Line.map_raw_numbered]
      show _ ∈ left.lines
      rw [lines]
      exact List.mem_cons_of_mem _ List.mem_cons_self
    obtain ⟨l, given, raw⟩ := List.mem_map.mp member
    have within := (Input.admitted_of_mem_feed given).1 23 rfl
    rw [raw] at within
    exact absurd within (by decide)
  obtain ⟨-, less, stopped⟩ := limited_merge sources {}
  obtain ⟨side, most, number, line, limit, found, excess, result⟩ := stopped differ
  refine ⟨⟨_, succeeds⟩, ?_, less⟩
  cases side with
  | right =>
      have none : (none : Option Nat) = some most := limit
      cases none
  | left =>
      obtain rfl : 23 = most := Option.some.inj limit
      have found : left.lines[number]? = some line := found
      have second : number = 1 := by
        rw [lines] at found
        rcases number with _ | _ | number
        · cases found
          exact absurd excess (by decide)
        · rfl
        · cases found
      rw [result, second]
      rfl

end Interleave
