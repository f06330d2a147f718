/-
# Only instants matter

Where a merge puts a line depends on the instant of the line and on nothing else that
is written in it.  Two pairs of inputs whose lines begin alike, one by one, are merged
in the same order, counted alike, and stopped at the same line if they are stopped.

* `Plan.Alike` : plans that write lines of the same outlines;
* `alike_plan` : feeds that are alike are merged by plans that are alike;
* `outlined_merge` : the merges of two pairs of sources whose lines begin alike.
-/
import Interleave.Proofs.Log.Start
import Interleave.Proofs.Merge.Draining
import Interleave.Proofs.Merge.Stopping

namespace Interleave

/-! ## Plans that are alike -/

/-- The pick but for the bytes of its line. -/
def Pick.outline (pick : Pick) : Pick := { pick with line := pick.line.outline }

namespace Plan

/-- The two plans write lines of the same outlines, and then both come to their end, or
both are stopped on one side, at the same line, by a word that is no timestamp. -/
inductive Alike : Plan → Plan → Prop where
  | finish : Alike .finish .finish
  | halt (side : Side) {path path' : String} (number : Nat) {word word' : String} :
      Alike (.halt side (.notTimestamped path number word))
        (.halt side (.notTimestamped path' number word'))
  | write {pick pick' : Pick} {p p' : Plan} :
      pick.outline = pick'.outline → Alike p p' → Alike (.write pick p) (.write pick' p')

variable {p p' : Plan}

/-- Plans that are alike write lines of the same outlines. -/
theorem Alike.map_outline (h : p.Alike p') :
    p.lines.map Line.outline = p'.lines.map Line.outline := by
  induction h with
  | finish => rfl
  | halt side number => rfl
  | write same rest ih =>
      rw [lines, lines, List.map_cons, List.map_cons, ih]
      exact congrArg (· :: _) (congrArg Pick.line same)

/-- Plans that are alike count the same. -/
theorem Alike.tally (h : p.Alike p') (t : Tally) : p.tally t = p'.tally t := by
  induction h generalizing t with
  | finish => rfl
  | halt side number => rfl
  | @write pick pick' p p' same rest ih =>
      -- What is counted for a pick can be seen from its outline.
      have count : ∀ pick : Pick, (t.compare pick.tie).count pick.line =
          (t.compare pick.outline.tie).count pick.outline.line := fun _ => rfl
      rw [Plan.tally, Plan.tally, count pick, same, ← count pick', ih]

/-- Plans that are alike end alike. -/
theorem Alike.stop? (h : p.Alike p') :
    (p.stop? = none ∧ p'.stop? = none) ∨
      ∃ side path path' number word word',
        p.stop? = some (side, .notTimestamped path number word) ∧
          p'.stop? = some (side, .notTimestamped path' number word') := by
  induction h with
  | finish => exact Or.inl ⟨rfl, rfl⟩
  | halt side number => exact Or.inr ⟨side, _, _, number, _, _, rfl, rfl⟩
  | write same rest ih => exact ih

end Plan

/-- **Feeds that are alike** are merged by plans that are alike. -/
theorem Feed.alike_plan {f g f' g' : Feed} (h : f.Alike f') (h' : g.Alike g') :
    (f.plan g).Alike (f'.plan g') := by
  -- The keys of two lines are those of their outlines, so both plans decide alike.
  have key : ∀ {l l' : Line}, l.outline = l'.outline → l.key = l'.key := by
    intro l l' same
    show l.outline.key = l'.outline.key
    rw [same]
  fun_induction Feed.plan f g generalizing f' g' with
  | case1 failure g =>
      cases h
      rw [Feed.plan]
      exact .halt .left _
  | case2 failure =>
      cases h
      cases h'
      rw [Feed.plan]
      exact .halt .right _
  | case3 l ls failure =>
      cases h
      cases h'
      rw [Feed.plan]
      exact .halt .right _
  | case4 =>
      cases h
      cases h'
      rw [Feed.plan]
      exact .finish
  | case5 l ls ih =>
      cases h with
      | line same rest =>
          cases h'
          rw [Feed.plan]
          exact .write (by rw [Pick.outline, Pick.outline, same]) (ih rest .done)
  | case6 r rs ih =>
      cases h
      cases h' with
      | line same rest =>
          rw [Feed.plan]
          exact .write (by rw [Pick.outline, Pick.outline, same]) (ih .done rest)
  | case7 l ls r rs first ih =>
      cases h with
      | line same rest =>
          cases h' with
          | line same' rest' =>
              rw [Feed.plan, ← key same, ← key same', if_pos first]
              exact .write (by rw [Pick.outline, Pick.outline, same]) (ih rest (.line same' rest'))
  | case8 l ls r rs second ih =>
      cases h with
      | line same rest =>
          cases h' with
          | line same' rest' =>
              rw [Feed.plan, ← key same, ← key same', if_neg second]
              exact .write (by rw [Pick.outline, Pick.outline, same']) (ih (.line same rest) rest')

/-! ## Sources whose lines begin alike -/

namespace Source

/-- The feed of a source without limit and faults. -/
theorem Plain.feed {s : Source} (plain : s.Plain) (side : Side) :
    (s.input side).feed = Feed.ofRaws side s.path 1 none s.content.lines :=
  Input.feed_of_bytes (i := s.input side) plain.limitless (tape_of_faultless side plain.faultless)

/-- The two pairs of sources have no limits and no faults, and their lines begin alike,
one by one. -/
structure BeginAlike (one two : Both Source) : Prop where
  plain : ∀ side, (one.get side).Plain
  plain' : ∀ side, (two.get side).Plain
  start : ∀ side, (one.get side).content.lines.map Line.start =
    (two.get side).content.lines.map Line.start

namespace BeginAlike

variable {one two : Both Source} (h : BeginAlike one two)

include h

/-- What the sources give is alike. -/
theorem feed (side : Side) :
    ((one.get side).input side).feed.Alike ((two.get side).input side).feed := by
  rw [(h.plain side).feed, (h.plain' side).feed]
  exact Feed.alike_ofRaws (h.start side) side _ _ 1 none

/-- What is planned is alike. -/
theorem plan : (plan one).Alike (Source.plan two) :=
  Feed.alike_plan (h.feed .left) (h.feed .right)

/-- Lines go back in time on both sides alike. -/
theorem descents (whole : ∀ side, ((one.get side).input side).feed.failure? = none)
    (whole' : ∀ side, ((two.get side).input side).feed.failure? = none) (side : Side) :
    Line.descents none (Line.ofContent side (one.get side).content) =
      Line.descents none (Line.ofContent side (two.get side).content) := by
  rw [← lines_feed_of_whole (whole side), ← lines_feed_of_whole (whole' side),
    ← Line.descents_map_outline, (h.feed side).map_outline, Line.descents_map_outline]

end BeginAlike

end Source

/-- **Only instants matter.**  Two pairs of sources have as many lines on each side, and
any two lines in one place are both blank, or both begin with a timestamp of the same
instant, or both begin with a word that is no timestamp.  Then the same lines are
written, in the same order.  Both merges succeed with the same counts, or both come to
the word that is no timestamp on the same side and at the same line. -/
theorem outlined_merge (one two : Both Source) (alike : Source.BeginAlike one two)
    (perCall perCall' : Option Nat) :
    let first := merge (Source.inputs one) { perCall : Sink }
    let second := merge (Source.inputs two) { perCall := perCall' : Sink }
    first.last.sink.contents = (first.last.written.map Line.record).flatten ∧
      second.last.sink.contents = (second.last.written.map Line.record).flatten ∧
      first.last.written.map (fun l => (l.side, l.number)) =
        second.last.written.map (fun l => (l.side, l.number)) ∧
      ((∃ tally, first.result = .ok tally ∧ second.result = .ok tally ∧
          ∀ side, (first.last.inputs.get side).descents = (second.last.inputs.get side).descents) ∨
        ∃ side number word word',
          first.last.failed = some side ∧ second.last.failed = some side ∧
            first.result = .error (.notTimestamped (one.get side).path number word) ∧
            second.result = .error (.notTimestamped (two.get side).path number word')) := by
  intro first second
  have fits : ∀ n, ({ perCall : Sink }).Fits n := Sink.fits_of_room_eq_none rfl
  have fits' : ∀ n, ({ perCall := perCall' : Sink }).Fits n := Sink.fits_of_room_eq_none rfl
  have contents : first.last.sink.contents = (Source.plan one).bytes :=
    Source.contents_of_fits (fits _)
  have contents' : second.last.sink.contents = (Source.plan two).bytes :=
    Source.contents_of_fits (fits' _)
  -- Side and number can be seen from the outline.
  have places : (Source.plan one).lines.map (fun l => (l.side, l.number)) =
      (Source.plan two).lines.map (fun l => (l.side, l.number)) := by
    have outlines := congrArg (List.map fun l : Line => (l.side, l.number)) alike.plan.map_outline
    rwa [List.map_map, List.map_map] at outlines
  rw [contents, contents']
  rcases alike.plan.stop? with ⟨stop, stop'⟩ |
    ⟨side, path, path', number, word, word', stop, stop'⟩
  · have whole := (Source.stop?_plan_eq_none_iff one).mp stop
    have whole' := (Source.stop?_plan_eq_none_iff two).mp stop'
    obtain ⟨result, -, written, -⟩ := Source.merge_of_whole (fits _) stop
    obtain ⟨result', -, written', -⟩ := Source.merge_of_whole (fits' _) stop'
    rw [written, written']
    refine ⟨rfl, rfl, places, Or.inl ⟨_, result, ?_, fun side => ?_⟩⟩
    · rw [alike.plan.tally]
      exact result'
    · rw [Source.descents_merge result whole, Source.descents_merge result' whole']
      exact alike.descents whole whole' side
  · obtain ⟨result, -, written, failed⟩ := Source.merge_of_stop (fits _) stop
    obtain ⟨result', -, written', failed'⟩ := Source.merge_of_stop (fits' _) stop'
    -- A failure names the path of the source that fails.
    have place := Source.place?_of_failure?_feed (Source.failure?_of_stop?_plan stop)
    have place' := Source.place?_of_failure?_feed (Source.failure?_of_stop?_plan stop')
    obtain ⟨rfl, -⟩ := Prod.mk.inj (Option.some.inj place)
    obtain ⟨rfl, -⟩ := Prod.mk.inj (Option.some.inj place')
    rw [written, written']
    exact ⟨rfl, rfl, places,
      Or.inr ⟨side, number, word, word', failed, failed', result, result'⟩⟩

/-- The instants are written with other offsets, at other precisions and with other
messages, and the blank line is another one. -/
theorem outlined_merge_of_other_offsets :
    let one : Both Source :=
      ⟨{ path := "l.log", content := Ascii.encode "2024-01-01T00:00:00Z a\n\n2024-01-02 c\n" },
        { path := "r.log", content := Ascii.encode "2024-01-01T00:00:00Z x\n" }⟩
    let two : Both Source :=
      ⟨{ path := "m.log", content :=
          Ascii.encode "2024-01-01T05:30:00+05:30\n \t\n  2024-01-01T19:00:00.000-05:00 long\n" },
        { path := "s.log", content := Ascii.encode "2024-1-1T0:0:0,0 y", chunk := some 3 }⟩
    let first := merge (Source.inputs one) ({} : Sink)
    let second := merge (Source.inputs two) ({} : Sink)
    Source.BeginAlike one two ∧
      first.last.written.map (fun l => (l.side, l.number)) =
        second.last.written.map (fun l => (l.side, l.number)) ∧
      ∃ tally, first.result = .ok tally ∧ second.result = .ok tally := by
  intro one two first second
  have alike : Source.BeginAlike one two :=
    ⟨by rintro (_ | _) <;> exact ⟨rfl, rfl⟩, by rintro (_ | _) <;> exact ⟨rfl, rfl⟩,
      by rintro (_ | _) <;> decide +kernel⟩
  have whole : ∀ side, ((one.get side).input side).feed.failure? = none :=
    Source.whole_of_dated (by rintro (_ | _) <;> rfl) (by rintro (_ | _) <;> rfl)
      (by rintro (_ | _) <;> decide +kernel)
  have succeeds := (Source.merge_of_whole (s := {}) (Sink.fits_of_room_eq_none rfl _)
    ((Source.stop?_plan_eq_none_iff one).mpr whole)).1
  obtain ⟨-, -, places, ending⟩ := outlined_merge one two alike none none
  refine ⟨alike, places, ?_⟩
  rcases ending with ⟨tally, result, result', -⟩ | ⟨side, number, word, word', -, -, result, -⟩
  · exact ⟨tally, result, result'⟩
  · exact absurd (succeeds.symm.trans result) nofun

end Interleave
