/-
# Exchanging the inputs

The left input comes before the right one only where two waiting lines have the same
key.  Where this never happens, the sides can be exchanged: every decision is then the
same for the other side, and the same lines are written in the same order, each with
the other tag.

* `Line.exchanged`, `Input.exchanged`, `Plan.exchanged` : the same on the other side;
* `feed_exchanged` : an input gives the same lines on the other side;
* `plan_exchanged` : feeds that are exchanged have the plan exchanged, unless there are
  ties;
* `exchanged_merge` : the merge of exchanged inputs.
-/
import Interleave.Proofs.Merge.Counting
import Interleave.Proofs.Merge.Draining

namespace Interleave

/-! ## On the other side -/

/-- The line, had it been read on the other side. -/
def Line.exchanged (l : Line) : Line := { l with side := l.side.other }

/-- The input, had it been the other one. -/
def Input.exchanged (i : Input) : Input := { i with side := i.side.other }

/-- The feed, had it been given on the other side. -/
def Feed.exchanged : Feed → Feed
  | .done => .done
  | .broken failure => .broken failure
  | .line l rest => .line l.exchanged rest.exchanged

/-- The same inputs wait with the sides exchanged. -/
def Waiting.exchanged : Waiting → Waiting
  | .both => .both
  | .leftOnly => .rightOnly
  | .rightOnly => .leftOnly
  | .neither => .neither

/-- The pick with the sides exchanged. -/
def Pick.exchanged (pick : Pick) : Pick :=
  ⟨pick.side.other, pick.line.exchanged, pick.waiting.exchanged, pick.tie⟩

/-- The plan with the sides exchanged. -/
def Plan.exchanged : Plan → Plan
  | .finish => .finish
  | .halt side failure => .halt side.other failure
  | .write pick rest => .write pick.exchanged rest.exchanged

/-- The counts with the sides exchanged. -/
def Tally.exchanged (t : Tally) : Tally := { t with lines := t.lines.swap }

/-- Both tags are of the same length. -/
theorem Line.length_record_exchanged (l : Line) :
    l.exchanged.record.length = l.record.length := by
  have tags : (Ascii.encode l.side.other.tag).length = (Ascii.encode l.side.tag).length := by
    cases l.side <;> rfl
  simp [record, parts, exchanged, isTerminated, tags]

/-! ## What is read -/

/-- The same content, read on the other side. -/
theorem Line.ofContent_other (side : Side) (content : Bytes) :
    ofContent side.other content = (ofContent side content).map exchanged := by
  have numbered_other : ∀ number before raws, numbered side.other number before raws =
      (numbered side number before raws).map exchanged := by
    intro number before raws
    induction raws generalizing number before with
    | nil => rfl
    | cons raw raws ih => exact congrArg _ (ih (number + 1) (before.after raw))
  exact numbered_other 1 none content.lines

/-- As many lines go back in time. -/
theorem Line.descents_map_exchanged (before : Key) (ls : List Line) :
    descents before (ls.map exchanged) = descents before ls := by
  induction ls generalizing before with
  | nil => rfl
  | cons l ls ih =>
      rw [List.map_cons, descents, descents]
      exact congrArg (_ + ·) (ih l.key)

namespace Input

/-- A line is accepted on the other side as it is on its own. -/
theorem accept_exchanged (i : Input) (raw : Bytes) :
    (i.exchanged.accept raw).result = (i.accept raw).result.map (Option.map Line.exchanged) ∧
      (i.exchanged.accept raw).input = (i.accept raw).input.exchanged := by
  have limit : i.exchanged.limit = i.limit := rfl
  rw [accept, accept, limit]
  cases exceeded? i.limit raw with
  | some most => exact ⟨rfl, rfl⟩
  | none => cases FirstWord.ofLine raw <;> exact ⟨rfl, rfl⟩

/-- **An attempt on the other side** gives what it gives on its own. -/
theorem next_exchanged (i : Input) :
    i.exchanged.next.result = i.next.result.map (Option.map Line.exchanged) ∧
      i.exchanged.next.input = i.next.input.exchanged := by
  have gather : i.exchanged.reader.gather i.exchanged.quota = i.reader.gather i.quota := rfl
  rw [next, next, gather]
  cases i.reader.gather i.quota with
  | failed cause reader => exact ⟨rfl, rfl⟩
  | line raw reader =>
      cases raw with
      | nil => exact ⟨rfl, rfl⟩
      | cons b raw =>
          exact accept_exchanged { i with reader, lineNumber := i.lineNumber + 1 } (b :: raw)

/-- **What is read on the other side** is what is read, exchanged. -/
theorem feed_exchanged (i : Input) : i.exchanged.feed = i.feed.exchanged := by
  induction i using feed_induction with
  | line i l given took ih =>
      obtain ⟨result, after⟩ := i.next_exchanged
      rw [given] at result
      rw [feed_of_line given, feed_of_line result, after, ih]
      rfl
  | done i given empty =>
      have result := i.next_exchanged.1
      rw [given] at result
      rw [feed_of_end given, feed_of_end result]
      rfl
  | broken i failure given place why =>
      have result := i.next_exchanged.1
      rw [given] at result
      rw [feed_of_error given, feed_of_error result]
      rfl

end Input

/-- What two sources give that are exchanged. -/
theorem Source.feeds_swap (sources : Both Source) :
    feeds sources.swap = (feeds sources).swap.map Feed.exchanged :=
  congr (congrArg Both.mk (sources.right.input .right).feed_exchanged)
    (sources.left.input .left).feed_exchanged

/-! ## What is planned -/

namespace Plan

/-- The lines are written in the same order. -/
theorem lines_exchanged (p : Plan) : p.exchanged.lines = p.lines.map Line.exchanged := by
  induction p with
  | finish => rfl
  | halt side failure => rfl
  | write pick rest ih => rw [exchanged, lines, lines, List.map_cons, ih, Pick.exchanged]

/-- As many bytes are written. -/
theorem length_bytes_exchanged (p : Plan) : p.exchanged.bytes.length = p.bytes.length := by
  rw [bytes, bytes, lines_exchanged, List.length_flatten, List.length_flatten, List.map_map,
    List.map_map, List.map_map]
  congr 2
  funext l
  exact l.length_record_exchanged

/-- No failure stops it that did not before. -/
theorem stop?_exchanged {p : Plan} (h : p.stop? = none) : p.exchanged.stop? = none := by
  induction p with
  | finish => rfl
  | halt side failure => cases h
  | write pick rest ih => exact ih h

/-- The counts are those of the other side. -/
theorem tally_exchanged (p : Plan) (t : Tally) :
    p.exchanged.tally t.exchanged = (p.tally t).exchanged := by
  induction p generalizing t with
  | finish => rfl
  | halt side failure => rfl
  | write pick rest ih =>
      have entered : (t.exchanged.compare pick.exchanged.tie).count pick.exchanged.line =
          ((t.compare pick.tie).count pick.line).exchanged := by
        obtain ⟨_, ⟨side, number, key, raw, blank⟩, waiting, tie⟩ := pick
        cases side <;> rfl
      rw [exchanged, tally, tally, entered, ih]

end Plan

/-- **Without ties every decision is the same** for the other side: feeds that do not fail
have the plan exchanged when they are exchanged. -/
theorem Feed.plan_exchanged {left right : Feed} (whole : left.failure? = none)
    (whole' : right.failure? = none) (untied : (left.plan right).rows.countP Row.tie = 0) :
    right.exchanged.plan left.exchanged = (left.plan right).exchanged := by
  fun_induction Feed.plan left right with
  | case1 failure g => cases whole
  | case2 failure => cases whole'
  | case3 l ls failure => cases whole'
  | case4 => rw [exchanged, plan, Plan.exchanged]
  | case5 l ls ih =>
      rw [Plan.rows, List.countP_cons] at untied
      rw [Plan.exchanged, ← ih whole whole' (by omega), exchanged, exchanged, plan]
      rfl
  | case6 r rs ih =>
      rw [Plan.rows, List.countP_cons] at untied
      rw [Plan.exchanged, ← ih whole whole' (by omega), exchanged, exchanged, plan]
      rfl
  | case7 l ls r rs first ih =>
      -- The left line is earlier, so it is the first of the two on either side.
      rw [Plan.rows, List.countP_cons] at untied
      have apart : (l.key == r.key) = false := by
        cases tie : l.key == r.key with
        | false => rfl
        | true => simp [tie] at untied
      have second : ¬ Key.notLater r.exchanged.key l.exchanged.key = true := by
        intro after
        rw [Key.eq_of_notLater first after, beq_self_eq_true] at apart
        cases apart
      rw [Plan.exchanged, ← ih whole whole' (by omega), exchanged, exchanged, plan,
        if_neg second, apart]
      rfl
  | case8 l ls r rs second ih =>
      rw [Plan.rows, List.countP_cons] at untied
      have first : Key.notLater r.exchanged.key l.exchanged.key = true :=
        (Key.notLater_total l.key r.key).resolve_left second
      have apart : (r.exchanged.key == l.exchanged.key) = false := by
        refine beq_eq_false_iff_ne.mpr fun same => second ?_
        rw [show l.key = r.key from same.symm]
        exact Key.notLater_refl r.key
      rw [Plan.exchanged, ← ih whole whole' (by omega), exchanged, exchanged, plan,
        if_pos first, apart]
      rfl

/-- **The plan of sources that are exchanged**, where they do not fail and have no
ties. -/
theorem Source.plan_swap {sources : Both Source} (whole : (plan sources).stop? = none)
    (untied : ((plan sources).tally {}).ties = 0) :
    plan sources.swap = (plan sources).exchanged := by
  rw [stop?_plan_eq_none_iff] at whole
  rw [Plan.tally_eq_after, Tally.ties_after] at untied
  have untied : (plan sources).rows.countP Row.tie = 0 := by omega
  rw [plan, feeds_swap]
  exact Feed.plan_exchanged (whole .left) (whole .right) untied

/-! ## The merge -/

/-- **Exchanging the inputs** of a merge that succeeds and meets no tie.  The merge of the
exchanged inputs succeeds too, and writes the same lines in the same order, each with the
other tag.  The counts are the same but for those of the sides, which are exchanged, and
so are the numbers of lines that go back in time. -/
theorem exchanged_merge (sources : Both Source) (s : Sink) (tally : Tally)
    (succeeds : (merge (Source.inputs sources) s).result = .ok tally)
    (untied : tally.ties = 0) :
    let first := merge (Source.inputs sources) s
    let second := merge (Source.inputs sources.swap) s
    second.result = .ok { tally with lines := tally.lines.swap } ∧
      second.last.written = first.last.written.map Line.exchanged ∧
      first.last.sink.contents = s.contents ++ (first.last.written.map Line.record).flatten ∧
      second.last.sink.contents = s.contents ++ (second.last.written.map Line.record).flatten ∧
      ∀ side, (second.last.inputs.get side).descents =
        (first.last.inputs.get side.other).descents := by
  intro first second
  obtain ⟨fits, whole, flush, rfl⟩ := Source.result_eq_ok_iff.mp succeeds
  have plan := Source.plan_swap whole untied
  have succeeds' : second.result = .ok ((Source.plan sources).tally {}).exchanged := by
    refine Source.result_eq_ok_iff.mpr ⟨?_, ?_, flush, ?_⟩
    · rwa [plan, Plan.length_bytes_exchanged]
    · rw [plan]
      exact Plan.stop?_exchanged whole
    · rw [plan]
      exact Plan.tally_exchanged _ {}
  obtain ⟨unfailing, written, contents⟩ := Source.of_result_ok succeeds
  obtain ⟨unfailing', written', contents'⟩ := Source.of_result_ok succeeds'
  have written : first.last.written = _ := written
  have written' : second.last.written = _ := written'
  refine ⟨succeeds', ?_, ?_, ?_, fun side => ?_⟩
  · rw [written', written, plan, Plan.lines_exchanged]
  · rw [written]
    exact contents
  · rw [written']
    exact contents'
  · rw [Source.descents_merge succeeds' unfailing', Source.descents_merge succeeds unfailing,
      Both.get_swap, ← Line.descents_map_exchanged, ← Line.ofContent_other]

/-- The first left line stands between the two right ones, with a blank line after it. -/
theorem exchanged_merge_between :
    let left := Ascii.encode "2024-01-02T00:00:00Z b\n \n2024-01-04T00:00:00Z d"
    let right := Ascii.encode "2024-01-01T00:00:00Z a\n2024-01-03T00:00:00Z c\n"
    let sources : Both Source :=
      ⟨{ path := "l.log", content := left }, { path := "r.log", content := right }⟩
    ∃ tally : Tally, (merge (Source.inputs sources) ({} : Sink)).result = .ok tally ∧
      tally.ties = 0 ∧ tally.lines.get .left = 3 ∧
      (merge (Source.inputs sources.swap) ({} : Sink)).result =
        .ok { tally with lines := tally.lines.swap } := by
  intro left right sources
  have whole : ∀ side, ((sources.get side).input side).feed.failure? = none :=
    Source.whole_of_dated (by rintro (_ | _) <;> rfl) (by rintro (_ | _) <;> rfl)
      (by rintro (_ | _) <;> decide +kernel)
  have succeeds := (Source.merge_of_whole (s := {}) (Sink.fits_of_room_eq_none rfl _)
    ((Source.stop?_plan_eq_none_iff sources).mpr whole)).1
  have ordered : ∀ side, (Line.ofContent side (sources.get side).content).Pairwise
      fun a b => a.notLater b = true := by rintro (_ | _) <;> decide +kernel
  have untied : ((Source.plan sources).tally {}).ties = 0 :=
    (Source.ties_tally_plan whole ordered).trans (by decide +kernel)
  exact ⟨_, succeeds, untied, (Source.lines_tally_plan whole .left).trans (by decide +kernel),
    (exchanged_merge sources {} _ succeeds untied).1⟩

end Interleave
