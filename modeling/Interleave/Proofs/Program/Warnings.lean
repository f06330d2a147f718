/-
# What a run warns of

A run warns of an input that goes back in time: when its first backward line is met, and
again at the end with the number of such lines, if the run succeeds.  It does not warn of
an input without backward lines.

* `Event.isUnordered` : the events that warn of the first backward line of a side;
* `Act.isCalm` : the acts that take no line and report no warning;
* `Merging.Warned` : a merge that has warned of what its inputs have reported, and of
  nothing else;
* `kept_warned` : every step keeps it so;
* `interleave_opened` : what a run over files that can be opened reports;
* `warned_merge` : the warnings of a run.
-/
import Interleave.Proofs.Log.Backward
import Interleave.Proofs.Merge.History
import Interleave.Session

namespace Interleave

/-! ## Warnings -/

namespace Event

/-- The event warns that the input of the side goes back in time. -/
def isUnordered (side : Side) : Event → Bool
  | .unordered s .. => s = side
  | _ => false

/-- What is no warning does not warn that an input goes back in time. -/
theorem isUnordered_eq_false {event : Event} (h : event.level ≠ .warn) (side : Side) :
    event.isUnordered side = false := by
  cases event with
  | unordered s path line => exact absurd rfl h
  | _ => rfl

/-- Where nothing is a warning, nothing warns that an input goes back in time. -/
theorem filter_isUnordered_of_calm {events : List Event}
    (calm : ∀ event ∈ events, event.level ≠ .warn) (side : Side) :
    events.filter (isUnordered side) = [] := by
  apply List.filter_eq_nil_iff.mpr
  intro event member
  rw [isUnordered_eq_false (calm event member) side]
  exact Bool.false_ne_true

end Event

namespace Act

/-- The act takes no line and reports no warning. -/
def isCalm : Act → Bool
  | .read .. => false
  | .noted event => event.level ≠ .warn
  | _ => true

variable {acts : List Act}

/-- Acts that take no line hand out none. -/
theorem handed_of_calm (calm : ∀ act ∈ acts, act.isCalm = true) (side : Side) :
    handed side acts = [] := by
  apply List.filterMap_eq_nil_iff.mpr
  intro act member
  have calm := calm act member
  cases act with
  | read s result => cases calm
  | _ => rfl

/-- What is reported by acts that report no warning is none. -/
theorem level_of_calm (calm : ∀ act ∈ acts, act.isCalm = true) :
    ∀ event ∈ acts.filterMap event?, event.level ≠ .warn := by
  intro event member
  obtain ⟨act, member, reported⟩ := List.mem_filterMap.mp member
  have calm := calm act member
  cases act with
  | noted noted =>
      cases reported
      simpa [isCalm] using calm
  | _ => cases reported

end Act

namespace Input

/-- An attempt reports nothing but that its input goes back in time. -/
theorem mem_notices {i : Input} {event : Event} (h : event ∈ i.next.notices) :
    ∃ line, event = .unordered i.side i.path line := by
  rw [i.orders_next.said] at h
  split at h
  · obtain ⟨l, -, rfl⟩ := List.mem_map.mp h
    exact ⟨l.number, rfl⟩
  · cases h

/-- What an attempt reports is about the side of its input. -/
theorem filter_isUnordered_notices (i : Input) :
    i.next.notices.filter (Event.isUnordered i.side) = i.next.notices := by
  apply List.filter_eq_self.mpr
  intro event member
  obtain ⟨line, rfl⟩ := mem_notices member
  exact decide_eq_true rfl

/-- What an attempt reports is not about the other side. -/
theorem filter_isUnordered_notices_ne {i : Input} {side : Side} (h : i.side ≠ side) :
    i.next.notices.filter (Event.isUnordered side) = [] := by
  apply List.filter_eq_nil_iff.mpr
  intro event member
  obtain ⟨line, rfl⟩ := mem_notices member
  simpa [Event.isUnordered] using h

end Input

/-! ## What a merge has warned of -/

namespace Merging

variable {σ : Type} {m m' : Merging σ} {inputs : Both Input}

/-- A number of attempts have been made on each input.  The merge has handed out what they
gave, and what they reported is all that it has warned of. -/
structure Warned (inputs : Both Input) (m : Merging σ) : Prop where
  read : ∀ side, ∃ n, m.inputs.get side = (inputs.get side).after n ∧
    Act.handed side m.history = (inputs.get side).yielded n ∧
    m.events.filter (Event.isUnordered side) =
      ((inputs.get side).attempts n).flatMap Reading.notices
  others : ∀ event ∈ m.events, event.level = .warn → ∃ side, event.isUnordered side = true

/-- A merge that has asked for nothing yet has warned of nothing. -/
theorem warned_start (inputs : Both Input) (sink : σ) : (start inputs sink).Warned inputs :=
  ⟨fun _ => ⟨0, rfl, rfl, rfl⟩, nofun⟩

/-- A merge that asks a side for a line warns of what the side reports. -/
theorem Warned.received (h : m.Warned inputs) (sided : ∀ side, (inputs.get side).side = side)
    (side : Side) : (m.received side (m.inputs.get side).next).Warned inputs := by
  constructor
  · intro side'
    rw [events_received, List.filter_append]
    obtain ⟨n, input, handed, said⟩ := h.read side
    have own : (m.inputs.get side).side = side := by
      rw [input, ((inputs.get side).after_input n).1, sided]
    by_cases here : side = side'
    · subst here
      have reports := Input.filter_isUnordered_notices (m.inputs.get side)
      rw [own] at reports
      refine ⟨n + 1, ?_, ?_, ?_⟩
      · rw [Merging.received, Both.get_set_self, input]
        rfl
      · rw [handed_received, handed, input, Input.yielded_succ_concat]
      · rw [reports, said, input, Input.attempts_succ_concat, List.flatMap_append,
          List.flatMap_singleton]
    · have other : (m.inputs.get side).side ≠ side' := by rwa [own]
      rw [handed_received_ne m here, Input.filter_isUnordered_notices_ne other, List.append_nil,
        Merging.received, Both.get_set_ne _ _ here]
      exact h.read side'
  · intro event member warns
    rw [events_received] at member
    rcases List.mem_append.mp member with before | new
    · exact h.others event before warns
    · obtain ⟨line, rfl⟩ := Input.mem_notices new
      exact ⟨_, decide_eq_true rfl⟩

/-- Acts that take no line and report no warning change nothing about the warnings. -/
theorem Warned.append (h : m.Warned inputs) {acts : List Act} (same : m'.inputs = m.inputs)
    (history : m'.history = m.history ++ acts) (calm : ∀ act ∈ acts, act.isCalm = true) :
    m'.Warned inputs := by
  have events : m'.events = m.events ++ acts.filterMap Act.event? := by
    rw [Merging.events, history, List.filterMap_append]
    rfl
  have reported := Act.level_of_calm calm
  constructor
  · intro side
    rw [same, history, Act.handed_append, Act.handed_of_calm calm, List.append_nil, events,
      List.filter_append, Event.filter_isUnordered_of_calm reported, List.append_nil]
    exact h.read side
  · intro event member warns
    rw [events] at member
    rcases List.mem_append.mp member with before | new
    · exact h.others event before warns
    · exact absurd warns (reported event new)

/-- **Every step** warns of what the inputs report, and of nothing else. -/
theorem kept_warned [ByteSink σ] (sided : ∀ side, (inputs.get side).side = side) :
    Kept (σ := σ) (Warned inputs) where
  received m side h := h.received sided side
  wrote m d sink h := by
    apply h.append
    · rfl
    · rw [history_wrote, history_drew, List.append_assoc]
    · simp [Act.isCalm, Event.level]
  refused m d sink h := by
    apply h.append
    · rfl
    · exact m.history_drew d
    · simp [Act.isCalm, Event.level]
  flushed m sink h := by
    apply h.append
    · rfl
    · exact m.history_did .flushed
    · simp [Act.isCalm]
  completed m h := by
    apply h.append
    · rfl
    · exact m.history_did _
    · simp [Act.isCalm, Event.level]

end Merging

/-! ## What a run warns of -/

/-- Each input of a merge of two files has given nothing yet. -/
theorem accounts_fileInputs (paths : Both String) (files : Both OpenFile) (limit : Option Nat)
    (side : Side) : ((fileInputs paths files limit).get side).Accounts [] [] := by
  cases side <;> exact Input.accounts_ofReader _ _ _ _

/-- The inputs of a merge of two files have the sides and the paths of the files. -/
theorem names_fileInputs (paths : Both String) (files : Both OpenFile) (limit : Option Nat)
    (side : Side) :
    ((fileInputs paths files limit).get side).side = side ∧
      ((fileInputs paths files limit).get side).path = paths.get side := by
  cases side <;> exact ⟨rfl, rfl⟩

/-- The inputs that went back in time are reported from left to right. -/
theorem descentEvents_eq {inputs : Both Input} {paths : Both String}
    (names : ∀ side, (inputs.get side).side = side ∧ (inputs.get side).path = paths.get side) :
    descentEvents inputs =
      [Side.left, Side.right].filterMap fun side =>
        if (inputs.get side).descents = 0 then none
        else some (.descents side (paths.get side) (inputs.get side).descents) := by
  have sides : descentEvents inputs =
      [Side.left, Side.right].filterMap fun side =>
        if (inputs.get side).descents = 0 then none
        else some (.descents (inputs.get side).side (inputs.get side).path
          (inputs.get side).descents) := rfl
  rw [sides]
  congr 1
  funext side
  rw [(names side).1, (names side).2]

/-- What is reported at the end is not that an input goes back in time for the first time. -/
theorem filter_isUnordered_closingEvents {σ : Type} (outcome : Outcome σ) (side : Side) :
    (closingEvents outcome).filter (Event.isUnordered side) = [] := by
  apply List.filter_eq_nil_iff.mpr
  intro event member
  unfold closingEvents descentEvents at member
  split at member
  · rcases List.mem_append.mp member with counted | finished
    · obtain ⟨input, -, reported⟩ := List.mem_filterMap.mp counted
      split at reported
      · cases reported
      · cases reported
        exact Bool.false_ne_true
    · obtain rfl := List.mem_singleton.mp finished
      exact Bool.false_ne_true
  · cases member

/-- A run over files that can be opened reports that, then what the merge reports, and then
how it has ended. -/
theorem interleave_opened {σ : Type} [ByteSink σ] {lookup : String → Except IoError Entry}
    {paths : Both String} {files : Both OpenFile}
    (opened : ∀ side, openFile lookup (paths.get side) = .ok (files.get side))
    (limit : Option Nat) (sink : σ) :
    let outcome := merge (fileInputs paths files limit) sink
    (interleave lookup paths limit sink).result = outcome.result ∧
      (interleave lookup paths limit sink).events =
        [openedEvent paths.left files.left, openedEvent paths.right files.right,
          .merging paths.left paths.right] ++ outcome.last.events ++ closingEvents outcome := by
  have left : openFile lookup paths.left = .ok files.left := opened .left
  have right : openFile lookup paths.right = .ok files.right := opened .right
  rw [interleave, left]
  dsimp only
  rw [right]
  exact ⟨rfl, rfl⟩

/-- A run over files of which one cannot be opened warns of nothing. -/
theorem level_of_unopened {σ : Type} [ByteSink σ] {lookup : String → Except IoError Entry}
    {paths : Both String} {side : Side} {failure : Failure}
    (unopened : openFile lookup (paths.get side) = .error failure) (limit : Option Nat)
    (sink : σ) : ∀ event ∈ (interleave lookup paths limit sink).events, event.level ≠ .warn := by
  intro event member
  unfold interleave at member
  split at member
  · cases member
  · next left opened =>
      split at member
      · obtain rfl := List.mem_singleton.mp member
        exact nofun
      · next right opened' =>
          cases side with
          | left => cases opened.symm.trans unopened
          | right => cases opened'.symm.trans unopened

/-- **The warnings of a run.**  Whatever a source is and however often it is asked for a
line, it has counted the backward lines among those it has given.  A run over files of
which one cannot be opened warns of nothing.  Otherwise a run asks each input for lines, and
warns of the first backward line of each that has any, and of nothing else before it comes
to its end.  If it succeeds it then reports the number of these lines for each such input,
from left to right, and if it fails it does not. -/
theorem warned_merge {σ : Type} [ByteSink σ] (lookup : String → Except IoError Entry)
    (paths : Both String) (limit : Option Nat) (sink : σ) :
    (∀ (s : Source) side n,
      ((s.input side).after n).descents = (Line.backward ((s.input side).yielded n)).length) ∧
    let report := interleave lookup paths limit sink
    (∀ side failure, openFile lookup (paths.get side) = .error failure →
      ∀ event ∈ report.events, event.level ≠ .warn) ∧
    ∀ files : Both OpenFile,
      (∀ side, openFile lookup (paths.get side) = .ok (files.get side)) →
      let inputs := fileInputs paths files limit
      let last := (merge inputs sink).last
      let backward side := Line.backward (Act.handed side last.history)
      (∀ side,
        (∃ n, last.inputs.get side = (inputs.get side).after n ∧
          Act.handed side last.history = (inputs.get side).yielded n) ∧
        (last.inputs.get side).descents = (backward side).length ∧
        report.events.filter (Event.isUnordered side) =
          (backward side).head?.toList.map fun l => .unordered side (paths.get side) l.number) ∧
      (∀ event ∈ last.events, event.level = .warn → ∃ side, event.isUnordered side = true) ∧
      report.events =
        [openedEvent paths.left files.left, openedEvent paths.right files.right,
          .merging paths.left paths.right] ++ last.events ++
        match report.result with
        | .ok tally =>
            ([Side.left, Side.right].filterMap fun side =>
              if (backward side).length = 0 then none
              else some (.descents side (paths.get side) (backward side).length)) ++
              [.finished tally]
        | .error _ => [] := by
  refine ⟨?_, fun side failure unopened => level_of_unopened unopened limit sink, ?_⟩
  · intro s side n
    exact ((Input.accounts_ofReader _ _ _ _).after n).count
  · intro files opened inputs last backward
    have names := names_fileInputs paths files limit
    obtain ⟨result, events⟩ := interleave_opened opened limit sink
    obtain ⟨read, others⟩ : last.Warned inputs :=
      (Merging.kept_warned fun side => (names side).1).merge (Merging.warned_start inputs sink)
    have accounts : ∀ side, (last.inputs.get side).Accounts (Act.handed side last.history)
        (last.events.filter (Event.isUnordered side)) := by
      intro side
      obtain ⟨n, input, handed, said⟩ := read side
      rw [input, handed, said]
      exact (accounts_fileInputs paths files limit side).after n
    have named : ∀ side, (last.inputs.get side).side = side ∧
        (last.inputs.get side).path = paths.get side := by
      intro side
      obtain ⟨n, input, -⟩ := read side
      obtain ⟨same, path, -⟩ := (inputs.get side).after_input n
      rw [input, same, path]
      exact names side
    refine ⟨fun side => ⟨?_, (accounts side).count, ?_⟩, others, ?_⟩
    · obtain ⟨n, input, handed, -⟩ := read side
      exact ⟨n, input, handed⟩
    · have said := (accounts side).said
      rw [(named side).1, (named side).2] at said
      rw [events, List.filter_append, List.filter_append, filter_isUnordered_closingEvents,
        List.append_nil, ← said]
      rfl
    · rw [events, result, closingEvents, descentEvents_eq named]
      simp only [fun side => (accounts side).count]
      rfl

/-- The third line of the left file is earlier than the first, and the line between them is
blank.  The right file is in order. -/
theorem warned_merge_back_after_blank :
    let left := Ascii.encode "2024-01-02T00:00:00Z a\n\n2024-01-01T00:00:00Z b\n"
    let right := Ascii.encode "2024-01-01T00:00:00Z x\n2024-01-01T00:00:00Z y\n"
    let lookup := fun path => .ok (.file (if path = "l.log" then left else right))
    let report := interleave lookup ⟨"l.log", "r.log"⟩ none ({} : Sink)
    report.events.filter (Event.isUnordered .left) = [.unordered .left "l.log" 3] ∧
      report.events.filter (Event.isUnordered .right) = [] ∧
      report.events.filter (fun event => event.level = .warn) =
        [.unordered .left "l.log" 3, .descents .left "l.log" 1] := by
  intro left right lookup report
  obtain ⟨-, -, run⟩ := warned_merge lookup ⟨"l.log", "r.log"⟩ none ({} : Sink)
  obtain ⟨sides, -, -⟩ := run ⟨.ofBytes left, .ofBytes right⟩ (by rintro (_ | _) <;> rfl)
  have lefts := (sides .left).2.2
  have rights := (sides .right).2.2
  exact ⟨lefts.trans (by decide +kernel), rights.trans (by decide +kernel), by decide +kernel⟩

/-- The left file fails while its third line is read, and so does the run.  The second line
went back in time: the run has warned of it, and does not report how many such lines there
were. -/
example :
    let left : OpenFile := ⟨64, [],
      [.bytes (Ascii.encode "2024-01-02T00:00:00Z a\n2024-01-01T00:00:00Z b\n2024"),
        .failure (.system 5)]⟩
    let lookup := fun path => .ok (if path = "l.log" then .stream left else .file [])
    let report := interleave lookup ⟨"l.log", "r.log"⟩ none ({} : Sink)
    report.result.toOption = none ∧
      report.events.filter (fun event => event.level = .warn) = [.unordered .left "l.log" 2] := by
  decide +kernel

end Interleave
