/-
# The history of a merge

A merge keeps a record of what it does.  What a step adds to the record can be said
exactly, and so can what concerns one of the two inputs: which lines it has handed out,
which of them have been written, and what every attempt to take one has given.

* `Act.results`, `Act.handed`, `Act.written` : what acts have done with the input of a side;
* `history_received`, `history_drew`, `history_wrote` : what the steps of a merge add;
* `events_received`, `handed_received` : what a merge reports and hands out at an attempt;
* `Feed.acts` : the acts on an input that is written line by line;
* `handed_of_prefix` : at any moment of it at most one line waits;
* `eq_nil_of_prefix` : after its end nothing more is done with it.
-/
import Interleave.Proofs.Log.Attempts
import Interleave.Proofs.Merge.Plan

namespace Interleave

/-! ## One side of a history -/

namespace Act

/-- The act takes a line of the side or writes one. -/
def concerns (side : Side) : Act → Bool
  | .read s _ => s = side
  | .wrote s _ => s = side
  | _ => false

/-- What an attempt to take a line of the side has given. -/
def result? (side : Side) : Act → Option (Except Failure (Option Line))
  | .read s result => if s = side then some result else none
  | _ => none

/-- The line that the input of the side has handed out. -/
def handed? (side : Side) : Act → Option Line
  | .read s (.ok line) => if s = side then line else none
  | _ => none

/-- The line of the side whose record has been written. -/
def written? (side : Side) : Act → Option Line
  | .wrote s line => if s = side then some line else none
  | _ => none

/-- What the attempts to take a line of the side have given. -/
def results (side : Side) (acts : List Act) : List (Except Failure (Option Line)) :=
  acts.filterMap (result? side)

/-- The lines that the input of the side has handed out. -/
def handed (side : Side) (acts : List Act) : List Line := acts.filterMap (handed? side)

/-- The lines of the side whose records have been written. -/
def written (side : Side) (acts : List Act) : List Line := acts.filterMap (written? side)

section

variable {side s : Side} {acts : List Act}

@[simp] theorem results_nil : results side [] = [] := rfl

@[simp] theorem handed_nil : handed side [] = [] := rfl

@[simp] theorem written_nil : written side [] = [] := rfl

@[simp] theorem results_read (result : Except Failure (Option Line)) :
    results side (.read side result :: acts) = result :: results side acts := by
  simp [results, result?]

@[simp] theorem results_wrote (l : Line) : results side (.wrote s l :: acts) = results side acts :=
  rfl

theorem results_read_ne (h : s ≠ side) (result : Except Failure (Option Line)) :
    results side (.read s result :: acts) = results side acts := by
  simp [results, result?, h]

@[simp] theorem results_noted (event : Event) :
    results side (.noted event :: acts) = results side acts := rfl

@[simp] theorem results_flushed : results side (.flushed :: acts) = results side acts := rfl

@[simp] theorem handed_read (line : Option Line) :
    handed side (.read side (.ok line) :: acts) = line.toList ++ handed side acts := by
  cases line <;> simp [handed, handed?]

theorem handed_read_ne (h : s ≠ side) (result : Except Failure (Option Line)) :
    handed side (.read s result :: acts) = handed side acts := by
  cases result with
  | error failure => rfl
  | ok line => simp [handed, handed?, h]

@[simp] theorem handed_read_error (failure : Failure) :
    handed side (.read s (.error failure) :: acts) = handed side acts := rfl

@[simp] theorem handed_wrote (l : Line) : handed side (.wrote s l :: acts) = handed side acts :=
  rfl

@[simp] theorem written_read (result : Except Failure (Option Line)) :
    written side (.read s result :: acts) = written side acts := rfl

@[simp] theorem written_wrote (l : Line) :
    written side (.wrote side l :: acts) = l :: written side acts := by
  simp [written, written?]

theorem written_wrote_ne (h : s ≠ side) (l : Line) :
    written side (.wrote s l :: acts) = written side acts := by
  simp [written, written?, h]

/-- Attempts come after attempts. -/
theorem results_append (side : Side) (acts others : List Act) :
    results side (acts ++ others) = results side acts ++ results side others :=
  List.filterMap_append

/-- Lines are handed out after lines. -/
theorem handed_append (side : Side) (acts others : List Act) :
    handed side (acts ++ others) = handed side acts ++ handed side others :=
  List.filterMap_append

/-- Lines are written after lines. -/
theorem written_append (side : Side) (acts others : List Act) :
    written side (acts ++ others) = written side acts ++ written side others :=
  List.filterMap_append

/-- Reports are no attempts. -/
theorem results_map_noted (side : Side) (events : List Event) :
    results side (events.map noted) = [] := by
  simp [results, result?]

/-- Reports hand out nothing. -/
theorem handed_map_noted (side : Side) (events : List Event) :
    handed side (events.map noted) = [] := by
  simp [handed, handed?]

end

/-- What says something only of acts that concern the side can be told from those alone. -/
theorem filterMap_filter_concerns {α : Type} {side : Side} {f : Act → Option α}
    (about : ∀ act, act.concerns side = false → f act = none) (acts : List Act) :
    (acts.filter (concerns side)).filterMap f = acts.filterMap f := by
  induction acts with
  | nil => rfl
  | cons act acts ih =>
      cases concerned : act.concerns side with
      | true => simp [List.filterMap_cons, concerned, ih]
      | false => simp [concerned, about act concerned, ih]

theorem results_filter (side : Side) (acts : List Act) :
    results side (acts.filter (concerns side)) = results side acts := by
  refine filterMap_filter_concerns (fun act other => ?_) acts
  cases act <;> simp_all [result?, concerns]

theorem handed_filter (side : Side) (acts : List Act) :
    handed side (acts.filter (concerns side)) = handed side acts := by
  refine filterMap_filter_concerns (fun act other => ?_) acts
  cases act with
  | read s result => cases result <;> simp_all [handed?, concerns]
  | _ => rfl

theorem written_filter (side : Side) (acts : List Act) :
    written side (acts.filter (concerns side)) = written side acts := by
  refine filterMap_filter_concerns (fun act other => ?_) acts
  cases act <;> simp_all [written?, concerns]

end Act

/-! ## What a step adds -/

namespace Merging

variable {σ : Type}

/-- An attempt to take a line reports what it has to, and is recorded. -/
theorem history_received (m : Merging σ) (side : Side) (reading : Reading) :
    (m.received side reading).history =
      m.history ++ reading.notices.map Act.noted ++ [.read side reading.result] := by
  simp [history, received, List.map_reverse]

/-- One more act comes after all others. -/
theorem history_did (m : Merging σ) (act : Act) : (m.did act).history = m.history ++ [act] := by
  simp [history, did]

/-- A line that is drawn is announced. -/
theorem history_drew (m : Merging σ) (d : Draw) :
    (m.drew d).history =
      m.history ++
        [.noted (.writing d.waiting d.line.side d.line.number (Line.excerpt d.line.raw))] := by
  simp [history, drew]

/-- A line that is written is recorded. -/
theorem history_wrote (m : Merging σ) (d : Draw) (sink : σ) :
    (m.wrote d sink).history = m.history ++ [.wrote d.side d.line] := by
  simp [history, wrote]

/-- What an attempt reports comes after what has been reported. -/
theorem events_received (m : Merging σ) (side : Side) (reading : Reading) :
    (m.received side reading).events = m.events ++ reading.notices := by
  have noted : (reading.notices.map Act.noted).filterMap Act.event? = reading.notices := by
    rw [List.filterMap_map]
    exact List.filterMap_some
  simp [events, history_received, noted, Act.event?]

/-- What an attempt hands out comes after what has been handed out of its side. -/
theorem handed_received (m : Merging σ) (side : Side) (reading : Reading) :
    Act.handed side (m.received side reading).history =
      Act.handed side m.history ++ reading.line?.toList := by
  rw [history_received, Act.handed_append, Act.handed_append, Act.handed_map_noted,
    List.append_nil]
  cases given : reading.result with
  | error failure => simp [Reading.line?, given]
  | ok line => simp [Reading.line?, given]

/-- An attempt on one side hands out nothing of the other. -/
theorem handed_received_ne (m : Merging σ) {side side' : Side} (h : side ≠ side')
    (reading : Reading) :
    Act.handed side' (m.received side reading).history = Act.handed side' m.history := by
  rw [history_received, Act.handed_append, Act.handed_append, Act.handed_map_noted,
    Act.handed_read_ne h, Act.handed_nil, List.append_nil, List.append_nil]

end Merging

/-! ## Line by line -/

namespace Feed

/-- What is done with an input of which one line after another is taken and written. -/
def acts (side : Side) : Feed → List Act
  | .done => [.read side (.ok none)]
  | .broken failure => [.read side (.error failure)]
  | .line l rest => .read side (.ok (some l)) :: .wrote side l :: rest.acts side

/-- The attempts give the lines and then the end or the failure. -/
theorem results_acts (side : Side) (f : Feed) : Act.results side (f.acts side) = f.results := by
  induction f with
  | done => simp [acts, results]
  | broken failure => simp [acts, results]
  | line l rest ih => simp [acts, results, ih]

/-- **One line at a time.**  At any moment the lines handed out are those written and at
most one more. -/
theorem handed_of_prefix {side : Side} {f : Feed} {acts : List Act}
    (h : acts <+: f.acts side) :
    ∃ waiting : Option Line, Act.handed side acts = Act.written side acts ++ waiting.toList := by
  induction f generalizing acts with
  | done =>
      refine ⟨none, ?_⟩
      rcases List.prefix_cons_iff.mp h with rfl | ⟨acts, rfl, nothing⟩
      · rfl
      · rw [List.prefix_nil.mp nothing]
        simp
  | broken failure =>
      refine ⟨none, ?_⟩
      rcases List.prefix_cons_iff.mp h with rfl | ⟨acts, rfl, nothing⟩
      · rfl
      · rw [List.prefix_nil.mp nothing]
        simp
  | line l rest ih =>
      rcases List.prefix_cons_iff.mp h with rfl | ⟨acts, rfl, more⟩
      · exact ⟨none, rfl⟩
      · rcases List.prefix_cons_iff.mp more with rfl | ⟨acts, rfl, later⟩
        · -- The line has been taken and not yet written.
          exact ⟨some l, by simp⟩
        · obtain ⟨waiting, handed⟩ := ih later
          exact ⟨waiting, by simp [handed]⟩

/-- **After the end** of the input, or a failure, nothing more is done with it. -/
theorem eq_nil_of_prefix {side : Side} {f : Feed} {before after : List Act}
    {result : Except Failure (Option Line)}
    (h : before ++ .read side result :: after <+: f.acts side)
    (last : ∀ l, result ≠ .ok (some l)) : after = [] := by
  induction f generalizing before with
  | done =>
      cases before with
      | nil => exact List.prefix_nil.mp (List.cons_prefix_cons.mp h).2
      | cons act before => simpa using (List.cons_prefix_cons.mp h).2
  | broken failure =>
      cases before with
      | nil => exact List.prefix_nil.mp (List.cons_prefix_cons.mp h).2
      | cons act before => simpa using (List.cons_prefix_cons.mp h).2
  | line l rest ih =>
      rcases before with _ | ⟨act, _ | ⟨act', before⟩⟩
      · -- The first act gives a line, and is not the last.
        obtain ⟨same, -⟩ := List.cons_prefix_cons.mp h
        injection same with _ same
        exact absurd same (last l)
      · obtain ⟨-, more⟩ := List.cons_prefix_cons.mp h
        exact absurd (List.cons_prefix_cons.mp more).1 nofun
      · obtain ⟨-, more⟩ := List.cons_prefix_cons.mp h
        exact ih (List.cons_prefix_cons.mp more).2

end Feed

end Interleave
