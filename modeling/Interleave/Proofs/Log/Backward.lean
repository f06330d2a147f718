/-
# Lines earlier than the one before

A line with a timestamp is backward if its timestamp is earlier than the closest one
before it.  The blank lines between the two do not matter, and neither do the attempts
that fail.  An input counts its backward lines, and reports the first of them.

* `Line.stamped` : the lines that have a timestamp of their own;
* `Line.backward` : those of them that are backward;
* `backward_append` : what one line more adds;
* `Input.Orders` : what an attempt does to the count, and what it reports;
* `Input.Accounts` : an input that has counted and reported the lines it has given;
* `Accounts.next`, `Accounts.after` : an attempt on such an input, and any number of them.
-/
import Interleave.Proofs.Log.Attempts
import Interleave.Proofs.Log.Descents

namespace Interleave

/-! ## Backward lines -/

/-- One item more has the last of those before it as its neighbour. -/
theorem zip_tail_concat {α : Type} (as : List α) (a b : α) :
    (as ++ [a] ++ [b]).zip (as ++ [a] ++ [b]).tail =
      (as ++ [a]).zip (as ++ [a]).tail ++ [(a, b)] := by
  induction as with
  | nil => rfl
  | cons c as ih =>
      cases as with
      | nil => rfl
      | cons d as => exact congrArg ((c, d) :: ·) ih

namespace Line

/-- The lines that have a timestamp of their own. -/
def stamped (ls : List Line) : List Line := ls.filter fun l => !l.blank

/-- The lines that are earlier than the closest line before them, of the lines that have a
timestamp of their own. -/
def backward (ls : List Line) : List Line :=
  (((stamped ls).zip (stamped ls).tail).filter fun (a, b) => !a.notLater b).map Prod.snd

/-- The line has a timestamp of its own, and that is earlier than the key `before`. -/
def isBackward (before : Key) (l : Line) : Bool := !l.blank && !Key.notLater before l.key

/-- A line with a timestamp of its own is compared with the last one that has. -/
theorem backward_concat (ls : List Line) {l : Line} (own : l.blank = false) :
    backward (ls ++ [l]) =
      backward ls ++
        if Key.notLater (lastKey none (stamped ls)) l.key then [] else [l] := by
  have more : stamped (ls ++ [l]) = stamped ls ++ [l] := by
    simp [stamped, List.filter_append, own]
  unfold backward
  rw [more]
  rcases List.eq_nil_or_concat (stamped ls) with none | ⟨before, last, some⟩
  · simp [none, lastKey, Key.none_notLater]
  · rw [some, List.concat_eq_append, zip_tail_concat, lastKey_append, List.filter_append,
      List.map_append]
    cases order : Key.notLater last.key l.key <;> simp [Line.notLater, lastKey, order]

/-- **One line more**, if there is one, may be backward. -/
theorem backward_append (ls : List Line) (line : Option Line) :
    backward (ls ++ line.toList) =
      backward ls ++ (line.filter (isBackward (lastKey none (stamped ls)))).toList := by
  cases line with
  | none => simp
  | some l =>
      cases own : l.blank with
      | true => simp [backward, stamped, List.filter_append, isBackward, own]
      | false =>
          rw [Option.toList_some, backward_concat ls own, Option.filter_some]
          cases order : Key.notLater (lastKey none (stamped ls)) l.key <;>
            simp [isBackward, own, order]

end Line

/-! ## What an attempt counts and reports -/

namespace Input

/-- What an attempt does to the order that an input keeps.  The line that it gives is
counted if it is backward, and reported if it is the first. -/
structure Orders (i : Input) (r : Reading) : Prop where
  last : r.input.lastTimestamp = Line.lastKey i.lastTimestamp (Line.stamped r.line?.toList)
  count : r.input.descents =
    i.descents + (r.line?.filter (Line.isBackward i.lastTimestamp)).toList.length
  said : r.notices =
    if i.descents = 0 then
      (r.line?.filter (Line.isBackward i.lastTimestamp)).toList.map fun l =>
        .unordered i.side i.path l.number
    else []

/-- An attempt that gives no line keeps the order as it is. -/
theorem Orders.of_no_line {i : Input} {r : Reading} (nothing : r.line? = none)
    (last : r.input.lastTimestamp = i.lastTimestamp) (count : r.input.descents = i.descents)
    (silent : r.notices = []) : i.Orders r := by
  constructor
  · simp [nothing, last, Line.stamped, Line.lastKey]
  · simp [nothing, count]
  · simp [nothing, silent]

/-- What accepting a line does to the order. -/
theorem orders_accept (i : Input) (raw : Bytes) : i.Orders (i.accept raw) := by
  unfold accept
  split
  · exact Orders.of_no_line rfl rfl rfl rfl
  · split
    · constructor
      · rfl
      · rfl
      · show [] = _
        split <;> rfl
    · next instant _ =>
        have back := i.goesBack_eq instant
        constructor
        · rfl
        · simp only [stamped, back]
          cases order : Key.notLater i.lastTimestamp (some instant) <;>
            simp [Reading.line?, Option.filter_some, Line.isBackward, order]
        · simp only [stamped, back]
          cases order : Key.notLater i.lastTimestamp (some instant) <;>
            simp [Reading.line?, Option.filter_some, Line.isBackward, order]
    · exact Orders.of_no_line rfl rfl rfl rfl

/-- **What an attempt does** to the order that an input keeps. -/
theorem orders_next (i : Input) : i.Orders i.next := by
  unfold next
  split
  · exact Orders.of_no_line rfl rfl rfl rfl
  · exact Orders.of_no_line rfl rfl rfl rfl
  · next b raw r _ =>
      obtain ⟨last, count, said⟩ :=
        orders_accept { i with reader := r, lineNumber := i.lineNumber + 1 } (b :: raw)
      exact ⟨last, count, said⟩

/-! ## Keeping account -/

/-- The input keeps account of the lines `ls` that it has given: it knows the last of their
timestamps, it has counted the backward lines, and what it has said is that there is one,
when it met the first. -/
structure Accounts (i : Input) (ls : List Line) (said : List Event) : Prop where
  last : i.lastTimestamp = Line.lastKey none (Line.stamped ls)
  count : i.descents = (Line.backward ls).length
  said : said = (Line.backward ls).head?.toList.map fun l => .unordered i.side i.path l.number

/-- An input that has given nothing yet keeps account of it. -/
theorem accounts_ofReader (side : Side) (path : String) (reader : Reader)
    (limit : Option Nat) : (ofReader side path reader limit).Accounts [] [] :=
  ⟨rfl, rfl, rfl⟩

/-- **An attempt** leaves an input that keeps account of the line it gives as well. -/
theorem Accounts.next {i : Input} {ls : List Line} {said : List Event}
    (h : i.Accounts ls said) :
    i.next.input.Accounts (ls ++ i.next.line?.toList) (said ++ i.next.notices) := by
  have step := i.orders_next
  have back := Line.backward_append ls i.next.line?
  rw [← h.last] at back
  constructor
  · rw [step.last, h.last, Line.stamped, Line.stamped, Line.stamped, List.filter_append,
      Line.lastKey_append]
  · rw [step.count, h.count, back, List.length_append]
  · obtain ⟨side, path, -⟩ := i.next_input
    rw [side, path, back, h.said, step.said, h.count]
    cases Line.backward ls with
    | nil =>
        -- The line, if it is backward, is the first.
        cases i.next.line?.filter (Line.isBackward i.lastTimestamp) <;> rfl
    | cons first others => simp

/-- **Any number of attempts** leave an input that keeps account of all lines given. -/
theorem Accounts.after {i : Input} (h : i.Accounts [] []) (n : Nat) :
    (i.after n).Accounts (i.yielded n) ((i.attempts n).flatMap Reading.notices) := by
  induction n with
  | zero => exact h
  | succ n ih =>
      rw [yielded_succ_concat, attempts_succ_concat, List.flatMap_append,
        List.flatMap_singleton]
      exact ih.next

end Input

end Interleave
