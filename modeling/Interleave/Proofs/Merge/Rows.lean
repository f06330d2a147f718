/-
# The rows of a merge

What a merge writes and counts can be told from the lines of its two sides: it writes
one line after another, and each has tied with the line left waiting or not.  Where all
lines of one pair of sides come before all lines of another pair, the rows of both
pairs stand one after another, although the merge does not stop between them.

* `Row.ofLines` : the rows of two sides;
* `map_line_ofLines` : their lines are the lines of both sides, merged by key;
* `ofLines_append` : the rows where all lines of one pair come first;
* `rows_of_whole` : a plan without failure has the rows of its lines;
* `Tally.after_append` : what is counted adds up.
-/
import Interleave.Proofs.Log.Continuation
import Interleave.Proofs.Merge.Written

namespace Interleave

/-! ## Rows -/

/-- A line that is written. -/
structure Row where
  line : Line
  /-- The other line has the same key. -/
  tie : Bool
  deriving DecidableEq, Repr

namespace Row

/-- A line that has no other to tie with. -/
def untied (l : Line) : Row := ⟨l, false⟩

/-- The row but for the number of its line. -/
def unnumbered (e : Row) : Row := { e with line := e.line.unnumbered }

/-- The rows of the lines of two sides. -/
def ofLines : List Line → List Line → List Row
  | [], ys => ys.map untied
  | x :: xs, [] => (x :: xs).map untied
  | x :: xs, y :: ys =>
      if x.notLater y then ⟨x, x.key == y.key⟩ :: ofLines xs (y :: ys)
      else untied y :: ofLines (x :: xs) ys
termination_by xs ys => xs.length + ys.length

theorem ofLines_nil_left (ys : List Line) : ofLines [] ys = ys.map untied := by
  rw [ofLines]

theorem ofLines_nil_right (xs : List Line) : ofLines xs [] = xs.map untied := by
  cases xs with
  | nil => rw [ofLines]
  | cons x xs => rw [ofLines]

/-- The lines of the rows are the lines of the sides, merged by their keys. -/
theorem map_line_ofLines (xs ys : List Line) :
    (ofLines xs ys).map line = xs.merge ys Line.notLater := by
  have untieds : ∀ ls : List Line, (ls.map untied).map line = ls := by
    intro ls
    rw [List.map_map]
    exact List.map_id ls
  fun_induction ofLines xs ys with
  | case1 ys => rw [untieds, List.nil_merge]
  | case2 x xs => rw [untieds, List.merge_right]
  | case3 x xs y ys first ih => rw [List.map_cons, ih, List.cons_merge_cons, if_pos first]
  | case4 x xs y ys second ih =>
      rw [List.map_cons, ih, List.cons_merge_cons, if_neg second, untied]

/-- Rows do not depend on the numbers of the lines. -/
theorem map_unnumbered_ofLines (xs ys : List Line) :
    (ofLines xs ys).map unnumbered =
      ofLines (xs.map Line.unnumbered) (ys.map Line.unnumbered) := by
  fun_induction ofLines xs ys with
  | case1 ys =>
      rw [List.map_nil, ofLines_nil_left, List.map_map, List.map_map]
      rfl
  | case2 x xs =>
      rw [List.map_nil, ofLines_nil_right, List.map_map, List.map_map]
      rfl
  | case3 x xs y ys first ih =>
      have first : x.unnumbered.notLater y.unnumbered = true := first
      rw [List.map_cons, List.map_cons, List.map_cons, ofLines, if_pos first, ih,
        List.map_cons]
      rfl
  | case4 x xs y ys second ih =>
      have second : ¬ x.unnumbered.notLater y.unnumbered = true := second
      rw [List.map_cons, List.map_cons, List.map_cons, ofLines, if_neg second, ih,
        List.map_cons]
      rfl

/-- The bytes that are written for rows. -/
def bytes (es : List Row) : Bytes := (es.map fun e => e.line.record).flatten

/-- Rows after rows. -/
theorem bytes_append (es es' : List Row) : bytes (es ++ es') = bytes es ++ bytes es' := by
  rw [bytes, List.map_append, List.flatten_append, ← bytes, ← bytes]

/-- A record does not hold the number of its line. -/
theorem bytes_map_unnumbered (es : List Row) : bytes (es.map unnumbered) = bytes es := by
  rw [bytes, List.map_map]
  rfl

/-! ## One pair of sides after another -/

variable {xs ys xs' ys' : List Line}

/-- Left lines that are earlier than all others are written first, and do not tie. -/
theorem ofLines_append_left (earlier : ∀ x ∈ xs, ∀ y ∈ ys', ¬ y.notLater x = true) :
    ofLines (xs ++ xs') ys' = xs.map untied ++ ofLines xs' ys' := by
  induction xs with
  | nil => rfl
  | cons x xs ih =>
      have rest := ih fun x' member => earlier x' (List.mem_cons_of_mem x member)
      cases ys' with
      | nil => rw [ofLines_nil_right, ofLines_nil_right, List.map_append]
      | cons y ys' =>
          have before := earlier x List.mem_cons_self y List.mem_cons_self
          have first : x.notLater y = true := (Key.notLater_total x.key y.key).resolve_right before
          have apart : (x.key == y.key) = false := by
            refine beq_eq_false_iff_ne.mpr fun same => before ?_
            rw [Line.notLater, same]
            exact Key.notLater_refl y.key
          rw [List.cons_append, ofLines, if_pos first, apart, rest]
          rfl

/-- Right lines that are earlier than all others are written first. -/
theorem ofLines_append_right (earlier : ∀ y ∈ ys, ∀ x ∈ xs', ¬ x.notLater y = true) :
    ofLines xs' (ys ++ ys') = ys.map untied ++ ofLines xs' ys' := by
  induction ys with
  | nil => rfl
  | cons y ys ih =>
      have rest := ih fun y' member => earlier y' (List.mem_cons_of_mem y member)
      cases xs' with
      | nil => rw [ofLines_nil_left, ofLines_nil_left, List.map_append]
      | cons x xs' =>
          have before := earlier y List.mem_cons_self x List.mem_cons_self
          rw [List.cons_append, ofLines, if_neg before, rest]
          rfl

/-- **One pair of sides after another.**  Where the lines of one pair are earlier than
those of another, in whichever order they stand within each, the rows of the first
pair come first and then those of the second. -/
theorem ofLines_append (earlier : ∀ a ∈ xs ++ ys, ∀ b ∈ xs' ++ ys', ¬ b.notLater a = true) :
    ofLines (xs ++ xs') (ys ++ ys') = ofLines xs ys ++ ofLines xs' ys' := by
  -- One side may come to its second part first.  From there on all that is left of the
  -- other side's first part is earlier than what waits.
  fun_induction ofLines xs ys with
  | case1 ys =>
      refine ofLines_append_right fun y inY x inX => ?_
      exact earlier y inY x (List.mem_append_left ys' inX)
  | case2 x xs =>
      refine ofLines_append_left fun x' inX y inY => ?_
      exact earlier x' (List.mem_append_left [] inX) y (List.mem_append_right xs' inY)
  | case3 x xs y ys first ih =>
      rw [List.cons_append, List.cons_append, ofLines, if_pos first, List.cons_append]
      exact congrArg _ (ih fun a member => earlier a (List.mem_cons_of_mem x member))
  | case4 x xs y ys second ih =>
      rw [List.cons_append, List.cons_append, ofLines, if_neg second, List.cons_append]
      refine congrArg _ (ih fun a member => earlier a ?_)
      rw [List.mem_append] at member ⊢
      exact member.imp_right (List.mem_cons_of_mem y)

end Row

/-! ## What is counted -/

/-- Counts add up one by one. -/
instance : Add Tally where
  add t u :=
    { lines := ⟨t.lines.left + u.lines.left, t.lines.right + u.lines.right⟩
      blanks := t.blanks + u.blanks
      ties := t.ties + u.ties }

namespace Tally

/-- The counts after one more row. -/
def enter (t : Tally) (e : Row) : Tally := (t.compare e.tie).count e.line

/-- The counts after more rows. -/
def after (t : Tally) (es : List Row) : Tally := es.foldl enter t

/-- What is counted for a row does not depend on what was counted before. -/
theorem enter_add (t u : Tally) (e : Row) : (t + u).enter e = t + u.enter e := by
  obtain ⟨⟨side, number, key, raw, blank⟩, tie⟩ := e
  cases side <;> cases blank <;> cases tie <;> rfl

/-- What is counted for rows does not depend on what was counted before. -/
theorem after_add (t u : Tally) (es : List Row) : (t + u).after es = t + u.after es := by
  induction es generalizing u with
  | nil => rfl
  | cons e es ih =>
      rw [after, List.foldl_cons, enter_add]
      exact ih (u.enter e)

/-- **Counts add up.** -/
theorem after_append (t : Tally) (es es' : List Row) :
    t.after (es ++ es') = t.after es + ({} : Tally).after es' := by
  rw [← after_add, after, List.foldl_append]
  rfl

/-- Counts do not depend on the numbers of the lines. -/
theorem after_map_unnumbered (t : Tally) (es : List Row) :
    t.after (es.map Row.unnumbered) = t.after es := by
  rw [after, List.foldl_map]
  rfl

end Tally

/-! ## The rows of a plan -/

namespace Plan

/-- The rows of a plan. -/
def rows : Plan → List Row
  | .finish => []
  | .halt _ _ => []
  | .write pick rest => ⟨pick.line, pick.tie⟩ :: rest.rows

/-- The lines of a plan are those of its rows. -/
theorem map_line_rows (p : Plan) : p.rows.map Row.line = p.lines := by
  induction p with
  | finish => rfl
  | halt side failure => rfl
  | write pick rest ih => rw [rows, List.map_cons, ih, lines]

/-- The bytes of a plan are those of its rows. -/
theorem bytes_rows (p : Plan) : Row.bytes p.rows = p.bytes := by
  rw [Row.bytes, bytes, ← map_line_rows, List.map_map]
  rfl

/-- The counts of a plan are those of its rows. -/
theorem tally_eq_after (p : Plan) (t : Tally) : p.tally t = t.after p.rows := by
  induction p generalizing t with
  | finish => rfl
  | halt side failure => rfl
  | write pick rest ih =>
      rw [tally, ih, rows, Tally.after, Tally.after, List.foldl_cons, Tally.enter]

/-- **A plan without failure** has the rows of the lines of its feeds. -/
theorem rows_of_whole {left right : Feed} (whole : left.failure? = none)
    (whole' : right.failure? = none) :
    (left.plan right).rows = Row.ofLines left.lines right.lines := by
  fun_induction Feed.plan left right with
  | case1 failure g => cases whole
  | case2 failure => cases whole'
  | case3 l ls failure => cases whole'
  | case4 => rw [Feed.lines, Row.ofLines_nil_left, rows, List.map_nil]
  | case5 l ls ih =>
      rw [rows, ih whole whole', Feed.lines, Feed.lines, Row.ofLines_nil_right,
        Row.ofLines_nil_right, List.map_cons, Row.untied]
  | case6 r rs ih =>
      rw [rows, ih whole whole', Feed.lines, Feed.lines, Row.ofLines_nil_left,
        Row.ofLines_nil_left, List.map_cons, Row.untied]
  | case7 l ls r rs first ih =>
      rw [rows, ih whole whole', Feed.lines, Feed.lines, Row.ofLines]
      exact (if_pos first).symm
  | case8 l ls r rs second ih =>
      rw [rows, ih whole whole', Feed.lines, Feed.lines, Row.ofLines]
      exact (if_neg second).symm

end Plan

end Interleave
