/-
# The order of keys

Keys are ordered like instants, with nothing below all of them.

* `Key.orders_notLater` : any two keys can be compared;
* `Key.latest` : the later of two keys;
* `Line.notLater` : lines ordered by their keys.
-/
import Interleave.Log.Line
import Interleave.Proofs.Order.StableSort

namespace Interleave

namespace Key

/-- Nothing is not later than any key. -/
theorem none_notLater (k : Key) : notLater none k = true := rfl

theorem notLater_trans {a b c : Key} (ab : notLater a b = true) (bc : notLater b c = true) :
    notLater a c = true := by
  cases a with
  | none => rfl
  | some a =>
      cases b with
      | none => cases ab
      | some b =>
          cases c with
          | none => cases bc
          | some c =>
              rw [notLater, decide_eq_true_iff, Instant.le_def] at ab bc ⊢
              omega

theorem notLater_total (a b : Key) : notLater a b = true ∨ notLater b a = true := by
  cases a with
  | none => exact Or.inl rfl
  | some a =>
      cases b with
      | none => exact Or.inr rfl
      | some b =>
          rw [notLater, notLater, decide_eq_true_iff, decide_eq_true_iff, Instant.le_def,
            Instant.le_def]
          omega

/-- Any two keys can be compared. -/
theorem orders_notLater : StableSort.Orders notLater where
  trans _ _ _ := notLater_trans
  total a b := (Bool.or_eq_true _ _).mpr (notLater_total a b)

/-! ## The later of two keys -/

/-- The later of two keys. -/
def latest (a b : Key) : Key := if notLater a b then b else a

/-- The later of two keys is one of them. -/
theorem latest_eq_or (a b : Key) : latest a b = a ∨ latest a b = b := by
  rw [latest]
  split
  · exact Or.inr rfl
  · exact Or.inl rfl

/-- The first key is not later. -/
theorem notLater_latest_left (a b : Key) : notLater a (latest a b) = true := by
  rw [latest]
  split
  · next first => exact first
  · exact notLater_refl a

/-- The second key is not later. -/
theorem notLater_latest_right (a b : Key) : notLater b (latest a b) = true := by
  rw [latest]
  split
  · exact notLater_refl b
  · next first => exact (notLater_total a b).resolve_left first

/-- What neither of two keys is later than. -/
theorem latest_notLater {a b c : Key} (ac : notLater a c = true) (bc : notLater b c = true) :
    notLater (latest a b) c = true := by
  rcases latest_eq_or a b with same | same
  · rw [same]
    exact ac
  · rw [same]
    exact bc

end Key

/-! ## Lines by their keys -/

/-- The order of lines: the first is not later than the second. -/
def Line.notLater (a b : Line) : Bool := Key.notLater a.key b.key

theorem Line.orders_notLater : StableSort.Orders Line.notLater :=
  Key.orders_notLater.comap Line.key

end Interleave
