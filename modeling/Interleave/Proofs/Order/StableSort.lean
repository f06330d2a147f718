/-
# Stable sorting

A list that is sorted, and in which elements that tie keep the order they have in
another list, is the other list sorted.  This says what a stable sort is without
saying how it is done.

* `eq_mergeSort` : the statement above;
* `filter_tied_isInfix` : elements that tie stand together in a sorted list;
* `filter_mergeSort` : sorting and leaving out may be exchanged;
* `merge_eq_mergeSort` : two sorted lists are sorted by merging them.
-/
import Interleave.Text.Ascii

namespace Interleave

namespace StableSort

variable {α : Type} {le : α → α → Bool}

/-- The comparison is an order in which any two elements can be compared. -/
structure Orders (le : α → α → Bool) : Prop where
  trans : ∀ a b c, le a b = true → le b c = true → le a c = true
  total : ∀ a b, (le a b || le b a) = true

/-- No element comes before itself. -/
theorem Orders.refl (order : Orders le) (a : α) : le a a = true := by
  simpa using order.total a a

/-- The first element of a sorted list comes before no other. -/
theorem Orders.head_le (order : Orders le) {a b : α} {l : List α}
    (sorted : (a :: l).Pairwise fun a b => le a b = true) (member : b ∈ a :: l) :
    le a b = true := by
  rcases List.mem_cons.mp member with rfl | later
  · exact order.refl b
  · exact List.rel_of_pairwise_cons sorted later

/-- An order of what elements are mapped to is an order of the elements. -/
theorem Orders.comap {β : Type} (order : Orders le) (f : β → α) :
    Orders fun a b => le (f a) (f b) where
  trans a b c := order.trans (f a) (f b) (f c)
  total a b := order.total (f a) (f b)

/-- Neither comes before the other. -/
def tied (le : α → α → Bool) (a b : α) : Bool := le a b && le b a

/-! ## Sorted lists with the same ties -/

/-- Every element ties with itself. -/
theorem tied_self (order : Orders le) (a : α) : tied le a a = true := by
  rw [tied, order.refl]
  rfl

/-- The first elements of two sorted lists with the same ties are the same. -/
theorem head_eq (order : Orders le) {a b : α} {l l' : List α}
    (sorted : (a :: l).Pairwise fun a b => le a b = true)
    (sorted' : (b :: l').Pairwise fun a b => le a b = true)
    (same : ∀ c, (a :: l).filter (tied le c) = (b :: l').filter (tied le c)) : a = b := by
  have there : a ∈ b :: l' := by
    have found : a ∈ (a :: l).filter (tied le a) :=
      List.mem_filter.mpr ⟨List.mem_cons_self, tied_self order a⟩
    rw [same a] at found
    exact (List.mem_filter.mp found).1
  have here : b ∈ a :: l := by
    have found : b ∈ (b :: l').filter (tied le b) :=
      List.mem_filter.mpr ⟨List.mem_cons_self, tied_self order b⟩
    rw [← same b] at found
    exact (List.mem_filter.mp found).1
  have ties : tied le a b = true := by
    rw [tied, order.head_le sorted here, order.head_le sorted' there]
    rfl
  have first := same a
  rw [List.filter_cons_of_pos (tied_self order a), List.filter_cons_of_pos ties] at first
  exact List.head_eq_of_cons_eq first

/-- **Sorted lists with the same ties are the same.** -/
theorem eq_of_pairwise (order : Orders le) {l l' : List α}
    (sorted : l.Pairwise fun a b => le a b = true)
    (sorted' : l'.Pairwise fun a b => le a b = true)
    (same : ∀ c, l.filter (tied le c) = l'.filter (tied le c)) : l = l' := by
  induction l generalizing l' with
  | nil =>
      cases l' with
      | nil => rfl
      | cons b l' =>
          have found := same b
          rw [List.filter_cons_of_pos (tied_self order b)] at found
          cases found
  | cons a l ih =>
      cases l' with
      | nil =>
          have found := same a
          rw [List.filter_cons_of_pos (tied_self order a)] at found
          cases found
      | cons b l' =>
          obtain rfl := head_eq order sorted sorted' same
          rw [ih sorted.of_cons sorted'.of_cons]
          intro c
          have both := same c
          rw [List.filter_cons, List.filter_cons] at both
          split at both
          · exact List.tail_eq_of_cons_eq both
          · exact both

/-! ## What ties in a sorted list -/

/-- Where `c` comes before everything, nothing ties with it. -/
theorem filter_tied_eq_nil (order : Orders le) {a c : α} {l : List α}
    (sorted : (a :: l).Pairwise fun a b => le a b = true) (before : ¬ le a c = true) :
    (a :: l).filter (tied le c) = [] := by
  refine List.filter_eq_nil_iff.mpr ?_
  intro x member both
  rw [tied, Bool.and_eq_true] at both
  exact before (order.trans a x c (order.head_le sorted member) both.2)

/-- Where nothing comes before `c`, what ties with it comes first. -/
theorem filter_tied_isPrefix (order : Orders le) {l : List α} {c : α}
    (sorted : l.Pairwise fun a b => le a b = true) (least : ∀ a ∈ l, le c a = true) :
    l.filter (tied le c) <+: l := by
  induction l with
  | nil => exact List.nil_prefix
  | cons a l ih =>
      by_cases after : le a c = true
      · have ties : tied le c a = true := by
          rw [tied, least a List.mem_cons_self, after]
          rfl
        rw [List.filter_cons_of_pos ties, List.cons_prefix_cons]
        refine ⟨rfl, ih sorted.of_cons ?_⟩
        intro x member
        exact least x (List.mem_cons_of_mem a member)
      · rw [filter_tied_eq_nil order sorted after]
        exact List.nil_prefix

/-- **What ties stands together** in a sorted list. -/
theorem filter_tied_isInfix (order : Orders le) {l : List α}
    (sorted : l.Pairwise fun a b => le a b = true) (c : α) : l.filter (tied le c) <:+: l := by
  induction l with
  | nil => exact List.infix_rfl
  | cons a l ih =>
      by_cases least : le c a = true
      · refine (filter_tied_isPrefix order sorted ?_).isInfix
        intro x member
        exact order.trans c a x least (order.head_le sorted member)
      · have ties : ¬ tied le c a = true := by
          rw [tied, Bool.and_eq_true]
          exact fun both => least both.1
        rw [List.filter_cons_of_neg ties]
        exact List.infix_cons (ih sorted.of_cons)

/-! ## Sorting -/

/-- What has been sorted is sorted. -/
theorem pairwise_mergeSort (order : Orders le) (l : List α) :
    (l.mergeSort le).Pairwise fun a b => le a b = true :=
  List.pairwise_mergeSort order.trans order.total l

/-- Sorting leaves elements that tie in their order. -/
theorem filter_tied_mergeSort (order : Orders le) (l : List α) (c : α) :
    (l.mergeSort le).filter (tied le c) = l.filter (tied le c) := by
  have ties : (l.filter (tied le c)).Pairwise fun a b => le a b = true := by
    refine List.pairwise_of_forall_mem_list ?_
    intro a inA b inB
    have ofA := (List.mem_filter.mp inA).2
    have ofB := (List.mem_filter.mp inB).2
    rw [tied, Bool.and_eq_true] at ofA ofB
    exact order.trans a c b ofA.2 ofB.1
  have kept : (l.filter (tied le c)).Sublist (l.mergeSort le) :=
    List.sublist_mergeSort order.trans order.total ties List.filter_sublist
  have again : (l.filter (tied le c)).Sublist ((l.mergeSort le).filter (tied le c)) := by
    simpa using kept.filter (tied le c)
  exact (again.eq_of_length ((List.mergeSort_perm l le).filter _).length_eq.symm).symm

/-- **What a stable sort is.** -/
theorem eq_mergeSort (order : Orders le) {l l' : List α}
    (sorted : l'.Pairwise fun a b => le a b = true)
    (same : ∀ c, l'.filter (tied le c) = l.filter (tied le c)) : l' = l.mergeSort le := by
  refine eq_of_pairwise order sorted (pairwise_mergeSort order l) ?_
  intro c
  rw [same, filter_tied_mergeSort order]

/-- What is left out may be left out before the sorting. -/
theorem filter_mergeSort (order : Orders le) (l : List α) (p : α → Bool) :
    (l.mergeSort le).filter p = (l.filter p).mergeSort le := by
  refine eq_mergeSort order ((pairwise_mergeSort order l).filter p) ?_
  intro c
  have swap : ∀ m : List α,
      (m.filter p).filter (tied le c) = (m.filter (tied le c)).filter p := by
    intro m
    simp only [List.filter_filter, Bool.and_comm]
  rw [swap, swap, filter_tied_mergeSort order]

/-- Merging takes what ties from the first list first. -/
theorem filter_tied_merge (order : Orders le) {xs ys : List α}
    (sorted : xs.Pairwise fun a b => le a b = true) (c : α) :
    (xs.merge ys le).filter (tied le c) = xs.filter (tied le c) ++ ys.filter (tied le c) := by
  induction xs generalizing ys with
  | nil => rw [List.nil_merge, List.filter_nil, List.nil_append]
  | cons x xs ihx =>
      induction ys with
      | nil => rw [List.merge_right, List.filter_nil, List.append_nil]
      | cons y ys ihy =>
          rw [List.cons_merge_cons]
          by_cases first : le x y = true
          · rw [if_pos first, List.filter_cons, ihx sorted.of_cons,
              List.filter_cons (p := tied le c) (x := x)]
            split <;> rfl
          · rw [if_neg first, List.filter_cons, ihy,
              List.filter_cons (p := tied le c) (x := y)]
            split
            · next ties =>
                -- What ties with `y` comes before `x`, and so before all of the first list.
                have before : ¬ le x c = true := by
                  rw [tied, Bool.and_eq_true] at ties
                  exact fun after => first (order.trans x c y after ties.1)
                rw [filter_tied_eq_nil order sorted before, List.nil_append, List.nil_append]
            · rfl

/-- **Two sorted lists are sorted by merging them.** -/
theorem merge_eq_mergeSort (order : Orders le) {xs ys : List α}
    (sorted : xs.Pairwise fun a b => le a b = true)
    (sorted' : ys.Pairwise fun a b => le a b = true) :
    xs.merge ys le = (xs ++ ys).mergeSort le := by
  refine eq_mergeSort order
    (List.pairwise_merge order.trans order.total xs ys sorted sorted') ?_
  intro c
  rw [filter_tied_merge order sorted, List.filter_append]

end StableSort

end Interleave
