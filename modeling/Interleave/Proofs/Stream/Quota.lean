/-
# A quota on a line

With a quota a line may be cut off before its end.  As long as the quota is not used
up it does not show: the same bytes are taken, the same failures are met, and the same
is left of the stream.

* `gather_none_or` : without the quota the same is gathered, unless the quota has been
  used up;
* `length_le_of_gather` : no more is taken than the quota.
-/
import Interleave.Proofs.Stream.Tape

namespace Interleave

namespace Reader

/-! ## Without the quota -/

theorem search_some_cons (quota : Nat) (taken : Bytes) (b : UInt8) (buffer : Bytes) :
    search (some (quota + 1)) taken (b :: buffer) =
      if b = newline then .found (b :: taken) buffer
      else search (some quota) (b :: taken) buffer := rfl

theorem search_none_cons (taken : Bytes) (b : UInt8) (buffer : Bytes) :
    search none taken (b :: buffer) =
      if b = newline then .found (b :: taken) buffer
      else search none (b :: taken) buffer := rfl

/-- A line that ends in the buffer ends there without the quota, unless the quota has
been used up. -/
theorem search_none_of_found {quota : Nat} {taken buffer taken' buffer' : Bytes}
    (h : search (some quota) taken buffer = .found taken' buffer') :
    taken'.length = taken.length + quota ∨ search none taken buffer = .found taken' buffer' := by
  induction buffer generalizing quota taken with
  | nil =>
      cases quota with
      | zero =>
          cases h
          exact Or.inl rfl
      | succ quota => cases h
  | cons b buffer ih =>
      cases quota with
      | zero =>
          cases h
          exact Or.inl rfl
      | succ quota =>
          rw [search_some_cons] at h
          rw [search_none_cons]
          by_cases ends : b = newline
          · rw [if_pos ends] at h ⊢
            exact Or.inr h
          · rw [if_neg ends] at h ⊢
            refine (ih h).imp_left fun used => ?_
            rw [used, List.length_cons]
            omega

/-- A line that goes on after the buffer goes on without the quota, which is used up by
as many bytes as are taken. -/
theorem search_none_of_wanting {quota : Nat} {taken buffer taken' : Bytes}
    {quota' : Option Nat} (h : search (some quota) taken buffer = .wanting quota' taken') :
    search none taken buffer = .wanting none taken' ∧
      ∃ left, quota' = some left ∧ taken'.length + left = taken.length + quota := by
  induction buffer generalizing quota taken with
  | nil =>
      cases quota with
      | zero => cases h
      | succ quota =>
          cases h
          exact ⟨rfl, quota + 1, rfl, rfl⟩
  | cons b buffer ih =>
      cases quota with
      | zero => cases h
      | succ quota =>
          rw [search_some_cons] at h
          rw [search_none_cons]
          by_cases ends : b = newline
          · rw [if_pos ends] at h
            cases h
          · rw [if_neg ends] at h ⊢
            obtain ⟨goes_on, left, rfl, spent⟩ := ih h
            refine ⟨goes_on, left, rfl, ?_⟩
            rw [spent, List.length_cons]
            omega

/-- A line gathered along deliveries is the same without the quota, unless the quota has
been used up. -/
theorem gatherFrom_none_or (script : List Delivery) (quota : Nat) (taken buffer : Bytes) :
    gatherFrom script none taken buffer = gatherFrom script (some quota) taken buffer ∨
      ∃ raw r, gatherFrom script (some quota) taken buffer = .line raw r ∧
        raw.length = taken.length + quota := by
  induction script generalizing quota taken buffer with
  | nil =>
      rw [gatherFrom, gatherFrom]
      cases searched : search (some quota) taken buffer with
      | found taken' buffer' =>
          rcases search_none_of_found searched with used | same
          · exact Or.inr ⟨_, _, rfl, by rw [List.length_reverse, used]⟩
          · rw [same]
            exact Or.inl rfl
      | wanting quota' taken' =>
          rw [(search_none_of_wanting searched).1]
          exact Or.inl rfl
  | cons d script ih =>
      rw [gatherFrom, gatherFrom]
      cases searched : search (some quota) taken buffer with
      | found taken' buffer' =>
          rcases search_none_of_found searched with used | same
          · exact Or.inr ⟨_, _, rfl, by rw [List.length_reverse, used]⟩
          · rw [same]
            exact Or.inl rfl
      | wanting quota' taken' =>
          obtain ⟨goes_on, left, rfl, spent⟩ := search_none_of_wanting searched
          rw [goes_on, ← spent]
          cases d with
          | bytes run => exact ih left taken' run
          | failure cause =>
              by_cases interrupted : cause.isInterrupted = true
              · simp only [if_pos interrupted]
                exact ih left taken' []
              · refine Or.inl ?_
                simp only [if_neg interrupted]

/-- **Without the quota** the same is gathered, unless the quota has been used up. -/
theorem gather_none_or (r : Reader) (quota : Nat) :
    r.gather none = r.gather (some quota) ∨
      ∃ raw r', r.gather (some quota) = .line raw r' ∧ raw.length = quota := by
  have either := gatherFrom_none_or r.script quota [] r.buffer
  rwa [List.length_nil, Nat.zero_add] at either

/-! ## Within the quota -/

/-- No more is cut off a tape than the quota. -/
theorem length_le_of_cut {quota : Nat} {taken raw : Bytes} {t rest : Tape}
    (h : Tape.cut (some quota) taken t = .line raw rest) :
    raw.length ≤ taken.length + quota := by
  induction t generalizing quota taken with
  | nil =>
      have all : raw = taken.reverse := by cases quota <;> cases h <;> rfl
      rw [all, List.length_reverse]
      exact Nat.le_add_right _ _
  | cons cell t ih =>
      cases quota with
      | zero =>
          cases h
          rw [List.length_reverse]
          exact Nat.le_refl _
      | succ quota =>
          cases cell with
          | failure cause => cases h
          | byte b =>
              change (if b = newline then .line (b :: taken).reverse t
                else Tape.cut (some quota) (b :: taken) t : Tape.Cut) = _ at h
              by_cases ends : b = newline
              · rw [if_pos ends] at h
                cases h
                rw [List.length_reverse, List.length_cons]
                omega
              · rw [if_neg ends] at h
                have within := ih h
                rw [List.length_cons] at within
                omega

/-- No more is gathered than the quota. -/
theorem length_le_of_gather {r r' : Reader} {quota : Nat} {raw : Bytes}
    (h : r.gather (some quota) = .line raw r') : raw.length ≤ quota := by
  have cut := r.onTape_gather (some quota)
  rw [h] at cut
  have within := length_le_of_cut cut.symm
  rwa [List.length_nil, Nat.zero_add] at within

end Reader

end Interleave
