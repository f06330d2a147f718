/-
# Interruptions

A read that is interrupted is tried again, so an interruption loses no bytes and no line.
Interruptions may be added to the faults of a stream, or taken from them, and its tape
stays the same.

* `Fault.lasts` : a fault that is no interruption;
* `faultyTape_split` : a tape may be made in two parts, before the faults and after;
* `faultyTape_filter_lasts` : interruptions do not show among other faults;
* `tape_ofContent_congr` : the tape of a content is made by the faults that are none.
-/
import Interleave.Proofs.Stream.Tape

namespace Interleave

/-- The fault is no interruption. -/
def Fault.lasts (fault : Fault) : Bool := !fault.cause.isInterrupted

namespace Reader

/-- A fault that is an interruption has no place on a tape. -/
theorem ofFailure_of_not_lasts {fault : Fault} (h : ¬ fault.lasts = true) :
    Tape.ofFailure fault.cause = [] := by
  unfold Fault.lasts at h
  simp at h
  simp [Tape.ofFailure, h]

/-- Faults beyond the end of a content are never met. -/
theorem faultyTape_of_beyond {position : Nat} {content : Bytes} {faults : List Fault}
    (beyond : ∀ fault ∈ faults, position + content.length < fault.offset) :
    faultyTape position content faults = Tape.ofBytes content := by
  cases faults with
  | nil => rfl
  | cons fault faults =>
      have first := beyond fault List.mem_cons_self
      rw [faultyTape, if_pos (by omega)]

/-- A tape may be made in two parts where all faults are met in the second. -/
theorem faultyTape_split {position gap : Nat} {content : Bytes} {faults : List Fault}
    (within : gap ≤ content.length)
    (later : ∀ fault ∈ faults, gap = 0 ∨ position + gap ≤ fault.offset) :
    Tape.ofBytes (content.take gap) ++ faultyTape (position + gap) (content.drop gap) faults =
      faultyTape position content faults := by
  cases faults with
  | nil =>
      simp only [faultyTape]
      rw [← Tape.ofBytes_append, List.take_append_drop]
  | cons fault faults =>
      have first := later fault List.mem_cons_self
      -- The distance to the first fault is what is left of it after the first part.
      have distance : fault.offset - position = gap + (fault.offset - (position + gap)) := by
        omega
      simp only [faultyTape]
      rw [List.length_drop, distance]
      by_cases beyond : content.length - gap < fault.offset - (position + gap)
      · rw [if_pos beyond, if_pos (by omega), ← Tape.ofBytes_append, List.take_append_drop]
      · rw [if_neg beyond, if_neg (by omega), List.take_add, Tape.ofBytes_append,
          List.append_assoc, List.drop_drop, Nat.add_assoc]

/-- **Interruptions do not show** among other faults. -/
theorem faultyTape_filter_lasts {faults : List Fault}
    (sorted : faults.Pairwise fun a b => a.offset ≤ b.offset) (position : Nat)
    (content : Bytes) :
    faultyTape position content (faults.filter Fault.lasts) =
      faultyTape position content faults := by
  induction faults generalizing position content with
  | nil => rfl
  | cons fault faults ih =>
      have rest := ih sorted.of_cons
      by_cases lasts : fault.lasts = true
      · rw [List.filter_cons_of_pos lasts]
        simp only [faultyTape]
        rw [rest]
      · -- The faults that are left come after the one that is passed over.
        have after : ∀ f ∈ faults.filter Fault.lasts, fault.offset ≤ f.offset := by
          intro f member
          exact List.rel_of_pairwise_cons sorted (List.mem_filter.mp member).1
        rw [List.filter_cons_of_neg lasts]
        conv => rhs; rw [faultyTape]
        split
        · next short =>
            apply faultyTape_of_beyond
            intro f member
            have := after f member
            omega
        · next long =>
            rw [ofFailure_of_not_lasts lasts, List.nil_append, ← rest]
            symm
            apply faultyTape_split
            · omega
            · intro f member
              have := after f member
              omega

/-- **The tape of a content** is made by the faults that are no interruptions, whatever
the deliveries. -/
theorem tape_ofContent_congr {faults faults' : List Fault}
    (same : faults.filter Fault.lasts = faults'.filter Fault.lasts) (content : Bytes)
    (size size' : Option Nat) :
    (ofContent content size faults).tape = (ofContent content size' faults').tape := by
  rw [tape_ofContent, tape_ofContent, ← faultyTape_filter_lasts (pairwise_inOrder faults),
    ← faultyTape_filter_lasts (pairwise_inOrder faults'), ← inOrder_filter, ← inOrder_filter,
    same]

end Reader

end Interleave
