/-
# The tape of a stream

Where one delivery of a stream ends and the next begins does not show in the lines
that are gathered from it, and an interruption does not show either.  What does show
is the tape: the bytes still to be taken and the failures between them, in order.

* `Reader.tape` : the tape of a stream;
* `Tape.cut` : a line cut off the front of a tape;
* `onTape_gather` : gathering a line from a stream is cutting it off the tape;
* `gather_line`, `gather_failed` : what is gathered, and what is left;
* `tape_ofContent` : the tape of a content with faults, whatever the deliveries;
* `tape_ofContent_take` : the tape of the front of a content, with the faults before
  its end.
-/
import Interleave.Proofs.Order.StableSort
import Interleave.Proofs.Text.Lines
import Interleave.Stream.Reader

namespace Interleave

/-! ## Tapes -/

/-- One thing on a tape. -/
inductive Cell where
  | byte (b : UInt8)
  | failure (cause : IoError)
  deriving DecidableEq, Repr

/-- Bytes and failures in the order in which they are met. -/
abbrev Tape := List Cell

/-- The byte of a cell, if it is one. -/
def Cell.byte? : Cell → Option UInt8
  | .byte b => some b
  | .failure _ => none

namespace Tape

/-- A tape of bytes. -/
def ofBytes (c : Bytes) : Tape := c.map .byte

/-- The bytes of a tape. -/
def bytes (t : Tape) : Bytes := t.filterMap Cell.byte?

/-- The tape of a failure: an interruption leaves no trace. -/
def ofFailure (cause : IoError) : Tape :=
  if cause.isInterrupted then [] else [.failure cause]

/-- What cutting a line off a tape gives. -/
inductive Cut where
  /-- The bytes of the line, none at the end of the tape. -/
  | line (raw : Bytes) (rest : Tape)
  | failed (cause : IoError) (rest : Tape)

/-- Cuts a line off a tape, with no more than `quota` bytes.  The bytes taken so far
are given newest first. -/
def cut : Option Nat → Bytes → Tape → Cut
  | some 0, taken, t => .line taken.reverse t
  | _, taken, [] => .line taken.reverse []
  | quota, taken, .byte b :: t =>
      if b = newline then .line (b :: taken).reverse t
      else cut (quota.map (· - 1)) (b :: taken) t
  | _, _, .failure cause :: t => .failed cause t

/-- The front of a tape that holds `n` bytes, with no failure after the last. -/
def upTo : Nat → Tape → Tape
  | 0, _ => []
  | _, [] => []
  | n + 1, .byte b :: t => .byte b :: upTo n t
  | n + 1, .failure cause :: t => .failure cause :: upTo (n + 1) t

/-! ## Bytes on a tape -/

@[simp] theorem ofBytes_nil : ofBytes [] = [] := rfl

@[simp] theorem ofBytes_cons (b : UInt8) (c : Bytes) :
    ofBytes (b :: c) = .byte b :: ofBytes c := rfl

@[simp] theorem ofBytes_append (c d : Bytes) : ofBytes (c ++ d) = ofBytes c ++ ofBytes d :=
  List.map_append

/-- Bytes are no failures. -/
theorem failure_notMem_ofBytes (cause : IoError) (c : Bytes) :
    .failure cause ∉ ofBytes c := by
  intro member
  rw [ofBytes, List.mem_map] at member
  obtain ⟨b, -, impossible⟩ := member
  cases impossible

@[simp] theorem bytes_append (t u : Tape) : bytes (t ++ u) = bytes t ++ bytes u :=
  List.filterMap_append

@[simp] theorem bytes_ofBytes (c : Bytes) : bytes (ofBytes c) = c := by
  rw [bytes, ofBytes, List.filterMap_map]
  exact List.filterMap_some

@[simp] theorem bytes_ofFailure (cause : IoError) : bytes (ofFailure cause) = [] := by
  rw [ofFailure]
  split <;> rfl

/-- The front of a tape of bytes. -/
theorem upTo_ofBytes (n : Nat) (c : Bytes) : upTo n (ofBytes c) = ofBytes (c.take n) := by
  induction c generalizing n with
  | nil => cases n <;> rfl
  | cons b c ih =>
      cases n with
      | zero => rfl
      | succ n => rw [ofBytes_cons, upTo, ih, List.take_succ_cons, ofBytes_cons]

/-- Of a tape that begins with enough bytes the front is of bytes alone. -/
theorem upTo_ofBytes_append_ge (n : Nat) (c : Bytes) (t : Tape) (h : n ≤ c.length) :
    upTo n (ofBytes c ++ t) = ofBytes (c.take n) := by
  induction c generalizing n with
  | nil =>
      obtain rfl := Nat.le_zero.mp h
      rw [upTo, List.take_zero, ofBytes_nil]
  | cons b c ih =>
      cases n with
      | zero => rw [upTo, List.take_zero, ofBytes_nil]
      | succ n =>
          rw [List.length_cons, Nat.succ_le_succ_iff] at h
          rw [ofBytes_cons, List.cons_append, upTo, ih n h, List.take_succ_cons, ofBytes_cons]

/-- Bytes at the beginning count first. -/
theorem upTo_ofBytes_append_le (n : Nat) (c : Bytes) (t : Tape) (h : c.length ≤ n) :
    upTo n (ofBytes c ++ t) = ofBytes c ++ upTo (n - c.length) t := by
  induction c generalizing n with
  | nil => rfl
  | cons b c ih =>
      obtain ⟨n, rfl⟩ : ∃ m, n = m + 1 := ⟨n - 1, by rw [List.length_cons] at h; omega⟩
      rw [List.length_cons, Nat.succ_le_succ_iff] at h
      rw [ofBytes_cons, List.cons_append, upTo, ih n h, List.length_cons,
        Nat.add_sub_add_right]
      rfl

/-- A failure before the last byte is kept. -/
theorem upTo_ofFailure_append (n : Nat) (cause : IoError) (t : Tape) (h : 0 < n) :
    upTo n (ofFailure cause ++ t) = ofFailure cause ++ upTo n t := by
  obtain ⟨n, rfl⟩ : ∃ m, n = m + 1 := ⟨n - 1, by omega⟩
  rw [ofFailure]
  split
  · rfl
  · rfl

/-! ## Cutting a line off -/

/-- The end of the tape ends the line. -/
theorem cut_nil {quota : Option Nat} (h : quota ≠ some 0) (taken : Bytes) :
    cut quota taken [] = .line taken.reverse [] := by
  cases quota with
  | none => rfl
  | some n =>
      cases n with
      | zero => exact absurd rfl h
      | succ n => rfl

/-- A failure ends the attempt. -/
theorem cut_failure {quota : Option Nat} (h : quota ≠ some 0) (taken : Bytes)
    (cause : IoError) (t : Tape) :
    cut quota taken (.failure cause :: t) = .failed cause t := by
  cases quota with
  | none => rfl
  | some n =>
      cases n with
      | zero => exact absurd rfl h
      | succ n => rfl

/-- **What is cut off.**  The bytes come off the front.  They end in their only line
end, or they have none and the tape or the quota is used up. -/
theorem cut_line {quota : Option Nat} {taken raw : Bytes} {t rest : Tape}
    (h : cut quota taken t = .line raw rest) :
    ∃ piece : Bytes, raw = taken.reverse ++ piece ∧ t = ofBytes piece ++ rest ∧
      (piece.IsEnded ∨ newline ∉ piece ∧ (rest = [] ∨ quota = some piece.length)) := by
  fun_induction cut quota taken t with
  | case1 taken t =>
      cases h
      exact ⟨[], by simp, rfl, Or.inr ⟨List.not_mem_nil, Or.inr rfl⟩⟩
  | case2 quota taken _ =>
      cases h
      exact ⟨[], by simp, rfl, Or.inr ⟨List.not_mem_nil, Or.inl rfl⟩⟩
  | case3 quota taken t _ =>
      cases h
      exact ⟨[newline], by simp, rfl, Or.inl ⟨[], List.not_mem_nil, rfl⟩⟩
  | case4 quota taken b t asked other ih =>
      obtain ⟨piece, rfl, rfl, shape⟩ := ih h
      refine ⟨b :: piece, by simp, rfl, ?_⟩
      rcases shape with ⟨body, clean, rfl⟩ | ⟨clean, stop⟩
      · exact Or.inl ⟨b :: body, List.not_mem_cons_of_ne_of_not_mem (Ne.symm other) clean, rfl⟩
      · refine Or.inr ⟨List.not_mem_cons_of_ne_of_not_mem (Ne.symm other) clean, ?_⟩
        rcases stop with done | used
        · exact Or.inl done
        · rw [Option.map_eq_some_iff] at used
          obtain ⟨q, rfl, less⟩ := used
          have some_left : q ≠ 0 := fun zero => asked (congrArg some zero)
          refine Or.inr (congrArg some ?_)
          rw [List.length_cons]
          omega
  | case5 => cases h

/-- **What is lost** where a failure is met: bytes of a line that has not come to its
end. -/
theorem cut_eq_failed {quota : Option Nat} {taken : Bytes} {t rest : Tape} {cause : IoError}
    (h : cut quota taken t = .failed cause rest) :
    ∃ lost : Bytes, newline ∉ lost ∧ t = ofBytes lost ++ .failure cause :: rest := by
  fun_induction cut quota taken t with
  | case1 => cases h
  | case2 => cases h
  | case3 => cases h
  | case4 quota taken b t _ other ih =>
      obtain ⟨lost, clean, rfl⟩ := ih h
      exact ⟨b :: lost, List.not_mem_cons_of_ne_of_not_mem (Ne.symm other) clean, rfl⟩
  | case5 =>
      cases h
      exact ⟨[], List.not_mem_nil, rfl⟩

end Tape

/-! ## The tape of a stream -/

/-- The tape of a delivery. -/
def Delivery.tape : Delivery → Tape
  | .bytes run => Tape.ofBytes run
  | .failure cause => Tape.ofFailure cause

/-- The tape of deliveries one after another. -/
def Delivery.tapes (script : List Delivery) : Tape := script.flatMap Delivery.tape

@[simp] theorem Delivery.tapes_append (a b : List Delivery) :
    tapes (a ++ b) = tapes a ++ tapes b := List.flatMap_append

@[simp] theorem Delivery.tapes_cons (d : Delivery) (script : List Delivery) :
    tapes (d :: script) = d.tape ++ tapes script := List.flatMap_cons

/-- The bytes of deliveries are on their tape. -/
theorem Delivery.bytes_tapes (script : List Delivery) :
    (tapes script).bytes = contents script := by
  induction script with
  | nil => rfl
  | cons d script ih =>
      rw [tapes_cons, Tape.bytes_append, ih, Reader.contents_cons]
      cases d with
      | bytes run => rw [tape, Tape.bytes_ofBytes, content]
      | failure cause => rw [tape, Tape.bytes_ofFailure, content]

/-- The fault is met before `n` bytes have been delivered. -/
def Fault.before (n : Nat) (fault : Fault) : Bool := fault.offset < n

theorem Fault.before_iff {n : Nat} {fault : Fault} :
    fault.before n = true ↔ fault.offset < n := decide_eq_true_iff

/-- The order in which faults are met. -/
def Fault.notAfter (a b : Fault) : Bool := a.offset ≤ b.offset

theorem Fault.notAfter_iff {a b : Fault} : a.notAfter b = true ↔ a.offset ≤ b.offset :=
  decide_eq_true_iff

theorem Fault.orders_notAfter : StableSort.Orders Fault.notAfter where
  trans a b c ab bc := by
    rw [notAfter_iff] at ab bc ⊢
    exact Nat.le_trans ab bc
  total a b := by
    rw [Bool.or_eq_true, notAfter_iff, notAfter_iff]
    exact Nat.le_total a.offset b.offset

namespace Reader

/-- The tape of a stream. -/
def tape (r : Reader) : Tape := Tape.ofBytes r.buffer ++ Delivery.tapes r.script

/-- The bytes not yet taken are those on the tape. -/
theorem bytes_tape (r : Reader) : r.tape.bytes = r.rest := by
  rw [tape, Tape.bytes_append, Tape.bytes_ofBytes, Delivery.bytes_tapes, rest]

/-- What is gathered, with the tape that is left in place of the stream. -/
def Gathered.onTape : Gathered → Tape.Cut
  | .line raw r => .line raw r.tape
  | .failed cause r => .failed cause r.tape

/-- Looking through the buffer is cutting along its bytes. -/
theorem cut_ofBytes_append (quota : Option Nat) (taken buffer : Bytes) (t : Tape) :
    Tape.cut quota taken (Tape.ofBytes buffer ++ t) =
      match search quota taken buffer with
      | .found taken buffer => .line taken.reverse (Tape.ofBytes buffer ++ t)
      | .wanting quota taken => Tape.cut quota taken t := by
  fun_induction search quota taken buffer with
  | case1 taken buffer => rw [Tape.cut]
  | case2 quota taken asked => rfl
  | case3 quota taken buffer asked =>
      rw [Tape.ofBytes_cons, List.cons_append, Tape.cut, if_pos rfl]
      exact asked
  | case4 quota taken b buffer asked other ih =>
      rw [Tape.ofBytes_cons, List.cons_append, Tape.cut, if_neg other, ih]
      exact asked

/-- Where more is wanted the quota is not used up. -/
theorem search_wanting_ne {quota quota' : Option Nat} {taken buffer taken' : Bytes}
    (h : search quota taken buffer = .wanting quota' taken') : quota' ≠ some 0 := by
  fun_induction search quota taken buffer with
  | case1 => cases h
  | case2 quota taken asked =>
      cases h
      exact asked
  | case3 => cases h
  | case4 quota taken b buffer _ _ ih => exact ih h

/-- Gathering along deliveries is cutting along their tape. -/
theorem onTape_gatherFrom (script : List Delivery) (quota : Option Nat)
    (taken buffer : Bytes) :
    (gatherFrom script quota taken buffer).onTape =
      Tape.cut quota taken (Tape.ofBytes buffer ++ Delivery.tapes script) := by
  induction script generalizing quota taken buffer with
  | nil =>
      rw [gatherFrom, cut_ofBytes_append]
      cases searched : search quota taken buffer with
      | found taken buffer => rfl
      | wanting quota taken =>
          exact (Tape.cut_nil (search_wanting_ne searched) taken).symm
  | cons d script ih =>
      rw [gatherFrom, cut_ofBytes_append]
      cases searched : search quota taken buffer with
      | found taken buffer => rfl
      | wanting quota taken =>
          rw [Delivery.tapes_cons]
          cases d with
          | bytes run => exact ih quota taken run
          | failure cause =>
              show (if cause.isInterrupted then _ else _ : Gathered).onTape = _
              rw [Delivery.tape, Tape.ofFailure]
              split
              · exact ih quota taken []
              · exact (Tape.cut_failure (search_wanting_ne searched) taken cause _).symm

/-- **Only the tape shows.**  Gathering a line from a stream is cutting it off the
tape. -/
theorem onTape_gather (r : Reader) (quota : Option Nat) :
    (r.gather quota).onTape = Tape.cut quota [] r.tape :=
  onTape_gatherFrom r.script quota [] r.buffer

/-- **What is gathered.**  A line comes off the front of the tape.  It ends in its
only line end, or it has none and the stream or the quota is used up. -/
theorem gather_line {r r' : Reader} {quota : Option Nat} {raw : Bytes}
    (h : r.gather quota = .line raw r') :
    r.tape = Tape.ofBytes raw ++ r'.tape ∧
      (raw.IsEnded ∨ newline ∉ raw ∧ (r'.tape = [] ∨ quota = some raw.length)) := by
  have cut := r.onTape_gather quota
  rw [h] at cut
  obtain ⟨piece, rfl, front, shape⟩ := Tape.cut_line cut.symm
  exact ⟨front, shape⟩

/-- What is gathered is the front of the first line of what there was. -/
theorem lines_rest_of_gather {r r' : Reader} {quota : Option Nat} {raw : Bytes}
    (h : r.gather quota = .line raw r') (ne : raw ≠ []) :
    ∃ more others, r.rest.lines = (raw ++ more) :: others := by
  rw [← rest_gather h]
  obtain ⟨-, ended | ⟨clean, -⟩⟩ := gather_line h
  · refine ⟨[], r'.rest.lines, ?_⟩
    rw [List.append_nil, Bytes.lines_append_of_isEnded ended]
  · exact Bytes.lines_append_of_not_mem clean ne r'.rest

/-- A line that ends in the buffer has bytes, unless none are asked for. -/
theorem search_found_ne {quota : Option Nat} {taken buffer taken' buffer' : Bytes}
    (h : search quota taken buffer = .found taken' buffer')
    (asked : quota ≠ some 0 ∨ taken ≠ []) : taken' ≠ [] := by
  fun_induction search quota taken buffer with
  | case1 =>
      cases h
      exact asked.resolve_left fun zero => zero rfl
  | case2 => cases h
  | case3 =>
      cases h
      exact List.cons_ne_nil _ _
  | case4 quota taken b buffer _ _ ih => exact ih h (Or.inr (List.cons_ne_nil b taken))

/-- Along deliveries nothing is gathered only where they come to their end. -/
theorem gatherFrom_nil {script : List Delivery} {quota : Option Nat} {taken buffer : Bytes}
    {r : Reader} (h : gatherFrom script quota taken buffer = .line [] r)
    (asked : quota ≠ some 0) : r = ⟨[], []⟩ := by
  induction script generalizing quota taken buffer with
  | nil =>
      rw [gatherFrom] at h
      split at h
      · next searched =>
          obtain ⟨empty, -⟩ := Gathered.line.inj h
          exact absurd (List.reverse_eq_nil_iff.mp empty) (search_found_ne searched (Or.inl asked))
      · exact (Gathered.line.inj h).2.symm
  | cons d script ih =>
      rw [gatherFrom] at h
      split at h
      · next searched =>
          obtain ⟨empty, -⟩ := Gathered.line.inj h
          exact absurd (List.reverse_eq_nil_iff.mp empty) (search_found_ne searched (Or.inl asked))
      · next searched =>
          have left := search_wanting_ne searched
          cases d with
          | bytes run => exact ih h left
          | failure cause =>
              simp only at h
              split at h
              · exact ih h left
              · cases h

/-- **The end of a stream.**  Nothing is gathered only where nothing is left. -/
theorem gather_nil {r r' : Reader} {quota : Option Nat} (h : r.gather quota = .line [] r')
    (asked : quota ≠ some 0) : r' = ⟨[], []⟩ := gatherFrom_nil h asked

/-- **What is lost** by an attempt that fails: bytes of a line that has not come to its
end. -/
theorem gather_eq_failed {r r' : Reader} {quota : Option Nat} {cause : IoError}
    (h : r.gather quota = .failed cause r') :
    ∃ lost : Bytes, newline ∉ lost ∧ r.tape = Tape.ofBytes lost ++ .failure cause :: r'.tape := by
  have cut := r.onTape_gather quota
  rw [h] at cut
  exact Tape.cut_eq_failed cut.symm

/-- A failure that ends an attempt is on the tape. -/
theorem gather_failed {r r' : Reader} {quota : Option Nat} {cause : IoError}
    (h : r.gather quota = .failed cause r') : .failure cause ∈ r.tape := by
  obtain ⟨lost, -, tape⟩ := gather_eq_failed h
  rw [tape]
  exact List.mem_append_right _ List.mem_cons_self

/-! ## Contents with faults -/

/-- The tape of a content with faults, which come in the order of their offsets.
`position` bytes are before it. -/
def faultyTape : Nat → Bytes → List Fault → Tape
  | _, content, [] => Tape.ofBytes content
  | position, content, fault :: faults =>
      let gap := fault.offset - position
      if content.length < gap then Tape.ofBytes content
      else
        Tape.ofBytes (content.take gap) ++
          (Tape.ofFailure fault.cause ++ faultyTape (position + gap) (content.drop gap) faults)

/-- The faults of a stream in the order in which they are met. -/
def inOrder (faults : List Fault) : List Fault :=
  faults.mergeSort Fault.notAfter

/-- The size of the deliveries does not show. -/
theorem tapes_cut (size : Nat) (made : List Delivery) (run : Bytes) :
    Delivery.tapes (cut size made run) = Delivery.tapes made.reverse ++ Tape.ofBytes run := by
  fun_induction cut size made run with
  | case1 made => rw [Tape.ofBytes_nil, List.append_nil]
  | case2 made b run ih =>
      rw [ih, List.reverse_cons, Delivery.tapes_append, List.append_assoc]
      congr 1
      rw [Delivery.tapes_cons, Delivery.tape, Delivery.tapes, List.flatMap_nil,
        List.append_nil, ← Tape.ofBytes_append, List.cons_append, List.take_append_drop]

/-- Deliveries of whatever size have the bytes on their tape. -/
theorem tapes_deliveries (size : Option Nat) (run : Bytes) :
    Delivery.tapes (deliveries size run) = Tape.ofBytes run := by
  cases size with
  | some size => exact tapes_cut size [] run
  | none =>
      rw [deliveries]
      split
      · next empty =>
          rw [empty]
          rfl
      · exact List.append_nil _

/-- The deliveries of a content with faults have its tape. -/
theorem tapes_schedule (size : Option Nat) (position : Nat) (content : Bytes)
    (faults : List Fault) :
    Delivery.tapes (schedule size position content faults) =
      faultyTape position content faults := by
  induction faults generalizing position content with
  | nil => exact tapes_deliveries size content
  | cons fault faults ih =>
      rw [schedule, faultyTape]
      split
      · exact tapes_deliveries size content
      · rw [Delivery.tapes_append, tapes_deliveries, Delivery.tapes_cons, Delivery.tape, ih]

/-- **The tape of a content with faults.** -/
theorem tape_ofContent (content : Bytes) (size : Option Nat) (faults : List Fault) :
    (ofContent content size faults).tape = faultyTape 0 content (inOrder faults) :=
  tapes_schedule size 0 content (inOrder faults)

/-- Interruptions do not show. -/
theorem faultyTape_of_interrupted {faults : List Fault}
    (interrupted : ∀ fault ∈ faults, fault.cause.isInterrupted = true) (position : Nat)
    (content : Bytes) : faultyTape position content faults = Tape.ofBytes content := by
  induction faults generalizing position content with
  | nil => rfl
  | cons fault faults ih =>
      have first := interrupted fault List.mem_cons_self
      rw [faultyTape]
      split
      · rfl
      · rw [Tape.ofFailure, if_pos first, List.nil_append,
          ih fun f member => interrupted f (List.mem_cons_of_mem fault member),
          ← Tape.ofBytes_append, List.take_append_drop]

/-- The tape of a content whose stream is at most interrupted. -/
theorem tape_ofContent_of_interrupted {faults : List Fault}
    (interrupted : ∀ fault ∈ faults, fault.cause.isInterrupted = true) (content : Bytes)
    (size : Option Nat) : (ofContent content size faults).tape = Tape.ofBytes content := by
  rw [tape_ofContent]
  refine faultyTape_of_interrupted (fun fault member => ?_) 0 content
  exact interrupted fault (List.mem_mergeSort.mp member)

/-- Faults leave the content as it is. -/
theorem bytes_faultyTape (position : Nat) (content : Bytes) (faults : List Fault) :
    (faultyTape position content faults).bytes = content := by
  induction faults generalizing position content with
  | nil => exact Tape.bytes_ofBytes content
  | cons fault faults ih =>
      rw [faultyTape]
      split
      · exact Tape.bytes_ofBytes content
      · rw [Tape.bytes_append, Tape.bytes_append, Tape.bytes_ofBytes, Tape.bytes_ofFailure, ih,
          List.nil_append, List.take_append_drop]

/-- A stream has the content it was given. -/
theorem rest_ofContent (content : Bytes) (size : Option Nat) (faults : List Fault) :
    (ofContent content size faults).rest = content := by
  rw [← bytes_tape, tape_ofContent, bytes_faultyTape]

/-! ## The front of a content -/

/-- Leaving out faults leaves the others in their order. -/
theorem inOrder_filter (faults : List Fault) (p : Fault → Bool) :
    inOrder (faults.filter p) = (inOrder faults).filter p :=
  (StableSort.filter_mergeSort Fault.orders_notAfter faults p).symm

/-- Faults are met in the order of their offsets. -/
theorem pairwise_inOrder (faults : List Fault) :
    (inOrder faults).Pairwise fun a b => a.offset ≤ b.offset := by
  have sorted := StableSort.pairwise_mergeSort Fault.orders_notAfter faults
  exact sorted.imp Fault.notAfter_iff.mp

/-- The front of a tape has the front of the content and the faults before its end. -/
theorem faultyTape_take {faults : List Fault}
    (sorted : faults.Pairwise fun a b => a.offset ≤ b.offset) {n : Nat} (pos : 0 < n)
    (position : Nat) (content : Bytes) :
    faultyTape position (content.take n) (faults.filter (Fault.before (position + n))) =
      Tape.upTo n (faultyTape position content faults) := by
  induction faults generalizing position n content with
  | nil => exact (Tape.upTo_ofBytes n content).symm
  | cons fault faults ih =>
      by_cases before : fault.offset < position + n
      · rw [List.filter_cons_of_pos (Fault.before_iff.mpr before), faultyTape, faultyTape]
        have within : fault.offset - position < n := by omega
        -- A fault behind the end of the content is never met.
        by_cases short : content.length < fault.offset - position
        · have all : content.take n = content := List.take_of_length_le (by omega)
          rw [all, if_pos short, if_pos short, Tape.upTo_ofBytes, all]
        · have size : (content.take (fault.offset - position)).length =
              fault.offset - position := by
            rw [List.length_take]
            omega
          have long : ¬ (content.take n).length < fault.offset - position := by
            rw [List.length_take]
            omega
          have rest : position + n =
              position + (fault.offset - position) + (n - (fault.offset - position)) := by
            omega
          rw [if_neg long, if_neg short, List.take_take, Nat.min_eq_left (Nat.le_of_lt within),
            List.drop_take, rest, ih sorted.of_cons (by omega),
            Tape.upTo_ofBytes_append_le _ _ _ (by omega), size,
            Tape.upTo_ofFailure_append _ _ _ (by omega)]
      · -- The faults are sorted, so none of those that follow comes before the end either.
        have later : (fault :: faults).filter (Fault.before (position + n)) = [] := by
          refine List.filter_eq_nil_iff.mpr ?_
          intro f member within
          rw [Fault.before_iff] at within
          rcases List.mem_cons.mp member with rfl | member
          · exact before within
          · exact before (Nat.lt_of_le_of_lt (List.rel_of_pairwise_cons sorted member) within)
        rw [later, faultyTape, faultyTape]
        split
        · exact (Tape.upTo_ofBytes n content).symm
        · rw [Tape.upTo_ofBytes_append_ge, List.take_take, Nat.min_eq_left]
          · omega
          · rw [List.length_take]
            omega

/-- **The front of a content.**  With the faults before its end its tape is the front
of the whole tape. -/
theorem tape_ofContent_take (content : Bytes) (size : Option Nat) (faults : List Fault)
    (n : Nat) :
    (ofContent (content.take n) size (faults.filter (Fault.before n))).tape =
      Tape.upTo n (ofContent content size faults).tape := by
  rw [tape_ofContent, tape_ofContent, inOrder_filter]
  cases n with
  | zero =>
      have none : (inOrder faults).filter (Fault.before 0) = [] :=
        List.filter_eq_nil_iff.mpr fun f _ first =>
          Nat.not_lt_zero f.offset (Fault.before_iff.mp first)
      rw [none, Tape.upTo]
      rfl
  | succ n =>
      have front := faultyTape_take (pairwise_inOrder faults) (Nat.succ_pos n) 0 content
      rwa [Nat.zero_add] at front

end Reader

end Interleave
