/-
# Reading from a stream

A reader is given by what it will deliver: runs of bytes, and failures between them.
Bytes delivered and not yet taken wait in a buffer.  A line is gathered from the
buffer and from as many deliveries as it takes to meet a line end, the end of the
input, or a quota of bytes.  A stream can also be read to its end in one go.

* `Reader.rest` : the bytes not yet taken;
* `Reader.readAll` : all of them, unless a failure stands between;
* `Reader.gather` : takes the next line;
* `rest_gather` : a line that is taken is the front of the rest;
* `rest_gather_failed` : a failed reading may lose bytes and never adds any.
-/
import Interleave.Text.Ascii
import Interleave.Stream.IoError

namespace Interleave

/-! ## Readers -/

/-- What a stream delivers when it is asked once. -/
inductive Delivery where
  | bytes (run : Bytes)
  | failure (cause : IoError)
  deriving DecidableEq, Repr

namespace Delivery

/-- The bytes of a delivery. -/
def content : Delivery → Bytes
  | .bytes run => run
  | .failure _ => []

/-- The bytes of deliveries, one after another. -/
def contents (script : List Delivery) : Bytes :=
  script.flatMap content

/-- The failure that ends a reading, where a delivery is one.  An interruption is not. -/
def stop? : Delivery → Option IoError
  | .bytes _ => none
  | .failure cause => if cause.isInterrupted then none else some cause

end Delivery

/-- A stream that is read from. -/
structure Reader where
  /-- Bytes that are delivered and not yet taken. -/
  buffer : Bytes
  /-- What is still to be delivered. -/
  script : List Delivery
  deriving DecidableEq, Repr

/-- A failure that a stream meets once, when it has delivered `offset` bytes. -/
structure Fault where
  offset : Nat
  cause : IoError
  deriving DecidableEq, Repr

namespace Reader

/-- The bytes not yet taken. -/
def rest (r : Reader) : Bytes := r.buffer ++ Delivery.contents r.script

/-- A stream that delivers all its content at once. -/
def ofBytes (content : Bytes) : Reader := ⟨content, []⟩

/-! ## Reading to the end -/

/-- Reads a stream to its end.  An interruption is passed over; any other failure ends
the reading, and what was read before it is lost. -/
def readAll (r : Reader) : Except IoError Bytes :=
  match r.script.findSome? Delivery.stop? with
  | some cause => .error cause
  | none => .ok r.rest

/-- A stream that delivers all its content at once is read to its end. -/
@[simp] theorem readAll_ofBytes (content : Bytes) : (ofBytes content).readAll = .ok content := by
  simp [readAll, ofBytes, rest, Delivery.contents]

/-! ## Streams with small deliveries and failures -/

/-- The deliveries of a run of bytes, each of `size` bytes but the last; a size of
zero counts as one. -/
def cut (size : Nat) (made : List Delivery) : Bytes → List Delivery
  | [] => made.reverse
  | b :: run => cut size (.bytes (b :: run.take (size - 1)) :: made) (run.drop (size - 1))
termination_by run => run.length
decreasing_by rw [List.length_drop, List.length_cons]; omega

/-- The deliveries of a run of bytes: of a given size, or all at once. -/
def deliveries (size : Option Nat) (run : Bytes) : List Delivery :=
  match size with
  | some size => cut size [] run
  | none => if run = [] then [] else [.bytes run]

/-- The deliveries of a content that is interrupted by faults, which come in the
order of their offsets.  `position` bytes are delivered already.  A fault beyond the
end of the content is never met. -/
def schedule (size : Option Nat) : Nat → Bytes → List Fault → List Delivery
  | _, content, [] => deliveries size content
  | position, content, fault :: faults =>
      let gap := fault.offset - position
      if content.length < gap then deliveries size content
      else
        deliveries size (content.take gap) ++
          .failure fault.cause :: schedule size (position + gap) (content.drop gap) faults

/-- A stream with the given content, size of deliveries and faults. -/
def ofContent (content : Bytes) (size : Option Nat) (faults : List Fault) : Reader :=
  ⟨[], schedule size 0 content (faults.mergeSort fun a b => a.offset ≤ b.offset)⟩

/-! ## Gathering a line -/

/-- How far a line is gathered when the buffer has been looked through. -/
inductive Search where
  /-- The line ends here; the bytes taken, newest first, and what stays in the buffer. -/
  | found (taken : Bytes) (buffer : Bytes)
  /-- The buffer is used up and the line goes on; what is left of the quota. -/
  | wanting (quota : Option Nat) (taken : Bytes)
  deriving DecidableEq, Repr

/-- Takes bytes from the buffer up to a line end, or until the quota is used up. -/
def search : Option Nat → Bytes → Bytes → Search
  | some 0, taken, buffer => .found taken buffer
  | quota, taken, [] => .wanting quota taken
  | quota, taken, b :: buffer =>
      if b = newline then .found (b :: taken) buffer
      else search (quota.map (· - 1)) (b :: taken) buffer

/-- What an attempt to take a line gives. -/
inductive Gathered where
  /-- The bytes of the line, none at the end of the input. -/
  | line (raw : Bytes) (reader : Reader)
  /-- A failure, which loses the bytes taken so far. -/
  | failed (cause : IoError) (reader : Reader)
  deriving DecidableEq, Repr

/-- Gathers a line from a buffer and the deliveries after it.  An interruption is
passed over; any other failure ends the attempt.  Nothing is asked of the stream
once the line is complete. -/
def gatherFrom : List Delivery → Option Nat → Bytes → Bytes → Gathered
  | script, quota, taken, buffer =>
    match search quota taken buffer with
    | .found taken buffer => .line taken.reverse ⟨buffer, script⟩
    | .wanting quota taken =>
      match script with
      | [] => .line taken.reverse ⟨[], []⟩
      | .bytes run :: script => gatherFrom script quota taken run
      | .failure cause :: script =>
          if cause.isInterrupted then gatherFrom script quota taken []
          else .failed cause ⟨[], script⟩

/-- Takes the next line, terminator included, but no more than `quota` bytes. -/
def gather (r : Reader) (quota : Option Nat) : Gathered :=
  gatherFrom r.script quota [] r.buffer

/-! ## No byte is lost -/

/-- A complete line and what stays in the buffer are what was there. -/
theorem search_found {quota : Option Nat} {taken buffer taken' buffer' : Bytes}
    (h : search quota taken buffer = .found taken' buffer') :
    taken'.reverse ++ buffer' = taken.reverse ++ buffer := by
  fun_induction search quota taken buffer with
  | case1 =>
      cases h
      rfl
  | case2 => cases h
  | case3 =>
      cases h
      simp
  | case4 quota taken b buffer _ _ ih =>
      rw [ih h]
      simp

/-- Where the line goes on, all of the buffer has been taken. -/
theorem search_wanting {quota quota' : Option Nat} {taken buffer taken' : Bytes}
    (h : search quota taken buffer = .wanting quota' taken') :
    taken'.reverse = taken.reverse ++ buffer := by
  fun_induction search quota taken buffer with
  | case1 => cases h
  | case2 =>
      cases h
      simp
  | case3 => cases h
  | case4 quota taken b buffer _ _ ih =>
      rw [ih h]
      simp

/-- The contents of deliveries, the first apart. -/
theorem contents_cons (d : Delivery) (script : List Delivery) :
    Delivery.contents (d :: script) = d.content ++ Delivery.contents script := by
  simp [Delivery.contents]

/-- A line gathered is the front of the bytes there were. -/
theorem rest_gatherFrom {script : List Delivery} {quota : Option Nat}
    {taken buffer raw : Bytes} {r : Reader}
    (h : gatherFrom script quota taken buffer = .line raw r) :
    raw ++ r.rest = taken.reverse ++ buffer ++ Delivery.contents script := by
  induction script generalizing quota taken buffer with
  | nil =>
      unfold gatherFrom at h
      split at h
      · next searched =>
          cases h
          simp [rest, ← search_found searched]
      · next searched =>
          cases h
          simp [rest, Delivery.contents, search_wanting searched]
  | cons d script ih =>
      unfold gatherFrom at h
      split at h
      · next searched =>
          cases h
          simp [rest, ← search_found searched]
      · next searched =>
          cases d with
          | bytes run =>
              rw [ih h, contents_cons, search_wanting searched]
              simp [Delivery.content]
          | failure cause =>
              simp only at h
              split at h
              · rw [ih h, contents_cons, search_wanting searched]
                simp [Delivery.content]
              · cases h

/-- **No byte is lost.**  A line that is taken is the front of the rest. -/
theorem rest_gather {r r' : Reader} {quota : Option Nat} {raw : Bytes}
    (h : r.gather quota = .line raw r') : raw ++ r'.rest = r.rest := by
  simpa [gather, rest] using rest_gatherFrom h

/-- What a failure leaves is the end of the bytes there were. -/
theorem rest_gatherFrom_failed {script : List Delivery} {quota : Option Nat}
    {taken buffer : Bytes} {cause : IoError} {r : Reader}
    (h : gatherFrom script quota taken buffer = .failed cause r) :
    r.rest <:+ Delivery.contents script := by
  induction script generalizing quota taken buffer with
  | nil =>
      unfold gatherFrom at h
      split at h <;> cases h
  | cons d script ih =>
      unfold gatherFrom at h
      split at h
      · cases h
      · rw [contents_cons]
        cases d with
        | bytes run => exact (ih h).trans (List.suffix_append _ _)
        | failure cause =>
            simp only at h
            split at h
            · exact (ih h).trans (List.suffix_append _ _)
            · cases h
              simp [rest, Delivery.content]

/-- What a failed reading leaves is the end of the rest. -/
theorem rest_gather_failed {r r' : Reader} {quota : Option Nat} {cause : IoError}
    (h : r.gather quota = .failed cause r') : r'.rest <:+ r.rest :=
  (rest_gatherFrom_failed h).trans (List.suffix_append _ _)

end Reader

end Interleave
