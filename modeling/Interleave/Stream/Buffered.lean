/-
# Buffered writing

Writing to standard output passes through two buffers.  The outer one gathers large
blocks, the inner one, in front of the device, gathers lines: it lets complete lines
pass and holds back what follows the last line end.  Both pass bytes on in order.

A device that refuses shows when bytes reach it, so how much the buffers hold back
decides when a failure is seen.  Bytes on their way to a device that refuses them
are lost.

* `HeldBytes` : bytes held back, with their number;
* `LineBuffered` : the buffer of lines in front of a device;
* `BlockBuffered` : the buffer of blocks in front of that;
* `BlockBuffered.close` : passes on what is held and ignores failures.
-/
import Interleave.Stream.Sink

namespace Interleave

/-! ## Bytes held back -/

/-- Bytes held back, newest first, and how many they are. -/
structure HeldBytes where
  newest : Bytes
  size : Nat
  size_eq : size = newest.length
  deriving DecidableEq, Repr

namespace HeldBytes

/-- No bytes. -/
def empty : HeldBytes := ⟨[], 0, rfl⟩

/-- The bytes in order. -/
def contents (held : HeldBytes) : Bytes := held.newest.reverse

/-- The bytes with a further run after them. -/
def push (held : HeldBytes) (run : Bytes) : HeldBytes :=
  ⟨run.reverseAux held.newest, held.size + run.length, by
    simp [List.reverseAux_eq, held.size_eq, Nat.add_comm]⟩

/-- The held bytes end a line. -/
def endsLine (held : HeldBytes) : Bool := held.newest.head? == some newline

/-- A run that is pushed comes last. -/
theorem contents_push (held : HeldBytes) (run : Bytes) :
    (held.push run).contents = held.contents ++ run := by
  simp [push, contents, List.reverseAux_eq]

end HeldBytes

/-! ## Lines -/

/-- A device behind a buffer that lets complete lines pass. -/
structure LineBuffered where
  device : Sink
  held : HeldBytes

namespace LineBuffered

/-- How many bytes are held back at most. -/
def capacity : Nat := 1024

/-- A buffer that holds nothing yet. -/
def ofDevice (device : Sink) : LineBuffered := ⟨device, .empty⟩

/-- Writes to the device and holds back what was held already. -/
def direct (b : LineBuffered) (run : Bytes) : Except IoError Unit × LineBuffered :=
  let (result, device) := b.device.writeAll run
  (result, { b with device })

/-- Passes on what is held. -/
def release (b : LineBuffered) : Except IoError Unit × LineBuffered :=
  let (result, device) := b.device.writeAll b.held.contents
  (result, ⟨device, .empty⟩)

/-- Holds a run back, after making room for it; one that has no room in an empty
buffer goes to the device. -/
def hold (b : LineBuffered) (run : Bytes) : Except IoError Unit × LineBuffered :=
  let length := run.length
  let (result, b) := if capacity < b.held.size + length then b.release else (.ok (), b)
  match result with
  | .error cause => (.error cause, b)
  | .ok () =>
      if capacity ≤ length then b.direct run
      else (.ok (), { b with held := b.held.push run })

/-- A run cut after its last line end. -/
def splitLines (run : Bytes) : Bytes × Bytes :=
  let tail := run.reverse.takeWhile (· != newline)
  (run.take (run.length - tail.length), tail.reverse)

/-- Writes a run: complete lines go to the device, what follows them is held. -/
def writeAll (b : LineBuffered) (run : Bytes) : Except IoError Unit × LineBuffered :=
  let (lines, tail) := splitLines run
  let passing := if lines = [] then b.held.endsLine else true
  let (result, b) := if passing then b.release else (.ok (), b)
  match result with
  | .error cause => (.error cause, b)
  | .ok () =>
      match b.direct lines with
      | (.error cause, b) => (.error cause, b)
      | (.ok (), b) => b.hold tail

/-- Passes on what is held, and flushes the device. -/
def flush (b : LineBuffered) : Except IoError Unit × LineBuffered :=
  match b.release with
  | (.error cause, b) => (.error cause, b)
  | (.ok (), b) =>
      let (result, device) := b.device.flush
      (result, { b with device })

instance : ByteSink LineBuffered where
  writeAll := writeAll
  flush := flush

end LineBuffered

/-! ## Blocks -/

/-- A buffer of blocks in front of a buffer of lines. -/
structure BlockBuffered where
  inner : LineBuffered
  held : HeldBytes

namespace BlockBuffered

/-- How many bytes are held back at most. -/
def capacity : Nat := 65536

/-- Buffers that hold nothing yet. -/
def ofDevice (device : Sink) : BlockBuffered := ⟨.ofDevice device, .empty⟩

/-- The bytes that have reached the device. -/
def delivered (b : BlockBuffered) : Bytes := b.inner.device.contents

/-- Passes on what is held. -/
def release (b : BlockBuffered) : Except IoError Unit × BlockBuffered :=
  let (result, inner) := b.inner.writeAll b.held.contents
  (result, ⟨inner, .empty⟩)

/-- Holds a run back, after making room for it; one that has no room in an empty
buffer passes through. -/
def writeAll (b : BlockBuffered) (run : Bytes) : Except IoError Unit × BlockBuffered :=
  let length := run.length
  let (result, b) := if capacity < b.held.size + length then b.release else (.ok (), b)
  match result with
  | .error cause => (.error cause, b)
  | .ok () =>
      if capacity ≤ length then
        let (result, inner) := b.inner.writeAll run
        (result, { b with inner })
      else (.ok (), { b with held := b.held.push run })

/-- Passes on what is held, as far as the device. -/
def flush (b : BlockBuffered) : Except IoError Unit × BlockBuffered :=
  match b.release with
  | (.error cause, b) => (.error cause, b)
  | (.ok (), b) =>
      let (result, inner) := b.inner.flush
      (result, { b with inner })

instance : ByteSink BlockBuffered where
  writeAll := writeAll
  flush := flush

/-- Passes on what is held at the end of a run, where nobody asks whether it fails. -/
def close (b : BlockBuffered) : BlockBuffered :=
  let (_, released) := b.release
  let (_, inner) := released.inner.flush
  { released with inner }

end BlockBuffered

end Interleave
