/-
# The program

Gathers what the command is given, lets it run, and passes on what it leaves.  A file is
gathered with the failure that ends its reading, and the run meets it in its place.
All that is decided here is under what number a failure of the system is known.
-/
import Interleave.Program.Command

namespace Interleave

/-- The error with a number of the system.  Some operations negate it. -/
def ofSystemCode (code : UInt32) : IoError :=
  .system (if code.toNat < 0x80000000 then code.toNat else 0x100000000 - code.toNat)

/-- The error of the system behind a failed operation. -/
def ofSystemFailure (e : IO.Error) : IoError :=
  match e with
  | .alreadyExists _ code _ => ofSystemCode code
  | .otherError code _ => ofSystemCode code
  | .resourceBusy code _ => ofSystemCode code
  | .resourceVanished code _ => ofSystemCode code
  | .unsupportedOperation code _ => ofSystemCode code
  | .hardwareFault code _ => ofSystemCode code
  | .unsatisfiedConstraints code _ => ofSystemCode code
  | .illegalOperation code _ => ofSystemCode code
  | .protocolError code _ => ofSystemCode code
  | .timeExpired code _ => ofSystemCode code
  | .interrupted _ code _ => ofSystemCode code
  | .noFileOrDirectory _ code _ => ofSystemCode code
  | .invalidArgument _ code _ => ofSystemCode code
  | .permissionDenied _ code _ => ofSystemCode code
  | .resourceExhausted _ code _ => ofSystemCode code
  | .inappropriateType _ code _ => ofSystemCode code
  | .noSuchThing _ code _ => ofSystemCode code
  | .unexpectedEof => .plain .unexpectedEnd
  | .userError message => .described .other message

/-- How many bytes are asked of a file at once. -/
def chunkSize : USize := 65536

/-- What a file delivers up to its end, or up to a failure that is no interruption. -/
def deliveriesOf (file : IO.FS.Handle) : IO (List Delivery) :=
  IO.iterate [] fun made => do
    try
      let run ← file.read chunkSize
      return if run.isEmpty then .inr made.reverse else .inl (.bytes run.toList :: made)
    catch e =>
      let cause := ofSystemFailure e
      let made := .failure cause :: made
      return if cause.isInterrupted then .inl made else .inr made.reverse

/-- What a path leads to.  A directory shows when it is read. -/
def entryAt (path : String) : IO (Except IoError Entry) := do
  if path.any (· == '\x00') then return .error .zeroByteInPath
  try
    let script ← deliveriesOf (← IO.FS.Handle.mk path .read)
    if script = [.failure .isADirectory] then return .ok .directory
    let reader : Reader := ⟨[], script⟩
    return .ok (.stream ⟨reader.rest.length, reader⟩)
  catch e => return .error (ofSystemFailure e)

/-- The file of settings, unless it is not there. -/
def settingsAt (path : String) : IO (Option Entry) := do
  match ← entryAt path with
  | .ok entry => return some entry
  | .error cause =>
      if cause = .noSuchFile ∨ cause = .notADirectory then return none
      return some (.unreadable cause)

/-- What is given to the command, with standard output open to everything. -/
def gather (arguments : List String) : IO Invocation := do
  let home := (← IO.getEnv "HOME").getD "."
  let place := SettingsPlace.ofEnvironment (← IO.getEnv "XDG_CONFIG_HOME") home
  let paths := match Request.ofArguments arguments with
    | .ok (.merge paths _) => [paths.left, paths.right]
    | _ => []
  let found ← paths.mapM fun path => do return (path, ← entryAt path)
  return {
    arguments
    reportFilter := ← IO.getEnv "RUST_LOG"
    place
    settingsFile := ← settingsAt place.file
    lookup := fun path => (found.lookup path).getD (.error .noSuchFile)
    stdout := .unbounded }

/-- Writes what the command leaves for standard output.  Where that fails, the
command ends as it does when standard output refuses. -/
def deliver (i : Invocation) : IO Completion := do
  let done := i.complete
  try
    let stdout ← IO.getStdout
    stdout.write (ByteArray.mk done.stdout.contents.toArray)
    stdout.flush
    return done
  catch e => return { i with stdout := .refusing (ofSystemFailure e) }.complete

end Interleave

/-- Runs the command and ends with its exit status. -/
def main (arguments : List String) : IO UInt32 := do
  let done ← Interleave.deliver (← Interleave.gather arguments)
  for event in done.events do
    IO.eprintln s!"{event.level.label} {event.text}"
  for complaint in done.complaints do
    IO.eprintln complaint
  return UInt32.ofNat done.exitStatus
