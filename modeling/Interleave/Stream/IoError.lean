/-
# Input and output errors

What the operating system, or a stream in its place, answers when a read or a write
fails.

* `IoError` : the errors;
* `IoError.message` : the words in which an error is reported;
* `IoError.isInterrupted`, `IoError.isBrokenPipe` : the two errors that are treated
  unlike the others.
-/

namespace Interleave

namespace IoError

/-- The kinds of errors that are told apart. -/
inductive Kind where
  | notFound
  | permissionDenied
  | connectionReset
  | brokenPipe
  | alreadyExists
  | wouldBlock
  | invalidInput
  | invalidData
  | timedOut
  | writeZero
  | interrupted
  | unexpectedEnd
  | other
  deriving DecidableEq, Repr

/-- The words for a kind, where nothing more is known. -/
def Kind.message : Kind → String
  | .notFound => "entity not found"
  | .permissionDenied => "permission denied"
  | .connectionReset => "connection reset"
  | .brokenPipe => "broken pipe"
  | .alreadyExists => "entity already exists"
  | .wouldBlock => "operation would block"
  | .invalidInput => "invalid input parameter"
  | .invalidData => "invalid data"
  | .timedOut => "timed out"
  | .writeZero => "write zero"
  | .interrupted => "operation interrupted"
  | .unexpectedEnd => "unexpected end of file"
  | .other => "other error"

/-- The system's words for an error number. -/
def systemMessage : Nat → String
  | 1 => "Operation not permitted"
  | 2 => "No such file or directory"
  | 4 => "Interrupted system call"
  | 5 => "Input/output error"
  | 9 => "Bad file descriptor"
  | 11 => "Resource temporarily unavailable"
  | 12 => "Cannot allocate memory"
  | 13 => "Permission denied"
  | 17 => "File exists"
  | 20 => "Not a directory"
  | 21 => "Is a directory"
  | 22 => "Invalid argument"
  | 23 => "Too many open files in system"
  | 24 => "Too many open files"
  | 26 => "Text file busy"
  | 27 => "File too large"
  | 28 => "No space left on device"
  | 29 => "Illegal seek"
  | 30 => "Read-only file system"
  | 32 => "Broken pipe"
  | 36 => "File name too long"
  | 40 => "Too many levels of symbolic links"
  | 104 => "Connection reset by peer"
  | 110 => "Connection timed out"
  | code => s!"Unknown error {code}"

/-- The kind of an error number, where it is of one. -/
def systemKind? : Nat → Option Kind
  | 1 => some .permissionDenied
  | 2 => some .notFound
  | 4 => some .interrupted
  | 11 => some .wouldBlock
  | 13 => some .permissionDenied
  | 17 => some .alreadyExists
  | 22 => some .invalidInput
  | 32 => some .brokenPipe
  | 104 => some .connectionReset
  | 110 => some .timedOut
  | _ => none

end IoError

/-- An input or output error. -/
inductive IoError where
  /-- An error number of the operating system. -/
  | system (code : Nat)
  /-- A kind of error and nothing more. -/
  | plain (kind : IoError.Kind)
  /-- A kind of error with words of its own. -/
  | described (kind : IoError.Kind) (message : String)
  deriving DecidableEq, Repr

namespace IoError

/-- The words in which an error is reported. -/
def message : IoError → String
  | .system code => s!"{systemMessage code} (os error {code})"
  | .plain kind => kind.message
  | .described _ message => message

/-- The kind of an error, where it is of one. -/
def kind? : IoError → Option Kind
  | .system code => systemKind? code
  | .plain kind => some kind
  | .described kind _ => some kind

/-- The operation was interrupted and is tried again. -/
def isInterrupted (e : IoError) : Bool := e.kind? == some .interrupted

/-- Nobody reads what is written. -/
def isBrokenPipe (e : IoError) : Bool := e.kind? == some .brokenPipe

/-- The stream takes no more bytes and gives no reason. -/
def writeZero : IoError := .described .writeZero "failed to write whole buffer"

/-- The path names a directory, which has no lines. -/
def directoryAsInput : IoError := .described .other "is a directory"

/-- A zero byte cannot be part of a path. -/
def zeroByteInPath : IoError :=
  .described .invalidInput "file name contained an unexpected NUL byte"

/-- The bytes are not UTF-8. -/
def notUtf8 : IoError := .described .invalidData "stream did not contain valid UTF-8"

/-- There is no such file. -/
def noSuchFile : IoError := .system 2

/-- A file stands where the path needs a directory. -/
def notADirectory : IoError := .system 20

/-- A directory stands where a file is read. -/
def isADirectory : IoError := .system 21

/-- The device is full. -/
def noSpace : IoError := .system 28

/-- The reader of the pipe has gone. -/
def brokenPipe : IoError := .system 32

/-- The path, or one name in it, is too long. -/
def nameTooLong : IoError := .system 36

end IoError

end Interleave
