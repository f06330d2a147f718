/-
# Arguments

The command takes two paths and a flag, in any order.  After `--` every argument is a
path.  Arguments are read from the left, and the first that asks for help or for the
version, or that is wrong, decides.

* `Request` : what is asked for;
* `UsageError` : what is wrong with the arguments;
* `Request.ofArguments` : what arguments ask for.
-/
import Interleave.Log.Side

namespace Interleave

/-- What is asked for. -/
inductive Request where
  /-- To merge two files. -/
  | merge (paths : Both String) (debug : Bool)
  /-- To tell the version. -/
  | version
  /-- To explain the command, in short or at length. -/
  | help (long : Bool)
  deriving DecidableEq, Repr

/-- What is wrong with arguments. -/
inductive UsageError where
  | unknown (argument : String)
  | repeated (argument : String)
  | surplus (path : String)
  | emptyPath
  | missingPath
  deriving DecidableEq, Repr

namespace UsageError

/-- What is wrong, in words. -/
def message : UsageError → String
  | .unknown argument => s!"unexpected argument '{argument}' found"
  | .repeated argument => s!"the argument '{argument}' cannot be used multiple times"
  | .surplus path => s!"unexpected argument '{path}' found"
  | .emptyPath => "a path cannot be empty"
  | .missingPath => "two paths are required"

end UsageError

namespace Request

/-- Arguments read so far. -/
structure Partly where
  /-- The paths, the latest first. -/
  paths : List String := []
  debug : Bool := false
  /-- Only paths follow. -/
  pathsOnly : Bool := false
  deriving DecidableEq, Repr

/-- What reading goes on with: more arguments, or a request that decides. -/
inductive Next where
  | more (partly : Partly)
  | decided (request : Request)
  deriving DecidableEq, Repr

namespace Partly

/-- Reads the flag, which may be given once. -/
def flag (p : Partly) (argument : String) : Except UsageError Next :=
  if p.debug then .error (.repeated argument) else .ok (.more { p with debug := true })

/-- Reads a path. -/
def path (p : Partly) (path : String) : Except UsageError Next :=
  if 2 ≤ p.paths.length then .error (.surplus path)
  else if path = "" then .error .emptyPath
  else .ok (.more { p with paths := path :: p.paths })

/-- Reads the letters of an argument with one hyphen. -/
def letters (argument : String) : Partly → List Char → Except UsageError Next
  | p, [] => .ok (.more p)
  | p, c :: rest =>
      if c = 'h' then .ok (.decided (.help false))
      else if c = 'V' then .ok (.decided .version)
      else if c = 'd' then
        match p.flag argument with
        | .ok (.more p) => letters argument p rest
        | other => other
      else .error (.unknown argument)

/-- Reads an argument. -/
def argument (p : Partly) (argument : String) : Except UsageError Next :=
  if p.pathsOnly then p.path argument
  else if argument = "--" then .ok (.more { p with pathsOnly := true })
  else if argument = "--debug" then p.flag argument
  else if argument = "--help" then .ok (.decided (.help true))
  else if argument = "--version" then .ok (.decided .version)
  else if argument.startsWith "--" then .error (.unknown argument)
  else
    match argument.toList with
    | '-' :: c :: rest => letters argument p (c :: rest)
    | _ => p.path argument

/-- What arguments ask for when all are read. -/
def finish (p : Partly) : Except UsageError Request :=
  match p.paths with
  | [right, left] => .ok (.merge ⟨left, right⟩ p.debug)
  | _ => .error .missingPath

end Partly

/-- What arguments ask for, after those that have been read. -/
def ofArgumentsFrom (p : Partly) : List String → Except UsageError Request
  | [] => p.finish
  | argument :: arguments =>
      match p.argument argument with
      | .ok (.more p) => ofArgumentsFrom p arguments
      | .ok (.decided request) => .ok request
      | .error e => .error e

/-- What arguments ask for. -/
def ofArguments (arguments : List String) : Except UsageError Request :=
  ofArgumentsFrom {} arguments

end Request

end Interleave
