/-
# What the command says about itself

* `versionText` : name and version;
* `helpText` : how to use the command, in short or at length.
-/
import Interleave.Report.Identity

namespace Interleave

/-- Lines of text, each with its line end. -/
def textOfLines (lines : List String) : String :=
  String.join (lines.map (· ++ "\n"))

/-- Name and version. -/
def versionText : String :=
  textOfLines [s!"{identity.command} {identity.version}"]

/-- How the command is called. -/
def usageLine : String := s!"Usage: {identity.command} [OPTIONS] <LEFT> <RIGHT>"

/-- How to use the command, in short. -/
def shortHelp : String :=
  textOfLines [
    "Interleave two timestamped log files into one chronological, side-tagged stream",
    "",
    usageLine,
    "",
    "Arguments:",
    "  <LEFT>   Left log file",
    "  <RIGHT>  Right log file",
    "",
    "Options:",
    "  -d, --debug    Enable debug logging on stderr (equivalent to RUST_LOG=debug)",
    "  -h, --help     Print help (see more with '--help')",
    "  -V, --version  Print version"]

/-- How to use the command, at length. -/
def longHelp : String :=
  textOfLines [
    s!"{identity.name} - interleave two timestamped log files.",
    "",
    "Lines from both files are written to stdout in timestamp order, prefixed with " ++
      "`L<<` (left file) or `>>R` (right file). Equal timestamps print the left line first.",
    "",
    usageLine,
    "",
    "Arguments:",
    "  <LEFT>",
    "          Left log file",
    "",
    "  <RIGHT>",
    "          Right log file",
    "",
    "Options:",
    "  -d, --debug",
    "          Enable debug logging on stderr (equivalent to RUST_LOG=debug)",
    "",
    "  -h, --help",
    "          Print help (see a summary with '-h')",
    "",
    "  -V, --version",
    "          Print version"]

/-- How to use the command. -/
def helpText (long : Bool) : String := if long then longHelp else shortHelp

end Interleave
