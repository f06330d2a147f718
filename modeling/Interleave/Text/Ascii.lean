/-
# Bytes and ASCII

Log lines are kept as bytes, because a line is written exactly as it was read and
need not be text at all.  What the reader of a line has to know about single bytes
is all ASCII: where a line ends, and which bytes separate its first word from the
rest.

* `Bytes` : a run of bytes;
* `newline` : the byte that ends a line;
* `isBlank` : the bytes that separate words.
-/

namespace Interleave

/-- A run of bytes, as read from a file or written to one. -/
abbrev Bytes := List UInt8

/-- The byte that ends a line. -/
def newline : UInt8 := 0x0A

namespace Ascii

/-- ASCII white space: space, tab, line feed, form feed and carriage return.
The vertical tab is not one of them. -/
def isBlank (b : UInt8) : Bool :=
  b == 0x20 || b == 0x09 || b == 0x0A || b == 0x0C || b == 0x0D

/-- The bytes of an ASCII text, one for each character. -/
def encode (text : String) : Bytes :=
  text.toList.map fun c => UInt8.ofNat c.toNat

end Ascii

end Interleave
