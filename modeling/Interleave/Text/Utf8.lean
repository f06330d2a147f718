/-
# Reading bytes as UTF-8

The machine below reads one byte at a time.  Between two bytes it either stands
between characters or inside one, and then knows how many bytes are still owed and
which values the next byte may have.  A byte that cannot continue the character
ends it as broken, and is then read again as the first byte of something new.  So
every maximal run of bytes that starts a character and is not continued becomes
one broken piece, and no byte is lost.

* `pieces` : the characters and the broken pieces of a run of bytes, in order;
* `decode?` : the text, when no piece is broken;
* `decodeLossy` : the text with each broken piece shown as U+FFFD.
-/
import Interleave.Text.Ascii

namespace Interleave.Utf8

/-! ## The machine -/

/-- A piece of decoded text: a character, or bytes that are part of none. -/
inductive Piece where
  | char (c : Char)
  | broken
  deriving DecidableEq, Repr

/-- Where the machine stands between two bytes. -/
inductive State where
  /-- Between characters. -/
  | start
  /-- Inside a character: the value so far, how many bytes are owed (at least one),
  and the least and the greatest value the next byte may have. -/
  | within (value owed low high : Nat)
  deriving DecidableEq, Repr

/-- The first byte of a character, read between characters. -/
def first (b : Nat) : List Piece × State :=
  if b ≤ 0x7F then ([.char (Char.ofNat b)], .start)
  else if 0xC2 ≤ b ∧ b ≤ 0xDF then ([], .within (b % 32) 1 0x80 0xBF)
  else if b = 0xE0 then ([], .within 0 2 0xA0 0xBF)
  else if b = 0xED then ([], .within 13 2 0x80 0x9F)
  else if 0xE1 ≤ b ∧ b ≤ 0xEF then ([], .within (b % 16) 2 0x80 0xBF)
  else if b = 0xF0 then ([], .within 0 3 0x90 0xBF)
  else if 0xF1 ≤ b ∧ b ≤ 0xF3 then ([], .within (b % 8) 3 0x80 0xBF)
  else if b = 0xF4 then ([], .within 4 3 0x80 0x8F)
  else ([.broken], .start)

/-- One byte: the pieces it completes, and where the machine stands after it. -/
def next : State → Nat → List Piece × State
  | .start, b => first b
  | .within value owed low high, b =>
      if low ≤ b ∧ b ≤ high then
        let value := value * 64 + b % 64
        if owed ≤ 1 then ([.char (Char.ofNat value)], .start)
        else ([], .within value (owed - 1) 0x80 0xBF)
      else
        -- The character breaks off here; the byte starts anew.
        (.broken :: (first b).1, (first b).2)

/-- A decoding under way: the pieces so far, newest first, and the state. -/
structure Decoder where
  done : List Piece
  state : State
  deriving Repr

/-- A decoding that has read nothing. -/
def Decoder.empty : Decoder := ⟨[], .start⟩

/-- Reads one byte. -/
def Decoder.feed (d : Decoder) (b : UInt8) : Decoder :=
  let (made, state) := next d.state b.toNat
  ⟨made.reverse ++ d.done, state⟩

/-- The pieces read, where a character still owed bytes counts as broken. -/
def Decoder.finish (d : Decoder) : List Piece :=
  match d.state with
  | .start => d.done.reverse
  | .within .. => (.broken :: d.done).reverse

/-! ## Text -/

/-- The characters and broken pieces of a run of bytes. -/
def pieces (bytes : Bytes) : List Piece :=
  (bytes.foldl Decoder.feed .empty).finish

/-- The character of a piece that is one. -/
def Piece.char? : Piece → Option Char
  | .char c => some c
  | .broken => none

/-- How a piece is shown: a broken one as U+FFFD, the replacement character. -/
def Piece.shown : Piece → Char
  | .char c => c
  | .broken => '\uFFFD'

/-- The text of bytes that are UTF-8 throughout. -/
def decode? (bytes : Bytes) : Option String :=
  if (pieces bytes).all (·.char?.isSome) then
    some (String.ofList ((pieces bytes).map Piece.shown))
  else
    none

/-- The text of any bytes, with U+FFFD for each broken piece. -/
def decodeLossy (bytes : Bytes) : String :=
  String.ofList ((pieces bytes).map Piece.shown)

/-- Where bytes are text, both readings agree. -/
theorem decodeLossy_of_decode? {bytes : Bytes} {text : String}
    (h : decode? bytes = some text) : decodeLossy bytes = text := by
  unfold decode? at h
  split at h
  · exact Option.some.inj h
  · cases h

end Interleave.Utf8
