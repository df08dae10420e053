import Outlet.Utf8

/-!
# Text without terminal control

A terminal does not show all that it is sent: it acts on control characters, and on sequences that
begin with an escape. `Terminal.plain` is the text without them. White space is kept, and it ends
a sequence that it stands in, unless that sequence is a string.

A character beyond ASCII belongs to the sequence that it stands in. A text is cleaned as a whole or
as it passes through a stream, and the two ways differ in one point: a sequence that white space
has ended is over for good in a whole text, and in a stream it goes on at the next control
character, if no character beyond ASCII comes first.
-/

namespace Outlet.Terminal

inductive Way where
  | whole
  | stream
  deriving DecidableEq

/-- The sequence that is being read, if there is one, as far as it has been read. -/
inductive Sequence where
  | none
  | escape
  /-- An escape and bytes that announce a final one. -/
  | announced
  /-- A control function, up to its final byte. -/
  | function
  /-- A string for the system, which a bell ends. -/
  | command
  /-- A string for a device, up to its first byte after the parameters. -/
  | device
  | deviceParameter
  | deviceAnnounced
  /-- The rest of a string for a device, or a string for nobody. -/
  | body
  deriving DecidableEq

namespace Sequence

/-- What an escape begins with the byte after it. -/
def ofEscaped (byte : Nat) : Sequence :=
  if byte = 0x5B then function
  else if byte = 0x5D then command
  else if byte = 0x50 then device
  else if byte = 0x58 ∨ byte = 0x5E ∨ byte = 0x5F then body
  else none

/-- The sequence after a byte that is not shown. -/
def next (sequence : Sequence) (byte : Nat) : Sequence :=
  if byte = 0x18 ∨ byte = 0x1A then none
  else if byte = 0x1B then escape
  else
    let announces := 0x20 ≤ byte ∧ byte ≤ 0x2F
    let parameter := 0x30 ≤ byte ∧ byte ≤ 0x3F
    let final := 0x40 ≤ byte ∧ byte ≤ 0x7E
    match sequence with
    | none => none
    | escape =>
      if announces then announced
      else if parameter ∨ final then ofEscaped byte
      else escape
    | announced => if parameter ∨ final then none else announced
    | function => if final then none else function
    | command => if byte = 0x07 then none else command
    | device =>
      if announces then deviceAnnounced
      else if parameter then deviceParameter
      else if final then body
      else device
    | deviceParameter =>
      if announces then deviceAnnounced
      else if 0x3C ≤ byte ∧ byte ≤ 0x7E then body
      else deviceParameter
    | deviceAnnounced => if parameter ∨ final then body else deviceAnnounced
    | body => if byte = 0x9C then none else body

/-- Whether control characters keep their own meaning inside of a sequence. -/
def admitsControl : Sequence → Bool
  | none | escape | announced | function => true
  | command | device | deviceParameter | deviceAnnounced | body => false

end Sequence

/-- The control characters that are white space. -/
def isSpacing (byte : Nat) : Bool := byte = 0x09 || byte = 0x0A || byte = 0x0C || byte = 0x0D

/-- Whether a byte continues a character that another one began. -/
def isContinuation (byte : Nat) : Bool := 0x80 ≤ byte && byte ≤ 0xBF

/-- Whether a byte that begins a character is shown. -/
def Sequence.shows (sequence : Sequence) (byte : Nat) : Bool :=
  sequence.admitsControl && isSpacing byte ||
    sequence = .none && 0x20 ≤ byte && byte ≠ 0x7F

/-- What has been read: a sequence, and whether something was shown since it was broken off. -/
structure Reading where
  shown : Bool
  sequence : Sequence

namespace Reading

def shows (reading : Reading) (byte : Nat) : Bool :=
  if isContinuation byte then reading.shown
  else (if reading.shown then Sequence.none else reading.sequence).shows byte

/-- Reads a byte that is shown. -/
def keep (reading : Reading) (way : Way) (byte : Nat) : Reading :=
  ⟨true, if way = .stream ∧ byte < 0x80 then reading.sequence else .none⟩

/-- Reads a byte that is not shown. -/
def drop (reading : Reading) (byte : Nat) : Reading := ⟨false, reading.sequence.next byte⟩

end Reading

/-- The bytes of a text that are shown. -/
def shownFrom (way : Way) (reading : Reading) : Bytes → Bytes
  | [] => []
  | byte :: rest =>
    if reading.shows byte.toNat then
      byte :: shownFrom way (reading.keep way byte.toNat) rest
    else shownFrom way (reading.drop byte.toNat) rest

/-- The text without terminal control. -/
def plain (way : Way) (text : String) : String :=
  Utf8.decodeLossy (shownFrom way ⟨false, .none⟩ (Utf8.encode text))

end Outlet.Terminal
