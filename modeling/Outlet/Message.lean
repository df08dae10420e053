import Outlet.Decimal.Field

/-!
# Messages

What a caller may ask to be written: a string of bytes, the same as a line, or an integer in
decimal. A message is handed to a sink in parts; the newline of a line is a part of its own, so
that no message is copied.
-/

namespace Outlet

/-- Whether a string of bytes is written as it is or closed by a newline. -/
inductive Shape where
  | string
  | line
  deriving DecidableEq

inductive Message where
  | bytes (shape : Shape) (content : Bytes)
  | integer (value : Int64)
  deriving DecidableEq

namespace Message

def parts : Message → Parts
  | bytes .string content => [content]
  | bytes .line content => [content, [Bytes.newline]]
  | integer value => [Decimal.text value]

def text (message : Message) : Bytes := message.parts.flatten

/-- The name of the call that writes a message. -/
def callName : Message → String
  | bytes .string _ => "write_string"
  | bytes .line _ => "write_line"
  | integer _ => "write_integer"

@[simp] theorem text_string (content : Bytes) : text (bytes .string content) = content := by
  simp [text, parts]

@[simp] theorem text_line (content : Bytes) :
    text (bytes .line content) = content ++ [Bytes.newline] := by
  simp [text, parts]

@[simp] theorem text_integer (value : Int64) : text (integer value) = Decimal.text value := by
  simp [text, parts]

end Message

end Outlet
