import Outlet.Stdout.Entry
import Outlet.Utf8

/-!
# Calls of a script

A script is a list of calls of entry points, each written as a keyword, a colon and a payload. The
keyword tells the family of the entry point and what it writes.
-/

namespace Outlet.Script

inductive Kind where
  | text (family : Family) (shape : Shape)
  | integer (family : Family)
  deriving DecidableEq

namespace Kind

def keyword : Kind → String
  | text .sized .string => "str"
  | text .sized .line => "line"
  | integer .sized => "int"
  | text .terminated .string => "cstr"
  | text .terminated .line => "cline"
  | integer .terminated => "cint"

def all : List Kind :=
  [text .sized .string, text .sized .line, integer .sized,
    text .terminated .string, text .terminated .line, integer .terminated]

def ofKeyword? (word : String) : Option Kind := all.find? (·.keyword = word)

theorem ofKeyword?_keyword (kind : Kind) : ofKeyword? kind.keyword = some kind := by
  rcases kind with ⟨_ | _, _ | _⟩ | ⟨_ | _⟩ <;> decide

theorem eq_keyword_of_ofKeyword? {word : String} {kind : Kind} (h : ofKeyword? word = some kind) :
    word = kind.keyword := by
  rw [ofKeyword?] at h
  have hk := List.find?_some h
  exact (of_decide_eq_true hk).symm

end Kind

/-- A call. A string that is closed by a zero byte has none inside. -/
inductive Call where
  | text (family : Family) (shape : Shape) (content : String)
    (terminable : family = .terminated → '\x00' ∉ content.toList)
  | integer (family : Family) (value : Int64)
  deriving DecidableEq

namespace Call

def kind : Call → Kind
  | text family shape _ _ => .text family shape
  | integer family _ => .integer family

/-- The payload that a call is written with. -/
def payload : Call → String
  | text _ _ content _ => content
  | integer _ value => Utf8.decodeLossy (Decimal.text value)

/-- The argument that a call is written as. -/
def argument (call : Call) : String := call.kind.keyword ++ ":" ++ call.payload

def message : Call → Message
  | text _ shape content _ => .bytes shape (Utf8.encode content)
  | integer _ value => .integer value

def entry : Call → Entry
  | text .sized shape content _ =>
    .sized shape (some (Utf8.encode content)) (Utf8.encode content).length
  | text .terminated shape content _ => .terminated shape (some (Utf8.encode content ++ [0]))
  | integer family value => .integer family value

end Call

end Outlet.Script
