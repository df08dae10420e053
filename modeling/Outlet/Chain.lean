/-!
# Chains of causes

An error in the words of the layers it passed through, the outermost first. A chain is shown on one
line, or as a report with a paragraph for the causes: a single cause stands by itself, several are
numbered, and every further line of a cause is indented as its first one is.
-/

namespace Outlet

structure Chain where
  message : String
  causes : List String
  deriving DecidableEq

namespace Chain

def toList (chain : Chain) : List String := chain.message :: chain.causes

/-- The chain with a further layer around it. -/
def within (message : String) (chain : Chain) : Chain := ⟨message, chain.toList⟩

def inline (chain : Chain) : String := String.intercalate ": " chain.toList

/-- The text with `indent` after every newline. -/
def hang (indent : String) (text : String) : String :=
  String.ofList (text.toList.flatMap fun c => if c = '\n' then '\n' :: indent.toList else [c])

/-- The text of the cause number `index`, in columns. -/
def numbered (index : Nat) (cause : String) : String :=
  let number := toString index
  String.ofList (List.replicate (5 - number.length) ' ') ++ number ++ ": " ++ hang "       " cause

/-- The causes, a line for each and an indented one for each further line of it. -/
def paragraph : List String → String
  | [] => ""
  | [cause] => "\n\nCaused by:\n    " ++ hang "    " cause
  | causes => "\n\nCaused by:\n" ++ String.intercalate "\n" (causes.mapIdx numbered)

def report (chain : Chain) : String := chain.message ++ paragraph chain.causes

end Chain

end Outlet
