import Outlet.Chain
import Outlet.Decimal.Numeral
import Outlet.Script.Call

/-!
# Reading scripts

An argument is split at its first colon. A script is read as a whole or not at all: the first
argument that cannot be read is blamed, whatever follows it.
-/

namespace Outlet.Script

inductive ArgumentError where
  | noColon (argument : String)
  | unknownKind (keyword : String)
  /-- A payload that is to be closed by a zero byte holds one, here at a byte offset. -/
  | embeddedZero (offset : Nat)
  | notAnInteger (family : Family) (payload : String) (cause : Decimal.Numeral.Error)
  deriving DecidableEq

/-- The error in words, the outermost first. -/
def ArgumentError.chain : ArgumentError → Chain
  | noColon argument => ⟨"expected <kind>:<payload>, got `" ++ argument ++ "`", []⟩
  | unknownKind keyword => ⟨"unknown call kind `" ++ keyword ++ "`", []⟩
  | embeddedZero offset =>
    ⟨"C string payload contains a NUL byte",
      ["nul byte found in provided data at position: " ++ toString offset]⟩
  | notAnInteger .sized payload cause =>
    ⟨"`" ++ payload ++ "` is not a 64-bit integer", [cause.message]⟩
  | notAnInteger .terminated payload cause =>
    ⟨"`" ++ payload ++ "` is not a C long", [cause.message]⟩

/-- What stands before the first colon and what stands after it. -/
def splitAtColon? : List Char → Option (List Char × List Char)
  | [] => none
  | c :: rest =>
    if c = ':' then some ([], rest)
    else (splitAtColon? rest).map fun (keyword, payload) => (c :: keyword, payload)

theorem splitAtColon?_eq_some_iff {text keyword payload : List Char} :
    splitAtColon? text = some (keyword, payload) ↔
      text = keyword ++ ':' :: payload ∧ ':' ∉ keyword := by
  induction text generalizing keyword with
  | nil => simp [splitAtColon?]
  | cons c rest ih =>
    rw [splitAtColon?]
    split
    next hc =>
      subst hc
      cases keyword with
      | nil => simp [eq_comm]
      | cons d keyword => simp +contextual [eq_comm]
    next hc =>
      simp only [Option.map_eq_some_iff, Prod.exists, Prod.mk.injEq]
      constructor
      · rintro ⟨front, back, h, rfl, rfl⟩
        obtain ⟨rfl, hn⟩ := ih.1 h
        exact ⟨rfl, by simp [hn, Ne.symm hc]⟩
      · rintro ⟨h, hn⟩
        cases keyword with
        | nil => simp_all
        | cons d keyword =>
          simp only [List.cons_append, List.cons.injEq, List.mem_cons, not_or] at h hn
          exact ⟨keyword, payload, ih.2 ⟨h.2, hn.2⟩, by rw [h.1], rfl⟩

theorem splitAtColon?_eq_none_iff {text : List Char} : splitAtColon? text = none ↔ ':' ∉ text := by
  induction text with
  | nil => simp [splitAtColon?]
  | cons c rest ih =>
    rw [splitAtColon?]
    split
    next hc => simp [hc]
    next hc => simp [ih, Ne.symm hc]

/-- Reads the payload of a call of some kind. -/
def Kind.read (payload : String) : Kind → Except ArgumentError Call
  | text family shape =>
    if h : family = .terminated → '\x00' ∉ payload.toList then
      .ok (.text family shape payload h)
    else .error (.embeddedZero ((Utf8.encode payload).takeWhile (· ≠ 0)).length)
  | integer family =>
    match Decimal.Numeral.read .signed64 (Utf8.encode payload) with
    | .ok value => .ok (.integer family (Int64.ofInt value))
    | .error cause => .error (.notAnInteger family payload cause)

def Call.read (argument : String) : Except ArgumentError Call :=
  match splitAtColon? argument.toList with
  | none => .error (.noColon argument)
  | some (word, payload) =>
    match Kind.ofKeyword? (String.ofList word) with
    | none => .error (.unknownKind (String.ofList word))
    | some kind => kind.read (String.ofList payload)

/-- The first argument of a script that cannot be read, counted from one. -/
structure Error where
  position : Nat
  cause : ArgumentError
  deriving DecidableEq

def Error.chain (error : Error) : Chain :=
  error.cause.chain.within ("invalid call #" ++ toString error.position)

/-- Reads the arguments of a script, the first of which has a position. -/
def readFrom (position : Nat) : List String → Except Error (List Call)
  | [] => .ok []
  | argument :: rest =>
    match Call.read argument with
    | .error cause => .error ⟨position, cause⟩
    | .ok call => (readFrom (position + 1) rest).map (call :: ·)

def read (arguments : List String) : Except Error (List Call) := readFrom 1 arguments

end Outlet.Script
