import Mathlib.Data.List.Forall2
import Mathlib.Data.List.TakeWhile
import Outlet.Script.Reader
import Outlet.Utf8.Lemmas

/-!
# What reading accepts

An argument can be read if it is a keyword, a colon and a payload that a call of that kind can
have, and a script if each of its arguments can. What an entry point finds at the pointer that it
is passed is then the message of the call.
-/

namespace Outlet.Script

open List

/-! ## Arguments -/

namespace Kind

/-- The argument with a payload under the keyword of a kind. -/
def written (kind : Kind) (payload : String) : String := kind.keyword ++ ":" ++ payload

theorem colon_notMem_keyword (kind : Kind) : ':' ∉ kind.keyword.toList := by
  rcases kind with ⟨_ | _, _ | _⟩ | ⟨_ | _⟩ <;> decide

theorem splitAtColon?_written (kind : Kind) (payload : String) :
    splitAtColon? (kind.written payload).toList = some (kind.keyword.toList, payload.toList) := by
  rw [splitAtColon?_eq_some_iff]
  exact ⟨by simp [written], kind.colon_notMem_keyword⟩

theorem read_text_eq_ok_iff {family : Family} {shape : Shape} {payload : String} {call : Call} :
    (text family shape).read payload = .ok call ↔
      ∃ terminable, call = .text family shape payload terminable := by
  rw [read]
  split
  next h =>
    rw [Except.ok.injEq]
    exact ⟨fun he => ⟨h, he.symm⟩, fun ⟨_, he⟩ => he.symm⟩
  next h => simp [h]

end Kind

namespace Call

theorem read_written (kind : Kind) (payload : String) :
    Call.read (kind.written payload) = kind.read payload := by
  rw [Call.read, kind.splitAtColon?_written]
  simp only [String.ofList_toList, Kind.ofKeyword?_keyword]

/-- An argument that can be read is written as its kind and payload say. -/
theorem read_eq_ok_iff {argument : String} {call : Call} :
    Call.read argument = .ok call ↔
      ∃ kind payload, argument = Kind.written kind payload ∧ kind.read payload = .ok call := by
  constructor
  · intro h
    rw [Call.read] at h
    split at h
    next => cases h
    next word payload hsplit =>
      split at h
      next => cases h
      next kind hkind =>
        refine ⟨kind, String.ofList payload, ?_, h⟩
        have hword := Kind.eq_keyword_of_ofKeyword? hkind
        obtain ⟨hall, -⟩ := splitAtColon?_eq_some_iff.mp hsplit
        apply String.toList_injective
        rw [hall, Kind.written, ← hword]
        simp
  · rintro ⟨kind, payload, rfl, h⟩
    rw [read_written, h]

end Call

/-! ## Scripts -/

theorem readFrom_cons_eq_ok_iff {position : Nat} {argument : String} {rest : List String}
    {calls : List Call} :
    readFrom position (argument :: rest) = .ok calls ↔
      ∃ call more, Call.read argument = .ok call ∧ readFrom (position + 1) rest = .ok more ∧
        calls = call :: more := by
  rw [readFrom]
  cases Call.read argument with
  | error cause => simp
  | ok call =>
    cases readFrom (position + 1) rest with
    | error error => simp [Except.map]
    | ok more => simp [Except.map, eq_comm]

theorem readFrom_cons_eq_error_iff {position : Nat} {argument : String} {rest : List String} :
    (∃ error, readFrom position (argument :: rest) = .error error) ↔
      (∃ cause, Call.read argument = .error cause) ∨
        ∃ error, readFrom (position + 1) rest = .error error := by
  rw [readFrom]
  cases Call.read argument with
  | error cause => simp
  | ok call =>
    cases readFrom (position + 1) rest with
    | error error => simp [Except.map]
    | ok more => simp [Except.map]

/-- A script is read argument by argument, and at any position. -/
theorem readFrom_eq_ok_iff {position : Nat} {arguments : List String} {calls : List Call} :
    readFrom position arguments = .ok calls ↔
      Forall₂ (fun argument call => Call.read argument = .ok call) arguments calls := by
  induction arguments generalizing position calls with
  | nil => simp [readFrom, eq_comm]
  | cons argument rest ih => simp only [readFrom_cons_eq_ok_iff, forall₂_cons_left_iff, ih]

/-! ## Messages -/

/-- What is found at a string that is closed by a zero byte ends at its own first one, if any. -/
theorem terminatedBytes_append_zero (content : Bytes) :
    Entry.terminatedBytes (some (content ++ [0])) = content.takeWhile (· ≠ 0) := by
  rw [Entry.terminatedBytes, Option.getD_some, takeWhile_append]
  split
  next h =>
    have hfront : content.takeWhile (· ≠ 0) <+: content := takeWhile_prefix _
    rw [hfront.eq_of_length h]
    exact append_nil content
  next => rfl

theorem terminatedBytes_encode {content : String} (h : '\x00' ∉ content.toList) :
    Entry.terminatedBytes (some (Utf8.encode content ++ [0])) = Utf8.encode content := by
  rw [terminatedBytes_append_zero, takeWhile_eq_self_iff]
  intro b hb
  rw [decide_eq_true_eq]
  rintro rfl
  exact h ((Utf8.zero_mem_encode_iff content).mp hb)

/-- The entry point that a call is made at finds the message of the call. -/
theorem Call.message_entry (call : Call) : call.entry.message = .ok call.message := by
  rcases call with ⟨_ | _, shape, content, h⟩ | ⟨family, value⟩
  · simp [entry, Entry.message, Entry.sizedBytes, message, Except.map]
  · simp only [entry, Entry.message, terminatedBytes_encode (h rfl)]
    rfl
  · rfl

end Outlet.Script
