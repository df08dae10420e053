import Outlet.Proofs.Calls

/-!
# Calls on a file with a limit

A call appends to the file as much as there is room for of what is held and of its text behind it,
and it succeeds exactly if that is all. What is left of the bytes held stays held, and what is left
of the text is given up. Over many calls the file is the front of all the texts together. A file
without a limit has room for everything, and so has the null device, which keeps nothing.
-/

namespace Outlet.Stdout

open Descriptor

/-- The answer to a call on a file with room for so many bytes. -/
def roomResult (room : Nat) (held text : Bytes) : CallResult :=
  if held.length + text.length ≤ room then .wrote text.length
  else if text = [] then .failed (.flush .fileTooLarge IoError.fileTooLarge.message)
  else .failed (.write .fileTooLarge IoError.fileTooLarge.message)

theorem code_roomResult (room : Nat) (held text : Bytes) :
    (roomResult room held text).code =
      if held.length + text.length ≤ room then min (text.length : Int) 2147483647 else -1 := by
  unfold roomResult
  split
  · rfl
  · split <;> rfl

theorem excess_of_limit {descriptor : Descriptor} {limit : Nat}
    (ht : descriptor.target = .file) (hl : descriptor.limit = some limit) (text : Bytes) :
    descriptor.excess text = text.drop (limit - descriptor.file.length) := by
  have hall := descriptor.fitting_append_excess text
  rw [fitting_of_limit ht hl] at hall
  exact List.append_cancel_left (hall.trans (List.take_append_drop _ text).symm)

theorem send_of_limit {stdout : Stdout} {limit : Nat} (ht : stdout.descriptor.target = .file)
    (hl : stdout.descriptor.limit = some limit) (message : Message) :
    send stdout message =
      (roomResult (limit - stdout.descriptor.file.length) stdout.held message.text,
        ⟨{ stdout.descriptor with file := stdout.descriptor.file ++
            (stdout.held ++ message.text).take (limit - stdout.descriptor.file.length) },
          stdout.held.drop (limit - stdout.descriptor.file.length)⟩) := by
  rw [send_accepting (.inl ht), store_of_file ht, fitting_of_limit ht hl, excess_of_limit ht hl,
    excess_of_limit ht hl, roomResult]
  simp only [List.drop_eq_nil_iff, List.length_append]
  congr 1
  split
  · rfl
  · split <;> rfl

/-- A file that holds the front of some texts, holds the front of them and all that follow. -/
theorem run_calls_of_limit (config : Config) (limit : Nat) (calls : List Step)
    (hc : ∀ call ∈ calls, call.call?.isSome) (before : Bytes) :
    (run config ⟨⟨.file, some limit, before.take limit⟩, []⟩ calls).2 =
      ⟨⟨.file, some limit, (before ++ calls.flatMap Step.text).take limit⟩, []⟩ := by
  induction calls generalizing before with
  | nil => simp [run]
  | cons call rest ih =>
    obtain ⟨⟨form, message⟩, hcall⟩ := Option.isSome_iff_exists.mp (hc call List.mem_cons_self)
    have hstep : (step config ⟨⟨.file, some limit, before.take limit⟩, []⟩ call).2 =
        ⟨⟨.file, some limit, (before ++ call.text).take limit⟩, []⟩ := by
      rw [(step_of_call? hcall config _).2, send_of_limit rfl rfl, Step.text_of_call? hcall,
        ← Bytes.take_append_take limit before message.text]
      simp only [List.nil_append, List.drop_nil]
    have hrest := ih (fun c h => hc c (List.mem_cons_of_mem call h)) (before ++ call.text)
    rw [run, Session.run_cons, hstep, List.flatMap_cons, ← List.append_assoc]
    exact hrest

/-- The closed form of a call on a file or the null device, and of a run of calls on a file that
was empty. -/
theorem call_fills_room (config : Config) :
    (∀ (stdout : Stdout) (call : Step) (form : Form) (message : Message),
      call.call? = some (form, message) →
        (∀ limit, stdout.descriptor.target = .file → stdout.descriptor.limit = some limit →
          let room := limit - stdout.descriptor.file.length
          let result := roomResult room stdout.held message.text
          (step config stdout call).1.answer = .reply (form.reply result) ∧
            (result.code = if stdout.held.length + message.text.length ≤ room then
              min (message.text.length : Int) 2147483647 else -1) ∧
            (step config stdout call).2 =
              ⟨{ stdout.descriptor with
                  file := stdout.descriptor.file ++ (stdout.held ++ message.text).take room },
                stdout.held.drop room⟩) ∧
        (stdout.descriptor.target = .file → stdout.descriptor.limit = none →
          (step config stdout call).1.answer =
              .reply (form.reply (.wrote message.text.length)) ∧
            (step config stdout call).2 =
              ⟨{ stdout.descriptor with
                  file := stdout.descriptor.file ++ (stdout.held ++ message.text) }, []⟩) ∧
        (stdout.descriptor.target = .null →
          (step config stdout call).1.answer =
              .reply (form.reply (.wrote message.text.length)) ∧
            (step config stdout call).2 = ⟨stdout.descriptor, []⟩)) ∧
    ∀ (limit : Nat) (calls : List Step), (∀ call ∈ calls, call.call?.isSome) →
      (run config ⟨⟨.file, some limit, []⟩, []⟩ calls).2 =
        ⟨⟨.file, some limit, (calls.flatMap Step.text).take limit⟩, []⟩ := by
  refine ⟨?_, ?_⟩
  · intro stdout call form message hc
    obtain ⟨hanswer, hnext⟩ := step_of_call? hc config stdout
    rw [hanswer, hnext]
    refine ⟨?_, ?_, ?_⟩
    · intro limit ht hl room result
      rw [send_of_limit ht hl]
      exact ⟨rfl, code_roomResult _ _ _, rfl⟩
    · intro ht hl
      rw [send_of_unlimited (.inl ht) (.inr hl), store_of_file ht]
      exact ⟨rfl, rfl⟩
    · intro ht
      have hne : stdout.descriptor.target ≠ .file := by
        rw [ht]
        decide
      rw [send_of_unlimited (.inr ht) (.inl hne), store_of_ne_file hne]
      exact ⟨rfl, rfl⟩
  · intro limit calls hc
    have hrun := run_calls_of_limit config limit calls hc []
    rwa [List.take_nil, List.nil_append] at hrun

/-- A line cut before its newline, and two calls on a file that the first of them fills. -/
theorem call_fills_room_cut :
    let call : Step := .entry (.sized .line (some [99, 100, 101]) 2)
    call.call? = some (.coded, .bytes .line [99, 100]) ∧
      (step ⟨true⟩ ⟨⟨.file, some 5, [120]⟩, [97, 98]⟩ call).1.answer = .reply (.code (-1)) ∧
      (step ⟨true⟩ ⟨⟨.file, some 5, [120]⟩, [97, 98]⟩ call).2 =
        ⟨⟨.file, some 5, [120, 97, 98, 99, 100]⟩, []⟩ ∧
      (∀ next ∈ [call, call], next.call?.isSome) ∧
      (run ⟨true⟩ ⟨⟨.file, some 3, []⟩, []⟩ [call, call]).2 =
        ⟨⟨.file, some 3, [99, 100, 10]⟩, []⟩ := by
  intro call
  have hc : call.call? = some (.coded, .bytes .line [99, 100]) := rfl
  have hall : ∀ next ∈ [call, call], next.call?.isSome := by simp [hc]
  obtain ⟨hcall, hrun⟩ := call_fills_room ⟨true⟩
  obtain ⟨hanswer, -, hnext⟩ :=
    (hcall ⟨⟨.file, some 5, [120]⟩, [97, 98]⟩ call _ _ hc).1 5 rfl rfl
  exact ⟨hc, hanswer, hnext, hall, hrun 3 [call, call] hall⟩

end Outlet.Stdout
