import Outlet.Proofs.Families
import Outlet.Proofs.ProbeRun

/-!
# Scripts that are refused

A script is read to its end before anything is done, and the first argument that cannot be read
decides alone what is said of it. A run of the probe with a script that is refused closes nothing,
makes no call and writes nothing to standard output, whatever the options; what it shows is said on
standard error.
-/

namespace Outlet

open List

namespace Script

/-! ## The argument that is blamed -/

/-- The error of a script, the first argument of which has a position: the arguments before the one
at fault can be read, and those behind it do not matter. -/
def Blames (position : Nat) (arguments : List String) (error : Error) : Prop :=
  ∃ before argument after, arguments = before ++ argument :: after ∧
    (∀ earlier ∈ before, ∃ call, Call.read earlier = .ok call) ∧
    Call.read argument = .error error.cause ∧ error.position = position + before.length

theorem not_blames_nil (position : Nat) (error : Error) : ¬ Blames position [] error := by
  rintro ⟨before, argument, after, h, -⟩
  exact append_ne_nil_of_right_ne_nil before (cons_ne_nil argument after) h.symm

/-- The first argument is at fault, or it can be read and one behind it is at fault. -/
theorem blames_cons_iff {position : Nat} {argument : String} {rest : List String} {error : Error} :
    Blames position (argument :: rest) error ↔
      Call.read argument = .error error.cause ∧ error.position = position ∨
        (∃ call, Call.read argument = .ok call) ∧ Blames (position + 1) rest error := by
  constructor
  · rintro ⟨before, blamed, after, h, hbefore, hblamed, hposition⟩
    cases before with
    | nil =>
      obtain ⟨rfl, rfl⟩ := cons_eq_cons.mp h
      exact .inl ⟨hblamed, hposition⟩
    | cons first before =>
      obtain ⟨rfl, rfl⟩ := cons_eq_cons.mp h
      obtain ⟨hfirst, hmore⟩ := forall_mem_cons.mp hbefore
      rw [length_cons] at hposition
      exact .inr ⟨hfirst, before, blamed, after, rfl, hmore, hblamed, by omega⟩
  · rintro (⟨hblamed, hposition⟩ | ⟨hfirst, before, blamed, after, rfl, hmore, hblamed, hposition⟩)
    · exact ⟨[], argument, rest, rfl, forall_mem_nil _, hblamed, hposition⟩
    · refine ⟨argument :: before, blamed, after, rfl, ?_, hblamed, ?_⟩
      · exact forall_mem_cons.mpr ⟨hfirst, hmore⟩
      · rw [length_cons]
        omega

theorem readFrom_eq_error_iff {position : Nat} {arguments : List String} {error : Error} :
    readFrom position arguments = .error error ↔ Blames position arguments error := by
  induction arguments generalizing position with
  | nil => simp [readFrom, not_blames_nil]
  | cons argument rest ih =>
    rw [blames_cons_iff, ← ih, readFrom]
    cases Call.read argument with
    | error cause =>
      obtain ⟨place, blamed⟩ := error
      simp [eq_comm, and_comm]
    | ok call => cases readFrom (position + 1) rest <;> simp [Except.map]

theorem exists_read_eq_ok_iff {arguments : List String} :
    (∃ calls, read arguments = .ok calls) ↔
      ∀ argument ∈ arguments, ∃ call, Call.read argument = .ok call := by
  simp only [read, readFrom_eq_ok_iff]
  induction arguments with
  | nil => simp
  | cons argument rest ih => simp [forall₂_cons_left_iff, ← ih]

theorem toList_chain (error : Error) :
    error.chain.toList =
      ("invalid call #" ++ toString error.position) :: error.cause.chain.toList :=
  rfl

end Script

/-! ## What a run does besides -/

namespace Probe.Invocation

variable {invocation : Invocation} {options : CommandLine.Options}

/-- A run prepares standard output and makes its calls, and behind that only says something on
standard error. -/
theorem exists_events_run_eq {calls : List Script.Call}
    (ho : CommandLine.read invocation.arguments = .ok options)
    (hc : Script.read options.calls = .ok calls) :
    ∃ said, (∀ event ∈ said, ∃ text, event = .stderr text) ∧
      invocation.run.events = invocation.scriptEvents options calls ++ said := by
  rw [run_of_read ho hc]
  rcases invocation.events_perform options calls with h | h
  · exact ⟨[], forall_mem_nil _, h.trans (append_nil _).symm⟩
  · refine ⟨_, ?_, h⟩
    intro event hmem
    obtain ⟨report, -, hcode⟩ := mem_flatMap.mp hmem
    exact eq_stderr_of_mem_onStderr hcode

theorem close_notMem_onStderr (invocation : Invocation) (text : String) :
    .close ∉ invocation.onStderr text := by
  intro hmem
  obtain ⟨_, h⟩ := eq_stderr_of_mem_onStderr hmem
  cases h

/-- No call closes standard output. -/
theorem close_mem_scriptEvents_iff (invocation : Invocation) (options : CommandLine.Options)
    (calls : List Script.Call) :
    .close ∈ invocation.scriptEvents options calls ↔ options.closeStdout := by
  have hcalls :
      .close ∉ (invocation.reports options calls).flatMap (invocation.callEvents options) := by
    intro hmem
    obtain ⟨report, -, hclose⟩ := mem_flatMap.mp hmem
    rw [callEvents, mem_cons, mem_cons] at hclose
    rcases hclose with h | h | h
    · cases h
    · cases h
    · exact invocation.close_notMem_onStderr _ h
  rw [scriptEvents, mem_append, or_iff_left hcalls, mem_fst_prepare_iff]
  exact and_iff_right rfl

/-- Standard output is closed if that is asked for and the script can be read. -/
theorem close_mem_events_run_iff (ho : CommandLine.read invocation.arguments = .ok options) :
    .close ∈ invocation.run.events ↔
      options.closeStdout ∧ ∃ calls, Script.read options.calls = .ok calls := by
  cases hc : Script.read options.calls with
  | error error =>
    rw [run_of_refused ho hc]
    refine iff_of_false (invocation.close_notMem_onStderr _) ?_
    rintro ⟨-, calls, h⟩
    cases h
  | ok calls =>
    obtain ⟨said, hsaid, hevents⟩ := exists_events_run_eq ho hc
    have hnot : .close ∉ said := by
      intro hmem
      obtain ⟨_, h⟩ := hsaid _ hmem
      cases h
    rw [hevents, mem_append, or_iff_left hnot, close_mem_scriptEvents_iff]
    exact (and_iff_left ⟨calls, rfl⟩).symm

end Probe.Invocation

/-! ## All or nothing -/

namespace Script

/-- A script is read if each of its arguments can be, and is otherwise refused for the first that
cannot, in the words that are said of that argument alone. There are then no calls to replay, and a
run of the probe, with whatever options, only says why and ends with status 1; it closes nothing and
writes nothing to standard output. A run closes standard output exactly if that is asked for and the
script can be read, and it does so ahead of the calls. -/
theorem read_blames_first (arguments : List String) :
    (∀ calls, read arguments = .ok calls ↔
        Forall₂ (fun argument call => Call.read argument = .ok call) arguments calls) ∧
      ((∃ calls, read arguments = .ok calls) ↔
        ∀ argument ∈ arguments, ∃ call, Call.read argument = .ok call) ∧
      (∀ error, read arguments = .error error ↔ Blames 1 arguments error) ∧
      (∀ error, read arguments = .error error →
        error.chain.toList =
            ("invalid call #" ++ toString error.position) :: error.cause.chain.toList ∧
          (∀ (config : Config) (stdout : Stdout),
            (read arguments).map (replay config stdout) = .error error) ∧
          ∀ (invocation : Probe.Invocation) (options : CommandLine.Options),
            CommandLine.read invocation.arguments = .ok options → options.calls = arguments →
              invocation.run =
                  ⟨invocation.onStderr ("Error: " ++ error.chain.report ++ "\n"), 1⟩ ∧
                .close ∉ invocation.run.events ∧
                (∀ event ∈ invocation.run.events, ∃ text, event = .stderr text) ∧
                invocation.run.stdout = []) ∧
      ∀ (invocation : Probe.Invocation) (options : CommandLine.Options),
        CommandLine.read invocation.arguments = .ok options → options.calls = arguments →
          (.close ∈ invocation.run.events ↔
            options.closeStdout ∧ ∃ calls, read arguments = .ok calls) ∧
          ∀ calls, read arguments = .ok calls →
            ∃ said, (∀ event ∈ said, ∃ text, event = .stderr text) ∧
              invocation.run.events = (invocation.prepare options).1 ++
                (invocation.reports options calls).flatMap (invocation.callEvents options) ++
                  said := by
  refine ⟨fun _ => readFrom_eq_ok_iff, exists_read_eq_ok_iff, fun _ => readFrom_eq_error_iff, ?_,
    ?_⟩
  · intro error herror
    refine ⟨toList_chain error, ?_, ?_⟩
    · intro config stdout
      rw [herror]
      rfl
    · rintro invocation options ho rfl
      have hrun := Probe.Invocation.run_of_refused ho herror
      refine ⟨hrun, ?_, Probe.Invocation.events_run_of_refused ho herror, ?_⟩
      · rw [hrun]
        exact invocation.close_notMem_onStderr _
      · rw [hrun, Probe.Run.stdout_eq]
        exact Probe.Invocation.flatMap_out_onStderr invocation _
  · rintro invocation options ho rfl
    refine ⟨Probe.Invocation.close_mem_events_run_iff ho, ?_⟩
    intro calls hcalls
    exact Probe.Invocation.exists_events_run_eq ho hcalls

/-- Two arguments at fault, the first of them blamed by its place and nothing closed for it. -/
theorem read_blames_first_of_two :
    let arguments := ["str:a", "cint:+", "bogus"]
    let error : Error := ⟨2, .notAnInteger .terminated "+" .invalidDigit⟩
    let invocation : Probe.Invocation :=
      ⟨[Utf8.encode "--close-stdout", Utf8.encode "str:a", Utf8.encode "--codes",
        Utf8.encode "cint:+", Utf8.encode "bogus", Utf8.encode "--fail-on-error"], none,
        Probe.Stream.pipe, .pipe⟩
    let options : CommandLine.Options := ⟨arguments, true, 0, true, true⟩
    CommandLine.read invocation.arguments = .ok options ∧ read arguments = .error error ∧
      invocation.run =
        ⟨[.stderr ("Error: invalid call #2\n\nCaused by:\n    0: `+` is not a C long\n" ++
          "    1: invalid digit found in string\n")], 1⟩ ∧
      .close ∉ invocation.run.events := by
  intro arguments error invocation options
  have ho : CommandLine.read invocation.arguments = .ok options := by decide +kernel
  have hblamed : Blames 1 arguments error := by
    refine ⟨["str:a"], "cint:+", ["bogus"], rfl, ?_, rfl, rfl⟩
    exact forall_mem_singleton.mpr ⟨_, rfl⟩
  obtain ⟨-, -, herror, hrefused, -⟩ := read_blames_first arguments
  have he : read arguments = .error error := (herror error).mpr hblamed
  obtain ⟨-, -, hrun⟩ := hrefused error he
  obtain ⟨htold, hclose, -⟩ := hrun invocation options ho rfl
  refine ⟨ho, he, htold.trans ?_, hclose⟩
  decide +kernel

end Script

end Outlet
