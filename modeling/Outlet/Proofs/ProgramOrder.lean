import Outlet.Proofs.Calls

/-!
# One order for all that is written

On a file without a limit every step sends the bytes held before its own, so that the file and
what is still held are, one behind the other, all texts in the order of the steps. Printing holds
back an unfinished line at most, and every other step leaves nothing held.
-/

namespace Outlet.Stdout

open Descriptor

/-- A file that has room for everything. -/
structure Boundless (stdout : Stdout) : Prop where
  file : stdout.descriptor.target = .file
  unlimited : stdout.descriptor.limit = none

/-- A text goes behind what was held: some of the two has been sent, and the rest is held. -/
def Appends (before after : Stdout) (text : Bytes) : Prop :=
  ∃ sent, after.descriptor = before.descriptor.store sent ∧
    sent ++ after.held = before.held ++ text

namespace Appends

variable {stdout before after last : Stdout} {first second text : Bytes}

theorem refl (stdout : Stdout) : Appends stdout stdout [] :=
  ⟨[], (store_nil _).symm, (List.append_nil _).symm⟩

theorem trans (h : Appends before after first) (h' : Appends after last second) :
    Appends before last (first ++ second) := by
  obtain ⟨sent, hd, hs⟩ := h
  obtain ⟨more, hd', hs'⟩ := h'
  refine ⟨sent ++ more, ?_, ?_⟩
  · rw [hd', hd, store_store]
  · rw [List.append_assoc, hs', ← List.append_assoc, hs, List.append_assoc]

theorem boundless (h : Appends before after text) (hb : before.Boundless) : after.Boundless := by
  obtain ⟨sent, hd, -⟩ := h
  constructor
  · rw [hd, target_store, hb.file]
  · rw [hd, limit_store, hb.unlimited]

/-- Nothing is lost between the file and what is held. -/
theorem file_append_held (h : Appends before after text) (hb : before.Boundless) :
    after.descriptor.file ++ after.held =
      before.descriptor.file ++ before.held ++ text := by
  obtain ⟨sent, hd, hs⟩ := h
  rw [hd, store_of_file hb.file, List.append_assoc, hs, List.append_assoc]

theorem newline_notMem (h : Appends before after text) (hb : Bytes.newline ∉ before.held)
    (ht : Bytes.newline ∉ text) : Bytes.newline ∉ after.held := by
  obtain ⟨sent, -, hs⟩ := h
  intro hm
  have hall : Bytes.newline ∈ before.held ++ text := by
    rw [← hs]
    exact List.mem_append_right sent hm
  rcases List.mem_append.mp hall with h | h
  · exact hb h
  · exact ht h

end Appends

namespace Boundless

variable {stdout : Stdout}

theorem drain (hb : stdout.Boundless) :
    stdout.drain = (.done, ⟨stdout.descriptor.store stdout.held, []⟩) := by
  have hu : stdout.descriptor.Unlimited := .inr hb.unlimited
  rw [drain_accepting (.inl hb.file), hu.excess, hu.fitting, if_pos rfl]

theorem appends_drain (hb : stdout.Boundless) : Appends stdout stdout.drain.2 [] := by
  rw [hb.drain]
  exact ⟨stdout.held, rfl, rfl⟩

theorem write (hb : stdout.Boundless) {parts : Parts} (hl : parts.length ≤ maxParts) :
    stdout.write parts =
      (.accepted parts.size,
        ⟨(stdout.descriptor.store stdout.held).store parts.flatten, []⟩) := by
  have ha : stdout.descriptor.Accepting := .inl hb.file
  have hu : stdout.descriptor.Unlimited := .inr hb.unlimited
  rw [write_accepting ha (hu.excess _), (ha.store _).write_all hl ((hu.store _).excess _)]

/-! ## Printing -/

theorem pass (hb : stdout.Boundless) (hh : stdout.held = []) (bytes : Bytes) :
    stdout.pass bytes = (.done, ⟨stdout.descriptor.store bytes, []⟩) := by
  have hd : Stdout.drain ⟨stdout.descriptor, bytes⟩ =
      (.done, ⟨stdout.descriptor.store bytes, []⟩) :=
    Boundless.drain ⟨hb.file, hb.unlimited⟩
  rw [Stdout.pass, hd, hh]

/-- Room is made by a drain, if at all, so a text that takes all the room finds nothing held. -/
theorem makeRoom (hb : stdout.Boundless) (bytes : Bytes) :
    ∃ next, stdout.makeRoom bytes = (.done, next) ∧ Appends stdout next [] ∧
      (next.held.length + bytes.length ≤ capacity ∨ next.held = []) := by
  by_cases hfit : stdout.held.length + bytes.length ≤ capacity
  · exact ⟨stdout, by rw [Stdout.makeRoom, if_pos hfit], .refl stdout, .inl hfit⟩
  · refine ⟨_, ?_, hb.appends_drain, .inr ?_⟩
    · rw [Stdout.makeRoom, if_neg hfit, hb.drain]
    · rw [hb.drain]

theorem hold (hb : stdout.Boundless) (bytes : Bytes) :
    ∃ next, stdout.hold bytes = (.done, next) ∧ Appends stdout next bytes := by
  obtain ⟨ready, hr, happ, hroom⟩ := hb.makeRoom bytes
  rw [Stdout.hold, hr]
  simp only [andThen]
  by_cases hsmall : bytes.length < capacity
  · have hheld : Appends ready { ready with held := ready.held ++ bytes } bytes :=
      ⟨[], (store_nil _).symm, rfl⟩
    exact ⟨_, if_pos hsmall, happ.trans hheld⟩
  · have hempty : ready.held = [] := by
      rcases hroom with hle | he
      · exact List.length_eq_zero_iff.mp (by omega)
      · exact he
    rw [if_neg hsmall, (happ.boundless hb).pass hempty]
    have hpassed : Appends ready ⟨ready.descriptor.store bytes, []⟩ bytes :=
      ⟨bytes, rfl, by rw [hempty, List.append_nil, List.nil_append]⟩
    exact ⟨_, rfl, happ.trans hpassed⟩

/-- Complete lines go out at once, behind what was held. -/
theorem printLines (hb : stdout.Boundless) (hn : Bytes.newline ∉ stdout.held) (lines : Bytes) :
    ∃ next, stdout.printLines lines = (.done, next) ∧ Appends stdout next lines ∧
      Bytes.newline ∉ next.held := by
  by_cases hl : lines = []
  · have hlast : stdout.held.getLast? ≠ some Bytes.newline :=
      fun h => hn (List.mem_of_getLast? h)
    rw [Stdout.printLines, if_pos hl, if_neg hlast, hl]
    exact ⟨stdout, rfl, .refl stdout, hn⟩
  · by_cases hh : stdout.held = []
    · rw [Stdout.printLines, if_neg hl, if_pos hh, hb.pass hh]
      refine ⟨_, rfl, ⟨lines, rfl, ?_⟩, List.not_mem_nil⟩
      rw [hh, List.append_nil, List.nil_append]
    · obtain ⟨next, hnext, happ⟩ := hb.hold lines
      have hb' := happ.boundless hb
      rw [Stdout.printLines, if_neg hl, if_neg hh, hnext]
      simp only [andThen]
      have hdrain := happ.trans hb'.appends_drain
      rw [List.append_nil] at hdrain
      rw [hb'.drain] at hdrain ⊢
      exact ⟨_, rfl, hdrain, List.not_mem_nil⟩

theorem print (hb : stdout.Boundless) (hn : Bytes.newline ∉ stdout.held) (text : Bytes) :
    ∃ next, stdout.print text = (.done, next) ∧ Appends stdout next text ∧
      Bytes.newline ∉ next.held := by
  obtain ⟨mid, hmid, happ, hnmid⟩ := hb.printLines hn (Bytes.splitLines text).1
  obtain ⟨next, hnext, happ'⟩ := (happ.boundless hb).hold (Bytes.splitLines text).2
  refine ⟨next, ?_, ?_, happ'.newline_notMem hnmid (Bytes.newline_notMem_splitLines text)⟩
  · simp only [Stdout.print, hmid, andThen, hnext]
  · have hall := happ.trans happ'
    rwa [Bytes.splitLines_append] at hall

end Boundless

/-! ## Steps and runs -/

/-- A step that leaves the target as it is, and hands over no more parts at once than the system
takes. -/
def Step.Regular : Step → Prop
  | .retarget _ => False
  | .write parts => parts.length ≤ maxParts
  | .entry _ | .call _ _ | .flush | .print _ => True

/-- Only printing leaves anything held. -/
def Step.Prints : Step → Prop
  | .print _ => True
  | _ => False

theorem Boundless.send {stdout : Stdout} (hb : stdout.Boundless) (message : Message) :
    Appends stdout (send stdout message).2 message.text ∧ (send stdout message).2.held = [] := by
  rw [send_of_unlimited (.inl hb.file) (.inr hb.unlimited)]
  exact ⟨⟨_, rfl, List.append_nil _⟩, rfl⟩

theorem Boundless.appends_write {stdout : Stdout} (hb : stdout.Boundless) {parts : Parts}
    (hl : parts.length ≤ maxParts) :
    Appends stdout (stdout.write parts).2 parts.flatten ∧ (stdout.write parts).2.held = [] := by
  rw [hb.write hl, store_store]
  exact ⟨⟨_, rfl, List.append_nil _⟩, rfl⟩

theorem Boundless.entry {stdout : Stdout} (hb : stdout.Boundless) (made : Entry) :
    Appends stdout (made.run stdout).2 (Step.entry made).text ∧
      (made.run stdout).2.held = [] := by
  rw [Entry.run, Step.text]
  cases made.message with
  | ok message => exact hb.send message
  | error error =>
    refine ⟨hb.appends_drain, ?_⟩
    change stdout.drain.2.held = []
    rw [hb.drain]

/-- One step puts its text behind all that was written before. -/
theorem Boundless.step {stdout : Stdout} (hb : stdout.Boundless)
    (hn : Bytes.newline ∉ stdout.held) (config : Config) {next : Step} (hr : next.Regular) :
    Appends stdout (step config stdout next).2 next.text ∧
      Bytes.newline ∉ (step config stdout next).2.held ∧
      (¬ next.Prints → (step config stdout next).2.held = []) := by
  have hempty : ∀ last : Stdout, last.held = [] →
      Bytes.newline ∉ last.held ∧ (¬ next.Prints → last.held = []) := by
    intro last h
    rw [h]
    exact ⟨List.not_mem_nil, fun _ => rfl⟩
  cases next with
  | retarget target => exact absurd hr id
  | entry made =>
    obtain ⟨happ, hheld⟩ := hb.entry made
    exact ⟨happ, hempty _ hheld⟩
  | call form message =>
    obtain ⟨happ, hheld⟩ := hb.send message
    exact ⟨happ, hempty _ hheld⟩
  | write parts =>
    obtain ⟨happ, hheld⟩ := hb.appends_write hr
    exact ⟨happ, hempty _ hheld⟩
  | flush =>
    have hheld : stdout.drain.2.held = [] := by rw [hb.drain]
    exact ⟨hb.appends_drain, hempty _ hheld⟩
  | print text =>
    obtain ⟨last, hlast, happ, hnl⟩ := hb.print hn text
    change Appends stdout (stdout.print text).2 text ∧ _ ∉ (stdout.print text).2.held ∧ _
    rw [hlast]
    exact ⟨happ, hnl, fun h => absurd trivial h⟩

theorem appends_run {stdout : Stdout} (hb : stdout.Boundless) (hn : Bytes.newline ∉ stdout.held)
    (config : Config) {steps : List Step} (hr : ∀ next ∈ steps, next.Regular) :
    Appends stdout (run config stdout steps).2 (steps.flatMap Step.text) ∧
      Bytes.newline ∉ (run config stdout steps).2.held := by
  induction steps generalizing stdout with
  | nil => exact ⟨.refl stdout, hn⟩
  | cons first rest ih =>
    obtain ⟨happ, hn', -⟩ := hb.step hn config (hr first List.mem_cons_self)
    obtain ⟨hrest, hlast⟩ :=
      ih (happ.boundless hb) hn' fun next h => hr next (List.mem_cons_of_mem first h)
    rw [run, Session.run_cons, List.flatMap_cons]
    exact ⟨happ.trans hrest, hlast⟩

/-- The file and what is still held are all texts in the order of the steps. No newline is ever
held, and behind every step but a print the file alone is all that was written. -/
theorem run_keeps_program_order {stdout : Stdout} {steps : List Step} (config : Config)
    (hb : stdout.Boundless) (hn : Bytes.newline ∉ stdout.held)
    (hr : ∀ next ∈ steps, next.Regular) :
    (run config stdout steps).2.descriptor.file ++ (run config stdout steps).2.held =
        stdout.descriptor.file ++ stdout.held ++ steps.flatMap Step.text ∧
      Bytes.newline ∉ (run config stdout steps).2.held ∧
      ∀ before last, steps = before ++ [last] → ¬ last.Prints →
        (run config stdout steps).2.held = [] ∧
          (run config stdout steps).2.descriptor.file =
            stdout.descriptor.file ++ stdout.held ++ steps.flatMap Step.text := by
  obtain ⟨happ, hnl⟩ := appends_run hb hn config hr
  have hall := happ.file_append_held hb
  refine ⟨hall, hnl, ?_⟩
  rintro before last rfl hp
  obtain ⟨hbefore, hnbefore⟩ :=
    appends_run hb hn config fun next h => hr next (List.mem_append_left _ h)
  have hlast := (hbefore.boundless hb).step hnbefore config
    (hr last (List.mem_append_right _ List.mem_cons_self))
  have hheld : (run config stdout (before ++ [last])).2.held = [] := by
    rw [run, Session.run_append, Session.run_cons, Session.run_nil]
    exact hlast.2.2 hp
  rw [hheld, List.append_nil] at hall
  exact ⟨hheld, hall⟩

/-- Text printed in two halves, with a call and a rejected pointer between them. -/
theorem run_keeps_program_order_between_prints :
    let rejected : Step := .entry (.sized .string none 7)
    let steps : List Step :=
      [.print [97, 10, 98], .entry (.sized .line (some [99]) 1), .print [100]] ++ [rejected]
    let start : Stdout := ⟨⟨.file, none, []⟩, []⟩
    start.Boundless ∧ Bytes.newline ∉ start.held ∧ (∀ next ∈ steps, next.Regular) ∧
      ¬ rejected.Prints ∧
      (run ⟨true⟩ start steps).2.descriptor.file = [97, 10, 98, 99, 10, 100] := by
  intro rejected steps start
  have hb : start.Boundless := ⟨rfl, rfl⟩
  have hn : Bytes.newline ∉ start.held := List.not_mem_nil
  have hr : ∀ next ∈ steps, next.Regular := by simp [steps, rejected, Step.Regular]
  have hp : ¬ rejected.Prints := id
  obtain ⟨-, -, hlast⟩ := run_keeps_program_order ⟨true⟩ hb hn hr
  exact ⟨hb, hn, hr, hp, (hlast _ _ rfl hp).2⟩

end Outlet.Stdout
