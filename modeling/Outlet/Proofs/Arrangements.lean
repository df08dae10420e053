import Outlet.CommandLine.Reader
import Outlet.Proofs.Grammar

/-!
# Arrangements of a command line

A command line is put together from calls and options in any order. What has been read of it is
seen in the state once what is pending has been looked at, and to that state every call and every
option adds its own part. Main statements: a piece adds its part wherever it stands
(`exists_foldlM_step`), and behind the end of the options every argument is a call
(`exists_foldlM_step_escaped`).
-/

namespace Outlet.CommandLine

open List Decimal.Numeral

/-! ## Pieces -/

/-- A numeral for a pause, in any spelling that is read. -/
structure Delay where
  spelling : Spelling
  unsigned : spelling.sign ≠ some .minus
  holds : Bounds.unsigned64.Holds spelling.value

namespace Delay

def text (delay : Delay) : Bytes := delay.spelling.text

def milliseconds (delay : Delay) : Nat := delay.spelling.value.toNat

theorem unsigned_ofInt (milliseconds : Nat) :
    (Spelling.ofInt milliseconds).sign ≠ some .minus := by
  rw [Spelling.ofInt, if_neg (by omega)]
  exact (Option.some_ne_none _).symm

theorem holds_ofInt {milliseconds : Nat} (h : milliseconds < 2 ^ 64) :
    Bounds.unsigned64.Holds (Spelling.ofInt milliseconds).value := by
  rw [Spelling.value_ofInt]
  simp only [Bounds.Holds, Bounds.unsigned64]
  omega

/-- The pause as it is usually written. -/
def ofNat (milliseconds : Nat) (h : milliseconds < 2 ^ 64) : Delay where
  spelling := .ofInt milliseconds
  unsigned := unsigned_ofInt milliseconds
  holds := holds_ofInt h

theorem milliseconds_ofNat (milliseconds : Nat) (h : milliseconds < 2 ^ 64) :
    (ofNat milliseconds h).milliseconds = milliseconds := by
  rw [Delay.milliseconds, ofNat, Spelling.value_ofInt, Int.toNat_natCast]

end Delay

/-- A call or an option, as it is put on a command line. -/
inductive Piece where
  | call (argument : String)
  | flag (flag : Flag)
  /-- The pause, with its value in the same argument or in the next one. -/
  | pause (joined : Bool) (delay : Delay)

namespace Piece

def arguments : Piece → List Bytes
  | .call argument => [Utf8.encode argument]
  | .flag given => [Utf8.encode ("--" ++ given.name)]
  | .pause true delay => [Utf8.encode "--pause-ms=" ++ delay.text]
  | .pause false delay => [Utf8.encode "--pause-ms", delay.text]

def call? : Piece → Option String
  | .call argument => some argument
  | .flag _ | .pause .. => none

def flag? : Piece → Option Flag
  | .flag given => some given
  | .call _ | .pause .. => none

def pause? : Piece → Option Nat
  | .pause _ delay => some delay.milliseconds
  | .call _ | .flag _ => none

/-- Whether a piece can still be read: a call that can be replayed, or an option that has not been
given before. -/
def Admitted (state : State) : Piece → Prop
  | .call argument => ∃ call, Script.Call.read argument = .ok call
  | .flag given => given ∉ state.flags
  | .pause .. => state.pause = none

/-- What a piece adds to what has been read before it. -/
def addTo (state : State) : Piece → State
  | .call argument => { state with calls := state.calls ++ [argument] }
  | .flag given => { state with flags := given :: state.flags }
  | .pause _ delay => { state with pause := some delay.milliseconds }

end Piece

/-! ## Arguments by themselves -/

namespace Token

theorem ofArgument_of_ne_hyphen {first : UInt8} (h : first ≠ hyphen) (rest : Bytes) :
    ofArgument (first :: rest) = plain := if_pos h

theorem ofArgument_flag (given : Flag) :
    ofArgument (Utf8.encode ("--" ++ given.name)) = flag given := by
  cases given <;> decide

theorem ofArgument_pause : ofArgument (Utf8.encode "--pause-ms") = pause none := by decide

theorem ofArgument_pause_joined (value : Bytes) :
    ofArgument (Utf8.encode "--pause-ms=" ++ value) = pause (some value) := rfl

theorem ofArgument_escape : ofArgument (Utf8.encode "--") = escape := by decide

/-- No word for a call begins with a hyphen. -/
theorem ofArgument_of_read {argument : String} {call : Script.Call}
    (h : Script.Call.read argument = .ok call) : ofArgument (Utf8.encode argument) = plain := by
  obtain ⟨kind, payload, rfl, -⟩ := Script.Call.read_eq_ok_iff.mp h
  rw [Script.Kind.written, Utf8.encode_append, Utf8.encode_append, append_assoc]
  rcases kind with ⟨_ | _, _ | _⟩ | ⟨_ | _⟩ <;> exact ofArgument_of_ne_hyphen (by decide) _

end Token

namespace Delay

variable (delay : Delay)

/-- The value of a pause is no option either. -/
theorem ofArgument_text : Token.ofArgument delay.text = .plain := by
  obtain ⟨first, rest, hdigits⟩ := exists_cons_of_ne_nil delay.spelling.digits_ne_nil
  have hunsigned := delay.unsigned
  rw [text, Spelling.text]
  cases hsign : delay.spelling.sign with
  | some sign =>
    rw [hsign] at hunsigned
    cases sign with
    | plus => exact Token.ofArgument_of_ne_hyphen (by decide) _
    | minus => exact absurd rfl hunsigned
  | none =>
    have hdigit : IsDigit first := delay.spelling.isDigit_of_mem first (by simp [hdigits])
    rw [hdigits]
    apply Token.ofArgument_of_ne_hyphen
    rintro rfl
    exact absurd hdigit (by decide)

theorem decode?_text : Utf8.decode? delay.text = some (Utf8.decodeLossy delay.text) :=
  Utf8.decode?_eq_some_iff.mpr
    (Utf8.encode_decodeLossy_single fun _ => Spelling.toNat_lt_of_mem_text).symm

theorem read_text : Decimal.Numeral.read .unsigned64 delay.text = .ok delay.spelling.value :=
  read_spelling (fun h => absurd h delay.unsigned) ⟨by decide, by decide⟩ delay.holds

end Delay

/-! ## What has been read -/

namespace State

variable {state settled : State}

theorem setPause_of_none (h : state.pause = none) (delay : Delay) :
    state.setPause delay.text =
      .ok { state with pause := some delay.milliseconds, pending := .nothing } := by
  rw [setPause, h, Option.isSome_none, if_neg Bool.false_ne_true, delay.decode?_text]
  simp only [delay.read_text, Delay.milliseconds]

theorem eq_of_setPause {value : Bytes} (h : state.setPause value = .ok settled) :
    ∃ milliseconds, settled = { state with pause := some milliseconds, pending := .nothing } := by
  rw [setPause] at h
  split at h
  · cases h
  · split at h
    · cases h
    · split at h
      · cases h
      next value _ => exact ⟨value.toNat, (Except.ok.inj h).symm⟩

/-- What was pending is now among the calls, or it is the pause. -/
theorem eq_of_settle (h : state.settle = .ok settled) :
    ∃ (calls : List String) (pause : Option Nat),
      settled = { state with calls, pause, pending := .nothing } := by
  rw [settle] at h
  split at h
  next hpending =>
    refine ⟨state.calls, state.pause, ?_⟩
    rw [← hpending]
    exact (Except.ok.inj h).symm
  next arguments =>
    split at h
    · cases h
    next texts _ => exact ⟨state.calls ++ texts, state.pause, (Except.ok.inj h).symm⟩
  next => cases h
  next =>
    obtain ⟨milliseconds, rfl⟩ := eq_of_setPause h
    exact ⟨state.calls, some milliseconds, rfl⟩

theorem pending_of_settle (h : state.settle = .ok settled) : settled.pending = .nothing := by
  obtain ⟨calls, pause, rfl⟩ := eq_of_settle h
  rfl

theorem escaped_of_settle (h : state.settle = .ok settled) : settled.escaped = state.escaped := by
  obtain ⟨calls, pause, rfl⟩ := eq_of_settle h
  rfl

theorem settle_of_nothing (h : state.pending = .nothing) : state.settle = .ok state := by
  rw [settle, h]

/-- The first pause is set, whatever is pending. -/
theorem setPause_of_settle (hs : state.settle = .ok settled) (h : settled.pause = none)
    (delay : Delay) (pending : Pending) :
    ({ settled with pending } : State).setPause delay.text =
      .ok { settled with pause := some delay.milliseconds } := by
  have hnone : ({ settled with pending } : State).pause = none := h
  rw [setPause_of_none hnone, ← pending_of_settle hs]

/-- An argument that is read as a call comes behind calls that are pending and can be settled. -/
theorem exists_addCall_eq (hs : state.settle = .ok settled) (argument : Bytes) :
    ∃ (base : State) (before : List Bytes) (texts : List String),
      state.addCall argument = .ok { base with pending := .calls (before ++ [argument]) } ∧
      before.mapM Utf8.decode? = some texts ∧
      settled = { base with calls := base.calls ++ texts, pending := .nothing } := by
  rw [addCall]
  cases hpending : state.pending with
  | calls arguments =>
    rw [settle, hpending] at hs
    cases hm : arguments.mapM Utf8.decode? with
    | none =>
      simp only [hm] at hs
      cases hs
    | some texts =>
      simp only [hm] at hs
      exact ⟨state, arguments, texts, rfl, hm, (Except.ok.inj hs).symm⟩
  | nothing | pause value =>
    refine ⟨settled, [], [], ?_, rfl, ?_⟩
    · simp only [hs]
      rfl
    · rw [append_nil, ← pending_of_settle hs]

/-- Pending calls are settled if all of them are UTF-8. -/
theorem settle_pending (base : State) {before : List Bytes} {texts : List String}
    (hbefore : before.mapM Utf8.decode? = some texts) (further : List Bytes) :
    ({ base with pending := .calls (before ++ further) } : State).settle =
      match further.mapM Utf8.decode? with
      | none => .error .invalidUtf8
      | some more =>
        .ok { base with calls := base.calls ++ (texts ++ more), pending := .nothing } := by
  simp only [settle, mapM_append, hbefore]
  cases further.mapM Utf8.decode? <;> rfl

/-- A call is added to the calls before it, whatever is pending. -/
theorem exists_addCall (hs : state.settle = .ok settled) (argument : String) :
    ∃ next, state.addCall (Utf8.encode argument) = .ok next ∧
      next.settle = .ok { settled with calls := settled.calls ++ [argument] } := by
  obtain ⟨base, before, texts, hadd, hbefore, rfl⟩ := exists_addCall_eq hs (Utf8.encode argument)
  refine ⟨_, hadd, ?_⟩
  rw [settle_pending base hbefore]
  simp [Utf8.decode?_encode]

/-- Only a pause without a value would take the argument for one. -/
theorem addPlain_eq_addCall (hs : state.settle = .ok settled) (argument : Bytes) :
    state.addPlain argument = state.addCall argument := by
  rw [addPlain]
  split
  next hpending =>
    rw [settle, hpending] at hs
    cases hs
  next => rfl

theorem step_of_plain (he : state.escaped = false) {argument : Bytes}
    (h : Token.ofArgument argument = .plain) :
    state.step argument = (state.addPlain argument).mapError .refused := by
  rw [step, he, if_neg Bool.false_ne_true, h]

theorem step_flag (hs : state.settle = .ok settled) (he : state.escaped = false) {given : Flag}
    (h : given ∉ settled.flags) :
    state.step (Utf8.encode ("--" ++ given.name)) =
      .ok { settled with flags := given :: settled.flags } := by
  rw [step, he, if_neg Bool.false_ne_true, Token.ofArgument_flag]
  simp only [hs, Except.bind, setFlag, if_neg h]
  rfl

theorem step_pause_joined (hs : state.settle = .ok settled) (he : state.escaped = false)
    (h : settled.pause = none) (delay : Delay) :
    state.step (Utf8.encode "--pause-ms=" ++ delay.text) =
      .ok { settled with pause := some delay.milliseconds } := by
  have hset : settled.setPause delay.text = _ := setPause_of_settle hs h delay settled.pending
  rw [step, he, if_neg Bool.false_ne_true, Token.ofArgument_pause_joined]
  simp only [hs, Except.bind, hset]
  rfl

theorem step_pause (hs : state.settle = .ok settled) (he : state.escaped = false) :
    state.step (Utf8.encode "--pause-ms") = .ok { settled with pending := .pause none } := by
  rw [step, he, if_neg Bool.false_ne_true, Token.ofArgument_pause]
  simp only [hs]
  rfl

/-- The argument behind a pause without a value is its value. -/
theorem step_text (he : state.escaped = false) (hp : state.pending = .pause none) (delay : Delay) :
    state.step delay.text = .ok { state with pending := .pause (some delay.text) } := by
  rw [step_of_plain he delay.ofArgument_text, addPlain, hp]
  rfl

/-- A piece adds its own part wherever it stands. -/
theorem exists_foldlM_step {piece : Piece} (hs : state.settle = .ok settled)
    (he : state.escaped = false) (ha : piece.Admitted settled) :
    ∃ next, piece.arguments.foldlM step state = .ok next ∧
      next.settle = .ok (piece.addTo settled) := by
  have hpending := pending_of_settle hs
  have hescaped : settled.escaped = false := (escaped_of_settle hs).trans he
  cases piece with
  | call argument =>
    obtain ⟨call, hcall⟩ := ha
    obtain ⟨next, hadd, hnext⟩ := exists_addCall hs argument
    have hstep : state.step (Utf8.encode argument) = .ok next := by
      rw [step_of_plain he (Token.ofArgument_of_read hcall), addPlain_eq_addCall hs, hadd]
      rfl
    refine ⟨next, ?_, hnext⟩
    rw [Piece.arguments, foldlM_cons, hstep]
    rfl
  | flag given =>
    refine ⟨_, ?_, settle_of_nothing hpending⟩
    rw [Piece.arguments, foldlM_cons, step_flag hs he ha]
    rfl
  | pause joined delay =>
    cases joined with
    | true =>
      refine ⟨_, ?_, settle_of_nothing hpending⟩
      rw [Piece.arguments, foldlM_cons, step_pause_joined hs he ha]
      rfl
    | false =>
      let waiting : State := { settled with pending := .pause none }
      let valued : State := { settled with pending := .pause (some delay.text) }
      have hwaiting : waiting.escaped = false := hescaped
      have hvalued : waiting.step delay.text = .ok valued := step_text hwaiting rfl delay
      refine ⟨valued, ?_, setPause_of_settle hs ha delay (.pause (some delay.text))⟩
      rw [Piece.arguments, foldlM_cons, step_pause hs he]
      change [delay.text].foldlM step _ = _
      rw [foldlM_cons, hvalued]
      rfl

/-! ### Behind the end of the options -/

theorem settle_escape (state : State) :
    ({ state with escaped := true } : State).settle =
      state.settle.map fun settled => { settled with escaped := true } := by
  simp only [settle, setPause]
  split
  next => rfl
  next => split <;> rfl
  next => rfl
  next =>
    split
    · rfl
    · split
      · rfl
      · split <;> rfl

theorem step_escape (he : state.escaped = false) :
    state.step (Utf8.encode "--") = .ok { state with escaped := true } := by
  rw [step, he, if_neg Bool.false_ne_true, Token.ofArgument_escape]

theorem step_of_escaped (he : state.escaped = true) (argument : Bytes) :
    state.step argument = (state.addCall argument).mapError .refused := by
  rw [step, if_pos he]

theorem foldlM_step_pending {before : List Bytes} (hp : state.pending = .calls before)
    (he : state.escaped = true) (further : List Bytes) :
    further.foldlM step state = .ok { state with pending := .calls (before ++ further) } := by
  induction further generalizing state before with
  | nil =>
    rw [append_nil, ← hp]
    rfl
  | cons argument rest ih =>
    let next : State := { state with pending := .calls (before ++ [argument]) }
    have hadd : state.step argument = .ok next := by
      rw [step_of_escaped he, addCall, hp]
      rfl
    have hnext : next.escaped = true := he
    have hrest : rest.foldlM step next =
        .ok { next with pending := .calls (before ++ [argument] ++ rest) } := ih rfl hnext
    rw [append_assoc, singleton_append] at hrest
    rw [foldlM_cons, hadd]
    exact hrest

/-- Whatever they begin with, the arguments are added to the calls before them; all that can be
wrong with them is that they are not UTF-8. -/
theorem exists_foldlM_step_escaped (hs : state.settle = .ok settled) (he : state.escaped = true)
    (further : List Bytes) :
    ∃ next, further.foldlM step state = .ok next ∧
      next.settle = match further.mapM Utf8.decode? with
        | none => .error .invalidUtf8
        | some texts => .ok { settled with calls := settled.calls ++ texts } := by
  cases further with
  | nil =>
    refine ⟨state, rfl, hs.trans ?_⟩
    simp
  | cons argument rest =>
    obtain ⟨base, before, texts, hadd, hbefore, rfl⟩ := exists_addCall_eq hs argument
    let next : State := { base with pending := .calls (before ++ [argument]) }
    have hnext : next.escaped = true := (escaped_of_settle hs).trans he
    refine ⟨{ base with pending := .calls (before ++ argument :: rest) }, ?_, ?_⟩
    · rw [foldlM_cons, step_of_escaped he, hadd]
      have hrest : rest.foldlM step next =
          .ok { next with pending := .calls (before ++ [argument] ++ rest) } :=
        foldlM_step_pending rfl hnext rest
      rw [append_assoc, singleton_append] at hrest
      exact hrest
    · rw [settle_pending base hbefore]
      simp only [append_assoc]

end State

/-! ## Arrangements -/

theorem mapM_decode?_eq_some_iff {arguments : List Bytes} {texts : List String} :
    arguments.mapM Utf8.decode? = some texts ↔ arguments = texts.map Utf8.encode := by
  induction arguments generalizing texts with
  | nil => simp [eq_comm]
  | cons argument rest ih =>
    rw [mapM_cons]
    constructor
    · intro h
      obtain ⟨text, htext, h⟩ := Option.bind_eq_some_iff.mp h
      obtain ⟨more, hmore, h⟩ := Option.bind_eq_some_iff.mp h
      obtain rfl := Option.some.inj h
      rw [map_cons, ← Utf8.decode?_eq_some_iff.mp htext, ← ih.mp hmore]
    · intro h
      cases texts with
      | nil => cases h
      | cons text more =>
        obtain ⟨rfl, hmore⟩ := cons_eq_cons.mp h
        simp [Utf8.decode?_encode, ih.mpr hmore]

/-- Calls and options in the order in which they are put on a command line. -/
abbrev Arrangement := List Piece

namespace Arrangement

def line (pieces : Arrangement) : List Bytes := pieces.flatMap Piece.arguments

def calls (pieces : Arrangement) : List String := pieces.filterMap Piece.call?

def flags (pieces : Arrangement) : List Flag := pieces.filterMap Piece.flag?

def pauses (pieces : Arrangement) : List Nat := pieces.filterMap Piece.pause?

/-- Each call can be read, and no option is given twice. -/
structure Tidy (pieces : Arrangement) : Prop where
  calls : ∀ argument ∈ calls pieces, ∃ call, Script.Call.read argument = .ok call
  flags : (flags pieces).Nodup
  pauses : (pauses pieces).length ≤ 1

/-- Some calls under the options that are given. -/
def options (pieces : Arrangement) (calls : List String) : Options where
  calls := calls
  codes := .codes ∈ flags pieces
  pause := (pauses pieces).headD 0
  closeStdout := .closeStdout ∈ flags pieces
  failOnError := .failOnError ∈ flags pieces

/-- What has been read of an arrangement. -/
def gathered (pieces : Arrangement) : State :=
  ⟨calls pieces, (flags pieces).reverse, (pauses pieces).head?, .nothing, false⟩

/-- The flags are gathered in reverse, which makes no difference to what is read in the end. -/
theorem read_of_gathered {pieces : Arrangement} {calls : List String} {escaped : Bool}
    {arguments : List Bytes} {state : State}
    (hread : arguments.foldlM State.step .start = .ok state)
    (hs : state.settle = .ok { gathered pieces with calls, escaped }) (hcalls : calls ≠ []) :
    read arguments = .ok (options pieces calls) := by
  rw [read, hread]
  simp only [Except.bind, State.finish, hs, if_neg hcalls, gathered, options, mem_reverse,
    headD_eq_head?_getD]
  rfl

section

variable (front back : Arrangement)

theorem calls_append : calls (front ++ back) = calls front ++ calls back := filterMap_append

theorem flags_append : flags (front ++ back) = flags front ++ flags back := filterMap_append

theorem pauses_append : pauses (front ++ back) = pauses front ++ pauses back := filterMap_append

theorem line_append : line (front ++ back) = line front ++ line back := flatMap_append

end

namespace Tidy

variable {front back pieces : Arrangement} {piece : Piece}

theorem of_append (h : Tidy (front ++ back)) : Tidy front := by
  obtain ⟨hcalls, hflags, hpauses⟩ := h
  rw [calls_append] at hcalls
  rw [flags_append] at hflags
  rw [pauses_append, length_append] at hpauses
  exact ⟨fun argument hm => hcalls argument (mem_append_left _ hm), (nodup_append.mp hflags).1,
    by omega⟩

theorem pauses_eq_nil {joined : Bool} {delay : Delay}
    (h : Tidy (pieces ++ [.pause joined delay])) : Arrangement.pauses pieces = [] := by
  have hpauses := h.pauses
  have hone : Arrangement.pauses [.pause joined delay] = [delay.milliseconds] := rfl
  rw [pauses_append, hone, length_append, length_singleton] at hpauses
  exact length_eq_zero_iff.mp (by omega)

theorem admitted (h : Tidy (pieces ++ [piece])) : piece.Admitted (gathered pieces) := by
  cases piece with
  | call argument =>
    apply h.calls argument
    rw [calls_append]
    exact mem_append_right _ (mem_singleton_self argument)
  | flag given =>
    have hflags := h.flags
    rw [flags_append] at hflags
    intro hmem
    exact (nodup_append.mp hflags).2.2 given (mem_reverse.mp hmem) given
      (mem_singleton_self given) rfl
  | pause joined delay =>
    change (Arrangement.pauses pieces).head? = none
    rw [h.pauses_eq_nil]
    rfl

theorem addTo_gathered (h : Tidy (pieces ++ [piece])) :
    piece.addTo (gathered pieces) = gathered (pieces ++ [piece]) := by
  rw [gathered, gathered, calls_append, flags_append, pauses_append, reverse_append]
  cases piece with
  | call argument | flag given =>
    simp [Piece.addTo, Arrangement.calls, Arrangement.flags, Arrangement.pauses, Piece.call?,
      Piece.flag?, Piece.pause?]
  | pause joined delay =>
    rw [h.pauses_eq_nil]
    simp [Piece.addTo, Arrangement.calls, Arrangement.flags, Arrangement.pauses, Piece.call?,
      Piece.flag?, Piece.pause?]

/-- All of an arrangement is read, and nothing else. -/
theorem exists_foldlM_line (h : Tidy pieces) :
    ∃ state, (line pieces).foldlM State.step .start = .ok state ∧
      state.settle = .ok (gathered pieces) := by
  induction pieces using List.reverseRecOn with
  | nil => exact ⟨.start, rfl, rfl⟩
  | append_singleton pieces piece ih =>
    obtain ⟨state, hread, hs⟩ := ih h.of_append
    have he : state.escaped = false := (State.escaped_of_settle hs).symm
    obtain ⟨next, hstep, hnext⟩ := State.exists_foldlM_step hs he h.admitted
    refine ⟨next, ?_, hnext.trans (congrArg Except.ok h.addTo_gathered)⟩
    have hone : line [piece] = piece.arguments := flatMap_singleton _ _
    rw [line_append, foldlM_append, hread, hone]
    exact hstep

theorem read_line (h : Tidy pieces) (hcalls : Arrangement.calls pieces ≠ []) :
    read (line pieces) = .ok (options pieces (Arrangement.calls pieces)) := by
  obtain ⟨state, hread, hs⟩ := h.exists_foldlM_line
  exact read_of_gathered hread hs hcalls

theorem exists_foldlM_line_escape (h : Tidy pieces) (further : List Bytes) :
    ∃ state, (line pieces ++ Utf8.encode "--" :: further).foldlM State.step .start = .ok state ∧
      state.settle = match further.mapM Utf8.decode? with
        | none => .error .invalidUtf8
        | some texts => .ok { gathered pieces with
            calls := Arrangement.calls pieces ++ texts
            escaped := true } := by
  obtain ⟨state, hread, hs⟩ := h.exists_foldlM_line
  have he : state.escaped = false := (State.escaped_of_settle hs).symm
  have hescape := State.settle_escape state
  rw [hs] at hescape
  obtain ⟨next, hfurther, hnext⟩ := State.exists_foldlM_step_escaped hescape rfl further
  refine ⟨next, ?_, hnext⟩
  rw [foldlM_append, hread]
  change (Utf8.encode "--" :: further).foldlM State.step state = _
  rw [foldlM_cons, State.step_escape he]
  exact hfurther

/-- Behind the end of the options stands nothing but calls. -/
theorem read_line_escape (h : Tidy pieces) {further : List String}
    (hcalls : Arrangement.calls pieces ++ further ≠ []) :
    read (line pieces ++ Utf8.encode "--" :: further.map Utf8.encode) =
      .ok (options pieces (Arrangement.calls pieces ++ further)) := by
  obtain ⟨state, hread, hs⟩ := h.exists_foldlM_line_escape (further.map Utf8.encode)
  rw [mapM_decode?_eq_some_iff.mpr rfl] at hs
  exact read_of_gathered hread hs hcalls

theorem read_line_escape_malformed (h : Tidy pieces) {further : List Bytes}
    (hm : ∀ texts : List String, further ≠ texts.map Utf8.encode) :
    read (line pieces ++ Utf8.encode "--" :: further) = .error (.refused .invalidUtf8) := by
  obtain ⟨state, hread, hs⟩ := h.exists_foldlM_line_escape further
  have hnone : further.mapM Utf8.decode? = none := by
    rw [Option.eq_none_iff_forall_ne_some]
    intro texts htexts
    exact hm texts (mapM_decode?_eq_some_iff.mp htexts)
  rw [hnone] at hs
  rw [read, hread]
  simp only [Except.bind, State.finish, hs]
  rfl

theorem perm {other : Arrangement} (h : Tidy pieces) (hp : other.Perm pieces) : Tidy other where
  calls := fun argument hm => h.calls argument ((hp.filterMap Piece.call?).mem_iff.mp hm)
  flags := (hp.filterMap Piece.flag?).nodup_iff.mpr h.flags
  pauses := ((hp.filterMap Piece.pause?).length_eq).trans_le h.pauses

end Tidy

/-- There is no more than one pause, so its place does not matter. -/
theorem options_perm {pieces other : Arrangement} (h : Tidy pieces) (hp : other.Perm pieces)
    (calls : List String) : options other calls = options pieces calls := by
  have hflags (flag : Flag) : flag ∈ flags other ↔ flag ∈ flags pieces :=
    (hp.filterMap Piece.flag?).mem_iff
  have hpauses : pauses other = pauses pieces := by
    have hperm : (pauses other).Perm (pauses pieces) := hp.filterMap Piece.pause?
    have hlength := h.pauses
    match hpieces : pauses pieces with
    | [] =>
      rw [hpieces] at hperm
      exact hperm.eq_nil
    | [milliseconds] =>
      rw [hpieces] at hperm
      exact perm_singleton.mp hperm
    | first :: second :: rest =>
      rw [hpieces] at hlength
      simp at hlength
  simp only [options, hflags, hpauses]

section

variable (arguments : List String)

theorem calls_map_call : calls (arguments.map .call) = arguments := by
  rw [calls, filterMap_map]
  exact filterMap_some

theorem line_map_call : line (arguments.map .call) = arguments.map Utf8.encode := by
  rw [line, flatMap_map]
  exact map_eq_flatMap.symm

theorem options_append_map_call (pieces : Arrangement) (calls : List String) :
    options (pieces ++ arguments.map .call) calls = options pieces calls := by
  have hflags : flags (arguments.map .call) = [] := by
    rw [flags, filterMap_map]
    exact filterMap_eq_nil_iff.mpr fun _ _ => rfl
  have hpauses : pauses (arguments.map .call) = [] := by
    rw [pauses, filterMap_map]
    exact filterMap_eq_nil_iff.mpr fun _ _ => rfl
  simp only [options, flags_append, pauses_append, hflags, hpauses, append_nil]

end

/-- Calls that can be read are found on a command line in their order, and the options that are
given with them, however both are arranged; an option may stand between calls, and a pause may have
its value in the same argument or in the next one. No such call is taken for an option. Behind the
end of the options every argument is a call, whatever it begins with, unless it is not UTF-8; so to
end the options in front of the first call makes no difference. -/
theorem read_in_any_arrangement :
    (∀ pieces : Arrangement, Tidy pieces → calls pieces ≠ [] →
      read (line pieces) = .ok (options pieces (calls pieces)) ∧
        ∀ other : Arrangement, other.Perm pieces → calls other = calls pieces →
          read (line other) = read (line pieces)) ∧
      (∀ argument call, Script.Call.read argument = .ok call →
        Token.ofArgument (Utf8.encode argument) = .plain) ∧
      (∀ (pieces : Arrangement) (further : List String), Tidy pieces →
        calls pieces ++ further ≠ [] →
          read (line pieces ++ Utf8.encode "--" :: further.map Utf8.encode) =
            .ok (options pieces (calls pieces ++ further))) ∧
      (∀ (pieces : Arrangement) (further : List Bytes), Tidy pieces →
        (∀ texts : List String, further ≠ texts.map Utf8.encode) →
          read (line pieces ++ Utf8.encode "--" :: further) = .error (.refused .invalidUtf8)) ∧
      (∀ (pieces : Arrangement) (arguments : List String), Tidy (pieces ++ arguments.map .call) →
        calls pieces = [] → arguments ≠ [] →
          read (line pieces ++ Utf8.encode "--" :: arguments.map Utf8.encode) =
            read (line pieces ++ arguments.map Utf8.encode)) ∧
      ∀ milliseconds < 2 ^ 64, ∃ delay : Delay, delay.milliseconds = milliseconds ∧
        delay.text = Decimal.digits milliseconds := by
  refine ⟨?_, fun _ _ => Token.ofArgument_of_read, fun _ _ h => h.read_line_escape,
    fun _ _ h => h.read_line_escape_malformed, ?_, ?_⟩
  · intro pieces h hcalls
    refine ⟨h.read_line hcalls, ?_⟩
    intro other hperm hsame
    rw [(h.perm hperm).read_line (by rwa [hsame]), h.read_line hcalls, hsame, options_perm h hperm]
  · intro pieces arguments h hnone hne
    have hcalls : calls pieces ++ arguments ≠ [] := by rwa [hnone]
    have hall : calls (pieces ++ arguments.map .call) = calls pieces ++ arguments := by
      rw [calls_append, calls_map_call]
    rw [h.of_append.read_line_escape hcalls, ← line_map_call, ← line_append,
      h.read_line (by rwa [hall]), hall, options_append_map_call]
  · intro milliseconds h
    refine ⟨.ofNat milliseconds h, Delay.milliseconds_ofNat milliseconds h, ?_⟩
    rw [Delay.text, Delay.ofNat, Spelling.text_ofInt, Decimal.signed, if_neg (by omega),
      Int.natAbs_natCast]

/-- The longest pause between two calls, and arguments that look like options where none is. -/
theorem read_in_any_arrangement_between_calls :
    let longest : Delay := .ofNat 18446744073709551615 (by decide)
    let first : Piece := .call "int:-5"
    let second : Piece := .call "str:--codes"
    let pieces : Arrangement := [first, .pause false longest, second, .flag .failOnError]
    let other : Arrangement := [.flag .failOnError, .pause false longest, first, second]
    let ended := line [.flag .codes] ++ [Utf8.encode "--"]
    Tidy pieces ∧ other.Perm pieces ∧
      read (line pieces) = .ok ⟨["int:-5", "str:--codes"], false, 18446744073709551615, false, true⟩ ∧
      read (line other) = read (line pieces) ∧
      Token.ofArgument (Utf8.encode "int:-5") = .plain ∧
      read (ended ++ [Utf8.encode "--pause-ms", Utf8.encode "--"]) =
        .ok ⟨["--pause-ms", "--"], true, 0, false, false⟩ ∧
      read (ended ++ [[0x2D, 0xFF]]) = .error (.refused .invalidUtf8) ∧
      read (ended ++ [Utf8.encode "int:-5"]) =
        read (line [.flag .codes] ++ [Utf8.encode "int:-5"]) ∧
      ∃ delay : Delay, delay.milliseconds = 18446744073709551615 ∧
        delay.text = Decimal.digits 18446744073709551615 := by
  intro longest first second pieces other ended
  have hfirst : Script.Call.read "int:-5" = .ok (.integer .sized (-5)) := by decide +kernel
  have hsecond : Script.Call.read "str:--codes" =
      .ok (.text .sized .string "--codes" nofun) := by decide +kernel
  have htidy : Tidy pieces := by
    refine ⟨?_, by decide, by decide⟩
    intro argument hm
    rcases mem_pair.mp hm with rfl | rfl
    · exact ⟨_, hfirst⟩
    · exact ⟨_, hsecond⟩
  have hflag : Tidy [.flag .codes] := ⟨forall_mem_nil _, by decide, by decide⟩
  have hcall : Tidy ([.flag .codes] ++ ["int:-5"].map .call) :=
    ⟨fun argument hm => ⟨_, mem_singleton.mp hm ▸ hfirst⟩, by decide, by decide⟩
  have hperm : other.Perm pieces :=
    calc
      other ~ [.flag .failOnError, first, .pause false longest, second] :=
        ((Perm.swap first (.pause false longest) [second])).cons _
      _ ~ pieces := (perm_append_singleton _ [first, .pause false longest, second]).symm
  have hmalformed : ∀ texts : List String, [[0x2D, 0xFF]] ≠ texts.map Utf8.encode := by
    intro texts h
    have hnone : [[0x2D, 0xFF]].mapM Utf8.decode? = none := by decide +kernel
    rw [mapM_decode?_eq_some_iff.mpr h] at hnone
    cases hnone
  obtain ⟨hread, hplain, hescape, hrefused, hsame, hdelay⟩ := read_in_any_arrangement
  obtain ⟨hpieces, hother⟩ := hread pieces htidy (by decide)
  refine ⟨htidy, hperm, ?_, hother other hperm (by decide), hplain _ _ hfirst, ?_, ?_, ?_,
    hdelay 18446744073709551615 (by decide)⟩
  · have hpauses : pauses pieces = [18446744073709551615] :=
      congrArg ([·]) (Delay.milliseconds_ofNat _ _)
    rw [hpieces, options, hpauses]
    rfl
  · exact hescape [.flag .codes] ["--pause-ms", "--"] hflag (by decide)
  · exact hrefused [.flag .codes] [[0x2D, 0xFF]] hflag hmalformed
  · exact hsame [.flag .codes] ["int:-5"] hcall (by decide) (by decide)

end Arrangement

end Outlet.CommandLine
