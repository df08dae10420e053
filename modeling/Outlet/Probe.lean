import Outlet.CommandLine.Reader
import Outlet.Script.Reader
import Outlet.Stdout.Session

/-!
# The probe

The probe is the command that replays a script on standard output. A run of it is what can be
seen of it from outside, in order: that it closes standard output, the waits, the bytes that reach
standard output, the texts that reach standard error, and the status it ends with. Nothing of a
script is run unless all of it can be read.

Standard output is shared with other processes. The reader of a pipe may leave while the command
waits, and a file may come to have more room or less.
-/

namespace Outlet.Probe

/-! ## Standard streams -/

/-- Where a standard stream leads when the command is started. -/
inductive Stream where
  /-- A pipe that is read to the end. -/
  | pipe
  | brokenPipe
  | full
  | readonly
  | closed
  deriving DecidableEq

namespace Stream

def target : Stream → Target
  | pipe => .file
  | brokenPipe => .brokenPipe
  | full => .full
  | readonly => .readonly
  | closed => .closed

/-- Whether a text that has to be printed cannot be. A bad descriptor goes unnoticed. -/
def failsPrint : Stream → Bool
  | brokenPipe | full => true
  | pipe | readonly | closed => false

end Stream

/-- What others may do to standard output. -/
inductive Change where
  | nothing
  /-- The reader of a pipe leaves. -/
  | readerLeaves
  /-- The greatest length of a file becomes another. -/
  | limit (length : Option Nat)
  deriving DecidableEq

def Change.apply (descriptor : Descriptor) : Change → Descriptor
  | nothing => descriptor
  | readerLeaves =>
    match descriptor.target with
    | .file => { descriptor with target := .brokenPipe }
    | _ => descriptor
  | limit length => { descriptor with limit := length }

/-- Standard output as the command is given it. -/
structure Output where
  descriptor : Descriptor
  /-- What others do to it ahead of each call. Behind the last change they do nothing more. -/
  changes : List Change
  deriving DecidableEq

def Stream.output (stream : Stream) : Output := ⟨⟨stream.target, none, []⟩, []⟩

instance : Coe Stream Output := ⟨Stream.output⟩

/-! ## Replaying -/

/-- Standard output in the course of a run, and what others are still going to do to it. -/
structure Stage where
  stdout : Stdout
  changes : List Change
  deriving DecidableEq

/-- Standard output when the command begins. A descriptor that is closed by then has been opened on
the null device. -/
def Output.opened (output : Output) : Stage :=
  let target := if output.descriptor.target = .closed then .null else output.descriptor.target
  ⟨⟨{ output.descriptor with target }, []⟩, output.changes⟩

namespace Stage

/-- Standard output as the next call finds it. -/
def next (stage : Stage) : Stage :=
  match stage.changes with
  | [] => stage
  | change :: changes =>
    ⟨{ stage.stdout with descriptor := change.apply stage.stdout.descriptor }, changes⟩

def call (config : Config) (stage : Stage) (call : Script.Call) : Entry.Report × Stage :=
  let (report, stdout) := call.entry.invoke config stage.next.stdout
  (report, { stage.next with stdout })

/-- Makes the calls of a script in order, each whatever the ones before it answered. -/
def replay (config : Config) (stage : Stage) (calls : List Script.Call) :
    List Entry.Report × Stage :=
  Session.run (call config) stage calls

end Stage

/-! ## Runs -/

structure Invocation where
  arguments : List Bytes
  /-- The setting for tracing in the environment. -/
  setting : Option Bytes
  stdout : Output
  stderr : Stream
  deriving DecidableEq

inductive Event where
  /-- Standard output is closed. -/
  | close
  | wait (milliseconds : Nat)
  | stdout (bytes : Bytes)
  | stderr (text : String)
  deriving DecidableEq

structure Run where
  events : List Event
  status : Nat
  deriving DecidableEq

namespace Run

def stdout (run : Run) : Bytes :=
  run.events.flatMap fun
    | .stdout bytes => bytes
    | _ => []

def stderr (run : Run) : String :=
  run.events.foldl (fun text event => match event with
    | .stderr more => text ++ more
    | _ => text) ""

end Run

namespace Invocation

/-- A text that is printed on standard output: as much of it as gets there is seen. -/
def onStdout (invocation : Invocation) (text : String) : List Event :=
  let stdout := invocation.stdout.opened.stdout
  let printed := (stdout.print (Utf8.encode text)).2
  [.stdout (printed.descriptor.file.drop stdout.descriptor.file.length)]

/-- A text for standard error. Where it is not read, it is not seen. -/
def onStderr (invocation : Invocation) (text : String) : List Event :=
  if invocation.stderr = .pipe then [.stderr text] else []

def brokenOffStatus : Nat := 101

/-- Closes standard output ahead of a script if that is asked for. -/
def prepare (invocation : Invocation) (options : CommandLine.Options) : List Event × Stage :=
  let stage := invocation.stdout.opened
  if options.closeStdout then ([.close], { stage with stdout := stage.stdout.retarget .closed })
  else ([], stage)

/-- What is seen of a call. -/
def callEvents (invocation : Invocation) (options : CommandLine.Options)
    (report : Entry.Report) : List Event :=
  .wait options.pause :: .stdout report.out :: invocation.onStderr report.trace

/-- What is seen of a code that is printed. -/
def codeEvents (invocation : Invocation) (report : Entry.Report) : List Event :=
  invocation.onStderr (toString report.code ++ "\n")

def perform (invocation : Invocation) (options : CommandLine.Options) (calls : List Script.Call) :
    Run :=
  let (closing, stage) := invocation.prepare options
  let reports := (stage.replay (Config.ofSetting invocation.setting) calls).1
  let events := closing ++ reports.flatMap (invocation.callEvents options)
  if options.codes && invocation.stderr.failsPrint then ⟨events, brokenOffStatus⟩
  else
    let lines := if options.codes then reports.flatMap invocation.codeEvents else []
    let failed := reports.any fun report => report.code < 0
    ⟨events ++ lines, if options.failOnError && failed then 1 else 0⟩

def run (invocation : Invocation) : Run :=
  match CommandLine.read invocation.arguments with
  | .error .help => ⟨invocation.onStdout CommandLine.helpText, 0⟩
  | .error .version => ⟨invocation.onStdout CommandLine.versionText, 0⟩
  | .error (.refused error) => ⟨invocation.onStderr (error.message .stream), 2⟩
  | .ok options =>
    match Script.read options.calls with
    | .error error => ⟨invocation.onStderr ("Error: " ++ error.chain.report ++ "\n"), 1⟩
    | .ok calls => invocation.perform options calls

end Invocation

end Outlet.Probe
