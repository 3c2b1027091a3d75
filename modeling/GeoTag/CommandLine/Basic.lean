import GeoTag.CommandLine.Help
import GeoTag.CommandLine.Layers
import GeoTag.Enrichment
import GeoTag.Settings.Sources

/-!
# The command line

`execute` is a whole run of the program: it reads the command line, builds the engine and enriches
the inputs.  A fault of usage ends with code 2, any other with code 1 and a message; when nobody
takes the output the run ends quietly with code 0.
-/

namespace GeoTag

namespace CommandLine

/-- What a run can see. -/
structure World where
  /-- The words of the command line, without the name of the program. -/
  words : List String
  /-- The directory of databases that the surroundings name. -/
  directory : Option String
  /-- The files. -/
  files : FileSystem
  /-- The standard input. -/
  stdin : Input
  /-- Somebody takes the output. -/
  outputOpen : Bool

/-- What a run leaves. -/
structure Outcome where
  /-- The exit code. -/
  code : Nat
  /-- What was written for readers of the output. -/
  output : List UInt8
  /-- What was written about the run itself. -/
  messages : String
deriving DecidableEq

/-- What is said about a fault of usage. -/
def UsageFault.message : UsageFault → String
  | .unknown text => "unexpected argument " ++ text
  | .valueMissing _ => "an option lacks its value"
  | .valueUnwanted _ => "an option takes no value"
  | .repeated _ => "an option is given more than once"
  | .vendor name => Vendor.unknownMessage name

/-- A line of messages. -/
def messageLine (s : String) : String := s ++ "\n"

/-- A run that only shows a text. -/
def showing (world : World) (s : String) : Outcome :=
  ⟨0, if world.outputOpen then s.toUTF8.toList else [], ""⟩

/-- The sources of a run: the standard input where none is named. -/
def Options.sources (options : Options) : List Source :=
  if options.inputs.isEmpty then [.stdin] else options.inputs.map Source.ofPath

/-- The line of statistics. -/
def statsLine (timer : Latency.Timer) : String :=
  messageLine ("lookups: " ++ timer.snapshot.toText)

/-- What an enrichment of inputs leaves. -/
def report (options : Options) (run : Run) : Outcome :=
  match run.ending with
  | .failed fault => ⟨1, run.output, messageLine fault.message⟩
  | .closed => ⟨0, run.output, ""⟩
  | .finished => ⟨0, run.output, if options.stats then statsLine run.session.timer else ""⟩

variable {m : Type → Type} [Monad m]

/-- Enriches the inputs of a command line. -/
def enrich (clock : m Nat) (world : World) (options : Options) : m Outcome :=
  match options.settings world.files world.directory with
  | .error fault => return ⟨1, [], messageLine fault.message⟩
  | .ok settings => do
    let session := Session.start (settings.engine world.files Database.reader)
    let run ← session.run clock world.files world.outputOpen world.stdin options.sources
    return report options run

/-- A whole run of the program. -/
def execute (clock : m Nat) (world : World) : m Outcome :=
  match Request.parse world.words with
  | .error fault => return ⟨2, [], messageLine ("error: " ++ fault.message)⟩
  | .ok .help => return showing world (helpText world.directory)
  | .ok .version => return showing world versionText
  | .ok (.run options) => enrich clock world options

end CommandLine

end GeoTag
