import GeoTag.CommandLine.Basic

/-!
# The program

Gathers what a run can see, hands it to `CommandLine.execute` and writes what the run leaves.
-/

namespace GeoTag

namespace Program

/-- The fault of a file behind an error of the system. -/
def faultOf (error : IO.Error) : IoFault :=
  let fault (code : UInt32) (words : String) : IoFault :=
    match code.toNat with
    | 2 => .notFound
    | 20 => .notADirectory
    | 21 => .isADirectory
    | 32 => .brokenPipe
    | 36 => .nameTooLong
    | n => .system n words
  match error with
  | .alreadyExists _ code words => fault code words
  | .otherError code words => fault code words
  | .resourceBusy code words => fault code words
  | .resourceVanished code words => fault code words
  | .unsupportedOperation code words => fault code words
  | .hardwareFault code words => fault code words
  | .unsatisfiedConstraints code words => fault code words
  | .illegalOperation code words => fault code words
  | .protocolError code words => fault code words
  | .timeExpired code words => fault code words
  | .interrupted _ code words => fault code words
  | .noFileOrDirectory _ code words => fault code words
  | .invalidArgument _ code words => fault code words
  | .permissionDenied _ code words => fault code words
  | .resourceExhausted _ code words => fault code words
  | .inappropriateType _ code words => fault code words
  | .noSuchThing _ code words => fault code words
  | .unexpectedEof => .system 0 "unexpected end of file"
  | .userError words => .system 0 words

/-- The rest of a stream, behind what was read of it, and what stops the reading before its end. -/
partial def readAll (stream : IO.FS.Stream) (sofar : ByteArray) : IO (ByteArray × Option IoFault) := do
  match ← (stream.read 65536).toBaseIO with
  | .ok more => if more.isEmpty then return (sofar, none) else readAll stream (sofar ++ more)
  | .error error => return (sofar, some (faultOf error))

/-- What stands at a path. -/
def look (path : String) : IO (Except IoFault Node) := do
  if path.isEmpty then return .error .notFound
  else if path.toList.contains '\x00' then return .error .nullInName
  else
    match ← (IO.FS.Handle.mk path .read).toBaseIO with
    | .error error =>
      match faultOf error with
      | .isADirectory => return .ok .directory
      | fault => return .error fault
    | .ok handle =>
      match ← readAll (IO.FS.Stream.ofHandle handle) ByteArray.empty with
      | (content, none) => return .ok (.file content)
      | (_, some .isADirectory) => return .ok .directory
      | (beginning, some fault) => return .ok (.broken beginning fault)

/-- What stands at paths. -/
def lookAll (paths : List String) : IO (List (String × Except IoFault Node)) :=
  paths.mapM fun path => return (path, ← look path)

/-- The standard input. -/
def readStdin : IO Input := do
  match ← readAll (← IO.getStdin) ByteArray.empty with
  | (content, none) => return .stream content.toList
  | (beginning, some fault) => return .broken beginning.toList fault

/-- The file that a source names. -/
def fileOf? : Source → Option String
  | .file path => some path
  | .stdin => none

/-- What a run with the given options can see. -/
def gather (words : List String) (directory : Option String) (options : CommandLine.Options) :
    IO CommandLine.World := do
  let first ← lookAll options.config.toList
  let databases :=
    match options.settings (.ofAnswers first) directory with
    | .ok settings => [settings.city?, settings.as?, settings.fallback?].filterMap id
    | .error _ => []
  let others ← lookAll (databases ++ options.sources.filterMap fileOf?)
  let stdin ← if .stdin ∈ options.sources then readStdin else pure (.stream [])
  return ⟨words, directory, .ofAnswers (first ++ others), stdin, true⟩

/-- What a run can see that needs no files. -/
def bareWorld (words : List String) (directory : Option String) : CommandLine.World :=
  ⟨words, directory, .ofAnswers [], .stream [], true⟩

/-- Runs the program and writes what it leaves. -/
def run (words : List String) : IO UInt32 := do
  let directory ← IO.getEnv CommandLine.directoryVariable
  let world ←
    match CommandLine.Request.parse words with
    | .ok (.run options) => gather words directory options
    | _ => pure (bareWorld words directory)
  let clock : IO Nat := IO.monoNanosNow
  let outcome ← CommandLine.execute clock world
  let stdout ← IO.getStdout
  let written ← (do stdout.write outcome.output.toByteArray; stdout.flush : IO Unit).toBaseIO
  match written with
  | .ok _ =>
    (← IO.getStderr).putStr outcome.messages
    return outcome.code.toUInt32
  | .error _ =>
    let outcome ← CommandLine.execute clock { world with outputOpen := false }
    (← IO.getStderr).putStr outcome.messages
    return outcome.code.toUInt32

end Program

end GeoTag

/-- Enriches newline-delimited JSON records. -/
def main (words : List String) : IO UInt32 := GeoTag.Program.run words
