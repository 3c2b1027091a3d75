import GeoTag.FileSystem
import GeoTag.Lines

/-!
# Inputs

A `Source` says where lines come from: a file, or the standard input under the name `-`.  Opening a
source gives an `Input`, whose lines are shown to a visitor by `Input.visit`.  Reading may fail before
the end of an input: the lines in front of the fault are shown, but not what is left of the last one.
A directory can be opened, and reading it fails at once.
-/

namespace GeoTag

/-- Where lines come from. -/
inductive Source where
  /-- A file. -/
  | file (path : String)
  /-- The standard input. -/
  | stdin
deriving DecidableEq, Repr

/-- Why lines could not be read. -/
inductive InputFault where
  /-- The file could not be opened. -/
  | cannotOpen (path : String) (fault : IoFault)
  /-- A line could not be read. -/
  | cannotRead (fault : IoFault)
deriving DecidableEq, Repr

/-- The fault in words. -/
def InputFault.message : InputFault → String
  | .cannotOpen path fault => "failed to open file: " ++ path ++ ": " ++ fault.message
  | .cannotRead fault => "failed to read line: " ++ fault.message

/-- An opened source. -/
inductive Input where
  /-- Bytes that can be read to their end. -/
  | stream (bytes : List UInt8)
  /-- Bytes that can be read, and what stops the reading behind them. -/
  | broken (beginning : List UInt8) (fault : IoFault)

/-- Bytes are an input that can be read to its end. -/
instance : Coe (List UInt8) Input := ⟨.stream⟩

namespace Input

/-- The bytes in front of the end or of the fault. -/
def bytes : Input → List UInt8
  | .stream bytes => bytes
  | .broken beginning _ => beginning

/-- Reads up to the next newline or to the end, and says what is left.  A fault in front of both is
met, and the bytes in front of it are lost. -/
def readLine : Input → Except InputFault (List UInt8 × Input)
  | .stream bytes => .ok ((Line.cut bytes).1, .stream (Line.cut bytes).2)
  | .broken beginning fault =>
    if Line.newline ∈ beginning then
      .ok ((Line.cut beginning).1, .broken (Line.cut beginning).2 fault)
    else .error (.cannotRead fault)

theorem length_bytes_lt {input rest : Input} {piece : List UInt8} (hread : input.readLine = .ok (piece, rest))
    (hpiece : piece ≠ []) : rest.bytes.length < input.bytes.length := by
  cases input with
  | stream bytes =>
    cases hread
    exact Line.length_cut_snd_lt hpiece
  | broken beginning fault =>
    simp only [readLine] at hread
    split at hread
    · cases hread
      exact Line.length_cut_snd_lt hpiece
    · cases hread

variable {m : Type → Type} [Monad m] {σ ε : Type}

/-- Shows the lines that are left of an input, behind as many others, to a visitor until it says no or
fails, or until no more can be read.  The visitor carries a state. -/
def visitFrom (visitor : σ → Line → m (σ × Except ε Bool)) (failing : InputFault → ε) (seen : Nat)
    (state : σ) (input : Input) : m (σ × Except ε Unit) :=
  match _hread : input.readLine with
  | .error fault => return (state, .error (failing fault))
  | .ok (piece, rest) =>
    if _hpiece : piece = [] then return (state, .ok ())
    else do
      match ← visitor state ⟨seen + 1, Line.unended piece⟩ with
      | (state, .ok true) => visitFrom visitor failing (seen + 1) state rest
      | (state, .ok false) => return (state, .ok ())
      | (state, .error fault) => return (state, .error fault)
termination_by input.bytes.length
decreasing_by exact length_bytes_lt _hread _hpiece

/-- Shows the lines of an input to a visitor, from the first one on. -/
def visit (visitor : σ → Line → m (σ × Except ε Bool)) (failing : InputFault → ε) (state : σ)
    (input : Input) : m (σ × Except ε Unit) :=
  visitFrom visitor failing 0 state input

end Input

namespace Source

/-- The name of the standard input on a command line. -/
def stdinName : String := "-"

/-- The source that a path names. -/
def ofPath (path : String) : Source := if path = stdinName then .stdin else .file path

/-- The name of a source for readers. -/
def toText : Source → String
  | .file path => path
  | .stdin => "<stdin>"

/-- Opens a source; what is left of the standard input is given. -/
def open? (fs : FileSystem) (stdin : Input) : Source → Except InputFault Input
  | .stdin => .ok stdin
  | .file path =>
    match fs.find path with
    | .ok (.file content) => .ok (.stream content.toList)
    | .ok (.broken beginning fault) => .ok (.broken beginning.toList fault)
    | .ok .directory => .ok (.broken [] .isADirectory)
    | .error fault => .error (.cannotOpen path fault)

/-- What is left of the standard input after a source has been read. -/
def leaves (stdin : Input) : Source → Input
  | .stdin => .stream []
  | .file _ => stdin

end Source

end GeoTag
