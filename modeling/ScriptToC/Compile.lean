import ScriptToC.Emit.Program
import ScriptToC.Files.Folder
import ScriptToC.Lowering.Program
import ScriptToC.Text.Position

/-!
# Compiling

Compiling takes a source text and what a front end says about it, lowers the program, and emits C
in which every name that the source mentions stays reserved. A source file is read before it is
compiled, and its C file is written only after it was compiled.
-/

set_option autoImplicit false

namespace ScriptToC

open Source (Report)

/-- Why a source is not compiled. Every cause but a failing disk names the path of the source, and
those that lie at a place in it the position. -/
inductive CompileError
  | io (cause : IoError)
  | syntaxErrors (path : String) (messages : List String)
  | semanticErrors (path : String) (messages : List String)
  | rejected (path : String) (position : Text.Position) (cause : Lowering.Cause)
  | unemitted (path : String) (position : Option Text.Position) (cause : EmitError)
  deriving DecidableEq, Repr

namespace CompileError

/-- A path with the position that is meant. -/
def location (path : String) (position : Option Text.Position) : String :=
  match position with
  | some position => path ++ ":" ++ toString position.line ++ ":" ++ toString position.column
  | none => path

/-- Messages of the front end, each on a line of its own. -/
def listing (heading path : String) (messages : List String) : String :=
  "\n".intercalate (messages.map fun text => heading ++ ": " ++ path ++ ": " ++ text)

/-- The wording of an error. -/
def message : CompileError → String
  | io cause => "I/O error: " ++ cause.message
  | syntaxErrors path messages => listing "parse error" path messages
  | semanticErrors path messages => listing "semantic error" path messages
  | rejected path position cause => location path (some position) ++ ": " ++ cause.message
  | unemitted path position cause => location path position ++ ": " ++ cause.message

end CompileError

/-- How an import that stands for a header begins, unless told otherwise. -/
def defaultMarker : String := "ts2c-target"

/-- Compiles a program. -/
def compileProgram (path source marker : String) (program : Source.Program) :
    Except CompileError String :=
  let position (span : Span) : Text.Position := .ofOffset source span.start
  match Lowering.lowerProgram program with
  | .error ⟨span, cause⟩ => .error (.rejected path (position span) cause)
  | .ok lowered =>
    let setting : Setting := ⟨lowered.types.find?, marker⟩
    match lowered.module.emit setting lowered.mentioned with
    | .error cause => .error (.unemitted path (cause.span?.map position) cause)
    | .ok text => .ok text

/-- Compiles a source text. -/
def compileSource (path source marker : String) (report : Report) : Except CompileError String :=
  match report with
  | .syntaxErrors messages => .error (.syntaxErrors path messages)
  | .semanticErrors messages => .error (.semanticErrors path messages)
  | .program program => compileProgram path source marker program

/-- How a source file is compiled. -/
structure Options where
  /-- The C file, if it is not to stand beside the source. -/
  output : Option String := none
  /-- No file is written. -/
  toStdout : Bool := false
  marker : String := defaultMarker
  deriving DecidableEq, Repr

/-- The file that the C text is written to, if it is written. -/
def Options.outputPath (options : Options) (input : String) : Option String :=
  if options.toStdout then none
  else some (options.output.getD (Path.withExtension input "c"))

/-- Compiles a source file. The front end is asked about the text that was read. -/
def compileFile {m : Type → Type} [Monad m] (disk : Disk m) (analyse : String → m Report)
    (path : String) (options : Options) : m (Except CompileError String) := do
  match ← disk.readText path with
  | .error cause => return .error (.io cause)
  | .ok source =>
    match compileSource path source options.marker (← analyse source) with
    | .error cause => return .error cause
    | .ok text =>
      match options.outputPath path with
      | none => return .ok text
      | some output =>
        match ← disk.writeText output text with
        | .error cause => return .error (.io cause)
        | .ok () => return .ok text

end ScriptToC
