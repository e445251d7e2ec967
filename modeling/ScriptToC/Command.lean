import ScriptToC.Compile

/-!
# The command line

The command takes the path of one source file and flags that say where the C text goes. A flag that
takes a value takes it from the same argument or from the next one, which must not look like a flag.
Short flags can be joined. No flag but the one for verbosity may be repeated, and printing excludes
an output file.
-/

set_option autoImplicit false

namespace ScriptToC.Command

open Source (Report)

/-- The arguments as they were understood so far. -/
structure Parsed where
  input : Option String := none
  output : Option String := none
  toStdout : Bool := false
  marker : Option String := none
  deriving DecidableEq, Repr

/-- A flag that takes a value. -/
inductive ValueFlag
  | output
  | marker
  deriving DecidableEq, Repr

/-- What the arguments ask for. -/
inductive Request
  | run (input : String) (options : Options)
  | help
  | wrongUsage
  deriving DecidableEq, Repr

/-- A row of arguments was not understood, or asks for help. -/
inductive Stop
  | help
  | wrongUsage
  deriving DecidableEq, Repr

/-- The argument looks like a flag. -/
def looksLikeFlag (arg : String) : Bool :=
  match arg.toList with
  | '-' :: _ :: _ => true
  | _ => false

/-- Takes a source file. There is only one, and its path is not empty. -/
def setInput (parsed : Parsed) (value : String) : Except Stop Parsed :=
  if parsed.input.isSome ∨ value.isEmpty then .error .wrongUsage
  else .ok { parsed with input := some value }

/-- Takes the value of a flag. The path of the output is not empty. -/
def setValue (parsed : Parsed) (flag : ValueFlag) (value : String) : Except Stop Parsed :=
  match flag with
  | .output =>
    if parsed.output.isSome ∨ value.isEmpty then .error .wrongUsage
    else .ok { parsed with output := some value }
  | .marker =>
    if parsed.marker.isSome then .error .wrongUsage
    else .ok { parsed with marker := some value }

/-- Takes the flag for printing. -/
def setToStdout (parsed : Parsed) : Except Stop Parsed :=
  if parsed.toStdout then .error .wrongUsage else .ok { parsed with toStdout := true }

/-- Joined short flags. The result tells which flag still waits for its value. -/
def readShort (parsed : Parsed) : List Char → Except Stop (Parsed × Option ValueFlag)
  | [] => .ok (parsed, none)
  | 'v' :: rest => readShort parsed rest
  | 'h' :: _ => .error .help
  | ['o'] => .ok (parsed, some .output)
  | 'o' :: '=' :: value => (setValue parsed .output (String.ofList value)).map (·, none)
  | 'o' :: value => (setValue parsed .output (String.ofList value)).map (·, none)
  | _ => .error .wrongUsage

/-- A long flag, with the value that is joined to it. The result tells which flag still waits for
its value. -/
def readLong (parsed : Parsed) (name : String) (value : Option String) :
    Except Stop (Parsed × Option ValueFlag) :=
  let valued (flag : ValueFlag) : Except Stop (Parsed × Option ValueFlag) :=
    match value with
    | some value => (setValue parsed flag value).map (·, none)
    | none => .ok (parsed, some flag)
  match name, value with
  | "output", _ => valued .output
  | "include-marker", _ => valued .marker
  | "stdout", none => (setToStdout parsed).map (·, none)
  | "verbose", none => .ok (parsed, none)
  | "help", none => .error .help
  | _, _ => .error .wrongUsage

/-- One argument that looks like a flag. -/
def readFlag (parsed : Parsed) (arg : String) : Except Stop (Parsed × Option ValueFlag) :=
  match arg.toList with
  | '-' :: '-' :: long =>
    let name := String.ofList (long.takeWhile (· ≠ '='))
    match long.dropWhile (· ≠ '=') with
    | [] => readLong parsed name none
    | _ :: value => readLong parsed name (some (String.ofList value))
  | '-' :: short => readShort parsed short
  | _ => .error .wrongUsage

/-- Reads arguments. After two dashes none is a flag. -/
def readArgs (parsed : Parsed) (waiting : Option ValueFlag) :
    List String → Except Stop Parsed
  | [] => if waiting.isSome then .error .wrongUsage else .ok parsed
  | arg :: rest =>
    match waiting with
    | some flag =>
      if looksLikeFlag arg then
        .error .wrongUsage
      else do
        readArgs (← setValue parsed flag arg) none rest
    | none =>
      if arg = "--" then
        rest.foldlM setInput parsed
      else if looksLikeFlag arg then do
        let (parsed, waiting) ← readFlag parsed arg
        readArgs parsed waiting rest
      else do
        readArgs (← setInput parsed arg) none rest

/-- What the arguments ask for. -/
def request (args : List String) : Request :=
  match readArgs {} none args with
  | .error .help => .help
  | .error .wrongUsage => .wrongUsage
  | .ok parsed =>
    match parsed.input with
    | none => .wrongUsage
    | some input =>
      if parsed.toStdout ∧ parsed.output.isSome then .wrongUsage
      else .run input ⟨parsed.output, parsed.toStdout, parsed.marker.getD defaultMarker⟩

/-- What a run of the command leaves behind besides files. -/
structure Outcome where
  code : Nat
  stdout : String := ""
  stderr : String := ""
  deriving DecidableEq, Repr

/-- The outcome of wrong usage. -/
def usageError : Outcome where
  code := 2
  stderr := "usage: [-o FILE | --stdout] [--include-marker TEXT] [-v] INPUT\n"

/-- The outcome of a failed run. -/
def failure (message : String) : Outcome where
  code := 1
  stderr := message ++ "\n"

/-- Runs the command. -/
def run {m : Type → Type} [Monad m] (disk : Disk m) (analyse : String → m Report)
    (args : List String) : m Outcome := do
  match request args with
  | .wrongUsage => return usageError
  | .help => return { usageError with code := 0, stdout := usageError.stderr, stderr := "" }
  | .run input options =>
    if ← disk.isPresent input then
      match ← compileFile disk analyse input options with
      | .error cause => return failure cause.message
      | .ok text =>
        match options.outputPath input with
        | some output => return { code := 0, stderr := "compiled to " ++ output ++ "\n" }
        | none => return { code := 0, stdout := text }
    else
      return failure ("error: file not found: " ++ input)

example : request ["-vo", "b.c", "a.ts"] = .run "a.ts" ⟨some "b.c", false, defaultMarker⟩ := by
  decide +kernel
example : request ["a.ts", "--stdout", "-o", "b.c"] = .wrongUsage := by decide +kernel

end ScriptToC.Command
