import ScriptToC.Text.Blank
import ScriptToC.Text.Lines

/-!
# Writing text with its layout

The writer collects the text of a rendered object, line by line. It follows three line rules. A
value takes the indentation of the line it is inserted on, on each of its further lines that is not
empty. A newline at the end of a value is held back, and dropped if the text that follows begins
with a newline. A line on which only indentation and an empty value stand is held back too, and
removed with the newline that ends it.

Writing adds to the end of the text and takes nothing else away than the line that is held back:
what is pushed follows what was written (`lines_push`).
-/

set_option autoImplicit false

namespace ScriptToC

open Text

/-- What the writer holds back. -/
inductive Pending
  | nothing
  /-- The newline at the end of the last value. -/
  | newline
  /-- The current line, on which nothing but blanks and an empty value stand. -/
  | blankLine
  deriving DecidableEq, Repr

/-- The text written so far and what is held back. -/
structure Writer where
  /-- The lines above the current one, the last one first. -/
  above : List (List Char) := []
  /-- The current line, last character first. -/
  reversed : List Char := []
  pending : Pending := .nothing
  deriving DecidableEq, Repr

namespace Writer

/-- The current line. -/
def line (writer : Writer) : List Char :=
  writer.reversed.reverse

/-- The text that is written, with the current line last. -/
def lines (writer : Writer) : Lines :=
  writer.above.foldl (fun rest line => .next line rest) (.last writer.line)

/-- The writer after more text, with nothing held back. -/
def push (writer : Writer) : Lines → Writer
  | .last text => ⟨writer.above, text.reverse ++ writer.reversed, .nothing⟩
  | .next text rest => push ⟨(writer.line ++ text) :: writer.above, [], .nothing⟩ rest

/-- The writer with its current line emptied. -/
def clearLine (writer : Writer) : Writer where
  above := writer.above

/-- Writes text of the template itself. -/
def text (writer : Writer) (chars : Lines) : Writer :=
  match writer.pending, chars with
  | .newline, .next [] _ => writer.push chars
  | .newline, _ => writer.push (.newline ++ chars)
  | .blankLine, .next [] rest => writer.clearLine.push rest
  | _, _ => writer.push chars

/-- The spaces and tabs at the start of the current line. -/
def indentation (writer : Writer) : List Char :=
  writer.line.takeWhile fun c => c = ' ' ∨ c = '\t'

/-- The text of a value on the current line: its further lines start with the indentation of the
line unless they are empty. -/
def reindent (writer : Writer) : Lines → Lines
  | .last line => .last line
  | .next line rest =>
    let indent := writer.indentation
    .next line (rest.map fun line => if line.isEmpty then line else indent ++ line)

/-- Inserts a value. -/
def value (writer : Writer) (chars : Lines) : Writer :=
  let writer := writer.push (if writer.pending = .newline then .newline else .empty)
  if chars.isEmpty then
    if writer.reversed.all isBlank then { writer with pending := .blankLine } else writer
  else
    match chars.dropFinalNewline? with
    | some body => { writer.push (writer.reindent body) with pending := .newline }
    | none => writer.push (writer.reindent chars)

/-- The whole text: a held-back newline is written, a held-back line is removed. -/
def finish (writer : Writer) : Lines :=
  match writer.pending with
  | .nothing => writer.lines
  | .newline => (writer.push .newline).lines
  | .blankLine => writer.clearLine.lines

/-- The characters written are those of the lines above, each ended by a newline, and those of the
current line. -/
theorem chars_lines (writer : Writer) :
    writer.lines.toChars =
      writer.above.reverse.flatMap (fun line => line ++ ['\n']) ++ writer.line := by
  obtain ⟨above, reversed, pending⟩ := writer
  suffices step : ∀ rest : Lines,
      (above.foldl (fun rest line => Lines.next line rest) rest).toChars =
        above.reverse.flatMap (fun line => line ++ ['\n']) ++ rest.toChars from
    step _
  induction above with
  | nil => exact fun _ => rfl
  | cons first above ih =>
    intro rest
    rw [List.foldl_cons, ih]
    simp [Lines.toChars]

theorem foldl_next_append (above : List (List Char)) (rest text : Lines) :
    above.foldl (fun rest line => .next line rest) rest ++ text =
      above.foldl (fun rest line => .next line rest) (rest ++ text) := by
  induction above generalizing rest with
  | nil => rfl
  | cons line above ih => exact ih (.next line rest)

/-- What is pushed follows what was written. -/
theorem lines_push (writer : Writer) (text : Lines) :
    (writer.push text).lines = writer.lines ++ text := by
  induction text generalizing writer with
  | last text =>
    have same : (text.reverse ++ writer.reversed).reverse = writer.line ++ text := by simp [line]
    rw [lines, lines, foldl_next_append]
    exact congrArg (fun line => writer.above.foldl _ (Lines.last line)) same
  | next text rest ih =>
    rw [push, ih, lines, lines, foldl_next_append, foldl_next_append]
    exact congrArg (fun rest => writer.above.foldl _ (Lines.next (writer.line ++ text) rest))
      (Lines.empty_append rest)

/-- The characters that are pushed follow those that were written. -/
theorem chars_push (writer : Writer) (text : Lines) :
    (writer.push text).lines.toChars = writer.lines.toChars ++ text.toChars := by
  rw [lines_push, Lines.toChars_append]

end Writer

end ScriptToC
