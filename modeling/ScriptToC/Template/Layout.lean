import ScriptToC.Text.Blank
import ScriptToC.Text.Split

/-!
# The layout of template sources

Before a template source is read, two rules apply to its lines. A line that holds a single tag of a
choice and blanks besides gives way to the bare tag, without the newline that ended the line. Any
other line loses one level of indentation, as far as it has it, for each choice that is open there.
-/

set_option autoImplicit false

namespace ScriptToC.Template

open Text

/-- The spaces that one level of nesting removes. -/
def indentWidth : Nat := 4

/-- The start of the tag that opens a choice. -/
def openTag : List Char := "\x7b#if ".toList

/-- The tag between the two branches of a choice. -/
def elseTag : List Char := "\x7b#else\x7d".toList

/-- The tag that ends a choice. -/
def endTag : List Char := "\x7b/if\x7d".toList

/-- The line opens a choice: it starts as such a tag does. -/
def opens (line : List Char) : Bool :=
  openTag.isPrefixOf line

/-- The line, taken without blanks at its ends, is a single tag of a choice. -/
def isTag (line : List Char) : Bool :=
  line == elseTag || line == endTag ||
    (opens line && line.getLast? == some '\x7d' && line.count '\x7d' == 1)

/-- The line without the indentation of `depth` levels, as far as it starts with spaces. -/
def dedent (depth : Nat) (line : List Char) : List Char :=
  line.drop (min (line.takeWhile (· = ' ')).length (depth * indentWidth))

/-- Applies the line rules, with `depth` choices open. -/
def layoutLines (depth : Nat) : List (List Char) → List Char
  | [] => []
  | line :: rest =>
    let tag := trim line
    if isTag tag then
      let depth := if tag = endTag then depth - 1 else depth
      tag ++ layoutLines (if opens tag then depth + 1 else depth) rest
    else
      dedent depth line ++ (if rest.isEmpty then [] else ['\n']) ++ layoutLines depth rest

/-- The template source after the line rules. -/
def layout (source : List Char) : List Char :=
  layoutLines 0 (split '\n' source)

example : String.ofList (layout "\x7b#if a\x7d\n    yes\n\x7b/if\x7d\nend\n".toList) =
    "\x7b#if a\x7dyes\n\x7b/if\x7dend\n" := by decide +kernel

end ScriptToC.Template
