import ScriptToC.Text.Split

/-!
# Positions in a text

A byte offset into a source text is shown as a line and a column, both counted from one. Lines end
at newlines only, and columns count characters. An offset past the end stands for the end of the
text, and so does an offset inside a character.
-/

set_option autoImplicit false

namespace ScriptToC.Text

/-- A place in a text as a reader counts it. -/
structure Position where
  line : Nat
  column : Nat
  deriving DecidableEq, Repr

/-- The characters whose encodings fill exactly the first `size` bytes. There are none when the
text is longer and a character lies across that border; a text that is too short is taken whole. -/
def takeBytes : Nat → List Char → Option (List Char)
  | _, [] => some []
  | size, c :: rest =>
    if size = 0 then
      some []
    else if c.utf8Size ≤ size then
      (takeBytes (size - c.utf8Size) rest).map (c :: ·)
    else
      none

/-- The position just after a text. -/
def Position.after (text : List Char) : Position where
  line := text.count '\n' + 1
  column := (lastPiece '\n' text).length + 1

/-- The position of the byte at `offset`. -/
def Position.ofOffset (source : String) (offset : Nat) : Position :=
  .after ((takeBytes offset source.toList).getD source.toList)

example : Position.ofOffset "let a = 1;\nlet b = 2;\n" 15 = ⟨2, 5⟩ := by decide +kernel
example : Position.ofOffset "let a = 1;\nlet b = 2;\n" 999 = ⟨3, 1⟩ := by decide +kernel
example : Position.ofOffset "é\nx" 1 = ⟨2, 2⟩ := by decide +kernel

end ScriptToC.Text
