/-!
# Blank characters

The characters that count as white space are the twenty-five code points with the Unicode
property White_Space. Trimming removes them from the ends of a text and loses nothing else
(`takeWhile_append_trimStart`, `trimEnd_append_takeWhile`).
-/

set_option autoImplicit false

namespace ScriptToC.Text

/-- The code points with the property White_Space. -/
def blanks : List Nat :=
  [0x09, 0x0a, 0x0b, 0x0c, 0x0d, 0x20, 0x85, 0xa0, 0x1680,
   0x2000, 0x2001, 0x2002, 0x2003, 0x2004, 0x2005, 0x2006, 0x2007, 0x2008, 0x2009, 0x200a,
   0x2028, 0x2029, 0x202f, 0x205f, 0x3000]

/-- A character of the property White_Space. -/
def isBlank (c : Char) : Bool :=
  blanks.contains c.toNat

/-- A text without the blanks it starts with. -/
def trimStart (text : List Char) : List Char :=
  text.dropWhile isBlank

/-- A text without the blanks it ends with. -/
def trimEnd (text : List Char) : List Char :=
  (text.reverse.dropWhile isBlank).reverse

/-- A text without the blanks at its two ends. -/
def trim (text : List Char) : List Char :=
  trimEnd (trimStart text)

example : blanks.length = 25 := rfl

/-- Nothing but blanks is lost at the end of a text. -/
theorem trimEnd_append_takeWhile (text : List Char) :
    trimEnd text ++ (text.reverse.takeWhile isBlank).reverse = text := by
  rw [trimEnd, ← List.reverse_append, List.takeWhile_append_dropWhile, List.reverse_reverse]

/-- Nothing but blanks is lost at the start of a text. -/
theorem takeWhile_append_trimStart (text : List Char) :
    text.takeWhile isBlank ++ trimStart text = text :=
  List.takeWhile_append_dropWhile

end ScriptToC.Text
