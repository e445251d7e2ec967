/-!
# Lines

A text as the row of its lines. A text has at least one line, and a newline stands between two
lines, so that the last line of a text that ends in a newline is empty.

The lines of a text make up the text (`toChars_ofChars`), and putting two texts together joins the
last line of the first with the first line of the second (`toChars_append`).
-/

set_option autoImplicit false

namespace ScriptToC.Text

/-- The lines of a text, without the newlines between them. -/
inductive Lines
  /-- The last line. -/
  | last (line : List Char)
  /-- A line that a newline ends, and the lines after it. -/
  | next (line : List Char) (rest : Lines)
  deriving DecidableEq, Repr

namespace Lines

/-- The text without characters, which has one empty line. -/
def empty : Lines :=
  last []

/-- The text that is a newline, which has two empty lines. -/
def newline : Lines :=
  next [] empty

/-- The lines of a text. -/
def ofChars : List Char → Lines
  | [] => empty
  | c :: rest =>
    if c = '\n' then
      next [] (ofChars rest)
    else
      match ofChars rest with
      | last line => last (c :: line)
      | next line rest => next (c :: line) rest

/-- The text with the given lines. -/
def toChars : Lines → List Char
  | last line => line
  | next line rest => line ++ '\n' :: rest.toChars

/-- The text has no characters. -/
def isEmpty : Lines → Bool
  | last [] => true
  | _ => false

/-- One text after another. -/
def append : Lines → Lines → Lines
  | last line, last other => last (line ++ other)
  | last line, next other rest => next (line ++ other) rest
  | next line rest, other => next line (rest.append other)

instance : Append Lines := ⟨append⟩

/-- Texts one after another. -/
def concat (texts : List Lines) : Lines :=
  texts.foldr append empty

/-- The text with every line changed. -/
def map (change : List Char → List Char) : Lines → Lines
  | last line => last (change line)
  | next line rest => next (change line) (rest.map change)

/-- The text without the newline at its end, if it ends in one. -/
def dropFinalNewline? : Lines → Option Lines
  | last _ => none
  | next line (last []) => some (last line)
  | next line rest => rest.dropFinalNewline?.map (next line)

/-- The lines of a text make up the text. -/
@[simp] theorem toChars_ofChars (text : List Char) : (ofChars text).toChars = text := by
  induction text with
  | nil => rfl
  | cons c rest ih =>
    rw [ofChars]
    split
    · next same => subst same; rw [toChars, ih]; rfl
    · split
      · next line eq => rw [eq, toChars] at ih; rw [toChars, ih]
      · next line rest eq => rw [eq, toChars] at ih; rw [toChars, List.cons_append, ih]

/-- The text of two texts put together is the one text after the other. -/
@[simp] theorem toChars_append (first second : Lines) :
    (first ++ second).toChars = first.toChars ++ second.toChars := by
  induction first with
  | last line =>
    cases second with
    | last other => rfl
    | next other rest => exact List.append_assoc line other ('\n' :: rest.toChars)
  | next line rest ih =>
    show line ++ '\n' :: (rest ++ second).toChars = _
    rw [ih, toChars, List.append_assoc, List.cons_append]

/-- The text without characters adds nothing to another one. -/
@[simp] theorem empty_append (text : Lines) : empty ++ text = text := by
  cases text <;> rfl

@[simp] theorem append_empty (text : Lines) : text ++ empty = text := by
  induction text with
  | last line => exact congrArg last (List.append_nil line)
  | next line rest ih => exact congrArg (next line) ih

/-- The newline that was dropped makes the text whole again. -/
theorem append_newline_of_dropFinalNewline? {text body : Lines}
    (dropped : text.dropFinalNewline? = some body) : body ++ newline = text := by
  induction text generalizing body with
  | last line => cases dropped
  | next line rest ih =>
    unfold dropFinalNewline? at dropped
    split at dropped
    next => cases dropped
    next same =>
      cases same
      cases dropped
      exact congrArg (next · empty) (List.append_nil line)
    next _ _ _ same =>
      cases same
      obtain ⟨shorter, eq, rfl⟩ := Option.map_eq_some_iff.1 dropped
      exact congrArg (next line) (ih eq)

/-- A text without characters is the empty list of them. -/
theorem isEmpty_iff (text : Lines) : text.isEmpty = true ↔ text.toChars = [] := by
  cases text with
  | last line => cases line <;> simp [isEmpty, toChars]
  | next line rest => simp [isEmpty, toChars]

end Lines

end ScriptToC.Text
