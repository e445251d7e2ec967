/-!
# Templates

A template is text with holes. A hole inserts a field, chooses between two templates by the truth of
a field, or repeats a template for each element of a field. Objects pair a template with the values
of its fields, and the values may again be objects, so that a tree of objects stands for a whole
document.

The template of an object may be one that could not be read; that is an error only when the object
is rendered.
-/

set_option autoImplicit false

namespace ScriptToC

/-- A sequence of text and holes. -/
inductive Template
  | done
  /-- Literal text. -/
  | text (chars : List Char) (rest : Template)
  /-- Inserts a field. -/
  | field (name : String) (rest : Template)
  /-- Chooses `yes` if the field is truthy, or if it is not in the negated form. -/
  | choose (negated : Bool) (name : String) (yes no rest : Template)
  /-- Renders `item` for each element of a field, with a separator between the results. -/
  | each (name : String) (separator : List Char) (item rest : Template)
  deriving DecidableEq, Repr, Inhabited

namespace Template

/-- One template after another. -/
def append : Template → Template → Template
  | done, next => next
  | text chars rest, next => text chars (rest.append next)
  | field name rest, next => field name (rest.append next)
  | choose negated name yes no rest, next => choose negated name yes no (rest.append next)
  | each name separator item rest, next => each name separator item (rest.append next)

instance : Append Template := ⟨append⟩

/-- Literal text. -/
def lit (chars : String) : Template :=
  text chars.toList done

/-- A field. -/
def slot (name : String) : Template :=
  field name done

/-- One of two templates, by the truth of a field. -/
def ifField (name : String) (yes : Template) (no : Template) : Template :=
  choose false name yes no done

/-- The elements of a field with a separator between them. -/
def forEach (name : String) (separator : String) (item : Template) : Template :=
  each name separator.toList item done

/-- The field that stands for the element inside a repeated template. -/
def this : String := "this"

/-- The elements of a field one after another. -/
def items (name : String) : Template :=
  forEach name "" (slot this)

@[simp] theorem done_append (next : Template) : done ++ next = next := rfl

@[simp] theorem append_done (template : Template) : template ++ done = template := by
  induction template with
  | done => rfl
  | text chars rest ih => exact congrArg (text chars) ih
  | field name rest ih => exact congrArg (field name) ih
  | choose negated name yes no rest _ _ ih => exact congrArg (choose negated name yes no) ih
  | each name separator item rest _ ih => exact congrArg (each name separator item) ih

/-- Templates can be put together in any grouping. -/
theorem append_assoc (first second third : Template) :
    first ++ second ++ third = first ++ (second ++ third) := by
  induction first with
  | done => rfl
  | text chars rest ih => exact congrArg (text chars) ih
  | field name rest ih => exact congrArg (field name) ih
  | choose negated name yes no rest _ _ ih => exact congrArg (choose negated name yes no) ih
  | each name separator item rest _ ih => exact congrArg (each name separator item) ih

end Template

/-! ## What can go wrong -/

namespace Template

/-- What ends a run of text and holes. -/
inductive Stop
  | endOfText
  | otherwise
  | endIf
  | closingBrace
  deriving DecidableEq, Repr

/-- Why a template cannot be read. -/
inductive Fault
  /-- The tag that opens a choice has no closing brace. -/
  | unterminatedTest
  /-- The condition of a choice is no field name, negated or not. -/
  | badCondition (condition : String)
  /-- A choice on this condition has no end. -/
  | unclosedTest (condition : String)
  /-- A repetition has no arrow. -/
  | missingArrow (field : String)
  /-- A repetition has no end. -/
  | unclosedList (field : String)
  /-- An end of something that was not begun. -/
  | unexpected (stop : Stop)
  deriving DecidableEq, Repr

end Template

/-- Why an object cannot be rendered. -/
inductive TemplateError
  /-- The template names a field that the object does not have. -/
  | undefinedField (object field : String)
  /-- A truth value stands where text is inserted. -/
  | flagAsText (object field : String)
  /-- The template cannot be read; reading stopped at this byte. -/
  | malformed (object : String) (fault : Template.Fault) (byte : Nat)
  deriving DecidableEq, Repr

namespace Template

/-- The name under which an unexpected end is reported. -/
def Stop.label : Stop → String
  | endOfText => "Eof"
  | otherwise => "Else"
  | endIf => "EndIf"
  | closingBrace => "CloseBrace"

/-- The wording of a fault. -/
def Fault.message : Fault → String
  | unterminatedTest => "unterminated `\x7b#if`"
  | badCondition condition => "bad condition `" ++ condition ++ "`"
  | unclosedTest condition => "`\x7b#if " ++ condition ++ "\x7d` not closed"
  | missingArrow name => "list `" ++ name ++ "` has no `\x7d=> `"
  | unclosedList name => "list `" ++ name ++ "` not closed"
  | unexpected stop => "unexpected " ++ stop.label

end Template

/-- The wording of an error. -/
def TemplateError.message : TemplateError → String
  | undefinedField object field => "`" ++ object ++ "` has no template field `" ++ field ++ "`"
  | flagAsText object field =>
    "field `" ++ field ++ "` of `" ++ object ++ "` is a flag and cannot be inserted as text"
  | malformed object fault byte =>
    "malformed template for `" ++ object ++ "`: " ++ fault.message ++ " at byte " ++ toString byte

/-! ## Objects and values -/

/-- The value of a field. -/
inductive Value
  | text (chars : String)
  | flag (truth : Bool)
  | list (items : List Value)
  /-- An object: its name in messages, its template, and the values of its fields. -/
  | node (name : String) (template : Except TemplateError Template)
      (fields : List (String × Value))

namespace Value

/-- An object whose template has been read. -/
def object (name : String) (template : Template) (fields : List (String × Value)) : Value :=
  node name (.ok template) fields

/-- A list of texts. -/
def texts (items : List String) : Value :=
  list (items.map text)

end Value

end ScriptToC
