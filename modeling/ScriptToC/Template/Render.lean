import ScriptToC.Template.Basic
import ScriptToC.Template.Writer

/-!
# Rendering

An object is rendered by filling its template: texts are written, fields are looked up and inserted,
choices and repetitions follow the values of their fields. Every object of a tree is rendered
through its own template, and its text is the same wherever it is inserted; an object that is
inserted nowhere is never rendered. Inside a repetition the element is known as `this`, and the
other fields are those of the element, if it is an object.
-/

set_option autoImplicit false

namespace ScriptToC

open Text

/-- A value in which each object comes with its text, or with the error that its template gives. The
text is found where it is first asked for. -/
inductive Rendered
  | text (chars : Lines)
  | flag (truth : Bool)
  | list (items : List Rendered)
  | node (own : Thunk (Except TemplateError Lines)) (fields : List (String × Rendered))

namespace Rendered

/-- An empty text, an empty list and the flag that is false are not truthy. -/
def isTruthy : Rendered → Bool
  | text chars => !chars.isEmpty
  | flag truth => truth
  | list items => !items.isEmpty
  | node .. => true

/-- What a repetition runs over: the elements of a list, or the value alone. -/
def elements : Rendered → List Rendered
  | list items => items
  | other => [other]

/-- The fields of an object. -/
def fields : Rendered → List (String × Rendered)
  | node _ fields => fields
  | _ => []

mutual

/-- The text of a value that is inserted for `field` of `object`. -/
def inserted (object field : String) : Rendered → Except TemplateError Lines
  | text chars => .ok chars
  | flag _ => .error (.flagAsText object field)
  | list items => insertedAll object field items
  | node own _ => own.get

/-- The texts of the values one after another. -/
def insertedAll (object field : String) : List Rendered → Except TemplateError Lines
  | [] => .ok .empty
  | item :: rest => do
    let first ← inserted object field item
    let others ← insertedAll object field rest
    return first ++ others

end

end Rendered

/-- Where the fields of a template are looked up. -/
structure Fields where
  /-- The name of the object in messages. -/
  object : String
  /-- The element, inside a repetition. -/
  element : Option Rendered
  entries : List (String × Rendered)

/-- The value of a field. Inside a repetition `this` is the element. -/
def Fields.find (fields : Fields) (name : String) : Except TemplateError Rendered :=
  match (if name = Template.this then fields.element else none) with
  | some element => .ok element
  | none =>
    match fields.entries.lookup name with
    | some value => .ok value
    | none => .error (.undefinedField fields.object name)

/-- The fields inside a repetition, at one element. -/
def Fields.at (fields : Fields) (element : Rendered) : Fields where
  object := fields.object
  element := some element
  entries := element.fields

/-- Writes a template with its holes filled. -/
def Template.fill : Template → Fields → Writer → Except TemplateError Writer
  | .done, _, writer => .ok writer
  | .text chars rest, fields, writer => rest.fill fields (writer.text (.ofChars chars))
  | .field name rest, fields, writer => do
    let value ← fields.find name
    let text ← value.inserted fields.object name
    rest.fill fields (writer.value text)
  | .choose negated name yes no rest, fields, writer => do
    let value ← fields.find name
    let writer ← if value.isTruthy ≠ negated then yes.fill fields writer else no.fill fields writer
    rest.fill fields writer
  | .each name separator item rest, fields, writer => do
    let value ← fields.find name
    let texts ← value.elements.mapM fun element => do
      let writer ← item.fill (fields.at element) {}
      return writer.finish
    rest.fill fields (writer.value (.concat (texts.intersperse (.ofChars separator))))

mutual

/-- A value with each of its objects rendered. -/
def Value.rendered : Value → Rendered
  | .text chars => .text (.ofChars chars.toList)
  | .flag truth => .flag truth
  | .list items => .list (Value.renderedAll items)
  | .node name template fields =>
    let entries := Value.renderedFields fields
    .node (Thunk.mk fun _ => do return (← (← template).fill ⟨name, none, entries⟩ {}).finish)
      entries

/-- The values of a list with their objects rendered. -/
def Value.renderedAll : List Value → List Rendered
  | [] => []
  | item :: rest => item.rendered :: Value.renderedAll rest

/-- The fields of an object with their objects rendered. -/
def Value.renderedFields : List (String × Value) → List (String × Rendered)
  | [] => []
  | (name, value) :: rest => (name, value.rendered) :: Value.renderedFields rest

end

/-- The text of an object. A value that is no object is inserted as it stands. -/
def Value.render (value : Value) : Except TemplateError String :=
  (value.rendered.inserted "" "").map fun text => String.ofList text.toChars

/-- The values of a list are rendered one by one. -/
theorem Value.renderedAll_eq_map (items : List Value) :
    Value.renderedAll items = items.map Value.rendered := by
  induction items with
  | nil => rfl
  | cons item rest ih => simp [Value.renderedAll, ih]

end ScriptToC
