import ScriptToC.Template.Render

/-!
# Values and what they are rendered to

Filling a template looks fields up among rendered values. The same lookup among the values
themselves finds the value that the rendered one comes from (`Surroundings.find_fields_eq`), and
what a repetition runs over and the fields of its elements correspond in the same way.
-/

set_option autoImplicit false

namespace ScriptToC

namespace Value

/-- What a repetition runs over: the elements of a list, or the value alone. -/
def elements : Value → List Value
  | list items => items
  | other => [other]

/-- The fields of an object. -/
def entries : Value → List (String × Value)
  | node _ _ fields => fields
  | _ => []

theorem elements_rendered (value : Value) :
    value.rendered.elements = value.elements.map Value.rendered := by
  cases value with
  | list items => exact renderedAll_eq_map items
  | text | flag | node => rfl

theorem fields_rendered (value : Value) :
    value.rendered.fields = renderedFields value.entries := by
  cases value <;> rfl

end Value

/-- Where the fields of a template are looked up, before the values are rendered. -/
structure Surroundings where
  /-- The element, inside a repetition. -/
  element : Option Value
  entries : List (String × Value)

/-- The value of a field. Inside a repetition `this` is the element. -/
def Surroundings.find? (around : Surroundings) (name : String) : Option Value :=
  (if name = Template.this then around.element else none).or (around.entries.lookup name)

/-- The surroundings inside a repetition, at one element. -/
def Surroundings.at (_ : Surroundings) (element : Value) : Surroundings :=
  ⟨some element, element.entries⟩

/-- The same fields with their objects rendered. -/
def Surroundings.fields (around : Surroundings) (object : String) : Fields :=
  ⟨object, around.element.map Value.rendered, Value.renderedFields around.entries⟩

theorem lookup_renderedFields (entries : List (String × Value)) (name : String) :
    (Value.renderedFields entries).lookup name = (entries.lookup name).map Value.rendered := by
  induction entries with
  | nil => rfl
  | cons entry rest ih =>
    obtain ⟨key, value⟩ := entry
    rw [Value.renderedFields, List.lookup_cons, List.lookup_cons, ih]
    cases name == key <;> rfl

/-- What is found among the rendered fields is a value of the same name, rendered. -/
theorem Surroundings.find_fields_eq (around : Surroundings) (object name : String) :
    (around.fields object).find name =
      (around.find? name).elim (.error (.undefinedField object name))
        fun value => .ok value.rendered := by
  have element : (if name = Template.this then (around.fields object).element else none) =
      (if name = Template.this then around.element else none).map Value.rendered := by
    split <;> rfl
  have entry : (around.fields object).entries.lookup name = _ :=
    lookup_renderedFields around.entries name
  rw [Fields.find, element, entry, find?]
  cases (if name = Template.this then around.element else none) with
  | some value => rfl
  | none => cases around.entries.lookup name <;> rfl

/-- A field that is found is found with its objects rendered. -/
theorem Surroundings.find_fields (around : Surroundings) {object name : String} {found : Rendered}
    (looked : (around.fields object).find name = .ok found) :
    ∃ value, around.find? name = some value ∧ value.rendered = found := by
  rw [around.find_fields_eq] at looked
  cases known : around.find? name with
  | none => cases known ▸ looked
  | some value => exact ⟨value, rfl, Except.ok.inj (known ▸ looked)⟩

theorem Surroundings.at_fields (around : Surroundings) (object : String) (element : Value) :
    (around.fields object).at element.rendered = (around.at element).fields object := by
  rw [Fields.at, element.fields_rendered]
  rfl

end ScriptToC
