import ScriptToC.Proofs.Template.Filling
import ScriptToC.Proofs.Template.Surroundings

/-!
# Rendering changes white space only

Substitution alone puts the text of each hole where the hole stands: the literal text of a template,
the inserted values, the branches that are taken and the elements of repetitions with their
separators follow one another in the order of the template, and no line rule applies
(`Template.substitute`). A text stands for its characters, a list for its values one after another,
and an object for what substitution makes of its template (`Value.substituted`). Rendering indents,
holds newlines back and removes lines besides, and the text that it gives differs from that of
substitution in white space only. Where the one fails, the other fails for the same cause
(`unspaced_render`).

The writer is compared with substitution hole by hole: what it holds back or removes is white space
(`Writer.Carries`), whatever the texts are that it was given. A template is filled with values that
are smaller than its object, so the comparison is by induction on the size of a value, and for one
size by induction on the template.
-/

set_option autoImplicit false

namespace ScriptToC

open Text

/-! ## Sizes of values -/

namespace Value

theorem sizeOf_element {value element : Value} (isElement : element ∈ value.elements) :
    sizeOf element ≤ sizeOf value := by
  cases value with
  | list items =>
    have smaller : sizeOf element < sizeOf items := List.sizeOf_lt_of_mem isElement
    rw [list.sizeOf_spec]
    omega
  | _ =>
    obtain rfl := List.mem_singleton.1 isElement
    exact Nat.le_refl _

theorem sizeOf_entries (value : Value) : sizeOf value.entries ≤ sizeOf value := by
  cases value with
  | node name template fields =>
    rw [node.sizeOf_spec, entries]
    omega
  | _ => simp [entries]

theorem sizeOf_lookup {name : String} {value : Value} : ∀ {entries : List (String × Value)},
    entries.lookup name = some value → sizeOf value < sizeOf entries
  | (_, first) :: rest, found => by
    rw [List.lookup_cons] at found
    rw [List.cons.sizeOf_spec, Prod.mk.sizeOf_spec]
    split at found
    · cases found
      omega
    · have smaller := sizeOf_lookup found
      omega

end Value

namespace Surroundings

/-- A bound on the values that are looked up. -/
noncomputable def size (around : Surroundings) : Nat :=
  max (sizeOf around.element) (sizeOf around.entries)

theorem size_find? {around : Surroundings} {name : String} {value : Value}
    (found : around.find? name = some value) : sizeOf value < around.size := by
  rw [find?, Option.or_eq_some_iff] at found
  rcases found with isThis | ⟨-, isEntry⟩
  · have isElement : around.element = some value := by
      split at isThis
      · exact isThis
      · cases isThis
    rw [size, isElement, Option.some.sizeOf_spec]
    omega
  · have smaller := Value.sizeOf_lookup isEntry
    rw [size]
    omega

theorem size_at {around : Surroundings} {value element : Value}
    (inside : sizeOf value < around.size) (isElement : element ∈ value.elements) :
    (around.at element).size ≤ around.size := by
  have ofElement := Value.sizeOf_element isElement
  have ofEntries := element.sizeOf_entries
  simp only [size, Surroundings.at, Option.some.sizeOf_spec] at inside ⊢
  omega

/-- An object is filled with smaller values. -/
theorem size_lt_node (name : String) (template : Except TemplateError Template)
    (entries : List (String × Value)) :
    size ⟨none, entries⟩ < sizeOf (Value.node name template entries) := by
  have some : 1 ≤ sizeOf entries := by
    cases entries with
    | nil => exact Nat.le_refl 1
    | cons entry rest =>
      rw [List.cons.sizeOf_spec, Nat.add_assoc]
      exact Nat.le_add_right 1 _
  simp only [size, Value.node.sizeOf_spec, Option.none.sizeOf_spec]
  omega

/-- The value of a field that has to be there. -/
def require (around : Surroundings) (object name : String) :
    Except TemplateError {value : Value // sizeOf value < around.size} :=
  match found : around.find? name with
  | some value => .ok ⟨value, size_find? found⟩
  | none => .error (.undefinedField object name)

end Surroundings

/-! ## Substitution alone -/

/-- An empty text, an empty list and the flag that is false are not truthy. -/
def Value.isTruthy : Value → Bool
  | .text chars => !chars.isEmpty
  | .flag truth => truth
  | .list items => !items.isEmpty
  | .node .. => true

mutual

/-- The text of a value that stands for `field` of `object`. -/
def Value.substituted (object field : String) : Value → Except TemplateError (List Char)
  | .text chars => return chars.toList
  | .flag _ => throw (.flagAsText object field)
  | .list items => do
    let texts ← items.mapM fun item => item.substituted object field
    return texts.flatten
  | .node name template entries => do
    (← template).substitute name ⟨none, entries⟩
termination_by value => (sizeOf value, 0)
decreasing_by
  · have smaller := List.sizeOf_lt_of_mem ‹_›
    exact .left _ _ (by rw [Value.list.sizeOf_spec]; omega)
  · exact .left _ _ (Surroundings.size_lt_node _ _ _)

/-- The text of the template of `object` by substitution alone. -/
def Template.substitute (template : Template) (object : String) (around : Surroundings) :
    Except TemplateError (List Char) :=
  match template with
  | .done => return []
  | .text chars rest => do
    return chars ++ (← rest.substitute object around)
  | .field name rest => do
    let ⟨value, _⟩ ← around.require object name
    let text ← value.substituted object name
    return text ++ (← rest.substitute object around)
  | .choose negated name yes no rest => do
    let ⟨value, _⟩ ← around.require object name
    let chosen ← if value.isTruthy ≠ negated then yes.substitute object around
      else no.substitute object around
    return chosen ++ (← rest.substitute object around)
  | .each name separator item rest => do
    let ⟨value, _⟩ ← around.require object name
    let texts ← value.elements.attach.mapM fun ⟨element, _⟩ =>
      item.substitute object (around.at element)
    return (texts.intersperse separator).flatten ++ (← rest.substitute object around)
termination_by (around.size, sizeOf template)
decreasing_by
  all_goals simp only [Template.text.sizeOf_spec, Template.field.sizeOf_spec,
    Template.choose.sizeOf_spec, Template.each.sizeOf_spec]
  all_goals first
    | exact .left _ _ ‹_›
    | exact .right _ (by omega)
    | exact .right' _ (Surroundings.size_at ‹_› ‹_›) (by omega)

end

/-- The text of an object by substitution alone, without any line rule. -/
def Value.substitution (value : Value) : Except TemplateError (List Char) :=
  value.substituted "" ""

/-! ## Results that agree -/

/-- Both fail for the same cause, or both succeed with results that are related. -/
inductive Agree {α β : Type} (related : α → β → Prop) :
    Except TemplateError α → Except TemplateError β → Prop
  | error (cause : TemplateError) : Agree related (.error cause) (.error cause)
  | ok {a : α} {b : β} : related a b → Agree related (.ok a) (.ok b)

namespace Agree

variable {α β γ δ : Type} {related : α → β → Prop} {related' : γ → δ → Prop}
  {m : Except TemplateError α} {m' : Except TemplateError β}

theorem bind {next : α → Except TemplateError γ} {next' : β → Except TemplateError δ}
    (agree : Agree related m m')
    (others : ∀ {a : α} {b : β}, related a b → Agree related' (next a) (next' b)) :
    Agree related' (m >>= next) (m' >>= next') := by
  cases agree with
  | error cause => exact .error cause
  | ok same => exact others same

/-- A last step that cannot fail. -/
theorem pure_right {other : α → δ → Prop} {f : β → δ} (agree : Agree related m m')
    (sub : ∀ {a : α} {b : β}, related a b → other a (f b)) :
    Agree other m (m' >>= fun b => pure (f b)) := by
  cases agree with
  | error cause => exact .error cause
  | ok same => exact .ok (sub same)

theorem pure_left {other : γ → β → Prop} {f : α → γ} (agree : Agree related m m')
    (sub : ∀ {a : α} {b : β}, related a b → other (f a) b) :
    Agree other (m >>= fun a => pure (f a)) m' := by
  cases agree with
  | error cause => exact .error cause
  | ok same => exact .ok (sub same)

theorem mapM {step : γ → Except TemplateError α} {step' : δ → Except TemplateError β}
    {list : List γ} {list' : List δ} (pairs : List.Forall₂ related' list list')
    (each : ∀ {c : γ} {d : δ}, related' c d → Agree related (step c) (step' d)) :
    Agree (List.Forall₂ related) (list.mapM step) (list'.mapM step') := by
  induction pairs with
  | nil => exact .ok .nil
  | cons first _ ih =>
    rw [List.mapM_cons, List.mapM_cons]
    apply (each first).bind
    intro a b same
    exact ih.bind fun others => .ok (.cons same others)

end Agree

/-! ## Writers -/

namespace Writer

/-- What was written differs from the text in white space only, and so does what is left if a line
that is held back is removed. -/
structure Carries (writer : Writer) (text : List Char) : Prop where
  same : unspaced writer.visible = unspaced text
  blank : writer.pending = .blankLine → writer.line.all isBlank = true

theorem carries_empty : Carries {} [] where
  same := rfl
  blank := nofun

theorem Holds.carries {writer : Writer} {text : List Char} (holds : writer.Holds text) :
    writer.Carries text where
  same := by rw [← flatten_words, holds.alike.words_eq, flatten_words]
  blank := holds.blank

variable {writer : Writer} {written other : List Char} {more : Lines}

/-- A writer holds what is seen of it. -/
theorem Carries.holds (carries : writer.Carries written) : writer.Holds writer.visible where
  alike := .refl _
  closed := id
  blank := carries.blank

theorem Carries.of_visible {writer' : Writer} (carries : writer.Carries written)
    (wrote : writer'.Carries (writer.visible ++ more.toChars))
    (same : unspaced more.toChars = unspaced other) : writer'.Carries (written ++ other) where
  same := by rw [wrote.same, unspaced_append, unspaced_append, carries.same, same]
  blank := wrote.blank

theorem Carries.text (carries : writer.Carries written)
    (same : unspaced more.toChars = unspaced other) :
    (writer.text more).Carries (written ++ other) :=
  carries.of_visible (carries.holds.text more).carries same

theorem Carries.value (carries : writer.Carries written)
    (same : unspaced more.toChars = unspaced other) :
    (writer.value more).Carries (written ++ other) :=
  carries.of_visible (carries.holds.value more).carries same

theorem Carries.finish (carries : writer.Carries written) :
    unspaced writer.finish.toChars = unspaced written := by
  obtain ⟨alike, -⟩ := carries.holds.finish
  rw [← flatten_words, alike.words_eq, flatten_words, carries.same]

end Writer

/-! ## Rendered values -/

theorem Value.isTruthy_rendered (value : Value) : value.rendered.isTruthy = value.isTruthy := by
  cases value with
  | text chars =>
    have same : (Lines.ofChars chars.toList).isEmpty = chars.isEmpty := by
      rw [Bool.eq_iff_iff, Lines.isEmpty_iff, Lines.toChars_ofChars, String.isEmpty_iff]
      exact String.toList_eq_nil_iff
    rw [rendered, Rendered.isTruthy, isTruthy, same]
  | list items => cases items <;> rfl
  | flag | node => rfl

/-- The renderer finds the same value, rendered, or fails for the same cause. -/
theorem Surroundings.agree_require (around : Surroundings) (object name : String) :
    Agree (fun found value => found = value.val.rendered) ((around.fields object).find name)
      (around.require object name) := by
  rw [around.find_fields_eq, require]
  split
  next value found =>
    simp only [found, Option.elim_some]
    exact .ok rfl
  next none =>
    rw [none]
    exact .error _

/-! ## Filling and substituting -/

/-- The texts differ in white space only. -/
def SameInk (text : Lines) (other : List Char) : Prop :=
  unspaced text.toChars = unspaced other

/-- What is inserted for the value differs from its substitution in white space only. -/
def Value.Faithful (value : Value) : Prop :=
  ∀ object field : String,
    Agree SameInk (value.rendered.inserted object field) (value.substituted object field)

theorem flatten_intersperse_unspaced {texts : List Lines} {texts' : List (List Char)}
    (same : List.Forall₂ SameInk texts texts') (separator : List Char) :
    unspaced ((texts.map Lines.toChars).intersperse separator).flatten =
      unspaced (texts'.intersperse separator).flatten := by
  induction same with
  | nil => rfl
  | cons first others ih =>
    rw [SameInk] at first
    cases others with
    | nil => simpa using first
    | cons second others =>
      simp only [List.map_cons, List.intersperse_cons_cons, List.flatten_cons, unspaced_append,
        first] at ih ⊢
      rw [ih]

/-- What a writer is given for a template differs from the substitution in white space only, if
that holds of what is inserted. -/
theorem Template.fill_substitute (template : Template) (object : String)
    {around : Surroundings} (each : ∀ value : Value, sizeOf value < around.size → value.Faithful)
    {writer : Writer} {written : List Char} (carries : writer.Carries written) :
    Agree (fun writer' text => writer'.Carries (written ++ text))
      (template.fill (around.fields object) writer) (template.substitute object around) := by
  induction template generalizing around writer written with
  | done =>
    rw [fill, substitute]
    exact .ok ((List.append_nil written).symm ▸ carries)
  | text chars rest ih =>
    rw [fill, substitute]
    have wrote : (writer.text (.ofChars chars)).Carries (written ++ chars) :=
      carries.text (by rw [Lines.toChars_ofChars])
    apply (ih each wrote).pure_right
    intro writer' text same
    rwa [List.append_assoc] at same
  | field name rest ih =>
    rw [fill, substitute]
    apply (around.agree_require object name).bind
    rintro _ ⟨value, inside⟩ rfl
    apply (each value inside object name).bind
    intro text text' sameText
    apply (ih each (carries.value sameText)).pure_right
    intro writer' after same
    rwa [List.append_assoc] at same
  | choose negated name yes no rest ihYes ihNo ih =>
    rw [fill, substitute]
    apply (around.agree_require object name).bind
    rintro _ ⟨value, inside⟩ rfl
    dsimp only
    rw [value.isTruthy_rendered]
    have after {writer' : Writer} {text : List Char}
        (carries' : writer'.Carries (written ++ text)) :
        Agree (fun writer' text => writer'.Carries (written ++ text))
          (rest.fill (around.fields object) writer')
          (rest.substitute object around >>= fun after => pure (text ++ after)) := by
      apply (ih each carries').pure_right
      intro writer'' after same
      rwa [List.append_assoc] at same
    split
    · exact (ihYes each carries).bind after
    · exact (ihNo each carries).bind after
  | each name separator item rest ihItem ih =>
    rw [fill, substitute]
    apply (around.agree_require object name).bind
    rintro _ ⟨value, inside⟩ rfl
    have items : Agree (List.Forall₂ SameInk)
        (value.rendered.elements.mapM fun element => do
          let writer ← item.fill ((around.fields object).at element) {}
          return writer.finish)
        (value.elements.attach.mapM fun ⟨element, _⟩ =>
          item.substitute object (around.at element)) := by
      have pairs : List.Forall₂ (fun found element => found = element.val.rendered)
          value.rendered.elements value.elements.attach := by
        rw [value.elements_rendered, ← List.attach_map_val, List.forall₂_map_left_iff]
        exact List.forall₂_same.2 fun _ _ => rfl
      apply Agree.mapM pairs
      rintro _ ⟨element, isElement⟩ rfl
      rw [around.at_fields]
      have smaller := Surroundings.size_at inside isElement
      have filled := ihItem (fun value fits => each value (Nat.lt_of_lt_of_le fits smaller))
        Writer.carries_empty
      exact filled.pure_left fun carries' => carries'.finish
    apply items.bind
    intro texts texts' sameTexts
    have wrote : (writer.value (.concat (texts.intersperse (.ofChars separator)))).Carries
        (written ++ (texts'.intersperse separator).flatten) := by
      apply carries.value
      rw [toChars_concat_intersperse]
      exact flatten_intersperse_unspaced sameTexts separator
    apply (ih each wrote).pure_right
    intro writer' after same
    rwa [List.append_assoc] at same

/-! ## Objects -/

/-- The values of a list are inserted one after another. -/
theorem agree_insertedAll {items : List Value} (each : ∀ item ∈ items, item.Faithful)
    (object field : String) :
    Agree (fun text texts => SameInk text texts.flatten)
      (Rendered.insertedAll object field (items.map Value.rendered))
      (items.mapM fun item => item.substituted object field) := by
  induction items with
  | nil => exact .ok rfl
  | cons item rest ih =>
    rw [List.forall_mem_cons] at each
    rw [List.map_cons, Rendered.insertedAll, List.mapM_cons]
    apply (each.1 object field).bind
    intro text text' same
    apply (ih each.2).bind
    intro more more' same'
    refine .ok ?_
    rw [SameInk, Lines.toChars_append, List.flatten_cons, unspaced_append, unspaced_append, same,
      same']

/-- What is inserted for a value differs from its substitution in white space only. -/
theorem Value.faithful (value : Value) : value.Faithful := by
  intro object field
  match value with
  | .text chars =>
    rw [rendered, substituted, Rendered.inserted]
    exact .ok (by rw [SameInk, Lines.toChars_ofChars])
  | .flag truth =>
    rw [rendered, substituted, Rendered.inserted]
    exact .error _
  | .list items =>
    have each : ∀ item ∈ items, item.Faithful := fun item isItem => item.faithful
    rw [rendered, substituted, Rendered.inserted, renderedAll_eq_map]
    exact (agree_insertedAll each object field).pure_right id
  | .node name template entries =>
    have smaller := Surroundings.size_lt_node name template entries
    have each : ∀ value : Value, sizeOf value < Surroundings.size ⟨none, entries⟩ →
        value.Faithful := fun value fits => value.faithful
    rw [rendered, substituted, Rendered.inserted]
    cases template with
    | error cause => exact .error cause
    | ok template =>
      have filled := template.fill_substitute name each Writer.carries_empty
      exact filled.pure_left fun carries => carries.finish
termination_by sizeOf value
decreasing_by
  · have smaller := List.sizeOf_lt_of_mem isItem
    rw [list.sizeOf_spec]
    omega
  · omega

/-- **Rendering changes nothing but white space.** Without its white space the text of an object is
that of its substitution, and the one fails where the other does, for the same cause. -/
theorem Value.unspaced_render (value : Value) :
    value.render.map (fun text => unspaced text.toList) = value.substitution.map unspaced := by
  have agree := value.faithful "" ""
  rw [Value.render, Value.substitution]
  generalize value.rendered.inserted "" "" = rendered,
    value.substituted "" "" = substituted at agree
  cases agree with
  | error cause => rfl
  | ok same => exact congrArg Except.ok ((congrArg unspaced String.toList_ofList).trans same)

/-- Rendering indents the lines of the calls, substitution does not. -/
example :
    let call : Value :=
      .object "Call" (.field "name" (.text "();\n".toList .done)) [("name", .text "f")]
    let main : Value :=
      .object "Main" (.text "main:\n  ".toList (.each "body" [] (.field "this" .done) .done))
        [("body", .list [call, .list [.text "g();\n", call]])]
    main.substitution = .ok "main:\n  f();\ng();\nf();\n".toList ∧
      main.render = .ok "main:\n  f();\n  g();\n  f();\n" :=
  ⟨by cbv, by rfl⟩

end ScriptToC
