import ScriptToC.Proofs.Template.Elimination

/-!
# Places in templates

A context is a template in which the place of one part is left open: between other parts, in a
branch of a choice or in the repeated template of a list, at any depth. A part is put there by
plugging (`Context.plug`).

If one part is filled as another one is, wherever they stand, then so are the templates that have
them at the same place (`Context.refines`).
-/

set_option autoImplicit false

namespace ScriptToC.Template

open Text

/-! ## Filling templates in a row -/

/-- Templates one after another are filled one after the other. -/
theorem fill_append (first second : Template) (fields : Fields) (writer : Writer) :
    (first ++ second).fill fields writer = first.fill fields writer >>= second.fill fields := by
  induction first generalizing writer with
  | done => rfl
  | text chars rest ih => exact ih _
  | field name rest ih =>
    change (field name (rest ++ second)).fill fields writer = _
    simp only [fill, ih, bind_assoc]
  | choose negated name yes no rest _ _ ih =>
    change (choose negated name yes no (rest ++ second)).fill fields writer = _
    simp only [fill, ih, bind_assoc]
    refine bind_congr fun value => ?_
    split <;> rw [bind_assoc]
  | each name separator item rest _ ih =>
    change (each name separator item (rest ++ second)).fill fields writer = _
    simp only [fill, ih, bind_assoc]

namespace Refines

variable {fields : Fields} {rest rest' : Template}

theorem text (refines : Refines fields rest rest') (chars : List Char) :
    Refines fields (text chars rest) (text chars rest') :=
  fun _ _ filled => refines _ _ filled

theorem append {part part' : Template} (refinesPart : Refines fields part part')
    (refines : Refines fields rest rest') : Refines fields (part ++ rest) (part' ++ rest') := by
  intro writer written filled
  rw [fill_append] at filled ⊢
  exact bind_ok_of_ok (refinesPart writer) (fun writer => refines writer written) filled

end Refines

/-! ## Contexts -/

/-- A template with one place left open, and what stands around it. -/
inductive Context
  | here (rest : Template)
  | afterText (chars : List Char) (inner : Context)
  | afterField (name : String) (inner : Context)
  | inYes (negated : Bool) (name : String) (inner : Context) (no rest : Template)
  | inNo (negated : Bool) (name : String) (yes : Template) (inner : Context) (rest : Template)
  | afterChoice (negated : Bool) (name : String) (yes no : Template) (inner : Context)
  | inItem (name : String) (separator : List Char) (inner : Context) (rest : Template)
  | afterList (name : String) (separator : List Char) (item : Template) (inner : Context)

namespace Context

/-- The template with a part at the open place. -/
def plug : Context → Template → Template
  | here rest, part => part ++ rest
  | afterText chars inner, part => text chars (inner.plug part)
  | afterField name inner, part => field name (inner.plug part)
  | inYes negated name inner no rest, part => choose negated name (inner.plug part) no rest
  | inNo negated name yes inner rest, part => choose negated name yes (inner.plug part) rest
  | afterChoice negated name yes no inner, part => choose negated name yes no (inner.plug part)
  | inItem name separator inner rest, part => each name separator (inner.plug part) rest
  | afterList name separator item inner, part => each name separator item (inner.plug part)

/-- Parts are exchanged at any place. Inside a repetition they meet the fields of the elements, so
they have to be filled alike with all fields. -/
theorem refines {part part' : Template} (refinesPart : ∀ fields, Refines fields part part')
    (context : Context) (fields : Fields) :
    Refines fields (context.plug part) (context.plug part') := by
  induction context generalizing fields with
  | here rest => exact (refinesPart fields).append (.refl rest)
  | afterText chars inner ih => exact (ih fields).text chars
  | afterField name inner ih => exact (ih fields).field name
  | inYes negated name inner no rest ih =>
    exact (ih fields).choose (.refl no) (.refl rest) negated name
  | inNo negated name yes inner rest ih =>
    exact (Refines.refl yes).choose (ih fields) (.refl rest) negated name
  | afterChoice negated name yes no inner ih =>
    exact (Refines.refl yes).choose (.refl no) (ih fields) negated name
  | inItem name separator inner rest ih => exact Refines.each ih (.refl rest) name separator
  | afterList name separator item inner ih =>
    exact Refines.each (fun _ => .refl item) (ih fields) name separator

/-- Objects render to the same text if their templates differ in parts that are filled alike. -/
theorem render_plug {part part' : Template} (refinesPart : ∀ fields, Refines fields part part')
    (context : Context) {name text : String} {entries : List (String × Value)}
    (renders : (Value.object name (context.plug part) entries).render = .ok text) :
    (Value.object name (context.plug part') entries).render = .ok text := by
  obtain ⟨_, writer, same, filled, shown⟩ := render_node_eq_ok.1 renders
  cases same
  exact render_node_eq_ok.2 ⟨_, writer, rfl, context.refines refinesPart _ _ _ filled, shown⟩

end Context

end ScriptToC.Template
