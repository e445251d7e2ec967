import ScriptToC.Proofs.Template.Surroundings
import ScriptToC.Proofs.Template.Survival

/-!
# Inserted texts survive nesting

Rendering a tree inserts values into templates, and those into others. The values that a template
inserts are listed by `Template.insertions`: fields, the fields of the branch that is chosen, and
what a repeated template inserts at each element. A text is inserted in a tree if it is inserted
through any number of templates and lists (`Value.Inserts`).

Every text on the way is cut into lines, indented, joined with others and shortened at its end. A
part of one of its lines survives this unless it is blank, at whatever depth the text is inserted
(`Value.Inserts.infix_render`).
-/

set_option autoImplicit false

namespace ScriptToC

open Text

/-! ## What a template inserts -/

/-- The values that are inserted when a template is filled, in order. -/
def Template.insertions : Template → Surroundings → List Value
  | .done, _ => []
  | .text _ rest, around => rest.insertions around
  | .field name rest, around => (around.find? name).toList ++ rest.insertions around
  | .choose negated name yes no rest, around =>
    ((around.find? name).elim [] fun value =>
      if value.rendered.isTruthy ≠ negated then yes.insertions around else no.insertions around) ++
        rest.insertions around
  | .each name _ item rest, around =>
    ((around.find? name).elim [] fun value =>
      value.elements.flatMap fun element => item.insertions (around.at element)) ++
        rest.insertions around

/-- A text is inserted in a value, directly or through templates and lists. A value that is a text
is inserted as it stands. -/
inductive Value.Inserts : Value → String → Prop
  | text (chars : String) : Inserts (.text chars) chars
  | item {items : List Value} {item : Value} {chars : String} (member : item ∈ items) :
    Inserts item chars → Inserts (.list items) chars
  | field {name chars : String} {template : Template} {fields : List (String × Value)}
    {value : Value} (member : value ∈ template.insertions ⟨none, fields⟩) :
    Inserts value chars → Inserts (.node name (.ok template) fields) chars

/-! ## Parts of what is inserted -/

variable {part : List Char}

theorem exists_of_mapM_ok {α β ε : Type} {step : α → Except ε β} {list : List α}
    {results : List β} (run : list.mapM step = .ok results) {a : α} (member : a ∈ list) :
    ∃ b ∈ results, step a = .ok b := by
  induction list generalizing results with
  | nil => cases member
  | cons first rest ih =>
    simp only [List.mapM_cons, except_bind_ok] at run
    obtain ⟨b, one, others, run, same⟩ := run
    cases same
    rcases List.mem_cons.1 member with rfl | inside
    · exact ⟨b, List.mem_cons_self, one⟩
    · obtain ⟨found, isResult, given⟩ := ih run inside
      exact ⟨found, List.mem_cons_of_mem _ isResult, given⟩

theorem mem_intersperse {α : Type} {a : α} {list : List α} (member : a ∈ list) (separator : α) :
    a ∈ list.intersperse separator := by
  induction list with
  | nil => cases member
  | cons first rest ih =>
    cases rest with
    | nil => exact member
    | cons second rest =>
      rw [List.intersperse_cons_cons]
      rcases List.mem_cons.1 member with rfl | inside
      · exact List.mem_cons_self
      · exact List.mem_cons_of_mem _ (List.mem_cons_of_mem _ (ih inside))

/-- What is inserted for a list has what is inserted for its items. -/
theorem has_insertedAll {object field : String} {items : List Rendered} {text : Lines}
    (inserted : Rendered.insertedAll object field items = .ok text) {item : Rendered}
    (member : item ∈ items) :
    ∃ own, item.inserted object field = .ok own ∧ (own.Has part → text.Has part) := by
  induction items generalizing text with
  | nil => cases member
  | cons first rest ih =>
    simp only [Rendered.insertedAll, except_bind_ok] at inserted
    obtain ⟨front, one, others, back, same⟩ := inserted
    cases same
    rcases List.mem_cons.1 member with rfl | inside
    · exact ⟨front, one, Lines.Has.append_left⟩
    · obtain ⟨own, given, has⟩ := ih back inside
      exact ⟨own, given, fun found => (has found).append_right⟩

section Visible

variable (visible : part.all isBlank = false)
include visible

/-- A template that is filled has the parts of what it inserts. -/
theorem Template.keeps_insertion (template : Template) {around : Surroundings} {object : String}
    {writer writer' : Writer} (filled : template.fill (around.fields object) writer = .ok writer')
    {value : Value} (member : value ∈ template.insertions around)
    (has : ∀ {field : String} {text : Lines},
      value.rendered.inserted object field = .ok text → text.Has part) :
    writer'.Keeps part := by
  induction template generalizing around writer writer' with
  | done => cases member
  | text chars rest ih => exact ih filled member
  | field name rest ih =>
    simp only [fill, except_bind_ok] at filled
    obtain ⟨_, looked, text, inserted, filled⟩ := filled
    obtain ⟨found, eq, rfl⟩ := around.find_fields looked
    rw [insertions, eq, Option.toList_some, List.singleton_append] at member
    rcases List.mem_cons.1 member with rfl | inside
    · exact rest.keeps_fill visible (Writer.keeps_value visible writer (has inserted)) filled
    · exact ih filled inside
  | choose negated name yes no rest ihYes ihNo ih =>
    simp only [fill, except_bind_ok] at filled
    obtain ⟨_, looked, filled⟩ := filled
    obtain ⟨found, eq, rfl⟩ := around.find_fields looked
    rw [insertions, eq, Option.elim_some, List.mem_append] at member
    split at filled
    next truth =>
      obtain ⟨middle, chosen, filled⟩ := except_bind_ok.1 filled
      rw [if_pos truth] at member
      rcases member with here | after
      · exact rest.keeps_fill visible (ihYes chosen here) filled
      · exact ih filled after
    next truth =>
      obtain ⟨middle, chosen, filled⟩ := except_bind_ok.1 filled
      rw [if_neg truth] at member
      rcases member with here | after
      · exact rest.keeps_fill visible (ihNo chosen here) filled
      · exact ih filled after
  | each name separator item rest ihItem ih =>
    simp only [fill, except_bind_ok] at filled
    obtain ⟨_, looked, texts, each, filled⟩ := filled
    obtain ⟨found, eq, rfl⟩ := around.find_fields looked
    rw [insertions, eq, Option.elim_some, List.mem_append, List.mem_flatMap] at member
    rcases member with ⟨element, isElement, inside⟩ | after
    · rw [found.elements_rendered] at each
      obtain ⟨text, isText, one⟩ := exists_of_mapM_ok each (List.mem_map_of_mem isElement)
      simp only [except_bind_ok, around.at_fields] at one
      obtain ⟨own, one, same⟩ := one
      cases same
      have inItem : own.finish.Has part := (ihItem one inside).finish
      have inList := inItem.concat (mem_intersperse isText (.ofChars separator))
      exact rest.keeps_fill visible (Writer.keeps_value visible writer inList) filled
    · exact ih filled after

/-- What is inserted for a value has the parts of every text that is inserted in it. -/
theorem Value.Inserts.has {value : Value} {chars : String} (inserts : value.Inserts chars)
    (whole : (Lines.ofChars chars.toList).Has part) {object field : String} {text : Lines}
    (inserted : value.rendered.inserted object field = .ok text) : text.Has part := by
  induction inserts generalizing object field text with
  | text chars =>
    cases inserted
    exact whole
  | item member _ ih =>
    rw [rendered, renderedAll_eq_map] at inserted
    obtain ⟨own, one, has⟩ := has_insertedAll inserted (List.mem_map_of_mem member)
    exact has (ih whole one)
  | @field name chars template fields value member _ ih =>
    have run : (template.fill ((Surroundings.mk none fields).fields name) {} >>= fun writer =>
      pure writer.finish) = .ok text := inserted
    obtain ⟨writer, filled, same⟩ := except_bind_ok.1 run
    obtain rfl := Except.ok.inj same
    exact (template.keeps_insertion visible filled member (ih whole)).finish

/-- **Inserted text survives nesting.** A part of a text that is inserted anywhere in a value stands
in the text of the value, if the part holds no newline and is not blank. -/
theorem Value.Inserts.infix_render {value : Value} {chars output : String}
    (inserts : value.Inserts chars) (oneLine : '\n' ∉ part) (inside : part <:+: chars.toList)
    (renders : value.render = .ok output) : part <:+: output.toList := by
  have whole : (Lines.ofChars chars.toList).Has part := by
    rwa [Lines.has_iff oneLine, Lines.toChars_ofChars]
  rw [render] at renders
  cases inserted : value.rendered.inserted "" "" with
  | error cause => simp [inserted, Except.map] at renders
  | ok text =>
    rw [inserted] at renders
    cases renders
    rw [String.toList_ofList, ← Lines.has_iff oneLine]
    exact inserts.has visible whole inserted

end Visible

end ScriptToC
