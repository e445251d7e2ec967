import ScriptToC.Proofs.Runtime.Codes
import ScriptToC.Proofs.Template.Insertion

/-!
# Every text is inserted

The texts of a C statement are inserted in the object that prints it, each as a text of its own or
as a line of one (`bring_toValue`), and so are the texts of a file (`bring_program`). An empty text
is left out: a return without a value inserts nothing.
-/

set_option autoImplicit false

namespace ScriptToC

open Template (slot this lit)

/-- Each of the texts, unless it is empty, stands in a text that is inserted in one of the values.
-/
def Bring (values : List Value) (texts : List String) : Prop :=
  ∀ text ∈ texts, text ≠ "" →
    ∃ value ∈ values, ∃ chars : String, value.Inserts chars ∧ text.toList <:+: chars.toList

section Rows

variable {values others : List Value} {texts more : List String}

theorem bring_nil (values : List Value) : Bring values [] := by
  rintro _ ⟨⟩

theorem Bring.mono (brings : Bring values texts) (subset : values ⊆ others) :
    Bring others texts := by
  intro text member full
  obtain ⟨value, isValue, inserted⟩ := brings text member full
  exact ⟨value, subset isValue, inserted⟩

theorem Bring.append (brings : Bring values texts) (brings' : Bring others more) :
    Bring (values ++ others) (texts ++ more) :=
  List.forall_mem_append.2
    ⟨brings.mono (List.subset_append_left _ _), brings'.mono (List.subset_append_right _ _)⟩

theorem Bring.after (brings : Bring values texts) (others : List Value) :
    Bring (others ++ values) texts :=
  brings.mono (List.subset_append_right _ _)

theorem Bring.before (brings : Bring values texts) (others : List Value) :
    Bring (values ++ others) texts :=
  brings.mono (List.subset_append_left _ _)

theorem Bring.flatMap {α : Type} {values : α → List Value} {texts : α → List String}
    (each : ∀ a : α, Bring (values a) (texts a)) (list : List α) :
    Bring (list.flatMap values) (list.flatMap texts) := by
  induction list with
  | nil => exact bring_nil _
  | cons a rest ih =>
    rw [List.flatMap_cons, List.flatMap_cons]
    exact (each a).append ih

theorem bring_text (text : String) : Bring [.text text] [text] := by
  intro other member _
  obtain rfl := List.mem_singleton.1 member
  exact ⟨_, List.mem_singleton_self _, other, .text other, List.infix_rfl⟩

theorem bring_texts (texts : List String) : Bring (texts.map Value.text) texts := by
  intro text member _
  exact ⟨_, List.mem_map_of_mem member, text, .text text, List.infix_rfl⟩

/-- A repetition inserts the elements of its list, before what follows it. -/
theorem Bring.each (brings : Bring values texts) (others : List Value) :
    Bring (values.flatMap (fun value => [value]) ++ others) texts := by
  rw [List.flatMap_singleton']
  exact brings.before others

/-- A list that is inserted brings what its items bring. -/
theorem Bring.list (brings : Bring values texts) : Bring [.list values] texts := by
  intro text member full
  obtain ⟨value, isValue, chars, inserts, inside⟩ := brings text member full
  exact ⟨_, List.mem_singleton_self _, chars, .item isValue inserts, inside⟩

/-- An object brings what the values bring that its template inserts. -/
theorem Bring.object {name : String} {template : Template} {fields : List (String × Value)}
    (brings : Bring (template.insertions ⟨none, fields⟩) texts) :
    Bring [.object name template fields] texts := by
  intro text member full
  obtain ⟨value, isValue, chars, inserts, inside⟩ := brings text member full
  exact ⟨_, List.mem_singleton_self _, chars, .field isValue inserts, inside⟩

end Rows

/-! ## Statements -/

/-- The lines of an assignment are lines of its text. -/
theorem infix_text_of_mem_lines {a : Assignment} {line : String} (member : line ∈ a.lines) :
    line.toList <:+: a.text.toList := by
  cases a with
  | expression text =>
    obtain rfl := List.mem_singleton.1 member
    exact List.infix_rfl
  | statements lines =>
    rw [Assignment.text, String.toList_intercalate]
    exact Text.infix_join '\n' (List.mem_map_of_mem member)

theorem bring_assignment (a : Assignment) : Bring [a.toValue] a.lines := by
  apply Bring.object
  intro line member _
  exact ⟨.text a.text, List.mem_cons_self, a.text, .text a.text, infix_text_of_mem_lines member⟩

theorem bring_declaration (assignments : List Assignment) :
    Bring [declarationValue assignments] (assignments.flatMap Assignment.lines) := by
  have each := Bring.flatMap bring_assignment assignments
  rw [← List.map_eq_flatMap] at each
  apply Bring.object
  exact each.each []

mutual

theorem bring_toValue : ∀ c : CStmt, Bring [c.toValue] c.texts
  | .breakStmt | .continueStmt | .emptyStmt | .importStmt => bring_nil _
  | .returnStmt value releases => by
      apply Bring.object
      cases value with
      | none => exact bring_nil _
      | some text =>
        refine Bring.after ?_ _
        show Bring
          ((if (Value.text text).rendered.isTruthy ≠ false then [.text text] else []) ++ [])
          [text]
        by_cases empty : text = ""
        · intro other member full
          exact absurd ((List.mem_singleton.1 member).trans empty) full
        · rw [isTruthy_text, decide_eq_true empty, if_pos nofun]
          exact bring_text text
  | .ifThen condition body => by
      apply Bring.object
      exact (bring_text condition).append (bring_block body)
  | .ifElse condition body otherwise => by
      apply Bring.object
      exact (bring_text condition).append ((bring_block body).append (bring_block otherwise))
  | .switchOn subject cases => by
      apply Bring.object
      exact (bring_text subject).append ((bring_list cases).each [])
  | .switchByIndex subject comparisons cases => by
      apply Bring.object
      have found := ((bring_texts comparisons).each []).after [.text subject]
      exact found.append (((bring_list cases).each []).after [.text subject])
  | .clause none statements => by
      apply Bring.object
      exact (bring_list statements).each []
  | .clause (some label) statements => by
      apply Bring.object
      exact (bring_text label).append ((bring_list statements).each [])
  | .whileLoop condition body => by
      apply Bring.object
      exact (bring_text condition).append (bring_block body)
  | .doLoop body condition => by
      apply Bring.object
      exact (bring_block body).append (bring_text condition)
  | .forLoop declared init condition increment body => by
      apply Bring.object
      have first : Bring [declared.elim (.text "") declarationValue]
          ((declared.getD []).flatMap Assignment.lines) := by
        cases declared with
        | none => exact bring_nil _
        | some assignments => exact bring_declaration assignments
      have head := first.append (bring_texts [init, condition, increment])
      exact head.append (bring_block body)
  | .forFixed counter capacity collection cast target statements => by
      apply Bring.object
      have head : Bring [.text counter, .text counter, .text (toString capacity), .text counter,
          .text target, .text cast, .text collection, .text counter] [collection, target] :=
        (bring_texts [collection, target]).mono (by simp)
      exact head.append ((bring_list statements).each [])
  | .forDynamic counter collection cast target statements => by
      apply Bring.object
      have head : Bring [.text counter, .text counter, .text collection, .text counter,
          .text target, .text cast, .text collection, .text counter] [collection, target] :=
        (bring_texts [collection, target]).mono (by simp)
      exact head.append ((bring_list statements).each [])
  | .forKeys counter dict target statements => by
      apply Bring.object
      have head : Bring [.text counter, .text counter, .text dict, .text counter, .text target,
          .text dict, .text counter] [dict, target] :=
        (bring_texts [dict, target]).mono (by simp)
      exact head.append ((bring_list statements).each [])
  | .expression a => bring_assignment a
  | .block body => bring_block body
  | .declaration assignments => bring_declaration assignments

theorem bring_block : ∀ block : Block CStmt, Bring [CStmt.blockValue block] (blockTexts block)
  | ⟨locals, statements, forceBraces⟩ => by
      have inner := bring_list statements
      apply Bring.object
      generalize truth : Block.isBraced ⟨locals, statements, forceBraces⟩ = braced
      cases braced with
      | true =>
        refine Bring.before ?_ _
        refine Bring.after ?_ _
        exact inner.each []
      | false =>
        rw [Block.isBraced, Bool.or_eq_false_iff, Bool.or_eq_false_iff] at truth
        obtain ⟨⟨-, few⟩, -⟩ := truth
        match statements with
        | [] => exact bring_nil _
        | [only] => exact inner.list.before _
        | first :: second :: rest => simp at few

theorem bring_list : ∀ statements : List CStmt,
    Bring (CStmt.toValues statements) (listTexts statements)
  | [] => bring_nil _
  | first :: rest => (bring_toValue first).append (bring_list rest)

end

/-! ## Files -/

theorem bring_function (f : CFunction) : Bring [f.toValue] (listTexts f.statements) := by
  have statements := bring_list f.statements
  rw [CStmt.toValues_eq_map] at statements
  apply Bring.object
  refine Bring.after ?_ [.text f.signature]
  refine Bring.after ?_ _
  exact statements.each _

/-- The texts in the bodies of a file are inserted in its object. -/
theorem bring_program (program : CProgram) : Bring [program.toValue] program.texts := by
  obtain ⟨includes, usesArrays, usesDicts, functions, main⟩ := program
  have last := bring_function main
  have others := Bring.flatMap bring_function functions
  rw [← List.map_eq_flatMap] at others
  rw [CProgram.texts, CProgram.bodies, List.flatMap_append, List.flatMap_singleton]
  apply Bring.object
  iterate 3 refine Bring.after ?_ _
  refine Bring.append ?_ last
  cases functions with
  | nil => exact bring_nil _
  | cons first rest =>
    refine Bring.after ?_ _
    exact others.each []

end ScriptToC
