import ScriptToC.Proofs.CCode.Insertion
import ScriptToC.Proofs.Text.Quoted

/-!
# String literals reach the file

A string literal holds no newline and begins with a quote, so it is a part of a line that is not
blank. It stands in the text of its expression (`CExpr.Within.infix_chars`), which stands in a text
of a statement, and this is inserted in the object of the file. Nothing of it is lost there, however
deeply the statement is nested (`inserted_lines_survive`).
-/

set_option autoImplicit false

namespace ScriptToC

open Text
open Template (lit slot items)

/-! ## Literals -/

namespace Text.Quoted

/-- A literal is not blank. -/
theorem visible_literal (text : String) : (literal text).toList.all isBlank = false := by
  have quote : isBlank '"' = false := by decide
  simp [literal, quote]

end Text.Quoted

namespace CExpr

theorem infix_charsOf {part : CExpr} {trees : List CExpr} (member : part ∈ trees)
    (separator : List Char) : part.chars <:+: separator.intercalate (charsOf trees) := by
  induction trees with
  | nil => cases member
  | cons first rest ih =>
    cases rest with
    | nil =>
      obtain rfl := List.mem_singleton.1 member
      simp
    | cons second rest =>
      rw [charsOf, charsOf, List.intercalate_cons_cons]
      rcases List.mem_cons.1 member with rfl | inside
      · exact List.infix_append_of_infix_left List.infix_append_left
      · exact List.infix_append_of_infix_right (ih inside)

/-- The text of a part stands in the text of the tree. -/
theorem infix_of_mem_parts {part tree : CExpr} (member : part ∈ tree.parts) :
    part.chars <:+: tree.chars := by
  cases tree with
  | name | number | literal => cases member
  | call callee args =>
    rw [chars]
    rcases List.mem_cons.1 member with rfl | inside
    · exact List.infix_append_left
    · have among := infix_charsOf inside (Mark.comma.chars ++ [' '])
      exact List.infix_append_of_infix_right (List.infix_append_of_infix_right
        (List.infix_append_of_infix_left among))
  | _ =>
    simp only [parts, List.mem_cons, List.not_mem_nil, or_false] at member
    rcases member with rfl | rfl | rfl <;> simp only [chars] <;>
      solve_by_elim [List.infix_append_of_infix_left, List.infix_append_of_infix_right,
        List.infix_rfl]

theorem Within.infix_chars {inner tree : CExpr} (within : inner.Within tree) :
    inner.chars <:+: tree.chars := by
  induction within with
  | here => exact List.infix_rfl
  | part member _ ih => exact ih.trans (infix_of_mem_parts member)

end CExpr

theorem Code.infix_chars {code : Code} {tree : CExpr} (member : tree ∈ code.trees) :
    tree.chars <:+: code.chars := by
  cases code with
  | absent => cases member
  | expression =>
    obtain rfl := List.mem_singleton.1 member
    exact List.infix_rfl
  | line | comparison =>
    obtain rfl := List.mem_singleton.1 member
    exact List.infix_append_left
  | store place cast value =>
    rw [trees, List.mem_cons, List.mem_singleton] at member
    rcases member with rfl | rfl <;> rw [chars] <;>
      solve_by_elim [List.infix_append_of_infix_left, List.infix_append_of_infix_right,
        List.infix_rfl]

/-! ## Files -/

theorem Emit.exists_spelled {codes : List Code} {texts : List String} (spell : SpellAll codes texts)
    {code : Code} (member : code ∈ codes) : ∃ text ∈ texts, code.Spells text := by
  induction spell with
  | nil => cases member
  | cons first _ ih =>
    rcases List.mem_cons.1 member with rfl | inside
    · exact ⟨_, List.mem_cons_self, first⟩
    · obtain ⟨text, isText, spells⟩ := ih inside
      exact ⟨text, List.mem_cons_of_mem _ isText, spells⟩

/-- What is emitted for a module is the text of its file. -/
theorem Emit.render_of_emit {module : Ir.Module} {setting : Setting} {reserved : List String}
    {output : String} (emitted : module.emit setting reserved = .ok output) :
    ∃ (file : CProgram) (w w' : Workspace),
      program module setting w = (.ok file, w') ∧ file.toValue.render = .ok output := by
  rw [Ir.Module.emit] at emitted
  generalize eq : moduleText module setting _ = result at emitted
  obtain ⟨_, last⟩ := result
  subst emitted
  obtain ⟨file, middle, run, rendered⟩ := bind_ok.1 eq
  refine ⟨file, _, middle, run, ?_⟩
  cases given : file.toValue.render with
  | error cause =>
    rw [Emit.render, given] at rendered
    cases rendered
  | ok text =>
    rw [Emit.render, given, pure_ok] at rendered
    rw [rendered.1]

/-- **Inserted lines survive nesting.** Where a value renders, each line of a text that is inserted
in it, at whatever depth and through whatever holes and lists, stands in the output as it is, unless
it is blank, and so does every string literal in such a text. In the file that is emitted for a
module stands every string literal of the expressions that its bodies are made of. -/
theorem inserted_lines_survive :
    (∀ (value : Value) (output text : String), value.render = .ok output → value.Inserts text →
      (∀ line ∈ split '\n' text.toList, line.all isBlank = false → line <:+: output.toList) ∧
      ∀ content : String, (Quoted.literal content).toList <:+: text.toList →
        (Quoted.literal content).toList <:+: output.toList) ∧
    ∀ (module : Ir.Module) (setting : Setting) (reserved : List String) (output : String),
      module.emit setting reserved = .ok output → ∀ code ∈ module.codes setting.types,
        ∀ tree ∈ code.trees, ∀ content : String,
          (CExpr.literal (Quoted.literal content)).Within tree →
            (Quoted.literal content).toList <:+: output.toList := by
  have literal {value : Value} {output text : String} (renders : value.render = .ok output)
      (inserts : value.Inserts text) (content : String)
      (inside : (Quoted.literal content).toList <:+: text.toList) :
      (Quoted.literal content).toList <:+: output.toList :=
    inserts.infix_render (Quoted.visible_literal content) (Quoted.newline_notMem_literal content)
      inside renders
  refine ⟨fun value output text renders inserts => ⟨?_, literal renders inserts⟩, ?_⟩
  · intro line member visible
    exact inserts.infix_render visible (not_mem_of_mem_split member) (infix_of_mem_split member)
      renders
  · intro module setting reserved output emitted code isCode tree isTree content within
    obtain ⟨file, _, _, run, renders⟩ := Emit.render_of_emit emitted
    obtain ⟨text, isText, spells⟩ := Emit.exists_spelled (Emit.spells_program run) isCode
    have inText : (Quoted.literal content).toList <:+: text.toList := by
      rw [spells]
      exact within.infix_chars.trans (Code.infix_chars isTree)
    have full : text ≠ "" := by
      rintro rfl
      rw [String.toList_empty, List.infix_nil] at inText
      exact Writer.ne_nil_of_visible (Quoted.visible_literal content) inText
    obtain ⟨_, isValue, whole, inserts, around⟩ := bring_program file text isText full
    obtain rfl := List.mem_singleton.1 isValue
    exact literal renders inserts content (inText.trans around)

/-- A list of objects inside an object, with a text that has blank lines and a newline at its end.
-/
def stanza : Value :=
  .object "Stanza" (lit "begin\n    " ++ items "verses" ++ lit "\nend\n")
    [("verses", .list [.text "", .object "Verse" (lit "- " ++ slot "lines" ++ lit "\n")
      [("lines", .text "one\n \n\n  two  spaces\n")]])]

/-- A call that prints a text with newlines, spaces and quotes. -/
def printQuoted : Ir.Expr :=
  .call ⟨6, ⟨26, 47⟩⟩ (.member ⟨7, ⟨26, 37⟩⟩ (.ident ⟨8, ⟨26, 33⟩⟩ "console") "log")
    [.string ⟨1, ⟨38, 46⟩⟩ "two  lines\n\n \"quoted\""]

/-- The call in two nested loops. -/
def printForever : Ir.Module :=
  ⟨[], [.whileLoop ⟨3, ⟨0, 60⟩⟩ (.bool ⟨2, ⟨7, 11⟩⟩ true) ⟨none, [
    .doLoop ⟨4, ⟨13, 60⟩⟩ ⟨none, [.expression ⟨5, ⟨26, 48⟩⟩ printQuoted]⟩
      (.bool ⟨2, ⟨50, 55⟩⟩ true)]⟩]⟩

/-- A setting in which the text and the conditions have their types. -/
def textsAndConditions : Setting where
  types
    | 1 => some .string
    | 2 => some .boolean
    | _ => none
  includeMarker := "ts2c"

/-- The line with two spaces is indented twice, and the literal stands in the innermost loop. -/
theorem inserted_lines_survive_stanza : ∃ output file : String,
    stanza.render = .ok output ∧ stanza.Inserts "one\n \n\n  two  spaces\n" ∧
      "  two  spaces".toList <:+: output.toList ∧
      printForever.emit textsAndConditions [] = .ok file ∧
      (Quoted.literal "two  lines\n\n \"quoted\"").toList <:+: file.toList := by
  have renders : stanza.render =
      .ok "begin\n    - one\n     \n\n      two  spaces\nend\n" := by decide +kernel
  have verse : Value.Inserts (.object "Verse" (lit "- " ++ slot "lines" ++ lit "\n")
      [("lines", .text "one\n \n\n  two  spaces\n")]) "one\n \n\n  two  spaces\n" :=
    .field List.mem_cons_self (.text _)
  have inserts : stanza.Inserts "one\n \n\n  two  spaces\n" :=
    .field (List.mem_cons_of_mem _ List.mem_cons_self) verse
  obtain ⟨file, emitted⟩ : ∃ file, printForever.emit textsAndConditions [] = .ok file :=
    ⟨"#include <stdio.h>\n\nint main(void)\n\x7b\n    while (1)\n        do\n            " ++
      "printf(\"%s\\n\", \"two  lines\\n\\n \\\"quoted\\\"\");\n        while (1);\n" ++
      "    return 0;\n\x7d\n", by decide +kernel⟩
  have code : .expression (Emit.exprTree textsAndConditions.types printQuoted) ∈
      printForever.codes textsAndConditions.types :=
    List.mem_cons_of_mem _ List.mem_cons_self
  have within : (CExpr.literal (Quoted.literal "two  lines\n\n \"quoted\"")).Within
      (Emit.exprTree textsAndConditions.types printQuoted) :=
    .part (List.mem_cons_of_mem _ (List.mem_cons_of_mem _ List.mem_cons_self)) .here
  have lines := (inserted_lines_survive.1 stanza _ _ renders inserts).1
  have literals := inserted_lines_survive.2 printForever textsAndConditions [] file emitted
  exact ⟨_, file, renders, inserts, lines _ (by decide) (by decide), emitted,
    literals _ code _ List.mem_cons_self _ within⟩

end ScriptToC
