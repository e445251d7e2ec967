import ScriptToC.Proofs.CCode.Files
import ScriptToC.Proofs.Emission.Bodies
import ScriptToC.Proofs.Emission.Repetition
import ScriptToC.Proofs.Template.LineEnds

/-!
# Statements start lines

Every template of a statement ends its line (`CStmt.exists_template`), so the text of a statement is
empty or ends in a newline, whatever stands in its fields: nested statements that print nothing and
lose their line, or values with newlines at their ends. Statements that are printed one after
another do not run together: what is printed before a statement leaves it at the start of a line
(`stmtText_endsLine`).
-/

set_option autoImplicit false

namespace ScriptToC

open Ir Text

/-! ## Statements -/

namespace CStmt

/-- The templates of statements end their lines. -/
theorem exists_template (c : CStmt) : ∃ name template entries,
    c.toValue = .object name template entries ∧ template.endsLine true = true := by
  cases c with
  | block body =>
    obtain ⟨locals, statements, forceBraces⟩ := body
    exact ⟨_, _, _, rfl, by decide⟩
  | _ => exact ⟨_, _, _, rfl, by decide⟩

/-- A statement has a text, which is empty or ends in a newline. -/
theorem exists_render (c : CStmt) :
    ∃ text : String, c.toValue.render = .ok text ∧ EndsLine text.toList := by
  obtain ⟨text, renders, -⟩ := render_of_prints (prints_toValue c)
  obtain ⟨name, template, entries, same, ends⟩ := c.exists_template
  rw [same] at renders ⊢
  exact ⟨text, renders, Template.endsLine_render ends renders⟩

/-- Statements in a row have a text, which is empty or ends in a newline, and what is printed after
them follows it. -/
theorem exists_render_append (before : List CStmt) {others : List Value} {back : String}
    (renders : (Value.list others).render = .ok back) : ∃ front : String,
      (Value.list (toValues before)).render = .ok front ∧ EndsLine front.toList ∧
        (Value.list (toValues before ++ others)).render = .ok (front ++ back) := by
  induction before with
  | nil =>
    refine ⟨"", rfl, .inl rfl, ?_⟩
    rwa [toValues, List.nil_append, String.empty_append]
  | cons c before ih =>
    obtain ⟨text, first, ends⟩ := c.exists_render
    obtain ⟨front, rest, ends', whole⟩ := ih
    refine ⟨text ++ front, Value.render_list_cons first rest, ?_, ?_⟩
    · rw [String.toList_append]
      exact ends.append ends'
    · rw [String.append_assoc]
      exact Value.render_list_cons first whole

end CStmt

namespace Emit

/-- **Statements do not run together.** A statement that is emitted, in any scope and workspace, has
a text that is empty or ends in a newline. It has the same text between other statements, and what
is printed before it there is empty or ends in a newline too, so that it starts a line. -/
theorem stmtText_endsLine {σ : Setting} {w w' : Workspace} {scope : ScopeId} {s : Stmt} {c : CStmt}
    (run : stmt scope s σ w = (.ok c, w')) :
    ∃ text : String, stmtText scope s σ w = (.ok text, w') ∧ EndsLine text.toList ∧
      ∀ before after : List CStmt, ∃ front back : String,
        (Value.list (CStmt.toValues before)).render = .ok front ∧ EndsLine front.toList ∧
        (Value.list (CStmt.toValues after)).render = .ok back ∧
        (Value.list (CStmt.toValues (before ++ c :: after))).render =
          .ok (front ++ text ++ back) := by
  obtain ⟨text, renders, ends⟩ := c.exists_render
  refine ⟨text, ?_, ends, fun before after => ?_⟩
  · rw [stmtText, run_bind, run]
    simp only [render, renders]
    rfl
  · obtain ⟨back, rest, -, -⟩ := CStmt.exists_render_append after (rfl : (Value.list []).render = _)
    have shown := Value.render_list_cons renders rest
    obtain ⟨front, first, ends', whole⟩ := CStmt.exists_render_append before shown
    refine ⟨front, back, first, ends', rest, ?_⟩
    rw [String.append_assoc, ← whole, CStmt.toValues_eq_map, CStmt.toValues_eq_map,
      CStmt.toValues_eq_map, List.map_append]
    rfl

/-- A setting in which one node is a number. -/
def oneNumber : Setting where
  types
    | 5 => some .number
    | _ => none
  includeMarker := "ts2c"

/-- A loop over a condition with two branches. One declares a local without a value, which prints
nothing where it stands, and the other is empty. -/
def emptyBranches : Stmt :=
  .whileLoop ⟨0, ⟨0, 42⟩⟩ (.ident ⟨1, ⟨7, 8⟩⟩ "a")
    ⟨none, [.ifElse ⟨2, ⟨10, 42⟩⟩ (.ident ⟨3, ⟨14, 15⟩⟩ "b")
      ⟨some ⟨6, ⟨17, 27⟩⟩, [.declaration ⟨4, ⟨19, 25⟩⟩ [⟨⟨5, ⟨23, 24⟩⟩, "x", none⟩]]⟩
      ⟨some ⟨7, ⟨40, 42⟩⟩, []⟩]⟩

/-- The line of the declaration is removed, and the loop ends its own line. -/
theorem stmtText_endsLine_emptyBranches : ∃ (c : CStmt) (w' : Workspace) (text : String),
    stmt 0 emptyBranches oneNumber owningNothing = (.ok c, w') ∧
      stmtText 0 emptyBranches oneNumber owningNothing = (.ok text, w') ∧
      text = "while (a)\n    if (b)\n    \x7b\n        int16_t x;\n    \x7d\n" ++
        "    else\n        /* no statements */;\n" ∧
      EndsLine text.toList ∧
      (Value.list (CStmt.toValues [.emptyStmt, c, .breakStmt])).render =
        .ok (";\n" ++ text ++ "break;\n") := by
  have shown : (stmtText 0 emptyBranches oneNumber owningNothing).1.toOption =
      some ("while (a)\n    if (b)\n    \x7b\n        int16_t x;\n    \x7d\n" ++
        "    else\n        /* no statements */;\n") := by
    decide +kernel
  obtain ⟨c, w', run⟩ : ∃ c w', stmt 0 emptyBranches oneNumber owningNothing = (.ok c, w') :=
    ⟨_, _, rfl⟩
  obtain ⟨text, printed, ends, rows⟩ := stmtText_endsLine run
  obtain ⟨front, back, first, -, last, whole⟩ := rows [.emptyStmt] [.breakStmt]
  have isFront : (Value.list (CStmt.toValues [.emptyStmt])).render.toOption = some ";\n" := by
    decide +kernel
  have isBack : (Value.list (CStmt.toValues [.breakStmt])).render.toOption = some "break;\n" := by
    decide +kernel
  rw [first] at isFront
  rw [last] at isBack
  cases isFront
  cases isBack
  rw [printed] at shown
  exact ⟨c, w', text, run, printed, Option.some.inj shown, ends, whole⟩

end Emit

end ScriptToC
