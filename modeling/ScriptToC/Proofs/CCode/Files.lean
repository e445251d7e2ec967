import ScriptToC.CCode.Program
import ScriptToC.Proofs.CCode.Tokens

/-!
# The tokens of functions and files

A function is printed as its signature and, in braces, its locals, its statements and its releases.
A file is printed as its preamble, which holds the includes, the runtime and the prototypes, and the
functions, the main program last (`prints_program`). Printing succeeds for every file, whatever
texts it consists of.
-/

set_option autoImplicit false

namespace ScriptToC

open Text
open Template (lit slot ifField forEach items this Fills fills_lit fills_text fills_texts fills_slot
  fills_items fills_ifField flatten_intersperse_nil)

/-- The tokens of a function. Its head belongs to its opening brace. -/
def CFunction.tokens (function : CFunction) : List Token :=
  .opening (function.signature ++ "\n") :: (function.locals.map Variable.token ++
    (listTokens function.statements ++ (function.releases.flatMap Release.tokens ++
      ((if function.isMain then [.phrase "return 0;"] else []) ++ [.closing]))))

/-- The tokens of the functions of a file. -/
def CProgram.tokens (program : CProgram) : List Token :=
  program.functions.flatMap CFunction.tokens ++ program.main.tokens

/-- The lines of a file before its functions: the includes, the runtime and the prototypes. -/
def CProgram.preamble (program : CProgram) : List String :=
  program.includes.map (fun header => "#include <" ++ header ++ ".h>") ++
    ((if program.usesArrays then [arrayRuntime] else []) ++
      ((if program.usesDicts then [dictRuntime] else []) ++
        program.functions.map fun function => function.signature ++ ";"))

theorem toList_textOfLines (lines : List String) :
    (textOfLines lines).toList = lines.flatMap fun line => line.toList ++ ['\n'] := by
  rw [textOfLines, String.toList_join, List.flatMap_map]
  simp only [String.toList_append]
  rfl

/-! ## Functions -/

theorem prints_function (function : CFunction) :
    function.toValue.Prints (spell function.tokens) := by
  obtain ⟨vars, items, closed, same⟩ := texts_of_prints (prints_map function.locals fun x _ =>
    prints_variable x)
  obtain ⟨texts, items', closed', same'⟩ :=
    texts_of_statements (prints_toValues function.statements)
  obtain ⟨frees, items'', closed'', same''⟩ := texts_of_prints (prints_map function.releases
    fun release _ => prints_release release)
  rw [flatten_map_spell, ← List.map_eq_flatMap] at same
  rw [flatten_map_spell] at same''
  rw [CStmt.toValues_eq_map] at items'
  have head : (Token.opening (function.signature ++ "\n")).spelling.toList =
      function.signature.toList ++ '\n' :: (Token.opening "").spelling.toList := by
    simp [Token.spelling]
  -- Only the main program ends with a result.
  obtain ⟨result, isResult, ends, spelled⟩ : ∃ result : List Char,
      (if function.isMain then "    return 0;\n".toList else []) = result ∧ Closed result ∧
        words result = spell (if function.isMain then [.phrase "return 0;"] else []) := by
    refine ⟨_, rfl, closed_part (closed_newline "    return 0;".toList) _, ?_⟩
    rw [words_part, spell_part]
    rfl
  refine prints_object (function.signature.toList ++ '\n' :: ((Token.opening "").spelling.toList ++
      '\n' :: ' ' :: ' ' :: ' ' :: ' ' :: ((vars.map Lines.toChars).flatten ++
        '\n' :: ' ' :: ' ' :: ' ' :: ' ' :: ((texts.map Lines.toChars).flatten ++
          '\n' :: ' ' :: ' ' :: ' ' :: ' ' :: ((frees.map Lines.toChars).flatten ++
            '\n' :: (result ++ (Token.closing.spelling.toList ++ '\n' :: [])))))))
    (fills_text rfl |>.append (fills_lit "\n\x7b\n    ") |>.append (fills_items rfl (items _ _))
      |>.append (fills_lit "\n    ") |>.append (fills_items rfl (items' _ _))
      |>.append (fills_lit "\n    ") |>.append (fills_items rfl (items'' _ _))
      |>.append (fills_lit "\n")
      |>.append ((fills_flag rfl (fills_lit "    return 0;\n")).of_eq isResult)
      |>.append (fills_lit "\x7d\n") |>.of_eq ?_) ?_ ?_
  · simp [Token.spelling]
  · simp [closed_iff, List.getLast?_cons]
  · simp only [words_newline_append, words_space_cons, words_nil, List.append_nil, same, same',
      same'', ends.words_append, spelled, CFunction.tokens, spell_cons, spell_append, spell_nil,
      head, List.append_assoc]

/-! ## Sections -/

/-- The template fills to whole lines with these words. -/
def Template.Writes (fields : Fields) (template : Template) (contents : List (List Char)) : Prop :=
  ∃ text, template.Fills fields text ∧ Closed text ∧ words text = contents

namespace Template.Writes

variable {fields : Fields} {first second : Template} {contents more : List (List Char)}

theorem append (writes : first.Writes fields contents) (others : second.Writes fields more) :
    (first ++ second).Writes fields (contents ++ more) := by
  obtain ⟨text, fills, closed, rfl⟩ := writes
  obtain ⟨text', fills', closed', rfl⟩ := others
  exact ⟨text ++ text', fills.append fills', closed.append closed', closed.words_append text'⟩

theorem prints {name : String} {template : Template} {entries : List (String × Value)}
    (writes : template.Writes ⟨name, none, Value.renderedFields entries⟩ contents)
    (same : contents = more) : (Value.object name template entries).Prints more := by
  obtain ⟨text, fills, closed, rfl⟩ := writes
  exact prints_object text fills closed same

end Template.Writes

variable {fields : Fields} {name : String}

theorem writes_newline : (lit "\n").Writes fields [] :=
  ⟨"\n".toList, fills_lit "\n", closed_newline [], rfl⟩

theorem writes_slot {value : Value} {contents : List (List Char)} (prints : value.Prints contents)
    (found : fields.find name = .ok value.rendered) : (slot name).Writes fields contents := by
  obtain ⟨text, inserted, closed, same⟩ := prints
  exact ⟨text.toChars, fills_slot found (inserted _ _), closed, same⟩

/-- Texts that are printed one on a line, each with something around it. -/
theorem writes_lines {item : Template} {list : List String} {line : String → String}
    (each : ∀ text : String,
      item.Fills (fields.at (.text (.ofChars text.toList))) (line text ++ "\n").toList)
    (found : fields.find name = .ok (.list (Value.renderedAll (list.map .text)))) :
    (forEach name "" item).Writes fields
      ((list.map line).flatMap fun line => words line.toList) := by
  obtain ⟨texts, items, closed, same⟩ : ∃ texts : List Lines,
      List.Forall₂ (fun element text => ∃ writer,
        item.fill (fields.at element) {} = .ok writer ∧ writer.finish = text)
        (Value.renderedAll (list.map .text)) texts ∧ Closed (texts.map Lines.toChars).flatten ∧
      words (texts.map Lines.toChars).flatten = (list.map line).flatMap fun line =>
        words line.toList := by
    clear found
    induction list with
    | nil => exact ⟨[], .nil, closed_nil, words_nil⟩
    | cons first rest ih =>
      obtain ⟨texts, items, closed, same⟩ := ih
      obtain ⟨writer, run, holds⟩ := (each first).holds Writer.holds_empty
      obtain ⟨alike, ends⟩ := holds.finish
      have newline : (line first ++ "\n").toList = (line first).toList ++ ['\n'] :=
        String.toList_append
      rw [List.nil_append, newline] at alike ends
      have ends := ends (closed_newline _)
      refine ⟨writer.finish :: texts, .cons ⟨writer, run, rfl⟩ items, ?_, ?_⟩
      · rw [List.map_cons, List.flatten_cons]
        exact ends.append closed
      · rw [List.map_cons, List.flatten_cons, ends.words_append, same, alike.words_eq,
          words_newline_append, words_nil, List.append_nil, List.map_cons, List.flatMap_cons]
  have fills : (forEach name "" item).Fills fields _ := .each found items .done
  rw [List.append_nil, String.toList_empty, flatten_intersperse_nil] at fills
  exact ⟨_, fills, closed, same⟩

/-- A text that is printed on lines of its own, or not at all. -/
theorem writes_section {flag text : String} {truth : Bool}
    (found : fields.find flag = .ok (.flag truth))
    (found' : fields.find name = .ok (.text (.ofChars text.toList))) :
    (ifField flag (lit "\n" ++ slot name ++ lit "\n") .done).Writes fields
      ((if truth then [text] else []).flatMap fun line => words line.toList) := by
  refine ⟨_, fills_flag found (fills_lit "\n" |>.append (fills_text found')
    |>.append (fills_lit "\n")), closed_part (closed_newline _) _, ?_⟩
  rw [words_part]
  cases truth
  · rfl
  · simp

/-- Values that are printed each from a new line on. -/
theorem writes_each {values : List Value} {contents : List (List (List Char))}
    (prints : List.Forall₂ Value.Prints values contents)
    (found : fields.find name = .ok (.list (Value.renderedAll values))) :
    (forEach name "\n" (slot this) ++ lit "\n").Writes fields contents.flatten := by
  obtain ⟨texts, items, same⟩ : ∃ texts : List Lines, (∀ object field,
      List.Forall₂ (fun element text => Rendered.inserted object field element = .ok text)
        (Value.renderedAll values) texts) ∧
      (texts.map Lines.toChars).flatMap words = contents.flatten := by
    clear found
    induction prints with
    | nil => exact ⟨[], fun _ _ => .nil, rfl⟩
    | cons first _ ih =>
      obtain ⟨text, inserted, -, rfl⟩ := first
      obtain ⟨texts, items, same⟩ := ih
      refine ⟨text :: texts, fun _ _ => .cons (inserted _ _) (items _ _), ?_⟩
      rw [List.map_cons, List.flatMap_cons, same, List.flatten_cons]
  refine ⟨_, (Template.fills_forEach found (items _ _)).append (fills_lit "\n"),
    closed_newline _, ?_⟩
  rw [← same, ← words_intersperse]
  exact (words_newline_append _ []).trans (by rw [words_nil, List.append_nil]; rfl)

/-! ## Files -/

/-- The prototypes and the functions of a file. -/
theorem writes_functions (list : List CFunction)
    (has : fields.find "has_functions" = .ok (.flag !list.isEmpty))
    (signatures : fields.find "prototypes" =
      .ok (.list (Value.renderedAll ((list.map (·.signature)).map .text))))
    (bodies : fields.find "functions" =
      .ok (.list (Value.renderedAll (list.map CFunction.toValue)))) :
    (ifField "has_functions"
        (lit "\n" ++ forEach "prototypes" "" (slot this ++ lit ";\n") ++ lit "\n\n" ++
          forEach "functions" "\n" (slot this) ++ lit "\n") .done).Writes fields
      (((list.map fun function => function.signature ++ ";").flatMap fun line =>
          words line.toList) ++ spell (list.flatMap CFunction.tokens)) := by
  have line : ∀ text : String, (slot this ++ lit ";\n").Fills
      (fields.at (.text (.ofChars text.toList))) (text ++ ";" ++ "\n").toList := by
    intro text
    exact (fills_text rfl |>.append (fills_lit ";\n")).of_eq (by simp)
  have gap : (lit "\n\n").Writes fields [] :=
    ⟨"\n\n".toList, fills_lit "\n\n", closed_newline ['\n'], rfl⟩
  have prints := writes_each (prints_map list fun function _ => prints_function function) bodies
  have writes := writes_newline.append ((writes_lines line signatures).append (gap.append prints))
  obtain ⟨text, fills, closed, same⟩ := writes
  rw [flatten_map_spell, List.map_map] at same
  simp only [Template.append_assoc] at fills ⊢
  refine ⟨_, fills_flag has fills, closed_part closed _, ?_⟩
  rw [words_part]
  cases list with
  | nil => rfl
  | cons first rest => exact same

/-- **A file prints its preamble and its functions.** -/
theorem prints_program (program : CProgram) :
    program.toValue.Prints
      ((program.preamble.flatMap fun line => words line.toList) ++ spell program.tokens) := by
  have line : ∀ (fields : Fields) (text : String),
      (lit "#include <" ++ slot this ++ lit ".h>\n").Fills
        (fields.at (.text (.ofChars text.toList)))
        ("#include <" ++ text ++ ".h>" ++ "\n").toList := by
    intro fields text
    exact (fills_lit "#include <" |>.append (fills_text rfl) |>.append (fills_lit ".h>\n")).of_eq
      (by simp)
  refine Template.Writes.prints (writes_lines (line _) rfl |>.append writes_newline
    |>.append (writes_section rfl rfl) |>.append (writes_section rfl rfl)
    |>.append (writes_functions program.functions rfl rfl rfl) |>.append writes_newline
    |>.append (writes_slot (prints_function program.main) rfl) |>.append writes_newline) ?_
  simp only [CProgram.preamble, CProgram.tokens, List.flatMap_append, spell_append,
    List.append_assoc, List.append_nil]

/-- Printing a value gives a text with its words. -/
theorem render_of_prints {value : Value} {contents : List (List Char)}
    (prints : value.Prints contents) :
    ∃ text, value.render = .ok text ∧ words text.toList = contents := by
  obtain ⟨text, inserted, -, same⟩ := prints
  refine ⟨String.ofList text.toChars, ?_, ?_⟩
  · rw [Value.render, inserted]
    rfl
  · rw [String.toList_ofList, same]

end ScriptToC
