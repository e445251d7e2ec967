import ScriptToC.CCode.Statement
import ScriptToC.Proofs.Template.Filling

/-!
# The tokens of C statements

What a reader of C sees in a printed statement: simple statements, declarations and labels, which
are taken whole, and the heads, keywords and braces that put them together. The text of a statement
consists of its tokens, with white space between them (`prints_toValue`).
-/

set_option autoImplicit false

namespace ScriptToC

open Text
open Template (lit slot ifField forEach items this Fills fills_lit fills_text fills_texts fills_slot
  fills_items fills_ifField
  toChars_concat flatten_intersperse_nil)

/-- A part of the text of C statements. -/
inductive Token
  /-- A statement without statements in it, with its semicolon. -/
  | phrase (text : String)
  | declaration (text : String)
  /-- The label of a clause. -/
  | label (text : String)
  | test (condition : String)
  | otherwise
  /-- The head of a loop whose condition comes first. -/
  | loop (head : String)
  /-- The start of a loop whose condition comes last. -/
  | doLoop
  /-- The condition that comes last. -/
  | again (condition : String)
  /-- An opening brace, after the head of a `switch` if it belongs to one. -/
  | opening (head : String)
  | closing
  deriving DecidableEq, Repr

namespace Token

/-- The text of a token. -/
def spelling : Token → String
  | phrase text | declaration text | label text => text
  | test condition => "if (" ++ condition ++ ")"
  | otherwise => "else"
  | loop head => head
  | doLoop => "do"
  | again condition => "while (" ++ condition ++ ");"
  | opening head => head ++ "\x7b"
  | closing => "\x7d"

/-- The words of a token. -/
def contents (token : Token) : List (List Char) :=
  words token.spelling.toList

end Token

/-- The words of tokens that white space separates. -/
def spell (tokens : List Token) : List (List Char) :=
  tokens.flatMap Token.contents

@[simp] theorem spell_nil : spell [] = [] :=
  rfl

@[simp] theorem spell_cons (token : Token) (rest : List Token) :
    spell (token :: rest) = words token.spelling.toList ++ spell rest :=
  rfl

@[simp] theorem spell_append (first second : List Token) :
    spell (first ++ second) = spell first ++ spell second :=
  List.flatMap_append

/-! ## The tokens of a statement -/

/-- The tokens of an assignment: the lines of whole statements, or an expression that gets its
semicolon. -/
def Assignment.tokens : Assignment → List Token
  | expression text => [.phrase (text ++ ";")]
  | statements lines => lines.map .phrase

/-- The tokens of a release. -/
def Release.tokens (release : Release) : List Token :=
  release.frees.map .phrase

/-- The tokens of a declaration. -/
def Variable.token (x : Variable) : Token :=
  .declaration (x.type.declare x.name ++ ";")

/-- The text of a return without what is released before it. -/
def returnText (value : Option String) : String :=
  if value.getD "" = "" then "return;" else "return " ++ value.getD "" ++ ";"

/-- The head of a loop. -/
def loopHead (init condition increment : String) : String :=
  "for (" ++ init ++ "; " ++ condition ++ "; " ++ increment ++ ")"

/-- The computation of the index of a clause from the comparisons that find it. -/
def indexText (subject : String) (comparisons : List String) : String :=
  subject ++ " = " ++ String.join (comparisons.map (· ++ "\n    : ")) ++ "-1;"

mutual

/-- The tokens of a statement. -/
def CStmt.tokens : CStmt → List Token
  | .breakStmt => [.phrase "break;"]
  | .continueStmt => [.phrase "continue;"]
  | .emptyStmt => [.phrase ";"]
  | .returnStmt value releases =>
    releases.flatMap Release.tokens ++ [.phrase (returnText value)]
  | .ifThen condition body => .test condition :: blockTokens body
  | .ifElse condition body other =>
    .test condition :: (blockTokens body ++ .otherwise :: blockTokens other)
  | .switchOn subject cases =>
    .opening ("switch (" ++ subject ++ ") ") :: (listTokens cases ++ [.closing])
  | .switchByIndex subject comparisons cases =>
    .phrase (indexText subject comparisons) :: .opening ("switch (" ++ subject ++ ") ") ::
      (listTokens cases ++ [.closing])
  | .clause text statements =>
    .label (text.elim "default:" fun value => "case " ++ value ++ ":") :: listTokens statements
  | .whileLoop condition body => .loop ("while (" ++ condition ++ ")") :: blockTokens body
  | .doLoop body condition => .doLoop :: (blockTokens body ++ [.again condition])
  | .forLoop declared init condition increment body =>
    (declared.getD []).flatMap Assignment.tokens ++
      .loop (loopHead init condition increment) :: blockTokens body
  | .forFixed counter capacity array cast target statements =>
    .loop (loopHead (counter ++ " = 0") (counter ++ " < " ++ toString capacity)
        (counter ++ "++")) :: .opening "" ::
      .phrase (target ++ " = " ++ cast ++ array ++ "[" ++ counter ++ "];") ::
      (listTokens statements ++ [.closing])
  | .forDynamic counter array cast target statements =>
    .loop (loopHead (counter ++ " = 0") (counter ++ " < " ++ array ++ "->size")
        (counter ++ "++")) :: .opening "" ::
      .phrase (target ++ " = " ++ cast ++ array ++ "->data[" ++ counter ++ "];") ::
      (listTokens statements ++ [.closing])
  | .forKeys counter dict target statements =>
    .loop (loopHead (counter ++ " = 0") (counter ++ " < " ++ dict ++ "->index->size")
        (counter ++ "++")) :: .opening "" ::
      .phrase (target ++ " = " ++ dict ++ "->index->data[" ++ counter ++ "];") ::
      (listTokens statements ++ [.closing])
  | .expression e => e.tokens
  | .block body => blockTokens body
  | .importStmt => []
  | .declaration assignments => assignments.flatMap Assignment.tokens

/-- The tokens of a block. -/
def blockTokens : Block CStmt → List Token
  | ⟨locals, statements, forceBraces⟩ =>
    let braced := Block.isBraced ⟨locals, statements, forceBraces⟩
    (if braced then
      .opening "" :: (locals.map Variable.token ++ listTokens statements ++ [.closing]) else []) ++
    (if !braced && statements.length == 1 then listTokens statements else []) ++
    (if statements.isEmpty && locals.isEmpty then [.phrase "/* no statements */;"] else [])

/-- The tokens of statements that follow one another. -/
def listTokens : List CStmt → List Token
  | [] => []
  | first :: rest => first.tokens ++ listTokens rest

end

/-! ## Printing -/

-- The proofs for the statements share the equations of their tokens.
attribute [local simp] CStmt.tokens blockTokens listTokens

theorem spell_map_phrase (texts : List String) :
    spell (texts.map .phrase) = (texts.map String.toList).flatMap words := by
  induction texts with
  | nil => rfl
  | cons first rest ih => rw [List.map_cons, spell_cons, ih, List.map_cons, List.flatMap_cons]; rfl

/-- Values that print one by one what their sources spell. -/
theorem prints_map {α : Type} {value : α → Value} {tokens : α → List Token} (list : List α)
    (each : ∀ a ∈ list, (value a).Prints (spell (tokens a))) :
    List.Forall₂ Value.Prints (list.map value) (list.map fun a => spell (tokens a)) := by
  rw [List.forall₂_map_left_iff, List.forall₂_map_right_iff, List.forall₂_same]
  exact each

theorem flatten_map_spell {α : Type} (tokens : α → List Token) (list : List α) :
    (list.map fun a => spell (tokens a)).flatten = spell (list.flatMap tokens) := by
  induction list with
  | nil => rfl
  | cons first rest ih => rw [List.map_cons, List.flatten_cons, ih, List.flatMap_cons, spell_append]

theorem prints_phrase {name : String} {entries : List (String × Value)} (text : String) :
    (Value.object name (lit (text ++ "\n")) entries).Prints (spell [.phrase text]) := by
  refine prints_object (text.toList ++ ['\n']) ((fills_lit _).of_eq ?_) (closed_newline _) ?_
  · simp
  · simp only [words_newline_append, words_nil, spell_cons, spell_nil, Token.spelling]

theorem prints_variable (x : Variable) : x.toValue.Prints (spell [x.token]) := by
  refine prints_object (x.token.spelling.toList ++ ['\n'])
    (((fills_text rfl).append (fills_lit ";\n")).of_eq ?_) (closed_newline _) ?_
  · simp [Token.spelling, Variable.token]
  · simp only [words_newline_append, words_nil, spell_cons, spell_nil]

theorem prints_release (release : Release) :
    release.toValue.Prints (spell release.tokens) := by
  refine prints_object (((release.frees.map String.toList).intersperse ['\n']).flatten ++ ['\n'])
    ((fills_texts rfl).append (fills_lit "\n")) (closed_newline _) ?_
  rw [words_newline_append, words_intersperse, words_nil, List.append_nil, Release.tokens,
    spell_map_phrase]

theorem prints_assignment (assignment : Assignment) :
    assignment.toValue.Prints (spell assignment.tokens) := by
  cases assignment with
  | expression text =>
    refine prints_object ((text ++ ";").toList ++ ['\n'])
      ((((fills_text rfl).append (fills_text rfl)).append (fills_lit "\n")).of_eq ?_)
      (closed_newline _) ?_
    · simp [Assignment.text, Assignment.complete]
    · simp only [words_newline_append, words_nil, Assignment.tokens, spell_cons, spell_nil,
        Token.spelling]
  | statements lines =>
    refine prints_object (((lines.map String.toList).intersperse ['\n']).flatten ++ ['\n'])
      ((((fills_text rfl).append (fills_text rfl)).append (fills_lit "\n")).of_eq ?_)
      (closed_newline _) ?_
    · simp [Assignment.text, Assignment.complete, String.toList_intercalate, List.intercalate]
    · rw [words_newline_append, words_intersperse, words_nil, List.append_nil, Assignment.tokens,
        spell_map_phrase]

theorem prints_declaration (assignments : List Assignment) :
    (declarationValue assignments).Prints (spell (assignments.flatMap Assignment.tokens)) := by
  obtain ⟨texts, items, closed, same⟩ := texts_of_prints
    (prints_map assignments fun assignment _ => prints_assignment assignment)
  refine prints_object ((texts.map Lines.toChars).flatten ++ ['\n'])
    ((fills_items rfl (items _ _)).append (fills_lit "\n")) (closed_newline _) ?_
  rw [words_newline_append, words_nil, List.append_nil, same, flatten_map_spell]

theorem isTruthy_text (text : String) :
    (Value.text text).rendered.isTruthy = decide (text ≠ "") := by
  have empty := Lines.isEmpty_iff (.ofChars text.toList)
  rw [Lines.toChars_ofChars, String.toList_eq_nil_iff] at empty
  rw [Value.rendered, Rendered.isTruthy]
  by_cases same : text = ""
  · rw [empty.2 same, decide_eq_false (not_not_intro same)]
    rfl
  · rw [Bool.eq_false_iff.2 fun absurd => same (empty.1 absurd), decide_eq_true same]
    rfl

theorem prints_return (value : Option String) (releases : List Release) :
    (CStmt.returnStmt value releases).toValue.Prints
      (spell (CStmt.returnStmt value releases).tokens) := by
  obtain ⟨texts, items, closed, same⟩ := texts_of_prints
    (prints_map releases fun release _ => prints_release release)
  refine prints_object ((texts.map Lines.toChars).flatten ++
    '\n' :: ((returnText value).toList ++ ['\n']))
    (fills_items rfl (items _ _) |>.append (fills_lit "\n")
      |>.append (fills_ifField (returnText value ++ "\n").toList rfl ?_) |>.of_eq ?_) ?_ ?_
  · rw [isTruthy_text, returnText]
    by_cases empty : value.getD "" = ""
    · simp only [empty, ne_eq, not_true_eq_false, decide_false, Bool.false_eq_true, ↓reduceIte]
      exact (fills_lit _).of_eq (by simp)
    · simp only [empty, ne_eq, not_false_eq_true, decide_true, ↓reduceIte]
      exact fills_lit "return " |>.append (fills_text rfl) |>.append (fills_lit ";\n") |>.of_eq
        (by simp)
  · simp
  · simp [closed_iff, List.getLast?_cons]
  · simp only [words_newline_append, words_nil, List.append_nil, same, flatten_map_spell,
      CStmt.tokens, spell_append, spell_cons, spell_nil, Token.spelling]

theorem prints_ifThen {condition : String} {body : Block CStmt}
    (yes : (CStmt.blockValue body).Prints (spell (blockTokens body))) :
    (CStmt.ifThen condition body).toValue.Prints (spell (CStmt.ifThen condition body).tokens) := by
  obtain ⟨text, inserted, closed, same⟩ := yes
  refine prints_object ((Token.test condition).spelling.toList ++ '\n' :: (text.toChars ++ ['\n']))
    (fills_lit "if (" |>.append (fills_text rfl) |>.append (fills_lit ")\n")
      |>.append (fills_slot rfl (inserted _ _)) |>.append (fills_lit "\n")
      |>.append (fills_ifField _ rfl .done) |>.of_eq ?_) ?_ ?_
  · simp [Token.spelling]
  · simp [closed_iff, List.getLast?_cons]
  · simp only [words_newline_append, words_nil, List.append_nil, same, CStmt.tokens, spell_cons]

theorem prints_ifElse {condition : String} {body other : Block CStmt}
    (yes : (CStmt.blockValue body).Prints (spell (blockTokens body)))
    (no : (CStmt.blockValue other).Prints (spell (blockTokens other))) :
    (CStmt.ifElse condition body other).toValue.Prints
      (spell (CStmt.ifElse condition body other).tokens) := by
  obtain ⟨text, inserted, closed, same⟩ := yes
  obtain ⟨text', inserted', closed', same'⟩ := no
  refine prints_object ((Token.test condition).spelling.toList ++ '\n' :: (text.toChars ++
    '\n' :: (Token.otherwise.spelling.toList ++ '\n' :: (text'.toChars ++ ['\n']))))
    (fills_lit "if (" |>.append (fills_text rfl) |>.append (fills_lit ")\n")
      |>.append (fills_slot rfl (inserted _ _)) |>.append (fills_lit "\n")
      |>.append (fills_ifField _ rfl
        (fills_lit "else\n" |>.append (fills_slot rfl (inserted' _ _))
          |>.append (fills_lit "\n"))) |>.of_eq ?_) ?_ ?_
  · simp [Token.spelling]
  · simp [closed_iff, List.getLast?_cons]
  · simp only [words_newline_append, words_nil, List.append_nil, same, same', CStmt.tokens,
      spell_cons, spell_append]

theorem prints_whileLoop {condition : String} {body : Block CStmt}
    (prints : (CStmt.blockValue body).Prints (spell (blockTokens body))) :
    (CStmt.whileLoop condition body).toValue.Prints
      (spell (CStmt.whileLoop condition body).tokens) := by
  obtain ⟨text, inserted, closed, same⟩ := prints
  refine prints_object (("while (" ++ condition ++ ")").toList ++ '\n' :: (text.toChars ++ ['\n']))
    (fills_lit "while (" |>.append (fills_text rfl) |>.append (fills_lit ")\n")
      |>.append (fills_slot rfl (inserted _ _)) |>.append (fills_lit "\n") |>.of_eq ?_) ?_ ?_
  · simp
  · simp [closed_iff, List.getLast?_cons]
  · simp only [words_newline_append, words_nil, List.append_nil, same, CStmt.tokens, spell_cons,
      Token.spelling]

theorem prints_doLoop {condition : String} {body : Block CStmt}
    (prints : (CStmt.blockValue body).Prints (spell (blockTokens body))) :
    (CStmt.doLoop body condition).toValue.Prints (spell (CStmt.doLoop body condition).tokens) := by
  obtain ⟨text, inserted, closed, same⟩ := prints
  refine prints_object (Token.doLoop.spelling.toList ++ '\n' :: (text.toChars ++
    '\n' :: ((Token.again condition).spelling.toList ++ ['\n'])))
    (fills_lit "do\n" |>.append (fills_slot rfl (inserted _ _)) |>.append (fills_lit "\nwhile (")
      |>.append (fills_text rfl) |>.append (fills_lit ");\n") |>.of_eq ?_) ?_ ?_
  · simp [Token.spelling]
  · simp [closed_iff, List.getLast?_cons]
  · simp only [words_newline_append, words_nil, List.append_nil, same, CStmt.tokens, spell_cons,
      spell_append, spell_nil]

/-- The declaration in front of a `for` loop, where there may be none. -/
theorem prints_declared (declared : Option (List Assignment)) :
    (declared.elim (Value.text "") declarationValue).Prints
      (spell ((declared.getD []).flatMap Assignment.tokens)) := by
  cases declared with
  | none => exact ⟨.empty, fun _ _ => rfl, closed_nil, words_nil⟩
  | some assignments => exact prints_declaration assignments

theorem prints_forLoop {declared : Option (List Assignment)} {init condition increment : String}
    {body : Block CStmt} (prints : (CStmt.blockValue body).Prints (spell (blockTokens body))) :
    (CStmt.forLoop declared init condition increment body).toValue.Prints
      (spell (CStmt.forLoop declared init condition increment body).tokens) := by
  obtain ⟨text, inserted, closed, same⟩ := prints
  obtain ⟨first, inserted', closed', same'⟩ := prints_declared declared
  refine prints_object (first.toChars ++ '\n' :: ((loopHead init condition increment).toList ++
    '\n' :: (text.toChars ++ ['\n'])))
    (fills_slot rfl (inserted' _ _) |>.append (fills_lit "\nfor (") |>.append (fills_text rfl)
      |>.append (fills_lit "; ") |>.append (fills_text rfl) |>.append (fills_lit "; ")
      |>.append (fills_text rfl) |>.append (fills_lit ")\n")
      |>.append (fills_slot rfl (inserted _ _)) |>.append (fills_lit "\n") |>.of_eq ?_) ?_ ?_
  · simp [loopHead]
  · simp [closed_iff, List.getLast?_cons]
  · simp only [words_newline_append, words_nil, List.append_nil, same, same', CStmt.tokens,
      spell_append, spell_cons, Token.spelling]

/-- The tokens of statements that follow one another are those of the statements. -/
theorem listTokens_eq_flatMap (statements : List CStmt) :
    listTokens statements = statements.flatMap CStmt.tokens := by
  induction statements with
  | nil => rfl
  | cons first rest ih => rw [listTokens, ih, List.flatMap_cons]

/-- A comparison of a `switch` with what follows it. -/
def comparisonText (comparison : String) : Lines :=
  ((Writer.value {} (.ofChars comparison.toList)).text (.ofChars "\n    : ".toList)).finish

/-- The comparisons of a `switch` one after another. -/
def comparisonTexts (comparisons : List String) : List Char :=
  (comparisons.map fun comparison => (comparisonText comparison).toChars).flatten

theorem fills_comparisons {fields : Fields} {name : String} {comparisons : List String}
    (found : fields.find name = .ok (.list (Value.renderedAll (comparisons.map .text)))) :
    (forEach name "" (slot this ++ lit "\n    : ")).Fills fields (comparisonTexts comparisons) := by
  have items : List.Forall₂ (fun element text => ∃ writer,
      (slot this ++ lit "\n    : ").fill (fields.at element) {} = .ok writer ∧ writer.finish = text)
      (Value.renderedAll (comparisons.map .text)) (comparisons.map comparisonText) := by
    clear found
    induction comparisons with
    | nil => exact .nil
    | cons first rest ih => exact .cons ⟨_, rfl, rfl⟩ ih
  have fills : (forEach name "" (slot this ++ lit "\n    : ")).Fills fields _ :=
    .each found items .done
  rw [List.append_nil, List.map_map, String.toList_empty, flatten_intersperse_nil] at fills
  exact fills

/-- Substitution would put the same words there. -/
theorem alike_comparisonTexts (comparisons : List String) :
    Alike (comparisonTexts comparisons)
      (String.join (comparisons.map (· ++ "\n    : "))).toList := by
  rw [String.toList_join]
  induction comparisons with
  | nil => exact .refl []
  | cons first rest ih =>
    have alike := ((Writer.holds_empty.value (.ofChars first.toList)).text
      (.ofChars "\n    : ".toList)).finish.1
    rw [Lines.toChars_ofChars, Lines.toChars_ofChars, List.nil_append] at alike
    apply (alike.append (comparisonTexts rest)).trans
    intro after
    have others := ih after
    simp only [List.map_cons, List.flatMap_cons, String.toList_append, String.reduceToList,
      List.append_assoc, List.cons_append, List.nil_append, words_newline_append, words_space_cons]
      at others ⊢
    rw [← List.singleton_append, words_space_append, others, ← words_space_append]
    rfl

theorem fills_flag {fields : Fields} {name : String} {yes : Template} {truth : Bool}
    {text : List Char} (found : fields.find name = .ok (.flag truth))
    (fills : yes.Fills fields text) :
    (ifField name yes .done).Fills fields (if truth then text else []) := by
  refine fills_ifField _ found ?_
  cases truth
  · exact .done
  · exact fills

theorem closed_part {text : List Char} (closed : Closed text) (truth : Bool) :
    Closed (if truth then text else []) := by
  cases truth
  · exact closed_nil
  · exact closed

theorem words_part (text : List Char) (truth : Bool) :
    words (if truth then text else []) = if truth then words text else [] := by
  cases truth
  · exact words_nil
  · rfl

theorem spell_part (tokens : List Token) (truth : Bool) :
    spell (if truth then tokens else []) = if truth then spell tokens else [] := by
  cases truth <;> rfl

section Lists

variable {statements : List CStmt} (prints : List.Forall₂ Value.Prints
  (CStmt.toValues statements) (statements.map fun statement => spell statement.tokens))
include prints

/-- The texts of statements that follow one another. -/
theorem texts_of_statements :
    ∃ texts : List Lines, (∀ object field, List.Forall₂ (fun element text =>
        Rendered.inserted object field element = .ok text)
        (Value.renderedAll (CStmt.toValues statements)) texts) ∧
      Closed (texts.map Lines.toChars).flatten ∧
      words (texts.map Lines.toChars).flatten = spell (listTokens statements) := by
  obtain ⟨texts, items, closed, same⟩ := texts_of_prints prints
  rw [flatten_map_spell, ← listTokens_eq_flatMap] at same
  exact ⟨texts, items, closed, same⟩

theorem prints_switchOn (subject : String) :
    (CStmt.switchOn subject statements).toValue.Prints
      (spell (CStmt.switchOn subject statements).tokens) := by
  obtain ⟨texts, items, closed, same⟩ := texts_of_statements prints
  refine prints_object ((Token.opening ("switch (" ++ subject ++ ") ")).spelling.toList ++
    '\n' :: ' ' :: ' ' :: ' ' :: ' ' :: ((texts.map Lines.toChars).flatten ++
      '\n' :: (Token.closing.spelling.toList ++ ['\n'])))
    (fills_ifField _ rfl .done |>.append (fills_lit "switch (") |>.append (fills_text rfl)
      |>.append (fills_lit ") \x7b\n    ") |>.append (fills_items rfl (items _ _))
      |>.append (fills_lit "\n\x7d\n") |>.of_eq ?_) ?_ ?_
  · simp [Token.spelling]
  · simp [closed_iff, List.getLast?_cons]
  · simp only [words_newline_append, words_space_cons, words_nil, List.append_nil, same,
      CStmt.tokens, spell_cons, spell_append, spell_nil]

theorem prints_clause (text : Option String) :
    (CStmt.clause text statements).toValue.Prints
      (spell (CStmt.clause text statements).tokens) := by
  obtain ⟨texts, items, closed, same⟩ := texts_of_statements prints
  refine prints_object ((text.elim "default:" fun value => "case " ++ value ++ ":").toList ++
    '\n' :: ' ' :: ' ' :: ' ' :: ' ' :: ((texts.map Lines.toChars).flatten ++ ['\n']))
    (fills_ifField ((text.elim "default:" fun value => "case " ++ value ++ ":") ++ "\n").toList
        rfl ?_
      |>.append (fills_lit "    ") |>.append (fills_items rfl (items _ _))
      |>.append (fills_lit "\n") |>.of_eq ?_) ?_ ?_
  · cases text with
    | none => exact (fills_lit _).of_eq (by simp)
    | some value =>
      exact fills_lit "case " |>.append (fills_text rfl) |>.append (fills_lit ":\n") |>.of_eq
        (by simp)
  · simp
  · simp [closed_iff, List.getLast?_cons]
  · simp only [words_newline_append, words_space_cons, words_nil, List.append_nil, same,
      CStmt.tokens, spell_cons, Token.spelling]

theorem prints_switchByIndex (subject : String) (comparisons : List String) :
    (CStmt.switchByIndex subject comparisons statements).toValue.Prints
      (spell (CStmt.switchByIndex subject comparisons statements).tokens) := by
  obtain ⟨texts, items, closed, same⟩ := texts_of_statements prints
  refine prints_object ((subject ++ " =").toList ++ ' ' :: (comparisonTexts comparisons ++
    ("-1;".toList ++ '\n' :: ((Token.opening ("switch (" ++ subject ++ ") ")).spelling.toList ++
      '\n' :: ' ' :: ' ' :: ' ' :: ' ' :: ((texts.map Lines.toChars).flatten ++
        '\n' :: (Token.closing.spelling.toList ++ ['\n']))))))
    (fills_ifField _ rfl
        (fills_text rfl |>.append (fills_lit " = ") |>.append (fills_comparisons rfl)
          |>.append (fills_lit "-1;\n"))
      |>.append (fills_lit "switch (") |>.append (fills_text rfl)
      |>.append (fills_lit ") \x7b\n    ") |>.append (fills_items rfl (items _ _))
      |>.append (fills_lit "\n\x7d\n") |>.of_eq ?_) ?_ ?_
  · simp [Token.spelling]
  · simp [closed_iff, List.getLast?_cons]
  · have first : ∀ after, words ((subject ++ " =").toList ++ ' ' :: (comparisonTexts comparisons ++
        ("-1;".toList ++ '\n' :: after))) =
        words (indexText subject comparisons).toList ++ words after := by
      intro after
      rw [words_space_append, alike_comparisonTexts, ← words_space_append, ← words_newline_append]
      simp [indexText]
    rw [first]
    simp only [words_newline_append, words_space_cons, words_nil, List.append_nil, same,
      CStmt.tokens, spell_cons, spell_append, spell_nil, Token.spelling]

theorem prints_forFixed (counter : String) (capacity : Nat) (array cast target : String) :
    (CStmt.forFixed counter capacity array cast target statements).toValue.Prints
      (spell (CStmt.forFixed counter capacity array cast target statements).tokens) := by
  obtain ⟨texts, items, closed, same⟩ := texts_of_statements prints
  refine prints_object
    ((loopHead (counter ++ " = 0") (counter ++ " < " ++ toString capacity)
        (counter ++ "++")).toList ++
      '\n' :: ((Token.opening "").spelling.toList ++ '\n' :: ' ' :: ' ' :: ' ' :: ' ' ::
        ((target ++ " = " ++ cast ++ array ++ "[" ++ counter ++ "];").toList ++
          '\n' :: ' ' :: ' ' :: ' ' :: ' ' :: ((texts.map Lines.toChars).flatten ++
            '\n' :: (Token.closing.spelling.toList ++ ['\n'])))))
    (fills_ifField _ rfl
        (fills_lit "for (" |>.append (fills_text rfl) |>.append (fills_lit " = 0; ")
          |>.append (fills_text rfl) |>.append (fills_lit " < ") |>.append (fills_text rfl)
          |>.append (fills_lit "; ") |>.append (fills_text rfl) |>.append (fills_lit "++)\n"))
      |>.append (fills_lit "\x7b\n")
      |>.append (fills_ifField _ rfl
        (fills_lit "    " |>.append (fills_text rfl) |>.append (fills_lit " = ")
          |>.append (fills_text rfl) |>.append (fills_text rfl) |>.append (fills_lit "[")
          |>.append (fills_text rfl) |>.append (fills_lit "];\n")))
      |>.append (fills_lit "    ") |>.append (fills_items rfl (items _ _))
      |>.append (fills_lit "\n\x7d\n") |>.of_eq ?_) ?_ ?_
  · simp [Token.spelling, loopHead]
  · simp [closed_iff, List.getLast?_cons]
  · simp only [words_newline_append, words_space_cons, words_nil, List.append_nil, same,
      CStmt.tokens, spell_cons, spell_append, spell_nil, Token.spelling]

theorem prints_forDynamic (counter array cast target : String) :
    (CStmt.forDynamic counter array cast target statements).toValue.Prints
      (spell (CStmt.forDynamic counter array cast target statements).tokens) := by
  obtain ⟨texts, items, closed, same⟩ := texts_of_statements prints
  refine prints_object
    ((loopHead (counter ++ " = 0") (counter ++ " < " ++ array ++ "->size")
        (counter ++ "++")).toList ++
      '\n' :: ((Token.opening "").spelling.toList ++ '\n' :: ' ' :: ' ' :: ' ' :: ' ' ::
        ((target ++ " = " ++ cast ++ array ++ "->data[" ++ counter ++ "];").toList ++
          '\n' :: ' ' :: ' ' :: ' ' :: ' ' :: ((texts.map Lines.toChars).flatten ++
            '\n' :: (Token.closing.spelling.toList ++ ['\n'])))))
    (fills_ifField _ rfl
        (fills_lit "for (" |>.append (fills_text rfl) |>.append (fills_lit " = 0; ")
          |>.append (fills_text rfl) |>.append (fills_lit " < ") |>.append (fills_text rfl)
          |>.append (fills_lit "->size; ") |>.append (fills_text rfl)
          |>.append (fills_lit "++)\n"))
      |>.append (fills_lit "\x7b\n")
      |>.append (fills_ifField _ rfl
        (fills_lit "    " |>.append (fills_text rfl) |>.append (fills_lit " = ")
          |>.append (fills_text rfl) |>.append (fills_text rfl) |>.append (fills_lit "->data[")
          |>.append (fills_text rfl) |>.append (fills_lit "];\n")))
      |>.append (fills_lit "    ") |>.append (fills_items rfl (items _ _))
      |>.append (fills_lit "\n\x7d\n") |>.of_eq ?_) ?_ ?_
  · simp [Token.spelling, loopHead]
  · simp [closed_iff, List.getLast?_cons]
  · simp only [words_newline_append, words_space_cons, words_nil, List.append_nil, same,
      CStmt.tokens, spell_cons, spell_append, spell_nil, Token.spelling]

theorem prints_forKeys (counter dict target : String) :
    (CStmt.forKeys counter dict target statements).toValue.Prints
      (spell (CStmt.forKeys counter dict target statements).tokens) := by
  obtain ⟨texts, items, closed, same⟩ := texts_of_statements prints
  refine prints_object
    ((loopHead (counter ++ " = 0") (counter ++ " < " ++ dict ++ "->index->size")
        (counter ++ "++")).toList ++
      '\n' :: ((Token.opening "").spelling.toList ++ '\n' :: ' ' :: ' ' :: ' ' :: ' ' ::
        ((target ++ " = " ++ dict ++ "->index->data[" ++ counter ++ "];").toList ++
          '\n' :: ' ' :: ' ' :: ' ' :: ' ' :: ((texts.map Lines.toChars).flatten ++
            '\n' :: (Token.closing.spelling.toList ++ ['\n'])))))
    (fills_lit "for (" |>.append (fills_text rfl) |>.append (fills_lit " = 0; ")
      |>.append (fills_text rfl) |>.append (fills_lit " < ") |>.append (fills_text rfl)
      |>.append (fills_lit "->index->size; ") |>.append (fills_text rfl)
      |>.append (fills_lit "++)\n\x7b\n    ") |>.append (fills_text rfl)
      |>.append (fills_lit " = ") |>.append (fills_text rfl)
      |>.append (fills_lit "->index->data[") |>.append (fills_text rfl)
      |>.append (fills_lit "];\n    ") |>.append (fills_items rfl (items _ _))
      |>.append (fills_lit "\n\x7d\n") |>.of_eq ?_) ?_ ?_
  · simp [Token.spelling, loopHead]
  · simp [closed_iff, List.getLast?_cons]
  · simp only [words_newline_append, words_space_cons, words_nil, List.append_nil, same,
      CStmt.tokens, spell_cons, spell_append, spell_nil, Token.spelling]

theorem prints_block (locals : List Variable) (forceBraces : Bool) :
    (CStmt.blockValue ⟨locals, statements, forceBraces⟩).Prints
      (spell (blockTokens ⟨locals, statements, forceBraces⟩)) := by
  obtain ⟨texts, items, closed, same⟩ := texts_of_statements prints
  obtain ⟨vars, items', closed', same'⟩ := texts_of_prints (prints_map locals fun x _ =>
    prints_variable x)
  rw [flatten_map_spell, ← List.map_eq_flatMap] at same'
  generalize truth : Block.isBraced ⟨locals, statements, forceBraces⟩ = braced
  have inBraces : Closed ((Token.opening "").spelling.toList ++ '\n' :: ' ' :: ' ' :: ' ' :: ' ' ::
      ((vars.map Lines.toChars).flatten ++ '\n' :: ' ' :: ' ' :: ' ' :: ' ' ::
        ((texts.map Lines.toChars).flatten ++
          '\n' :: (Token.closing.spelling.toList ++ ['\n'])))) := by
    simp [closed_iff, List.getLast?_cons]
  have alone :
      Closed (' ' :: ' ' :: ' ' :: ' ' :: ((texts.map Lines.toChars).flatten ++ ['\n'])) := by
    simp [closed_iff, List.getLast?_cons]
  have nothing :
      Closed (' ' :: ' ' :: ' ' :: ' ' :: ("/* no statements */;".toList ++ ['\n'])) := by
    simp [closed_iff, List.getLast?_cons]
  refine prints_object _
    (fills_flag rfl (fills_lit "\x7b\n    " |>.append (fills_items rfl (items' _ _))
        |>.append (fills_lit "\n    ") |>.append (fills_items rfl (items _ _))
        |>.append (fills_lit "\n\x7d\n") |>.of_eq (by simp [Token.spelling]))
      |>.append (fills_flag rfl (fills_lit "    "
        |>.append (fills_slot rfl (inserted_list (items _ _)))
        |>.append (fills_lit "\n") |>.of_eq (by simp [toChars_concat])))
      |>.append (fills_flag rfl ((fills_lit _).of_eq (by simp))))
    (((closed_part inBraces _).append (closed_part alone _)).append (closed_part nothing _)) ?_
  rw [((closed_part inBraces _).append (closed_part alone _)).words_append,
    (closed_part inBraces _).words_append, words_part, words_part, words_part, blockTokens,
    spell_append, spell_append, spell_part, spell_part, spell_part]
  simp only [words_newline_append, words_space_cons, words_nil, List.append_nil, same, same',
    spell_cons, spell_append, spell_nil, Token.spelling, List.append_assoc]

end Lists

mutual

/-- **A statement prints its tokens.** Its text is closed and consists of their words. -/
theorem prints_toValue : ∀ statement : CStmt, statement.toValue.Prints (spell statement.tokens)
  | .breakStmt => prints_phrase "break;"
  | .continueStmt => prints_phrase "continue;"
  | .emptyStmt => prints_phrase ";"
  | .returnStmt value releases => prints_return value releases
  | .ifThen _ body => prints_ifThen (prints_blockValue body)
  | .ifElse _ body other => prints_ifElse (prints_blockValue body) (prints_blockValue other)
  | .switchOn subject cases => prints_switchOn (prints_toValues cases) subject
  | .switchByIndex subject comparisons cases =>
    prints_switchByIndex (prints_toValues cases) subject comparisons
  | .clause text statements => prints_clause (prints_toValues statements) text
  | .whileLoop _ body => prints_whileLoop (prints_blockValue body)
  | .doLoop body _ => prints_doLoop (prints_blockValue body)
  | .forLoop _ _ _ _ body => prints_forLoop (prints_blockValue body)
  | .forFixed counter capacity array cast target statements =>
    prints_forFixed (prints_toValues statements) counter capacity array cast target
  | .forDynamic counter array cast target statements =>
    prints_forDynamic (prints_toValues statements) counter array cast target
  | .forKeys counter dict target statements =>
    prints_forKeys (prints_toValues statements) counter dict target
  | .expression e => prints_assignment e
  | .block body => prints_blockValue body
  | .importStmt => prints_object [] .done closed_nil words_nil
  | .declaration assignments => prints_declaration assignments

/-- A block prints its tokens. -/
theorem prints_blockValue : ∀ block : Block CStmt,
    (CStmt.blockValue block).Prints (spell (blockTokens block))
  | ⟨locals, statements, forceBraces⟩ =>
    prints_block (prints_toValues statements) locals forceBraces

theorem prints_toValues : ∀ statements : List CStmt, List.Forall₂ Value.Prints
    (CStmt.toValues statements) (statements.map fun statement => spell statement.tokens)
  | [] => .nil
  | first :: rest => .cons (prints_toValue first) (prints_toValues rest)

end

end ScriptToC
