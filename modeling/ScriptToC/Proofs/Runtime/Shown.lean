import ScriptToC.Proofs.CCode.Files
import ScriptToC.Proofs.Runtime.Codes

/-!
# Every text is printed

The texts of a C statement stand in its tokens, each as a part of one token (`shows_tokens`). So
whatever is called in a text is called in the file that is printed (`shows_program`).
-/

set_option autoImplicit false

namespace ScriptToC

/-- Each of the texts stands in one of the tokens. -/
def Shows (tokens : List Token) (texts : List String) : Prop :=
  ∀ text ∈ texts, ∃ token ∈ tokens, text.toList <:+: token.spelling.toList

/-! ## Rows of tokens -/

section Rows

variable {tokens others : List Token} {texts more : List String}

theorem shows_nil (tokens : List Token) : Shows tokens [] := by
  rintro _ ⟨⟩

theorem Shows.mono (shows : Shows tokens texts) (subset : tokens ⊆ others) :
    Shows others texts := by
  intro text member
  obtain ⟨token, isToken, inside⟩ := shows text member
  exact ⟨token, subset isToken, inside⟩

theorem Shows.append (shows : Shows tokens texts) (shows' : Shows others more) :
    Shows (tokens ++ others) (texts ++ more) :=
  List.forall_mem_append.2
    ⟨shows.mono (List.subset_append_left _ _), shows'.mono (List.subset_append_right _ _)⟩

theorem Shows.after (shows : Shows tokens texts) (others : List Token) :
    Shows (others ++ tokens) texts :=
  shows.mono (List.subset_append_right _ _)

theorem Shows.before (shows : Shows tokens texts) (others : List Token) :
    Shows (tokens ++ others) texts :=
  shows.mono (List.subset_append_left _ _)

theorem Shows.cons (shows : Shows tokens texts) (token : Token) : Shows (token :: tokens) texts :=
  shows.after [token]

/-- The first token shows the first texts, the others the other texts. -/
theorem Shows.first {token : Token} (shows : Shows tokens more)
    (inside : ∀ text ∈ texts, text.toList <:+: token.spelling.toList) :
    Shows (token :: tokens) (texts ++ more) := by
  have here : Shows [token] texts := by
    intro text member
    exact ⟨token, List.mem_singleton_self token, inside text member⟩
  exact here.append shows

/-- The first token has the first text in it. -/
theorem Shows.around {text : String} {token : Token} (shows : Shows tokens texts)
    (before after : String) (same : token.spelling = before ++ text ++ after) :
    Shows (token :: tokens) (text :: texts) := by
  have inside : ∀ other ∈ [text], other.toList <:+: token.spelling.toList := by
    intro other member
    obtain rfl := List.mem_singleton.1 member
    refine ⟨before.toList, after.toList, ?_⟩
    rw [same, String.toList_append, String.toList_append]
  exact shows.first inside

theorem Shows.flatMap {α : Type} {tokens : α → List Token} {texts : α → List String}
    (each : ∀ a : α, Shows (tokens a) (texts a)) (list : List α) :
    Shows (list.flatMap tokens) (list.flatMap texts) := by
  induction list with
  | nil => exact shows_nil _
  | cons a rest ih =>
    rw [List.flatMap_cons, List.flatMap_cons]
    exact (each a).append ih

end Rows

/-! ## Statements -/

theorem shows_assignment (a : Assignment) : Shows a.tokens a.lines := by
  cases a with
  | expression text => exact (shows_nil []).around "" ";" rfl
  | statements lines =>
    intro line member
    exact ⟨.phrase line, List.mem_map_of_mem member, List.infix_rfl⟩

/-- The head of a loop shows its three parts. -/
theorem inside_loopHead {init condition increment text : String}
    (member : text ∈ [init, condition, increment]) :
    text.toList <:+: (Token.loop (loopHead init condition increment)).spelling.toList := by
  have parts : (Token.loop (loopHead init condition increment)).spelling.toList =
      "for (".toList ++ (init.toList ++ ("; ".toList ++ (condition.toList ++ ("; ".toList ++
        (increment.toList ++ ")".toList))))) := by
    simp [Token.spelling, loopHead]
  rw [parts]
  simp only [List.mem_cons, List.not_mem_nil, or_false] at member
  obtain rfl | rfl | rfl := member
  · exact List.infix_append' _ _ _
  · rw [← List.append_assoc, ← List.append_assoc]
    exact List.infix_append' _ _ _
  · rw [← List.append_assoc, ← List.append_assoc, ← List.append_assoc, ← List.append_assoc]
    exact List.infix_append' _ _ _

/-- The assignment of an element to the target of a loop shows the collection and the target. -/
theorem inside_element {token : Token} {target collection : String} (cast after : String)
    (same : token.spelling = target ++ cast ++ (collection ++ after)) :
    ∀ text ∈ [collection, target], text.toList <:+: token.spelling.toList := by
  intro text member
  simp only [List.mem_cons, List.not_mem_nil, or_false] at member
  rw [same, String.toList_append, String.toList_append, String.toList_append]
  obtain rfl | rfl := member
  · rw [← List.append_assoc]
    exact List.infix_append _ _ _
  · rw [List.append_assoc]
    exact (List.prefix_append _ _).isInfix

/-- The computation of an index shows the comparisons. -/
theorem inside_indexText (subject : String) {comparisons : List String} {text : String}
    (member : text ∈ comparisons) :
    text.toList <:+: (Token.phrase (indexText subject comparisons)).spelling.toList := by
  obtain ⟨before, after, rfl⟩ := List.append_of_mem member
  simp only [Token.spelling, indexText, String.toList_append, String.toList_join,
    List.map_append, List.map_cons, List.flatMap_append, List.flatMap_cons, List.append_assoc]
  rw [← List.append_assoc, ← List.append_assoc]
  exact List.infix_append' _ _ _

mutual

/-- The texts of a statement stand in its tokens. -/
theorem shows_tokens : ∀ c : CStmt, Shows c.tokens c.texts
  | .breakStmt | .continueStmt | .emptyStmt | .importStmt => shows_nil _
  | .returnStmt value releases => by
      refine Shows.after ?_ _
      cases value with
      | none => exact shows_nil _
      | some text =>
        by_cases empty : text = ""
        · subst empty
          exact (shows_nil []).around "return;" "" rfl
        · refine (shows_nil []).around "return " ";" ?_
          rw [Token.spelling, returnText, Option.getD_some, if_neg empty]
  | .ifThen _ body => (shows_block body).around "if (" ")" rfl
  | .ifElse _ body otherwise =>
      ((shows_block body).append ((shows_block otherwise).cons .otherwise)).around "if (" ")" rfl
  | .switchOn subject cases => by
      refine ((shows_list cases).before [.closing]).around "switch (" (") " ++ "\x7b") ?_
      rw [Token.spelling, ← String.append_assoc]
  | .switchByIndex subject _ cases =>
      (((shows_list cases).before [.closing]).cons _).first fun _ => inside_indexText subject
  | .clause none statements => (shows_list statements).cons _
  | .clause (some label) statements =>
      (shows_list statements).around "case " ":" rfl
  | .whileLoop _ body => (shows_block body).around "while (" ")" rfl
  | .doLoop body condition => by
      have last : Shows [.again condition] [condition] :=
        (shows_nil []).around "while (" ");" rfl
      exact ((shows_block body).append last).cons .doLoop
  | .forLoop declared _ _ _ body => by
      rw [CStmt.texts, List.append_assoc]
      exact (Shows.flatMap shows_assignment _).append
        ((shows_block body).first fun _ => inside_loopHead)
  | .forFixed counter _ _ cast _ statements => by
      have last := (shows_list statements).before [.closing]
      refine ((last.first (inside_element (" = " ++ cast) ("[" ++ counter ++ "];")
        ?_)).cons _).cons _
      simp only [Token.spelling, String.append_assoc]
  | .forDynamic counter _ cast _ statements => by
      have last := (shows_list statements).before [.closing]
      refine ((last.first (inside_element (" = " ++ cast) ("->data[" ++ counter ++ "];")
        ?_)).cons _).cons _
      simp only [Token.spelling, String.append_assoc]
  | .forKeys counter _ _ statements => by
      have last := (shows_list statements).before [.closing]
      refine ((last.first (inside_element " = " ("->index->data[" ++ counter ++ "];")
        ?_)).cons _).cons _
      simp only [Token.spelling, String.append_assoc]
  | .expression a => shows_assignment a
  | .block body => shows_block body
  | .declaration assignments => .flatMap shows_assignment assignments

/-- The texts of a block stand in its tokens. -/
theorem shows_block : ∀ block : Block CStmt, Shows (blockTokens block) (blockTexts block)
  | ⟨locals, statements, forceBraces⟩ => by
      have inner := shows_list statements
      refine Shows.before ?_ _
      cases braced : Block.isBraced ⟨locals, statements, forceBraces⟩ with
      | true =>
          refine Shows.before ?_ _
          exact ((inner.after _).before [.closing]).cons _
      | false =>
          rw [Block.isBraced, Bool.or_eq_false_iff, Bool.or_eq_false_iff] at braced
          obtain ⟨⟨-, few⟩, -⟩ := braced
          match statements with
          | [] => exact shows_nil _
          | [only] => exact inner
          | first :: second :: rest => simp at few

theorem shows_list : ∀ statements : List CStmt, Shows (listTokens statements) (listTexts statements)
  | [] => shows_nil _
  | first :: rest => (shows_tokens first).append (shows_list rest)

end

/-! ## Files -/

theorem shows_function (f : CFunction) : Shows f.tokens (listTexts f.statements) :=
  (((shows_list f.statements).before _).after _).cons _

/-- The texts in the bodies of a file stand in its tokens. -/
theorem shows_program (program : CProgram) : Shows program.tokens program.texts := by
  rw [CProgram.tokens, CProgram.texts, CProgram.bodies, List.flatMap_append,
    List.flatMap_singleton]
  exact (Shows.flatMap shows_function program.functions).append (shows_function program.main)

end ScriptToC
