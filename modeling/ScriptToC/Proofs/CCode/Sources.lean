import ScriptToC.Template.Reader
import ScriptToC.Proofs.CCode.Files

/-!
# The template sources

Each object that prints a part of a C file is filled through a template, which is read from a
source. `sources` lists these sources by the names of the objects, and `templates` lists what is
read from them (`reads_sources`). A value is sound if every object in it, at every depth, has the
template that its source gives and can be rendered. The object of a file is sound, whatever texts
its fields hold (`sound_program`).
-/

set_option autoImplicit false

namespace ScriptToC

/-- The template sources of the objects. -/
def sources : List (String × String) := [
  ("CVariable", "\x7bdeclaration\x7d;\n"),
  ("Release", textOfLines [
    "\x7bfrees \x7b",
    "\x7d=> \x7bthis\x7d\x7d"]),
  ("CExpressionStatement", "\x7bexpression\x7d\x7bterminator\x7d\n"),
  ("CVariableDeclaration", "\x7bassignments \x7b\x7d=> \x7bthis\x7d\x7d\n"),
  ("CBreak", "break;\n"),
  ("CContinue", "continue;\n"),
  ("CEmpty", ";\n"),
  ("CImport", ""),
  ("CReturn", textOfLines [
    "\x7bdestructors \x7b\x7d=> \x7bthis\x7d\x7d",
    "\x7b#if expression\x7d",
    "    return \x7bexpression\x7d;",
    "\x7b#else\x7d",
    "    return;",
    "\x7b/if\x7d"]),
  ("CIf", textOfLines [
    "if (\x7bcondition\x7d)",
    "\x7bthen_block\x7d",
    "\x7b#if has_else\x7d",
    "    else",
    "    \x7belse_block\x7d",
    "\x7b/if\x7d"]),
  ("CSwitch", textOfLines [
    "\x7b#if non_integral\x7d",
    "    \x7bswitch\x7d = \x7bvalues \x7b\x7d=> \x7bthis\x7d",
    "        : \x7d-1;",
    "\x7b/if\x7d",
    "switch (\x7bswitch\x7d) \x7b",
    "    \x7bcases \x7b\x7d=> \x7bthis\x7d\x7d",
    "\x7d"]),
  ("CSwitchCase", textOfLines [
    "\x7b#if is_default\x7d",
    "    default:",
    "\x7b#else\x7d",
    "    case \x7bvalue\x7d:",
    "\x7b/if\x7d",
    "    \x7bstatements \x7b\x7d=> \x7bthis\x7d\x7d"]),
  ("CWhile", textOfLines [
    "while (\x7bcondition\x7d)",
    "\x7bblock\x7d"]),
  ("CDoWhile", textOfLines [
    "do",
    "\x7bblock\x7d",
    "while (\x7bcondition\x7d);"]),
  ("CFor", textOfLines [
    "\x7bvar_decl\x7d",
    "for (\x7binit\x7d; \x7bcondition\x7d; \x7bincrement\x7d)",
    "\x7bblock\x7d"]),
  ("CForOf", textOfLines [
    "\x7b#if is_dynamic\x7d",
    "    for (\x7biterator\x7d = 0; \x7biterator\x7d < \x7barray\x7d->size; \x7biterator\x7d++)",
    "\x7b#else\x7d",
    "    for (\x7biterator\x7d = 0; \x7biterator\x7d < \x7bcapacity\x7d; \x7biterator\x7d++)",
    "\x7b/if\x7d",
    "\x7b",
    "    \x7b#if is_dynamic\x7d",
    "        \x7binit\x7d = \x7bcast\x7d\x7barray\x7d->data[\x7biterator\x7d];",
    "    \x7b#else\x7d",
    "        \x7binit\x7d = \x7bcast\x7d\x7barray\x7d[\x7biterator\x7d];",
    "    \x7b/if\x7d",
    "    \x7bstatements \x7b\x7d=> \x7bthis\x7d\x7d",
    "\x7d"]),
  ("CForIn", textOfLines [
    "for (\x7biterator\x7d = 0; \x7biterator\x7d < \x7bdict\x7d->index->size; \x7biterator\x7d++)",
    "\x7b",
    "    \x7binit\x7d = \x7bdict\x7d->index->data[\x7biterator\x7d];",
    "    \x7bstatements \x7b\x7d=> \x7bthis\x7d\x7d",
    "\x7d"]),
  ("CBlock", textOfLines [
    "\x7b#if braced\x7d",
    "    \x7b",
    "        \x7bvariables \x7b\x7d=> \x7bthis\x7d\x7d",
    "        \x7bstatements \x7b\x7d=> \x7bthis\x7d\x7d",
    "    \x7d",
    "\x7b/if\x7d",
    "\x7b#if single\x7d",
    "        \x7bstatements\x7d",
    "\x7b/if\x7d",
    "\x7b#if empty\x7d",
    "        /* no statements */;",
    "\x7b/if\x7d"]),
  ("CFunction", textOfLines [
    "\x7bsignature\x7d",
    "\x7b",
    "    \x7bvariables \x7b\x7d=> \x7bthis\x7d\x7d",
    "    \x7bstatements \x7b\x7d=> \x7bthis\x7d\x7d",
    "    \x7bdestructors \x7b\x7d=> \x7bthis\x7d\x7d",
    "    \x7b#if is_main\x7d",
    "        return 0;",
    "    \x7b/if\x7d",
    "\x7d"]),
  ("CProgram", textOfLines [
    "\x7bheaders \x7b\x7d=> #include <\x7bthis\x7d.h>",
    "\x7d",
    "\x7b#if uses_arrays\x7d",
    "",
    "    \x7barray_runtime\x7d",
    "\x7b/if\x7d",
    "\x7b#if uses_dicts\x7d",
    "",
    "    \x7bdict_runtime\x7d",
    "\x7b/if\x7d",
    "\x7b#if has_functions\x7d",
    "",
    "    \x7bprototypes \x7b\x7d=> \x7bthis\x7d;",
    "    \x7d",
    "",
    "    \x7bfunctions \x7b",
    "    \x7d=> \x7bthis\x7d\x7d",
    "\x7b/if\x7d",
    "",
    "\x7bmain\x7d"])]

/-- The template that the source of an object gives, if it can be read. -/
def templateOf? (name : String) : Option (Except TemplateError Template) :=
  (sources.lookup name).map (Template.read name)

/-! ## Reading the sources -/

open Template (lit slot forEach this) in
/-- The templates of the objects, in the order of their sources. -/
def templates : List (String × Template) := [
  ("CVariable", slot "declaration" ++ lit ";\n"),
  ("Release", forEach "frees" "\n" (slot this) ++ lit "\n"),
  ("CExpressionStatement", expressionTemplate),
  ("CVariableDeclaration", declarationTemplate),
  ("CBreak", lit "break;\n"),
  ("CContinue", lit "continue;\n"),
  ("CEmpty", lit ";\n"),
  ("CImport", .done),
  ("CReturn", returnTemplate),
  ("CIf", ifTemplate),
  ("CSwitch", switchTemplate),
  ("CSwitchCase", clauseTemplate),
  ("CWhile", whileTemplate),
  ("CDoWhile", doTemplate),
  ("CFor", forTemplate),
  ("CForOf", forOfTemplate),
  ("CForIn", forInTemplate),
  ("CBlock", blockTemplate),
  ("CFunction", functionTemplate),
  ("CProgram", programTemplate)]

/-- The template is read from the source of the same name. -/
def ReadAs (source : String × String) (template : String × Template) : Prop :=
  source.1 = template.1 ∧ Template.read source.1 source.2 = .ok template.2

theorem reads_sources : List.Forall₂ ReadAs sources templates := by
  simp only [sources, templates, List.forall₂_cons, List.forall₂_nil_left_iff, ReadAs, true_and,
    and_true, Template.read, toList_textOfLines, List.flatMap_cons]
  repeat' apply And.intro
  -- The characters of a literal are known (`String.toList_ofList`), but slow to compute.
  all_goals
    repeat rw [String.toList_ofList]
    decide +kernel

theorem ReadAs.lookup {name : String} {sources : List (String × String)}
    {templates : List (String × Template)} (read : List.Forall₂ ReadAs sources templates) :
    (sources.lookup name).map (Template.read name) = (templates.lookup name).map .ok := by
  induction read with
  | nil => rfl
  | @cons source template sources templates first _ ih =>
    obtain ⟨same, isTemplate⟩ := first
    rw [List.lookup_cons, List.lookup_cons, ← same]
    cases here : name == source.1 with
    | true => rw [Option.map_some, Option.map_some, eq_of_beq here, isTemplate]
    | false => exact ih

/-- An object has a template exactly if it has a source. -/
theorem templateOf?_eq (name : String) : templateOf? name = (templates.lookup name).map .ok :=
  ReadAs.lookup reads_sources

/-! ## Sound values -/

mutual

/-- Every object in the value has the template of its source and can be rendered. -/
def Value.Sound : Value → Prop
  | .text _ | .flag _ => True
  | .list items => Value.AllSound items
  | .node name template fields =>
    templateOf? name = some template ∧
      (∃ text, (Value.node name template fields).render = .ok text) ∧
      Value.FieldsSound fields

/-- All values of a list are sound. -/
def Value.AllSound : List Value → Prop
  | [] => True
  | item :: rest => item.Sound ∧ Value.AllSound rest

/-- The values of all fields are sound. -/
def Value.FieldsSound : List (String × Value) → Prop
  | [] => True
  | (_, value) :: rest => value.Sound ∧ Value.FieldsSound rest

end

namespace Value

/-- An object that prints something and has its template is as sound as its fields. -/
theorem Prints.sound {name : String} {template : Template} {fields : List (String × Value)}
    {contents : List (List Char)} (prints : (Value.object name template fields).Prints contents)
    (isTemplate : templates.lookup name = some template) (sound : FieldsSound fields) :
    (Value.object name template fields).Sound := by
  obtain ⟨text, rendered, -⟩ := render_of_prints prints
  refine ⟨?_, ⟨text, rendered⟩, sound⟩
  rw [templateOf?_eq, isTemplate, Option.map_some]

theorem allSound_map {α : Type} {value : α → Value} (list : List α)
    (each : ∀ a, (value a).Sound) : AllSound (list.map value) := by
  induction list with
  | nil => trivial
  | cons a rest ih => exact ⟨each a, ih⟩

end Value

open Value

theorem sound_variable (x : Variable) : x.toValue.Sound :=
  (prints_variable x).sound rfl ⟨trivial, trivial⟩

theorem sound_texts (list : List String) : (Value.texts list).Sound :=
  allSound_map list fun _ => trivial

theorem sound_release (release : Release) : release.toValue.Sound :=
  (prints_release release).sound rfl ⟨sound_texts _, trivial⟩

theorem sound_assignment (assignment : Assignment) : assignment.toValue.Sound :=
  (prints_assignment assignment).sound rfl ⟨trivial, trivial, trivial⟩

theorem sound_declaration (assignments : List Assignment) : (declarationValue assignments).Sound :=
  (prints_declaration assignments).sound rfl
    ⟨allSound_map assignments sound_assignment, trivial⟩

/-- The declaration in front of a `for` loop, where there may be none. -/
theorem sound_declared (declared : Option (List Assignment)) :
    (declared.elim (Value.text "") declarationValue).Sound := by
  cases declared with
  | none => trivial
  | some assignments => exact sound_declaration assignments

mutual

/-- The object of every statement is sound. -/
theorem sound_toValue : ∀ statement : CStmt, statement.toValue.Sound
  | .breakStmt => (prints_toValue .breakStmt).sound rfl trivial
  | .continueStmt => (prints_toValue .continueStmt).sound rfl trivial
  | .emptyStmt => (prints_toValue .emptyStmt).sound rfl trivial
  | .returnStmt value releases => (prints_toValue (.returnStmt value releases)).sound
      rfl ⟨allSound_map releases sound_release, trivial, trivial⟩
  | .ifThen condition body => (prints_toValue (.ifThen condition body)).sound rfl
      ⟨trivial, sound_blockValue body, trivial, trivial, trivial⟩
  | .ifElse condition body other => (prints_toValue (.ifElse condition body other)).sound
      rfl ⟨trivial, sound_blockValue body, trivial, sound_blockValue other, trivial⟩
  | .switchOn subject cases => (prints_toValue (.switchOn subject cases)).sound rfl
      ⟨trivial, trivial, trivial, sound_toValues cases, trivial⟩
  | .switchByIndex subject comparisons cases =>
    (prints_toValue (.switchByIndex subject comparisons cases)).sound rfl
      ⟨trivial, trivial, sound_texts comparisons, sound_toValues cases, trivial⟩
  | .clause label statements => (prints_toValue (.clause label statements)).sound
      rfl ⟨trivial, trivial, sound_toValues statements, trivial⟩
  | .whileLoop condition body => (prints_toValue (.whileLoop condition body)).sound
      rfl ⟨trivial, sound_blockValue body, trivial⟩
  | .doLoop body condition => (prints_toValue (.doLoop body condition)).sound
      rfl ⟨trivial, sound_blockValue body, trivial⟩
  | .forLoop declared init condition increment body =>
    (prints_toValue (.forLoop declared init condition increment body)).sound rfl
      ⟨sound_declared declared, trivial, trivial, trivial, sound_blockValue body, trivial⟩
  | .forFixed counter capacity array cast target statements =>
    (prints_toValue (.forFixed counter capacity array cast target statements)).sound
      rfl ⟨trivial, trivial, trivial, trivial, trivial, trivial,
        sound_toValues statements, trivial⟩
  | .forDynamic counter array cast target statements =>
    (prints_toValue (.forDynamic counter array cast target statements)).sound
      rfl ⟨trivial, trivial, trivial, trivial, trivial, trivial,
        sound_toValues statements, trivial⟩
  | .forKeys counter dict target statements =>
    (prints_toValue (.forKeys counter dict target statements)).sound rfl
      ⟨trivial, trivial, trivial, sound_toValues statements, trivial⟩
  | .expression e => sound_assignment e
  | .block body => sound_blockValue body
  | .importStmt => (prints_toValue .importStmt).sound rfl trivial
  | .declaration assignments => sound_declaration assignments

theorem sound_blockValue : ∀ block : Block CStmt, (CStmt.blockValue block).Sound
  | ⟨locals, statements, forceBraces⟩ =>
    (prints_blockValue ⟨locals, statements, forceBraces⟩).sound rfl
      ⟨trivial, trivial, trivial, allSound_map locals sound_variable, sound_toValues statements,
        trivial⟩

theorem sound_toValues : ∀ statements : List CStmt, AllSound (CStmt.toValues statements)
  | [] => trivial
  | first :: rest => ⟨sound_toValue first, sound_toValues rest⟩

end

theorem sound_function (function : CFunction) : function.toValue.Sound := by
  have statements := sound_toValues function.statements
  rw [CStmt.toValues_eq_map] at statements
  exact (prints_function function).sound rfl ⟨trivial,
    allSound_map function.locals sound_variable, statements,
    allSound_map function.releases sound_release, trivial, trivial⟩

/-- **The object of every file is sound.** -/
theorem sound_program (program : CProgram) : program.toValue.Sound :=
  (prints_program program).sound rfl ⟨sound_texts _, trivial, trivial, trivial,
    trivial, trivial, sound_texts _, allSound_map program.functions sound_function,
    sound_function program.main, trivial⟩

end ScriptToC
