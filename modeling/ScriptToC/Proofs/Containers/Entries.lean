import ScriptToC.Proofs.Containers.Dictionaries
import ScriptToC.Proofs.Emission.Occurrences
import ScriptToC.Proofs.Runtime.Backing

/-!
# Assignments to entries of dictionaries

An entry of a dictionary is read by `DICT_GET`, and what is assigned to has the text that is read.
So every assignment to an entry, as a statement or inside an expression, assigns to a `DICT_GET`,
and so does a loop whose target is an entry (`moduleText_assigns_entries`). It stores the value
exactly if the dictionary has the key already. The entries of an object literal are stored by
`DICT_SET`, which adds a key that is not there.
-/

set_option autoImplicit false

namespace ScriptToC

open Ir Text

/-! ## Entries -/

namespace Emit

/-- An entry of a dictionary. -/
structure Entry where
  object : Expr
  key : CExpr

/-- How an entry is read in C. -/
def Entry.tree (types : Types) (entry : Entry) : CExpr :=
  .call (.name "DICT_GET") [exprTree types entry.object, entry.key]

/-- The entry of a dictionary that a place is. -/
def entryOf? (types : Types) : Expr → Option Entry
  | .paren _ inner => entryOf? types inner
  | .member _ object property =>
    if (typeOf types object).isDict then
      some ⟨object, .literal (Text.Quoted.literal property)⟩
    else
      none
  | .index _ object key =>
    if (typeOf types object).isDict then some ⟨object, exprTree types key⟩ else none
  | _ => none

variable {types : Types}

/-- An entry is assigned to as it is read. -/
theorem placeTree_eq_of_entryOf? : ∀ {target : Expr} {entry : Entry},
    entryOf? types target = some entry → placeTree types target = entry.tree types
  | .paren _ inner, entry, found => by
      rw [entryOf?] at found
      rw [placeTree, placeTree_eq_of_entryOf? found]
  | .member _ object property, entry, found => by
      rw [entryOf?] at found
      split at found
      next isDict =>
        cases found
        rw [placeTree]
        unfold memberTree
        cases type : typeOf types object with
        | dict => rfl
        | _ =>
          rw [type] at isDict
          cases isDict
      next => cases found
  | .index _ object key, entry, found => by
      rw [entryOf?] at found
      split at found
      next isDict =>
        cases found
        rw [placeTree]
        unfold indexTree
        cases type : typeOf types object with
        | dict => rfl
        | _ =>
          rw [type] at isDict
          cases isDict
      next => cases found

end Emit

/-! ## Statements in statements -/

namespace Ir

open Emit

variable {types : Types} {parts others : List Part} {codes more : List Code}

/-- The codes of the statements among the parts are among these. -/
def Covered (types : Types) (parts : List Part) (codes : List Code) : Prop :=
  ∀ s, .stmt s ∈ parts → s.codes types ⊆ codes

theorem covered_of_none (none : ∀ s, .stmt s ∉ parts) : Covered types parts codes :=
  fun s isPart => absurd isPart (none s)

theorem Covered.mono (covered : Covered types parts codes) (subset : codes ⊆ more) :
    Covered types parts more :=
  fun s isPart => List.Subset.trans (covered s isPart) subset

theorem Covered.append (covered : Covered types parts codes)
    (covered' : Covered types others codes) : Covered types (parts ++ others) codes := by
  intro s isPart
  exact (List.mem_append.1 isPart).elim (covered s) (covered' s)

/-- A statement and what stands in it. -/
theorem Covered.statement {s : Stmt} (inside : Covered types parts (s.codes types)) :
    Covered types (.stmt s :: parts) (s.codes types) := by
  intro other isPart
  rcases List.mem_cons.1 isPart with same | isPart
  · cases same
    exact List.Subset.refl _
  · exact inside other isPart

/-- A block that is a body has the codes of its statements. -/
theorem Covered.body {statements : List Stmt}
    (covered : Covered types (rowParts statements) (rowCodes types statements))
    (braces : Option Node) :
    Covered types (bodyParts ⟨braces, statements⟩) (rowCodes types statements) := by
  cases braces with
  | none => exact covered
  | some node => exact Covered.statement (s := .block node statements) covered

mutual

/-- The codes of what stands in a statement are among its codes. -/
theorem Stmt.covered (types : Types) : ∀ s : Stmt, Covered types s.parts (s.codes types)
  | .breakStmt _ | .continueStmt _ | .emptyStmt _ | .importFrom .. =>
    Covered.statement (covered_of_none fun _ => List.not_mem_nil)
  | .returnStmt _ value => Covered.statement (covered_of_none (stmt_not_mem_partsOf value))
  | .ifThen _ test ⟨braces, body⟩ | .whileLoop _ test ⟨braces, body⟩ =>
    Covered.statement ((covered_of_none test.stmt_not_mem_parts).append
      (((covered_row types body).body braces).mono (List.subset_cons_self _ _)))
  | .ifElse _ test ⟨braces, body⟩ ⟨braces', otherwise⟩ => by
      refine Covered.statement (((covered_of_none test.stmt_not_mem_parts).append ?_).append ?_)
      · exact ((covered_row types body).body braces).mono (by simp [Stmt.codes])
      · exact ((covered_row types otherwise).body braces').mono (by simp [Stmt.codes])
  | .switchOn _ discriminant clauses => by
      refine Covered.statement ((covered_of_none discriminant.stmt_not_mem_parts).append ?_)
      rw [Stmt.codes]
      split
      · exact (covered_clauses types false 0 clauses).mono (List.subset_cons_self _ _)
      · exact (covered_clauses types true 0 clauses).mono (List.subset_append_right _ _)
  | .doLoop _ ⟨braces, body⟩ test =>
    Covered.statement
      ((((covered_row types body).body braces).mono (List.subset_append_left _ _)).append
        (covered_of_none test.stmt_not_mem_parts))
  | .forLoop _ init test update ⟨braces, body⟩ =>
    Covered.statement ((((covered_of_none (stmt_not_mem_startParts init)).append
      (covered_of_none (stmt_not_mem_partsOf test))).append
        (covered_of_none (stmt_not_mem_partsOf update))).append
          (((covered_row types body).body braces).mono (List.subset_append_right _ _)))
  | .forOf _ left right body =>
    Covered.statement (((covered_of_none right.stmt_not_mem_parts).append
      (covered_of_none left.stmt_not_mem_parts)).append
        ((body.covered types).mono (List.subset_append_right _ _)))
  | .forIn _ left right ⟨braces, body⟩ =>
    Covered.statement (((covered_of_none right.stmt_not_mem_parts).append
      (covered_of_none left.stmt_not_mem_parts)).append
        (((covered_row types body).body braces).mono (List.subset_append_right _ _)))
  | .expression _ e => Covered.statement (covered_of_none e.stmt_not_mem_parts)
  | .block _ body => Covered.statement (covered_row types body)
  | .declaration _ declarators =>
    Covered.statement (covered_of_none (stmt_not_mem_declarators declarators))

theorem covered_row (types : Types) : ∀ body : List Stmt,
    Covered types (rowParts body) (rowCodes types body)
  | [] => covered_of_none fun _ => List.not_mem_nil
  | first :: rest =>
    Covered.append ((first.covered types).mono (List.subset_append_left _ _))
      ((covered_row types rest).mono (List.subset_append_right _ _))

theorem covered_clauses (types : Types) (byIndex : Bool) (index : Nat) :
    ∀ clauses : List (Clause Stmt),
      Covered types (clauseParts clauses) (clauseCodes types byIndex index clauses)
  | [] => covered_of_none fun _ => List.not_mem_nil
  | ⟨test, body⟩ :: rest => by
      refine Covered.append ((covered_of_none (stmt_not_mem_partsOf test)).append ?_) ?_
      · exact (covered_row types body).mono (by simp [clauseCodes])
      · exact (covered_clauses types byIndex (index + 1) rest).mono (by simp [clauseCodes])

end

/-- The codes of the statements of a module are among its codes. -/
theorem Module.covered (types : Types) (module : Module) :
    Covered types module.parts (module.codes types) := by
  intro s isPart
  obtain ⟨body, isBody, stands⟩ := mem_bodies_of_mem_parts isPart nofun nofun
  exact List.Subset.trans (covered_row types body s stands) fun _ isCode =>
    List.mem_flatMap_of_mem isBody isCode

end Ir

namespace Emit

/-! ## Files -/

variable {σ : Setting} {module : Module} {w w' : Workspace} {text : String}

/-- **How entries are assigned to.** In the file of a module, every assignment to an entry of a
dictionary, as a statement or inside an expression, with or without an operator, assigns to a
`DICT_GET` unless it has no text at all; the lines that fill an array or a dictionary from a literal
have the `DICT_GET` as their place. So has a loop whose target is an entry. After an assignment to a
`DICT_GET` the key has the value exactly if the dictionary had the key; after `DICT_SET` it has the
value in any case. -/
theorem moduleText_assigns_entries (emitted : moduleText module σ w = (.ok text, w')) :
    (∃ file : CProgram, program module σ w = (.ok file, w') ∧
      words text.toList =
        (file.preamble.flatMap fun line => words line.toList) ++ spell file.tokens ∧
      SpellAll (module.codes σ.types) file.texts ∧ Shows file.tokens file.texts) ∧
    (∀ (node : Node) (op : Option BinaryOp) (target value : Expr) (entry : Entry),
      .expr (.assign node op target value) ∈ module.parts →
      .expr (.assign node op target value) ∉ unwritten σ.types module.parts →
      entryOf? σ.types target = some entry →
        (CExpr.assign op (entry.tree σ.types) (exprTree σ.types value)).In
            (module.codes σ.types) ∨
          (value.isLiteral = true ∧ op = none ∧
            assignmentCodes σ.types (entry.tree σ.types) (σ.types target.id) value ⊆
              module.codes σ.types)) ∧
    (∀ (node : Node) (target right : Expr) (entry : Entry), entryOf? σ.types target = some entry →
      ((∃ body, .stmt (.forOf node (.target target) right body) ∈ module.parts) ∨
        ∃ body, .stmt (.forIn node (.target target) right body) ∈ module.parts) →
        Code.expression (entry.tree σ.types) ∈ module.codes σ.types) ∧
    ∀ {α : Type} (d : Dictionary α) (key : String) (value : α),
      ((d.assign? key value).bind (·.get? key) = some value ↔ d.Has key) ∧
        (d.set key value).get? key = some value := by
  obtain ⟨file, run, same⟩ := moduleText_ok emitted
  refine ⟨⟨file, run, same, spells_program run, shows_program file⟩, ?_, ?_, ?_⟩
  · intro node op target value entry isPart written isEntry
    have assigns := program_assigns run isPart written
    rw [AssignsIn, assignTree, placeTree_eq_of_entryOf? isEntry] at assigns
    rcases assigns with inExpression | ⟨plain, statement⟩
    · exact .inl inExpression
    cases isLiteral : value.isLiteral with
    | true => exact .inr ⟨rfl, plain, statement⟩
    | false =>
      rw [assignmentCodes_of_plain _ _ isLiteral] at statement
      rw [plain]
      exact .inl (CExpr.Within.here.single.mono statement)
  · intro node target right entry isEntry isLoop
    have bound : bindingCode σ.types (.target target) = .expression (entry.tree σ.types) := by
      rw [bindingCode, placeTree_eq_of_entryOf? isEntry]
    rw [← bound]
    rcases isLoop with ⟨body, isPart⟩ | ⟨body, isPart⟩
    · exact module.covered σ.types _ isPart (by simp [Stmt.codes])
    · exact module.covered σ.types _ isPart (by simp [Stmt.codes])
  · intro α d key value
    exact ⟨d.get?_assign?_iff key value, d.get?_set key value⟩

/-- A setting in which a variable and its name are a dictionary of numbers. -/
def numbersByName : Setting where
  types
    | 2 | 8 => some (.dict .number)
    | _ => none
  includeMarker := "ts2c"

/-- A dictionary gets a key in its literal, and then some key is assigned to. -/
def assignKey (key : String) : Module :=
  ⟨[], [
    .declaration ⟨1, ⟨0, 17⟩⟩ [⟨⟨2, ⟨4, 16⟩⟩, "d",
      some (.object ⟨3, ⟨8, 16⟩⟩ [("a", .number ⟨4, ⟨13, 14⟩⟩ "1")])⟩],
    .expression ⟨5, ⟨18, 29⟩⟩ (.assign ⟨6, ⟨18, 28⟩⟩ none
      (.index ⟨7, ⟨18, 24⟩⟩ (.ident ⟨8, ⟨18, 19⟩⟩ "d") (.string ⟨9, ⟨20, 23⟩⟩ key))
      (.number ⟨10, ⟨27, 28⟩⟩ "2"))]⟩

/-- The dictionary of the literal. -/
def oneKey : Dictionary Nat :=
  ⟨["a"], [1], rfl⟩

/-- The key of the literal gets another value. -/
theorem moduleText_assigns_entries_own : ∃ text w',
    moduleText (assignKey "a") numbersByName {} = (.ok text, w') ∧
      (CExpr.assign none (.call (.name "DICT_GET") [.name "d", .literal "\"a\""])
        (.number "2")).In ((assignKey "a").codes numbersByName.types) ∧
      oneKey.Has "a" ∧ (oneKey.assign? "a" 2).bind (·.get? "a") = some 2 := by
  obtain ⟨text, emitted⟩ : ∃ text, moduleText (assignKey "a") numbersByName {} =
      (.ok text, (moduleText (assignKey "a") numbersByName {}).2) :=
    ok_of_isSome (by decide +kernel)
  obtain ⟨-, assigned, -, defined⟩ := moduleText_assigns_entries emitted
  have isPart : .expr (.assign ⟨6, ⟨18, 28⟩⟩ none
      (.index ⟨7, ⟨18, 24⟩⟩ (.ident ⟨8, ⟨18, 19⟩⟩ "d") (.string ⟨9, ⟨20, 23⟩⟩ "a"))
      (.number ⟨10, ⟨27, 28⟩⟩ "2")) ∈ (assignKey "a").parts := by
    simp [assignKey, Module.parts, rowParts, Stmt.parts, Expr.parts]
  have nothing : unwritten numbersByName.types (assignKey "a").parts = [] := by rfl
  have has : oneKey.Has "a" := by decide
  refine ⟨text, _, emitted, ?_, has, (defined oneKey "a" 2).1.2 has⟩
  rcases assigned _ none _ _ ⟨.ident ⟨8, ⟨18, 19⟩⟩ "d", .literal "\"a\""⟩ isPart
    (by rw [nothing]; exact List.not_mem_nil) rfl with here | ⟨literal, -⟩
  · exact here
  · cases literal

/-- A key that the literal does not have is assigned to in the same way, which is undefined;
`DICT_SET` would add it. -/
theorem assigns_missing_key :
    (program (assignKey "b") numbersByName {}).1.toOption.map CProgram.texts =
        some ["DICT_CREATE(d, 4);", "DICT_SET(d, \"a\", 1);", "DICT_GET(d, \"b\") = 2"] ∧
      oneKey.assign? "b" 2 = none ∧ (oneKey.set "b" 2).get? "b" = some 2 := by
  decide +kernel

end Emit

end ScriptToC
