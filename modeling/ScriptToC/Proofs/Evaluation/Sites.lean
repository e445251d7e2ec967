import ScriptToC.Proofs.CCode.Tokens
import ScriptToC.Proofs.Evaluation.Runs
import ScriptToC.Proofs.Hoisting.Introductions

/-!
# Where the expression of a statement stands

A `switch` goes by the value of an expression, and a loop over a collection runs over the value of
one. A script evaluates it once, before the first clause or the first round. In C the text of the
expression stands in each comparison of a `switch` on anything but a number, in the condition and
the assignment of a loop over a dynamic array or over the keys of a dictionary, and in the
assignment of a loop over a fixed array (`BuiltAround.splices_iff`). It is printed there
(`Splices.printed`), so that C evaluates it whenever it comes to such a point.

A run of the C statement evaluates the text once exactly under the condition `Stmt.SubjectOnce` on
the run (`Emit.subject_evaluated_once_iff`). Where the expression calls a function or assigns, what
is found or what is run through may change from one evaluation to the next.
-/

set_option autoImplicit false

namespace ScriptToC

open Ir

/-! ## Sites -/

/-- A comparison of a text with the value of a test. -/
def Compares (text comparison : String) : Prop :=
  ∃ value result, comparison = "!strcmp(" ++ text ++ ", " ++ value ++ ") ? " ++ result

/-- The code of a statement at a point contains a text where the statement's expression is due. -/
inductive Splices (text : String) : CStmt → Point → Prop
  | comparison {subject comparison : String} {comparisons : List String} {cases : List CStmt}
      {index : Nat} (there : comparisons[index]? = some comparison)
      (compares : Compares text comparison) :
      Splices text (.switchByIndex subject comparisons cases) (.comparison index)
  | read {counter cast target : String} {capacity : Nat} {statements : List CStmt} :
      Splices text (.forFixed counter capacity text cast target statements) .element
  | size {counter cast target : String} {statements : List CStmt} :
      Splices text (.forDynamic counter text cast target statements) .condition
  | load {counter cast target : String} {statements : List CStmt} :
      Splices text (.forDynamic counter text cast target statements) .element
  | keys {counter target : String} {statements : List CStmt} :
      Splices text (.forKeys counter text target statements) .condition
  | key {counter target : String} {statements : List CStmt} :
      Splices text (.forKeys counter text target statements) .element

namespace CStmt

/-- The points where the expression of a statement is due. -/
def sites : CStmt → Point → Bool
  | switchByIndex _ comparisons _, .comparison index => index < comparisons.length
  | forFixed .., .element => true
  | forDynamic .., .condition | forDynamic .., .element => true
  | forKeys .., .condition | forKeys .., .element => true
  | _, _ => false

end CStmt

/-! ## Printing -/

theorem infix_toList (before text after : String) :
    text.toList <:+: (before ++ text ++ after).toList := by
  simpa only [String.toList_append] using List.infix_append ..

theorem infix_loopHead (init condition increment : String) :
    condition.toList <:+: (loopHead init condition increment).toList := by
  simpa only [loopHead, String.append_assoc] using
    infix_toList ("for (" ++ init ++ "; ") condition ("; " ++ increment ++ ")")

theorem Compares.shows {text comparison : String} (compares : Compares text comparison) :
    text.toList <:+: comparison.toList := by
  obtain ⟨value, result, rfl⟩ := compares
  simpa only [String.append_assoc] using
    infix_toList "!strcmp(" text (", " ++ value ++ ") ? " ++ result)

/-- The computation of an index shows each of its comparisons. -/
theorem infix_indexText {subject comparison : String} {comparisons : List String}
    (member : comparison ∈ comparisons) :
    comparison.toList <:+: (indexText subject comparisons).toList := by
  obtain ⟨before, after, rfl⟩ := List.append_of_mem member
  have split : (indexText subject (before ++ comparison :: after)).toList =
      (subject ++ " = " ++ String.join (before.map (· ++ "\n    : "))).toList ++
        comparison.toList ++
        ("\n    : " ++ String.join (after.map (· ++ "\n    : ")) ++ "-1;").toList := by
    simp [indexText, String.toList_join]
  rw [split]
  exact List.infix_append ..

/-- What a statement has at a point is printed in one of its tokens. -/
theorem Splices.printed {text : String} {c : CStmt} {point : Point}
    (splices : Splices text c point) :
    ∃ token ∈ c.tokens, text.toList <:+: token.spelling.toList := by
  cases splices with
  | @comparison subject _ comparisons _ _ there compares =>
    exact ⟨.phrase (indexText subject comparisons), by simp [CStmt.tokens],
      compares.shows.trans (infix_indexText (List.mem_of_getElem? there))⟩
  | @read counter cast target _ _ =>
    refine ⟨.phrase (target ++ " = " ++ cast ++ text ++ "[" ++ counter ++ "];"),
      by simp [CStmt.tokens], ?_⟩
    simpa only [Token.spelling, String.append_assoc] using
      infix_toList (target ++ " = " ++ cast) text ("[" ++ counter ++ "];")
  | @size counter _ _ _ =>
    exact ⟨.loop _, List.mem_cons_self,
      (infix_toList (counter ++ " < ") text "->size").trans (infix_loopHead ..)⟩
  | @load counter cast target _ =>
    refine ⟨.phrase (target ++ " = " ++ cast ++ text ++ "->data[" ++ counter ++ "];"),
      by simp [CStmt.tokens], ?_⟩
    simpa only [Token.spelling, String.append_assoc] using
      infix_toList (target ++ " = " ++ cast) text ("->data[" ++ counter ++ "];")
  | @keys counter _ _ =>
    exact ⟨.loop _, List.mem_cons_self,
      (infix_toList (counter ++ " < ") text "->index->size").trans (infix_loopHead ..)⟩
  | @key counter target _ =>
    refine ⟨.phrase (target ++ " = " ++ text ++ "->index->data[" ++ counter ++ "];"),
      by simp [CStmt.tokens], ?_⟩
    simpa only [Token.spelling, String.append_assoc] using
      infix_toList (target ++ " = ") text ("->index->data[" ++ counter ++ "];")

/-! ## Statements -/

namespace Ir

/-- The expression whose value a statement is about: what a `switch` on anything but a number goes
by, or what a loop runs over. -/
def Stmt.subject? (types : Types) : Stmt → Option Expr
  | .switchOn _ discriminant _ =>
    if ((types discriminant.id).getD .unknown).isNumber then none else some discriminant
  | .forOf _ _ right _ | .forIn _ _ right _ => some right
  | _ => none

/-- In a run, the expression of a statement is evaluated once: a `switch` has only one comparison to
make, or the first one holds; a loop over a fixed array makes exactly one round, and a loop over
another collection makes none. -/
def Stmt.SubjectOnce (types : Types) : Stmt → List Event → Prop
  | .switchOn _ _ clauses, events =>
    clauses.countP (·.test.isSome) = 1 ∨ events.head? = some (.tests (.comparison 0) true)
  | .forOf _ _ right _, events =>
    match types right.id with
    | some (.array _ _ false) => rounds events = 1
    | _ => rounds events = 0
  | .forIn .., events => rounds events = 0
  | _, _ => False

end Ir

/-- The C form of a statement is built around the text of the statement's expression. -/
inductive BuiltAround (types : Types) (text : String) : Stmt → CStmt → Prop
  | switchByIndex {node : Node} {discriminant : Expr} {clauses : List (Clause Stmt)}
      {subject : String} {comparisons : List String} {cases : List CStmt}
      (length : comparisons.length = clauses.countP (·.test.isSome))
      (compared : ∀ comparison ∈ comparisons, Compares text comparison) :
      BuiltAround types text (.switchOn node discriminant clauses)
        (.switchByIndex subject comparisons cases)
  | forFixed {node : Node} {left : ForBinding} {right : Expr} {body : Stmt} {element : CType}
      {capacity : Nat} {counter cast target : String} {statements : List CStmt}
      (known : types right.id = some (.array element capacity false)) :
      BuiltAround types text (.forOf node left right body)
        (.forFixed counter capacity text cast target statements)
  | forDynamic {node : Node} {left : ForBinding} {right : Expr} {body : Stmt} {element : CType}
      {capacity : Nat} {counter cast target : String} {statements : List CStmt}
      (known : types right.id = some (.array element capacity true)) :
      BuiltAround types text (.forOf node left right body)
        (.forDynamic counter text cast target statements)
  | forKeys {node : Node} {left : ForBinding} {right : Expr} {body : Body Stmt}
      {counter target : String} {statements : List CStmt} :
      BuiltAround types text (.forIn node left right body) (.forKeys counter text target statements)

namespace BuiltAround

variable {types : Types} {text : String} {s : Stmt} {c : CStmt}

/-- The text stands at the sites of the C statement and at no other point. -/
theorem splices_iff (built : BuiltAround types text s c) (point : Point) :
    Splices text c point ↔ c.sites point = true := by
  cases built with
  | @switchByIndex _ _ _ subject comparisons cases _ compared =>
    constructor
    · rintro ⟨there⟩
      exact decide_eq_true (List.getElem?_eq_some_iff.1 there).1
    · intro site
      cases point with
      | comparison index =>
        have inside : index < comparisons.length := of_decide_eq_true site
        exact .comparison (List.getElem?_eq_getElem inside) (compared _ (List.getElem_mem inside))
      | _ => cases site
  | forFixed =>
    constructor
    · rintro ⟨⟩
      rfl
    · intro site
      cases point with
      | element => exact .read
      | _ => cases site
  | forDynamic =>
    constructor
    · rintro (_ | _) <;> rfl
    · intro site
      cases point with
      | condition => exact .size
      | element => exact .load
      | _ => cases site
  | forKeys =>
    constructor
    · rintro (_ | _) <;> rfl
    · intro site
      cases point with
      | condition => exact .keys
      | element => exact .key
      | _ => cases site

/-- A run evaluates the text once under a condition on the run. -/
theorem evaluations_eq_one_iff (built : BuiltAround types text s c) {events : List Event}
    {exit : Exit} (run : c.runs events exit) :
    evaluations c.sites events = 1 ↔ s.SubjectOnce types events := by
  cases built with
  | switchByIndex length =>
    rw [Stmt.SubjectOnce, ← length]
    exact evaluations_eq_one_iff_first (fun k below => decide_eq_true below) rfl run
  | forFixed known =>
    simp only [Stmt.SubjectOnce, known]
    rw [evaluations_eq_rounds rfl rfl rfl rfl run]
  | forDynamic known =>
    simp only [Stmt.SubjectOnce, known]
    exact evaluations_eq_one_iff_no_round rfl rfl rfl rfl run
  | forKeys => exact evaluations_eq_one_iff_no_round rfl rfl rfl rfl run

end BuiltAround

namespace Emit

variable {σ : Setting} {scope : ScopeId} {w w' : Workspace}

/-- A test of a `switch` that goes by an index is compared with the text of the discriminant. -/
theorem label_index {subject text : String} {index : Nat} {test : Expr}
    {found : String × List String}
    (run : label (.index subject text) index test σ w = (.ok found, w')) :
    ∃ comparison, found.2 = [comparison] ∧ Compares text comparison := by
  simp only [label, bind_ok, pure_ok] at run
  obtain ⟨value, _, _, rfl, -⟩ := run
  exact ⟨_, rfl, value, _, rfl⟩

/-- There is a comparison for each clause with a test. It has the text of the discriminant. -/
theorem EmitsClauses.comparisons {subject text : String} : ∀ {scope : ScopeId} {index : Nat}
    {list : List (Clause Stmt)} {w w' : Workspace} {comparisons : List String}
    {cases : List CStmt} {xs : List Variable},
    EmitsClauses σ scope (.index subject text) index list w comparisons cases xs w' →
      comparisons.length = list.countP (·.test.isSome) ∧
        ∀ comparison ∈ comparisons, Compares text comparison
  | _, _, _, _, _, _, _, _, .nil .. => ⟨rfl, by simp⟩
  | _, _, _, _, _, _, _, _, .cons head _ others => by
      obtain ⟨length, compared⟩ := others.comparisons
      obtain ⟨rfl, rfl, -⟩ | ⟨_, found, rfl, rfl, run⟩ := mapM_option_ok.1 head
      · exact ⟨by simpa using length, by simpa using compared⟩
      · obtain ⟨comparison, one, compares⟩ := label_index run
        rw [Option.elim_some, one]
        exact ⟨by simpa using length, List.forall_mem_cons.2 ⟨compares, compared⟩⟩

/-- What a statement with an expression becomes is built around the text of the expression. -/
theorem Emits.builtAround {s : Stmt} {c : CStmt} {xs : List Variable} {e : Expr}
    (emits : Emits σ scope s w c xs w') (subject : s.subject? σ.types = some e) :
    ∃ text before after, expr (exprText · e) σ before = (.ok text, after) ∧
      BuiltAround σ.types text s c := by
  cases emits with
  | switchOn head each =>
    rw [Stmt.subject?] at subject
    split at subject
    next => cases subject
    next notNumber =>
      cases subject
      obtain ⟨text, asked, run, ⟨isNumber, -⟩ | ⟨-, name, rfl, -⟩⟩ := selection_ok head
      · exact absurd isNumber notNumber
      · obtain ⟨length, compared⟩ := each.comparisons
        exact ⟨text, w, asked, run, .switchByIndex length compared⟩
  | @forOf _ _ _ _ _ _ _ dynamic _ _ _ _ _ _ _ _ known head _ =>
    cases subject
    obtain ⟨-, before, after, run⟩ := loopHead_ok head
    cases dynamic with
    | true => exact ⟨_, before, after, run, .forDynamic known⟩
    | false => exact ⟨_, before, after, run, .forFixed known⟩
  | forIn _ _ head _ =>
    cases subject
    obtain ⟨-, before, after, run⟩ := loopHead_ok head
    exact ⟨_, before, after, run, .forKeys⟩
  | _ => cases subject

/-- **Evaluating once.** The text of the expression that a statement is about stands at the sites of
what the statement becomes, and a run evaluates it once exactly under the condition that belongs to
the statement. -/
theorem subject_evaluated_once_iff {s : Stmt} {c : CStmt} {e : Expr}
    (run : stmt scope s σ w = (.ok c, w')) (subject : s.subject? σ.types = some e) :
    ∃ text before after, expr (exprText · e) σ before = (.ok text, after) ∧
      (∀ point, Splices text c point ↔ c.sites point = true) ∧
      ∀ events exit, c.runs events exit →
        (evaluations c.sites events = 1 ↔ s.SubjectOnce σ.types events) := by
  obtain ⟨_, emits⟩ := emits_of_run s run
  obtain ⟨text, before, after, expr, built⟩ := emits.builtAround subject
  exact ⟨text, before, after, expr, built.splices_iff,
    fun _ _ run => built.evaluations_eq_one_iff run⟩

/-- `switch (next()) { case "a": break; case "b": }` -/
def switchOnCall : Stmt :=
  .switchOn ⟨1, ⟨0, 46⟩⟩ (.call ⟨2, ⟨8, 14⟩⟩ (.ident ⟨3, ⟨8, 12⟩⟩ "next") [])
    [⟨some (.string ⟨4, ⟨23, 26⟩⟩ "a"), [.breakStmt ⟨5, ⟨28, 34⟩⟩]⟩,
      ⟨some (.string ⟨6, ⟨40, 43⟩⟩ "b"), []⟩]

/-- The call gives a string. -/
def stringCall : Setting :=
  ⟨fun id => if id = 2 then some .string else none, "ts2c"⟩

/-- The `switch` in C. -/
def comparedCall : CStmt :=
  .switchByIndex "tmp_switch" ["!strcmp(next(), \"a\") ? 0", "!strcmp(next(), \"b\") ? 1"]
    [.clause (some "0") [.breakStmt], .clause (some "1") []]

/-- A call is evaluated once if it gives the string of the first clause. -/
theorem subject_evaluated_once_iff_call :
    ∃ w', stmt 0 switchOnCall stringCall { scopes := (ScopeTree.newFunction {}).2 } =
        (.ok comparedCall, w') ∧
      switchOnCall.subject? stringCall.types =
        some (.call ⟨2, ⟨8, 14⟩⟩ (.ident ⟨3, ⟨8, 12⟩⟩ "next") []) ∧
      ∃ events, comparedCall.runs events .normal ∧ evaluations comparedCall.sites events = 1 := by
  have run : ∃ w', stmt 0 switchOnCall stringCall { scopes := (ScopeTree.newFunction {}).2 } =
      (.ok comparedCall, w') := ⟨_, rfl⟩
  obtain ⟨w', run⟩ := run
  have subject : switchOnCall.subject? stringCall.types =
      some (.call ⟨2, ⟨8, 14⟩⟩ (.ident ⟨3, ⟨8, 12⟩⟩ "next") []) := rfl
  have clause : (CStmt.clause (some "0") [.breakStmt]).runs [.inside .broken] .broken :=
    ⟨.inl ⟨⟨[], rfl, rfl⟩, nofun⟩, rfl⟩
  have first : comparedCall.runs [.tests (.comparison 0) true, .does .subject, .inside .broken]
      .normal :=
    ⟨some 0, _, _, .holds 0 1, ⟨.broken, .inl ⟨⟨_, clause⟩, nofun⟩, rfl, rfl⟩, rfl⟩
  obtain ⟨_, _, _, -, -, once⟩ := subject_evaluated_once_iff run subject
  exact ⟨w', run, subject, _, first, (once _ _ first).2 (.inr rfl)⟩

/-- The call stands in both comparisons. It is evaluated twice if the first comparison fails, and
the second may then compare another string. -/
theorem call_evaluated_twice :
    ∃ w', stmt 0 switchOnCall stringCall { scopes := (ScopeTree.newFunction {}).2 } =
        (.ok comparedCall, w') ∧
      Splices "next()" comparedCall (.comparison 0) ∧
      Splices "next()" comparedCall (.comparison 1) ∧
      ∃ events, comparedCall.runs events .normal ∧ evaluations comparedCall.sites events = 2 := by
  have clause : (CStmt.clause (some "1") []).runs [.inside .normal] .normal := ⟨rfl, rfl⟩
  have second : comparedCall.runs [.tests (.comparison 0) false, .tests (.comparison 1) true,
      .does .subject, .inside .normal] .normal :=
    ⟨some 1, _, _, .fails (.holds 1 0), ⟨.normal, .inr ⟨⟨_, clause⟩, rfl⟩, rfl, rfl⟩, rfl⟩
  exact ⟨_, rfl, .comparison rfl ⟨"\"a\"", "0", rfl⟩, .comparison rfl ⟨"\"b\"", "1", rfl⟩, _,
    second, rfl⟩

end Emit

end ScriptToC
