import ScriptToC.Proofs.CCode.Files
import ScriptToC.Proofs.CCode.Pairing
import ScriptToC.Proofs.Emission.Bodies

/-!
# Every `else` stays with its `if`

In the source the `if`s of a statement lie in each other as its syntax says (`Stmt.branches`). The C
form of the statement leaves braces out where a body is one statement, so an `if` without `else` may
come to stand right before an `else` that is not its own. What is printed without braces leaves an
`if` open only where its source ends in one (`Emits.scans`), and such a body gets braces if an
`else` follows it (`EmitsBlock.scans`). So each `else` is paired as in the source (`elses_paired`).
-/

set_option autoImplicit false

namespace ScriptToC

open Ir Text

/-! ## The pairs of a source -/

namespace Ir

mutual

/-- How the `if`s of a statement lie in each other. -/
def Stmt.branches : Stmt → List Branch
  | .ifThen _ _ ⟨_, body⟩ => [.ifThen (rowBranches body)]
  | .ifElse _ _ ⟨_, body⟩ ⟨_, otherwise⟩ => [.ifElse (rowBranches body) (rowBranches otherwise)]
  | .switchOn _ _ clauses => clauseBranches clauses
  | .whileLoop _ _ ⟨_, body⟩ | .doLoop _ ⟨_, body⟩ _ | .forLoop _ _ _ _ ⟨_, body⟩
  | .forIn _ _ _ ⟨_, body⟩ | .block _ body => rowBranches body
  | .forOf _ _ _ body => body.branches
  | .breakStmt _ | .continueStmt _ | .emptyStmt _ | .returnStmt .. | .expression .. | .importFrom ..
  | .declaration .. => []

/-- How the `if`s of statements in a row lie in each other. -/
def rowBranches : List Stmt → List Branch
  | [] => []
  | first :: rest => first.branches ++ rowBranches rest

/-- How the `if`s of the clauses of a `switch` lie in each other. -/
def clauseBranches : List (Clause Stmt) → List Branch
  | [] => []
  | ⟨_, body⟩ :: rest => rowBranches body ++ clauseBranches rest

end

end Ir

namespace Emit

variable {σ : Setting}

/-! ## Statements -/

/-- In a row of at most one statement the last one is the only one. -/
theorem any_endsInOpenIf {body : List Stmt} (few : body.length ≤ 1) :
    body.any Stmt.endsInOpenIf = Stmt.bodyEndsInOpenIf body := by
  match body with
  | [] => rfl
  | [only] => exact Bool.or_false _
  | _ :: _ :: _ => simp at few

theorem EmitsAll.length_eq {scope : ScopeId} {body : List Stmt} {w w' : Workspace}
    {cs : List CStmt} {xs : List Variable} (emits : EmitsAll σ scope body w cs xs w') :
    cs.length = body.length := by
  induction body generalizing w cs xs with
  | nil => cases emits; rfl
  | cons s rest ih =>
    cases emits with
    | cons first others => exact congrArg (· + 1) (ih others)

/-- The C form of a body is open only if its source is one statement that ends in an open `if`. It
is not open if it gets braces in that case. -/
theorem scans_body {body : List Stmt} {cs : List CStmt} {branches : List Branch}
    (scans : Scans (listTokens cs) branches (body.any Stmt.endsInOpenIf))
    (same : cs.length = body.length) (locals : List Variable) :
    Scans (blockTokens ⟨locals, cs, false⟩) branches (Stmt.bodyEndsInOpenIf body) ∧
      Scans (blockTokens ⟨locals, cs, Stmt.bodyEndsInOpenIf body⟩) branches false := by
  have alone : cs.length ≤ 1 → body.any Stmt.endsInOpenIf = Stmt.bodyEndsInOpenIf body := by
    rw [same]
    exact any_endsInOpenIf
  refine ⟨scans_block scans alone, ?_⟩
  rw [← Bool.not_and_self (Stmt.bodyEndsInOpenIf body)]
  exact scans_block scans alone

theorem scans_switch {cases : List CStmt} {branches : List Branch} {isOpen : Bool}
    (scans : Scans (listTokens cases) branches isOpen) (select : Selection)
    (comparisons : List String) :
    Scans (select.switch comparisons cases).tokens branches false := by
  cases select with
  | value subject => exact scans.braces _
  | index subject text => exact (Scans.phrases (phrases_map [_])).append (scans.braces _)

mutual

/-- The tokens of the C form of a statement are paired as in the source, and they are open only if
the source ends in an open `if`. -/
theorem Emits.scans : ∀ {scope : ScopeId} {s : Stmt} {w w' : Workspace} {c : CStmt}
    {xs : List Variable}, Emits σ scope s w c xs w' → Scans c.tokens s.branches s.endsInOpenIf
  | _, _, _, _, _, _, .breakStmt .. => .phrases (phrases_map ["break;"])
  | _, _, _, _, _, _, .continueStmt .. => .phrases (phrases_map ["continue;"])
  | _, _, _, _, _, _, .emptyStmt .. => .phrases (phrases_map [";"])
  | _, _, _, _, _, _, .returnStmt run => by
    obtain ⟨text, releases, rfl, -⟩ := returned_ok run
    have frees : Phrases (releases.flatMap Release.tokens) :=
      phrases_flatMap fun release => phrases_map release.frees
    exact .phrases (frees.append (phrases_map [returnText text]))
  | _, _, _, _, _, _, .ifThen _ yes => yes.scans.1.ifThen _
  | _, _, _, _, _, _, .ifElse _ yes no => yes.scans.2.ifElse no.scans.1 _
  | _, _, _, _, _, _, .switchOn _ each => scans_switch each.scans _ _
  | _, _, _, _, _, _, .whileLoop _ loop => loop.scans.1.loop _
  | _, _, _, _, _, _, .doLoop loop _ => loop.scans.1.doLoop _
  | _, _, _, _, _, _, .forLoop _ _ _ loop =>
    (Scans.phrases (phrases_flatMap phrases_assignment)).append (loop.scans.1.loop _)
  | _, _, _, _, _, _, .forOf _ _ loop => by
    have inside := loop.scans
    rw [rowBranches, rowBranches, List.append_nil] at inside
    split <;> exact (inside.collection _ _).weaken
  | _, _, _, _, _, _, .forIn _ _ _ loop => (loop.scans.collection _ _).weaken
  | _, _, _, _, _, _, .expression _ => .phrases (phrases_assignment _)
  | _, _, _, _, _, _, .block inner => inner.scans.1
  | _, _, _, _, _, _, .importFrom _ => .nil
  | _, _, _, _, _, _, .declaration _ => .phrases (phrases_flatMap phrases_assignment)

theorem EmitsAll.scans : ∀ {scope : ScopeId} {body : List Stmt} {w w' : Workspace}
    {cs : List CStmt} {xs : List Variable}, EmitsAll σ scope body w cs xs w' →
      Scans (listTokens cs) (rowBranches body) (body.any Stmt.endsInOpenIf)
  | _, _, _, _, _, _, .nil .. => .nil
  | _, _, _, _, _, _, .cons first others => first.scans.append others.scans

/-- A block before an `else` is not open: it gets braces where it would be. -/
theorem EmitsBlock.scans : ∀ {scope : ScopeId} {body : List Stmt} {w w' : Workspace}
    {b : Block CStmt}, EmitsBlock σ scope body w b w' →
      Scans (blockTokens b) (rowBranches body) (Stmt.bodyEndsInOpenIf body) ∧
      Scans (blockTokens { b with forceBraces := Stmt.bodyEndsInOpenIf body }) (rowBranches body)
        false
  | _, _, _, _, _, .intro _ all _ => scans_body all.scans all.length_eq _

theorem EmitsHoisted.scans : ∀ {scope : ScopeId} {body : List Stmt} {w w' : Workspace}
    {cs : List CStmt} {xs : List Variable}, EmitsHoisted σ scope body w cs xs w' →
      Scans (listTokens cs) (rowBranches body) (body.any Stmt.endsInOpenIf)
  | _, _, _, _, _, _, .intro _ all _ => all.scans

theorem EmitsClauses.scans : ∀ {scope : ScopeId} {select : Selection} {index : Nat}
    {list : List (Clause Stmt)} {w w' : Workspace} {comparisons : List String} {cases : List CStmt}
    {xs : List Variable}, EmitsClauses σ scope select index list w comparisons cases xs w' →
      Scans (listTokens cases) (clauseBranches list) true
  | _, _, _, _, _, _, _, _, _, .nil .. => Scans.nil.weaken
  | _, _, _, _, _, _, _, _, _, .cons _ first others =>
    ((first.scans.label _).append others.scans).mono fun _ => rfl

end

/-- **Every `else` stays with its `if`.** The text of a statement that is emitted has as many `if`s
as the source. Each `else` of the text is paired with the `if` that has it in the source, if it is
paired with the nearest `if` of its block that has none yet. However C reads the text, it pairs them
so; and it does read the text, as what the statement means, if every body of the source becomes one
C statement. -/
theorem elses_paired {scope : ScopeId} {s : Stmt} {w w' : Workspace} {c : CStmt}
    (run : stmt scope s σ w = (.ok c, w')) :
    ∃ text : String, c.toValue.render = .ok text ∧ words text.toList = spell c.tokens ∧
      c.tokens.countP Token.isTest = countAll s.branches ∧
      pairElses 0 [] [] c.tokens = (pairsAll 0 s.branches).map some ∧
      (∀ trees, ReadsItems c.tokens trees [] →
        pairsAll 0 (branchesAll trees) = pairsAll 0 s.branches) ∧
      (stmtFits σ scope s w → ReadsItems c.tokens c.trees []) := by
  obtain ⟨xs, emits⟩ := emits_of_run s run
  obtain ⟨text, rendered, same⟩ := render_of_prints (prints_toValue c)
  have paired := emits.scans.pairElses_eq
  refine ⟨text, rendered, same, emits.scans.countP_eq, paired, ?_, ?_⟩
  · intro trees reads
    have read := reads.pairElses_eq
    rw [paired] at read
    exact ((List.map_inj_right fun _ _ => Option.some.inj).1 read).symm
  · intro fits
    have items := (readable c (emits.single_bodies.2 fits) emits.elseSafe).2
    have whole := items [] [] [] nofun .nil
    rwa [List.append_nil, List.append_nil] at whole

/-- Two nested conditions, each with an `else`, the inner one over a loop that ends in a condition
without one. -/
def elseAfterLoop : Stmt :=
  .ifElse ⟨1, ⟨0, 70⟩⟩ (.ident ⟨2, ⟨4, 5⟩⟩ "a")
    ⟨none, [.ifElse ⟨3, ⟨7, 60⟩⟩ (.ident ⟨4, ⟨11, 12⟩⟩ "b")
      ⟨none, [.doLoop ⟨5, ⟨14, 45⟩⟩
        ⟨none, [.ifThen ⟨6, ⟨17, 26⟩⟩ (.ident ⟨7, ⟨21, 22⟩⟩ "c")
          ⟨none, [.expression ⟨8, ⟨24, 26⟩⟩ (.ident ⟨9, ⟨24, 25⟩⟩ "x")]⟩]⟩
        (.ident ⟨10, ⟨34, 35⟩⟩ "d")]⟩
      ⟨none, [.expression ⟨11, ⟨51, 53⟩⟩ (.ident ⟨12, ⟨51, 52⟩⟩ "y")]⟩]⟩
    ⟨none, [.expression ⟨13, ⟨65, 67⟩⟩ (.ident ⟨14, ⟨65, 66⟩⟩ "z")]⟩

/-- No body gets braces. The first `else` belongs to the second `if`, the second to the first. -/
theorem elses_paired_elseAfterLoop : ∃ (c : CStmt) (w' : Workspace) (text : String),
    stmt 0 elseAfterLoop ⟨fun _ => none, "ts2c"⟩ owningNothing = (.ok c, w') ∧
      c.toValue.render = .ok text ∧ words text.toList = spell c.tokens ∧
      .opening "" ∉ c.tokens ∧ pairElses 0 [] [] c.tokens = [some 1, some 0] ∧
      ReadsItems c.tokens c.trees [] := by
  obtain ⟨c, w', run, unbraced, fits⟩ : ∃ c w',
      stmt 0 elseAfterLoop ⟨fun _ => none, "ts2c"⟩ owningNothing = (.ok c, w') ∧
        .opening "" ∉ c.tokens ∧ ∀ body ∈ c.bodies, Block.Single body := by
    refine ⟨_, _, rfl, by decide, ?_⟩
    simp [CStmt.bodies, innerBodies, listBodies, Block.Single, Block.isBraced, listSingle,
      CStmt.Single, Assignment.tokens]
  obtain ⟨xs, emits⟩ := emits_of_run elseAfterLoop run
  obtain ⟨text, rendered, same, -, paired, -, reads⟩ := elses_paired run
  exact ⟨c, w', text, run, rendered, same, unbraced, paired, reads (emits.single_bodies.1 fits)⟩

end Emit

end ScriptToC
