import ScriptToC.Proofs.Ir.Parts
import ScriptToC.Proofs.Release.Assigned

/-!
# Heap memory under two names

An assignment of a variable to a variable copies a pointer, so that both name the same memory. A
plan looks at the types of the locals only and releases both of them. A later plan is fine only if
it returns the variable that was copied, or if one of the two is not seen from there any more
(`ownedOnce_iff`); a plan that returns the copied variable still frees what it returns, through the
other one.

`Stmt.acts` lists the copies and the exits of a statement in the order in which they are translated,
so that what is computed later stands later in the list.
-/

set_option autoImplicit false

namespace ScriptToC

open Ir ScopeTree

/-! ## Copies and exits -/

/-- A variable gets the value of another one, at a place. -/
structure Copy where
  target : String
  source : String
  place : Place
  deriving DecidableEq, Repr

/-- A way out of a function: the place of its row and its index there, the name of the returned
variable, and the locals that have been introduced around it, from the inside out. -/
structure Leaving where
  place : Place
  index : Nat
  returned : Option String
  layers : List (List Variable)
  deriving DecidableEq, Repr

/-- What matters to ownership. -/
inductive Act
  | copy (copied : Copy)
  | leave (leaving : Leaving)
  deriving DecidableEq, Repr

/-- The exit with what is released there. -/
def Leaving.returning (leaving : Leaving) : Returning :=
  ⟨leaving.place, leaving.index, planned leaving.layers leaving.returned⟩

namespace Act

/-- Something in a part, seen from outside the part. -/
def enter (step : Nat × Nat) : Act → Act
  | copy copied => copy { copied with place := step :: copied.place }
  | leave leaving => leave { leaving with place := step :: leaving.place }

/-- The exit that this is, with what is released there. -/
def returning? : Act → Option Returning
  | copy _ => none
  | leave leaving => some leaving.returning

/-- A condition on a copy and an exit that comes later. -/
def Later (holds : Copy → Leaving → Prop) (first second : Act) : Prop :=
  ∀ copied leaving, first = copy copied → second = leave leaving → holds copied leaving

end Act

instance {holds : Copy → Leaving → Prop}
    [decide : ∀ copied leaving, Decidable (holds copied leaving)] : DecidableRel (Act.Later holds)
  | .copy copied, .leave leaving =>
    decidable_of_iff (holds copied leaving)
      ⟨by rintro here _ _ ⟨⟩ ⟨⟩; exact here, fun later => later _ _ rfl rfl⟩
  | .copy _, .copy _ => isTrue nofun
  | .leave _, _ => isTrue nofun

namespace Ir

/-- The variable that a part gives a value to, and the variable that has this value. -/
def Part.copied? : Part → Option (String × String)
  | .expr (.assign _ none target value) =>
    target.ident?.bind fun name => value.ident?.map (name, ·)
  | .declarator ⟨_, name, init⟩ => init.bind fun e => e.ident?.map (name, ·)
  | _ => none

/-- The copies in some parts that are evaluated at a place. -/
def copiesIn (place : Place) (parts : List Part) : List Act :=
  parts.filterMap fun part => part.copied?.map fun (target, source) =>
    .copy ⟨target, source, place⟩

/-- The parts of a place that a loop over a collection assigns to. -/
def ForBinding.targetParts : ForBinding → List Part
  | .declare _ => []
  | .target e => e.parts

section Acts

variable (types : Types) (names : Names)

mutual

/-- The copies and exits of the statement with a given index, in the order of translation. The
statement stands in a scope that has the locals `own` so far, with the layers `around`. -/
def Stmt.acts (own : List Variable) (around : List (List Variable)) (index : Nat) :
    Stmt → List Act
  | .returnStmt _ value =>
    copiesIn [] (partsOf value) ++
      [.leave ⟨[], index, value.bind Expr.ident?, own :: around⟩]
  | .ifThen _ test ⟨_, body⟩ | .whileLoop _ test ⟨_, body⟩ =>
    copiesIn [] test.parts ++ (rowActs [] (own :: around) 0 body).map (.enter (index, 0))
  | .ifElse _ test ⟨_, body⟩ ⟨_, otherwise⟩ =>
    copiesIn [] test.parts ++ (rowActs [] (own :: around) 0 body).map (.enter (index, 0)) ++
      (rowActs [] (own :: around) 0 otherwise).map (.enter (index, 1))
  | .doLoop _ ⟨_, body⟩ test =>
    (rowActs [] (own :: around) 0 body).map (.enter (index, 0)) ++ copiesIn [] test.parts
  | .block _ body => (rowActs [] (own :: around) 0 body).map (.enter (index, 0))
  | .forLoop _ init test update ⟨_, body⟩ =>
    let own := introduce own (Emit.startLocals types init)
    copiesIn [] (startParts init ++ partsOf test ++ partsOf update) ++
      (rowActs [] (own :: around) 0 body).map (.enter (index, 0))
  | .forOf node left right body =>
    let own := introduce own (loopLocals types names node.id left)
    copiesIn [] right.parts ++ copiesIn [(index, 0)] left.targetParts ++
      (body.acts [] (own :: around) 0).map (.enter (index, 0))
  | .forIn node left right ⟨_, body⟩ =>
    let own := introduce own (loopLocals types names node.id left)
    copiesIn [] right.parts ++ copiesIn [(index, 0)] left.targetParts ++
      (rowActs [] (own :: around) 0 body).map (.enter (index, 0))
  | .switchOn node discriminant clauses =>
    let own := introduce own (switchLocals types names node.id discriminant)
    copiesIn [] discriminant.parts ++ clauseActs own around (index, 0) 0 clauses
  | .expression _ e => copiesIn [] e.parts
  | .declaration _ declarators => copiesIn [] (declarators.flatMap Declarator.parts)
  | .breakStmt _ | .continueStmt _ | .emptyStmt _ | .importFrom _ _ => []

/-- The copies and exits of statements in a row, the first of which has the given index. -/
def rowActs (own : List Variable) (around : List (List Variable)) (index : Nat) :
    List Stmt → List Act
  | [] => []
  | first :: rest =>
    first.acts own around index ++
      rowActs (introduce own (first.locals types names)) around (index + 1) rest

/-- The copies and exits of the clauses of a `switch`, the first of which has the given index. The
tests are evaluated outside the clauses, which are entered by `step`. -/
def clauseActs (own : List Variable) (around : List (List Variable)) (step : Nat × Nat)
    (index : Nat) : List (Clause Stmt) → List Act
  | [] => []
  | ⟨test, body⟩ :: rest =>
    copiesIn [] (partsOf test) ++
      (((rowActs [] (own :: around) 0 body).map (.enter (index, 0))).map (.enter step) ++
        clauseActs (introduce own (rowLocals types names body)) around step (index + 1) rest)

end

/-- The copies and exits of a function. What it releases at its end comes last. -/
def bodyActs (releaseAtEnd : Bool) (body : List Stmt) : List Act :=
  rowActs types names [] [] 0 body ++
    if releaseAtEnd then
      [.leave ⟨[], body.length, none, [introduce [] (rowLocals types names body)]⟩]
    else []

end Acts

/-! ## Exits and plans -/

/-- The exits in a list, with what is released there. -/
def exits (acts : List Act) : List Returning :=
  acts.filterMap Act.returning?

@[simp] theorem exits_nil : exits [] = [] :=
  rfl

@[simp] theorem exits_append (acts more : List Act) :
    exits (acts ++ more) = exits acts ++ exits more :=
  List.filterMap_append

@[simp] theorem exits_leave (leaving : Leaving) : exits [.leave leaving] = [leaving.returning] :=
  rfl

@[simp] theorem exits_copiesIn (place : Place) (parts : List Part) :
    exits (copiesIn place parts) = [] := by
  rw [exits, List.filterMap_eq_nil_iff]
  intro act member
  obtain ⟨part, -, made⟩ := List.mem_filterMap.1 member
  obtain ⟨_, -, rfl⟩ := Option.map_eq_some_iff.1 made
  rfl

@[simp] theorem exits_enter (step : Nat × Nat) (acts : List Act) :
    exits (acts.map (.enter step)) = (exits acts).map (.enter step) := by
  rw [exits, exits, List.filterMap_map, List.map_filterMap]
  congr 1
  funext act
  cases act <;> rfl

section Plans

variable {types : Types} {names : Names}

mutual

/-- The exits of a statement are its returns. -/
theorem Stmt.exits_acts : ∀ (s : Stmt) (own : List Variable) (around : List (List Variable))
    (index : Nat), exits (s.acts types names own around index) =
      s.plans types names own around index
  | .returnStmt .., _, _, _ => by
      simp [Stmt.acts, Stmt.plans, Leaving.returning]
  | .ifThen _ _ ⟨_, body⟩, _, _, _ | .whileLoop _ _ ⟨_, body⟩, _, _, _
  | .doLoop _ ⟨_, body⟩ _, _, _, _ | .block _ body, _, _, _ => by
      simp [Stmt.acts, Stmt.plans, exits_rowActs body]
  | .ifElse _ _ ⟨_, body⟩ ⟨_, otherwise⟩, _, _, _ => by
      simp [Stmt.acts, Stmt.plans, exits_rowActs body, exits_rowActs otherwise]
  | .forLoop _ _ _ _ ⟨_, body⟩, _, _, _ | .forIn _ _ _ ⟨_, body⟩, _, _, _ => by
      simp [Stmt.acts, Stmt.plans, exits_rowActs body]
  | .forOf _ _ _ body, _, _, _ => by
      simp [Stmt.acts, Stmt.plans, body.exits_acts]
  | .switchOn _ _ clauses, _, _, _ => by
      simp [Stmt.acts, Stmt.plans, exits_clauseActs clauses]
  | .expression .., _, _, _ | .declaration .., _, _, _ => by
      simp [Stmt.acts, Stmt.plans]
  | .breakStmt _, _, _, _ | .continueStmt _, _, _, _ | .emptyStmt _, _, _, _
  | .importFrom .., _, _, _ => rfl

theorem exits_rowActs : ∀ (body : List Stmt) (own : List Variable)
    (around : List (List Variable)) (index : Nat),
    exits (rowActs types names own around index body) =
      rowPlans types names own around index body
  | [], _, _, _ => rfl
  | first :: rest, _, _, _ => by
      simp [rowActs, rowPlans, first.exits_acts, exits_rowActs rest]

theorem exits_clauseActs : ∀ (clauses : List (Clause Stmt)) (own : List Variable)
    (around : List (List Variable)) (step : Nat × Nat) (index : Nat),
    exits (clauseActs types names own around step index clauses) =
      (clausePlans types names own around index clauses).map (.enter step)
  | [], _, _, _, _ => rfl
  | ⟨_, body⟩ :: rest, _, _, _, _ => by
      simp [-List.map_map, clauseActs, clausePlans, exits_rowActs body, exits_clauseActs rest]

end

/-- What a return releases is owned in the layers around it. -/
theorem exists_layers_of_mem_rowPlans {body : List Stmt} {own : List Variable}
    {around : List (List Variable)} {index : Nat} {returning : Returning}
    (member : returning ∈ rowPlans types names own around index body) :
    ∃ layers returned, returning.releases = planned layers returned := by
  rw [← exits_rowActs] at member
  obtain ⟨act, -, leaves⟩ := List.mem_filterMap.1 member
  cases act with
  | copy copied => cases leaves
  | leave leaving =>
    cases leaves
    exact ⟨leaving.layers, leaving.returned, rfl⟩

end Plans

end Ir

/-! ## Declared variables -/

namespace Declaration

/-- The declared name. -/
def name : Declaration → String
  | parameter param => param.name
  | inBlock _ x => x.name

/-- The declaration is that of a local that owns heap memory. -/
def isOwned : Declaration → Bool
  | parameter _ => false
  | inBlock _ x => x.type.isHeapOwned

end Declaration

theorem name_of_resolveFrom {name : String} {declared : Declaration} :
    ∀ {place here : Place} {known : Option Declaration} {statements : List CStmt},
      (∀ other, known = some other → other.name = name) →
        resolveFrom name known here statements place = some declared → declared.name = name
  | [], _, _, _, outer, found => outer _ found
  | _ :: _, _, known, _, outer, found => by
      obtain ⟨part, -, inside⟩ := Option.bind_eq_some_iff.1 found
      refine name_of_resolveFrom ?_ inside
      intro other isOther
      rcases Option.or_eq_some_iff.1 isOther with isLocal | ⟨-, isOuter⟩
      · obtain ⟨x, isThere, rfl⟩ := Option.map_eq_some_iff.1 isLocal
        exact (localOf_eq_some isThere).2
      · exact outer other isOuter

/-- A name stands for something of that name. -/
theorem CFunction.name_of_resolve {g : CFunction} {params : List Param} {name : String}
    {place : Place} {declared : Declaration}
    (found : g.resolve params name place = some declared) : declared.name = name := by
  refine name_of_resolveFrom ?_ found
  intro other isOther
  rcases Option.or_eq_some_iff.1 isOther with isParam | ⟨-, isLocal⟩
  · obtain ⟨param, isThere, rfl⟩ := Option.map_eq_some_iff.1 isParam
    have same := List.find?_some isThere
    exact beq_iff_eq.1 same
  · obtain ⟨x, isThere, rfl⟩ := Option.map_eq_some_iff.1 isLocal
    exact (localOf_eq_some isThere).2

/-! ## Ownership -/

namespace CFunction

variable (g : CFunction) (params : List Param)

/-- A copy gives `b` the memory of `a`: both are locals that own heap memory. -/
structure Shares (copied : Copy) (a b : Declaration) : Prop where
  source : g.resolve params copied.source copied.place = some a
  target : g.resolve params copied.target copied.place = some b
  source_owned : a.isOwned = true
  target_owned : b.isOwned = true
  apart : a ≠ b

/-- One of the releases at an exit frees the variable. -/
def Frees (leaving : Leaving) (declared : Declaration) : Prop :=
  ∃ release ∈ leaving.returning.releases,
    g.resolve params release.name leaving.place = some declared

/-- The variable is returned. -/
def GivesAway (leaving : Leaving) (declared : Declaration) : Prop :=
  ∃ name, leaving.returned = some name ∧ g.resolve params name leaving.place = some declared

/-- No exit that comes after a copy frees both variables, and none that returns the variable that
was assigned frees the other one. -/
def OwnedOnce (acts : List Act) : Prop :=
  acts.Pairwise <| Act.Later fun copied leaving => ∀ a b, g.Shares params copied a b →
    ¬ (g.Frees params leaving a ∧ g.Frees params leaving b) ∧
      (g.GivesAway params leaving b → ¬ g.Frees params leaving a)

/-- An exit reaches a variable: its name stands for the variable there, and it is returned or among
the owned locals that have been introduced around the exit. -/
def Reaches (leaving : Leaving) (declared : Declaration) : Prop :=
  g.resolve params declared.name leaving.place = some declared ∧
    (leaving.returned = some declared.name ∨
      ∃ x ∈ leaving.layers.flatten, x.name = declared.name ∧ x.type.isHeapOwned = true)

variable {g params} {leaving : Leaving} {declared a b : Declaration} {copied : Copy}

/-- A plan has a release of a name for an owned local of that name that is not returned. -/
theorem exists_planned_iff {layers : List (List Variable)} {returned : Option String}
    {name : String} :
    (∃ release ∈ planned layers returned, release.name = name) ↔
      returned ≠ some name ∧ ∃ x ∈ layers.flatten, x.name = name ∧ x.type.isHeapOwned = true := by
  simp only [planned, List.mem_filterMap, List.mem_filter, decide_eq_true_eq]
  constructor
  · rintro ⟨release, ⟨x, ⟨member, kept⟩, made⟩, rfl⟩
    have same := Variable.name_of_release? made
    have owned : x.type.isHeapOwned = true := by
      rw [← x.isSome_release?, made]
      rfl
    exact ⟨same ▸ kept, x, member, same.symm, owned⟩
  · rintro ⟨kept, x, member, rfl, owned⟩
    obtain ⟨release, made⟩ := Option.isSome_iff_exists.1 (x.isSome_release?.trans owned)
    exact ⟨release, ⟨x, ⟨member, kept⟩, made⟩, Variable.name_of_release? made⟩

/-- An exit frees what it reaches and does not return. -/
theorem frees_iff : g.Frees params leaving declared ↔
    g.Reaches params leaving declared ∧ leaving.returned ≠ some declared.name := by
  have named : g.Frees params leaving declared ↔
      g.resolve params declared.name leaving.place = some declared ∧
        ∃ release ∈ planned leaving.layers leaving.returned, release.name = declared.name := by
    constructor
    · rintro ⟨release, member, found⟩
      have same := name_of_resolve found
      exact ⟨same ▸ found, release, member, same.symm⟩
    · rintro ⟨found, release, member, same⟩
      exact ⟨release, member, same ▸ found⟩
  rw [named, exists_planned_iff]
  constructor
  · rintro ⟨found, kept, seen⟩
    exact ⟨⟨found, .inr seen⟩, kept⟩
  · rintro ⟨⟨found, returned | seen⟩, kept⟩
    · exact absurd returned kept
    · exact ⟨found, kept, seen⟩

/-- A variable is given away if it is returned by its name. -/
theorem givesAway_iff : g.GivesAway params leaving declared ↔
    g.Reaches params leaving declared ∧ leaving.returned = some declared.name := by
  constructor
  · rintro ⟨name, returned, found⟩
    obtain rfl := name_of_resolve found
    exact ⟨⟨found, .inl returned⟩, returned⟩
  · rintro ⟨⟨found, -⟩, returned⟩
    exact ⟨_, returned, found⟩

/-- Two variables that share memory have different names. -/
theorem Shares.name_ne (shares : g.Shares params copied a b) : a.name ≠ b.name := by
  intro same
  have source := name_of_resolve shares.source
  have target := name_of_resolve shares.target
  have found := shares.source
  rw [← source, same, target, shares.target] at found
  exact shares.apart (Option.some.inj found).symm

/-- An exit after a copy is fine if it returns what was copied, or if it does not reach both
variables. -/
theorem Shares.fine_iff (shares : g.Shares params copied a b) :
    (¬ (g.Frees params leaving a ∧ g.Frees params leaving b) ∧
      (g.GivesAway params leaving b → ¬ g.Frees params leaving a)) ↔
    (leaving.returned = some a.name ∨
      ¬ (g.Reaches params leaving a ∧ g.Reaches params leaving b)) := by
  have different := shares.name_ne
  rw [frees_iff, frees_iff, givesAway_iff]
  by_cases returnsSource : leaving.returned = some a.name
  · simp [returnsSource]
  by_cases returnsTarget : leaving.returned = some b.name
  · simp [returnsTarget, different.symm]
    tauto
  · simp [returnsSource, returnsTarget]

/-- What is asked of an exit after a copy. -/
def Fine (g : CFunction) (params : List Param) (copied : Copy) (leaving : Leaving) : Prop :=
  ∀ a b, g.Shares params copied a b → leaving.returned = some a.name ∨
    ¬ (g.Reaches params leaving a ∧ g.Reaches params leaving b)

/-- Memory is owned once if all exits after copies are fine. -/
theorem ownedOnce_iff_pairwise (acts : List Act) :
    g.OwnedOnce params acts ↔ acts.Pairwise (Act.Later (g.Fine params)) := by
  refine List.Pairwise.iff fun first second => ?_
  refine forall₂_congr fun copied leaving => forall₂_congr fun _ _ => forall₂_congr fun a b => ?_
  exact forall_congr' fun shares => shares.fine_iff

instance : Decidable (g.Reaches params leaving declared) :=
  inferInstanceAs (Decidable (_ ∧ (_ ∨ ∃ x ∈ leaving.layers.flatten, _ ∧ _)))

instance : Decidable (g.Fine params copied leaving) :=
  decidable_of_iff
    (∀ a ∈ g.resolve params copied.source copied.place,
      ∀ b ∈ g.resolve params copied.target copied.place,
        a.isOwned = true ∧ b.isOwned = true ∧ a ≠ b → leaving.returned = some a.name ∨
          ¬ (g.Reaches params leaving a ∧ g.Reaches params leaving b))
    ⟨fun each a b shares => each a shares.source b shares.target
        ⟨shares.source_owned, shares.target_owned, shares.apart⟩,
      fun fine a source b target owned =>
        fine a b ⟨source, target, owned.1, owned.2.1, owned.2.2⟩⟩

instance (acts : List Act) : Decidable (g.OwnedOnce params acts) :=
  decidable_of_iff _ (ownedOnce_iff_pairwise acts).symm

end CFunction

namespace Emit

variable {σ : Setting} {w w' : Workspace} {signature : String} {body : List Stmt}
  {releaseAtEnd isMain : Bool} {g : CFunction}

/-- The exits of a function release what the function releases. -/
theorem exits_functionBody (wf : w.scopes.WellFormed)
    (run : functionBody signature body releaseAtEnd isMain σ w = (.ok g, w')) :
    exits (bodyActs σ.types w'.names releaseAtEnd body) =
      g.returns ++ if releaseAtEnd then [⟨[], body.length, g.releases⟩] else [] := by
  obtain ⟨returns, releases⟩ := releases_functionBody wf run
  rw [bodyActs, exits_append, exits_rowActs, returns]
  cases releaseAtEnd with
  | false => rfl
  | true =>
    rw [if_pos rfl] at releases
    simp [releases, Leaving.returning]

/-- **When heap memory is owned once.** The exits of a function, in the order of translation, are
its returns and its end. No exit after a copy frees both variables of the copy, and none that
returns the assigned one frees the other, exactly if each exit after a copy returns the variable
that was copied or does not reach both. If it returns the one that was copied and reaches the other,
it frees the other. -/
theorem ownedOnce_iff (reachable : w.scopes.Reachable) (params : List Param)
    (run : functionBody signature body releaseAtEnd isMain σ w = (.ok g, w')) :
    exits (bodyActs σ.types w'.names releaseAtEnd body) =
        g.returns ++ (if releaseAtEnd then [⟨[], body.length, g.releases⟩] else []) ∧
      (g.OwnedOnce params (bodyActs σ.types w'.names releaseAtEnd body) ↔
        (bodyActs σ.types w'.names releaseAtEnd body).Pairwise (Act.Later fun copied leaving =>
          ∀ a b, g.Shares params copied a b → leaving.returned = some a.name ∨
            ¬ (g.Reaches params leaving a ∧ g.Reaches params leaving b))) ∧
      ∀ copied leaving a b, g.Shares params copied a b → leaving.returned = some a.name →
        g.Reaches params leaving b → g.Frees params leaving b := by
  refine ⟨exits_functionBody reachable.wellFormed run, CFunction.ownedOnce_iff_pairwise _, ?_⟩
  intro copied leaving a b shares returned reaches
  refine CFunction.frees_iff.2 ⟨reaches, fun same => shares.name_ne ?_⟩
  exact Option.some.inj (returned.symm.trans same)

/-- A setting in which some nodes are arrays. -/
def twoArrays : Setting where
  types
    | 1 | 6 | 7 => some (.dynamicArray .number)
    | _ => none
  includeMarker := "ts2c"

/-- An array gets a second name in a block; after the block, a number is returned. -/
def copiedInBlock : List Stmt :=
  [.declaration ⟨0, ⟨0, 20⟩⟩
      [⟨⟨1, ⟨4, 19⟩⟩, "a", some (.array ⟨2, ⟨16, 19⟩⟩ [.number ⟨3, ⟨17, 18⟩⟩ "1"])⟩],
    .block ⟨4, ⟨21, 35⟩⟩
      [.declaration ⟨5, ⟨23, 33⟩⟩ [⟨⟨6, ⟨27, 32⟩⟩, "b", some (.ident ⟨7, ⟨31, 32⟩⟩ "a")⟩]],
    .returnStmt ⟨8, ⟨36, 45⟩⟩ (some (.number ⟨9, ⟨43, 44⟩⟩ "0"))]

/-- The `return` does not reach the second name, and frees the array once. -/
theorem ownedOnce_iff_copiedInBlock : ∃ g w', ({} : Workspace).scopes.Reachable ∧
    functionBody "int16_t f(void)" copiedInBlock false false twoArrays {} = (.ok g, w') ∧
    g.returns.map (·.releases.map (·.name)) = [["a"]] ∧
    g.OwnedOnce [] (bodyActs twoArrays.types w'.names false copiedInBlock) := by
  have checked : (match functionBody "int16_t f(void)" copiedInBlock false false twoArrays {} with
    | (.ok g, w') =>
      decide (g.returns.map (·.releases.map (·.name)) = [["a"]]) &&
        decide ((bodyActs twoArrays.types w'.names false copiedInBlock).Pairwise
          (Act.Later (g.Fine [])))
    | _ => false) = true := by decide +kernel
  split at checked
  next g w' run =>
    obtain ⟨releases, fine⟩ := Bool.and_eq_true_iff.1 checked
    refine ⟨g, w', .empty, run, of_decide_eq_true releases, ?_⟩
    have fine : List.Pairwise (Act.Later (g.Fine [])) _ := of_decide_eq_true fine
    exact (ownedOnce_iff .empty [] run).2.1.2 fine
  next => cases checked

end Emit

/-! ## An array that is freed twice -/

/-- Declares an array, and gives it a second name. -/
def copiedArray : Source.Program :=
  [.statement (.declaration ⟨0, 22⟩ [⟨⟨4, 21⟩, some "a", some (.array .number),
      some (.array ⟨18, 21⟩ [some (.number ⟨19, 20⟩ (some ⟨1, 0⟩) "1")])⟩]),
    .statement (.declaration ⟨23, 33⟩ [⟨⟨27, 32⟩, some "b", none, some (.ident ⟨31, 32⟩ "a")⟩])]

/-- At the end of the main program the array is released under both names. -/
theorem copied_array_released_twice : ∃ lowered file w,
    Lowering.lowerProgram copiedArray = .ok lowered ∧
      Emit.program lowered.module ⟨lowered.types.find?, "ts2c"⟩
        { names := lowered.mentioned.foldl Names.reserve {} } = (.ok file, w) ∧
      file.main.releases.map (·.name) = ["a", "b"] ∧
      ¬ file.main.OwnedOnce []
        (bodyActs lowered.types.find? w.names true lowered.module.topLevel) := by
  have checked : (Lowering.lowerProgram copiedArray).toOption.any (fun lowered =>
      let emitted := Emit.program lowered.module ⟨lowered.types.find?, "ts2c"⟩
        { names := lowered.mentioned.foldl Names.reserve {} }
      emitted.1.toOption.any fun file =>
        decide (file.main.releases.map (·.name) = ["a", "b"]) &&
          !decide (file.main.OwnedOnce []
            (bodyActs lowered.types.find? emitted.2.names true lowered.module.topLevel))) =
      true := by
    decide +kernel
  cases lower : Lowering.lowerProgram copiedArray with
  | error cause =>
    rw [lower] at checked
    cases checked
  | ok lowered =>
    rw [lower, Except.toOption, Option.any_some] at checked
    rcases emit : Emit.program lowered.module ⟨lowered.types.find?, "ts2c"⟩
        { names := lowered.mentioned.foldl Names.reserve {} } with ⟨cause | file, w⟩
    · rw [emit] at checked
      cases checked
    · rw [emit] at checked
      obtain ⟨releases, twice⟩ := Bool.and_eq_true_iff.1 checked
      refine ⟨lowered, file, w, rfl, emit, of_decide_eq_true releases, ?_⟩
      exact of_decide_eq_false (Bool.not_eq_true' _ ▸ twice)

end ScriptToC
