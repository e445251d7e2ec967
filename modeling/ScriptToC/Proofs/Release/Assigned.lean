import ScriptToC.Proofs.Hoisting.Capture
import ScriptToC.Proofs.Paths.Sparing
import ScriptToC.Proofs.Release.Returns

/-!
# When released variables have been assigned

A function releases a variable that has never been assigned if some path leads to the release
without a write to the variable. Plans follow the order of translation, so this can happen: a
declaration may have no initializer, a loop may not run, a branch may not be taken. Whether it
happens can be read off the source (`releasesAssigned_iff`).
-/

set_option autoImplicit false

namespace ScriptToC

open Ir ScopeTree

/-! ## Released variables -/

namespace CFunction

/-- One of the writes goes to the variable that the name stands for at the place. -/
def Assigned (g : CFunction) (params : List Param) (written : List Write) (name : String)
    (place : Place) : Prop :=
  ∃ declared, g.resolve params name place = some declared ∧
    ∃ write ∈ written, g.resolve params write.name write.place = some declared

/-- What a function releases has been assigned, on every path to the release: at each return and, if
the function releases at its end, there. -/
structure ReleasesAssigned (g : CFunction) (params : List Param) (body : List Stmt) : Prop where
  returns : ∀ returning ∈ g.returns, ∀ release ∈ returning.releases, ∀ written : List Write,
    rowPaths 0 body written (.returned returning.place returning.index) →
      g.Assigned params written release.name returning.place
  ending : ∀ release ∈ g.releases, ∀ written : List Write, rowPaths 0 body written .normal →
    g.Assigned params written release.name []

/-- The names that stand for the same variable as a name at a place. -/
def target (g : CFunction) (params : List Param) (name : String) (place : Place) : Target :=
  fun place' name' => (g.resolve params name place).any fun declared =>
    g.resolve params name' place' = some declared

/-- The exit cannot be reached without a write to each variable that is released at the place. -/
def alwaysAssigned (g : CFunction) (params : List Param) (body : List Stmt) (place : Place)
    (exit : Exit) (releases : List Release) : Bool :=
  releases.all fun release => !rowSpares (g.target params release.name place) 0 body exit

variable {g : CFunction} {params : List Param} {name : String} {place : Place} {body : List Stmt}
  {exit : Exit}

theorem spares_target {written : List Write} :
    Spares (g.target params name place) written ↔ ¬ g.Assigned params written name place := by
  cases resolved : g.resolve params name place with
  | none => simp [Spares, target, Assigned, resolved]
  | some declared =>
    simp only [Spares, target, Assigned, resolved, Option.any_some, decide_eq_false_iff_not]
    constructor
    · rintro spares ⟨_, same, write, member, writes⟩
      cases same
      exact spares write member writes
    · intro missed write member writes
      exact missed ⟨declared, rfl, write, member, writes⟩

/-- A variable is assigned on all paths to an exit exactly if the exit cannot be reached without a
write to it. -/
theorem alwaysAssigned_iff {releases : List Release} :
    g.alwaysAssigned params body place exit releases = true ↔
      ∀ release ∈ releases, ∀ written : List Write, rowPaths 0 body written exit →
        g.Assigned params written release.name place := by
  have each : ∀ name : String, (!rowSpares (g.target params name place) 0 body exit) = true ↔
      ∀ written : List Write, rowPaths 0 body written exit →
        g.Assigned params written name place := by
    intro name
    rw [Bool.not_eq_true', ← Bool.not_eq_true, rowSpares_exact body _ 0 exit]
    constructor
    · intro none written path
      by_contra missed
      exact none ⟨written, path, spares_target.2 missed⟩
    · rintro assigned ⟨written, path, spares⟩
      exact spares_target.1 spares (assigned written path)
  simp only [alwaysAssigned, List.all_eq_true, each]

end CFunction

/-! ## Functions -/

namespace Emit

variable {σ : Setting} {w w' : Workspace} {signature : String} {body : List Stmt}
  {releaseAtEnd isMain : Bool} {g : CFunction}

/-- The releases of a function are read off its source. -/
theorem releases_functionBody (wf : w.scopes.WellFormed)
    (run : functionBody signature body releaseAtEnd isMain σ w = (.ok g, w')) :
    g.returns = rowPlans σ.types w'.names [] [] 0 body ∧
      g.releases = if releaseAtEnd then
        planned [introduce [] (rowLocals σ.types w'.names body)] none else [] := by
  obtain ⟨scope, opened, xs, made, all, -, -, ends⟩ := emits_functionBody run
  have shown := layered_newFunction wf made
  refine ⟨all.returns_eq 0 shown (.refl _), ?_⟩
  rw [← all.locals_eq (.refl _)]
  cases releaseAtEnd with
  | false => exact ends
  | true =>
    have next := shown.next all.evolves.scopes (all.frame shown.isScope)
    rw [if_pos rfl, next.releases?_eq] at ends
    exact (Option.some.inj ends).symm

/-- **When released variables have been assigned.** On every path through a function, what is
released at a return or at the end has been assigned before, exactly if for each return and for the
end, no path leads there without a write to a variable that the plan releases. -/
theorem releasesAssigned_iff (reachable : w.scopes.Reachable) (params : List Param)
    (run : functionBody signature body releaseAtEnd isMain σ w = (.ok g, w')) :
    g.ReleasesAssigned params body ↔
      (∀ returning ∈ rowPlans σ.types w'.names [] [] 0 body,
        g.alwaysAssigned params body returning.place (.returned returning.place returning.index)
          returning.releases = true) ∧
      (releaseAtEnd = true → g.alwaysAssigned params body [] .normal
        (planned [introduce [] (rowLocals σ.types w'.names body)] none) = true) := by
  obtain ⟨returns, releases⟩ := releases_functionBody reachable.wellFormed run
  simp only [← returns, CFunction.alwaysAssigned_iff]
  constructor
  · rintro ⟨each, ending⟩
    refine ⟨each, ?_⟩
    rintro rfl
    rw [if_pos rfl] at releases
    rwa [releases] at ending
  · rintro ⟨each, ending⟩
    refine ⟨each, ?_⟩
    rw [releases]
    cases releaseAtEnd with
    | false => simp
    | true => exact ending rfl

/-- A setting in which some nodes have types. -/
def arraysAndNumbers : Setting where
  types
    | 1 | 6 | 7 => some (.dynamicArray .number)
    | 14 => some .number
    | _ => none
  includeMarker := "ts2c"

/-- Declares `xs` without an initializer and assigns it in a loop that is left in its first round,
or repeated. Both returns, one of them in a clause of a `switch`, come after the loop. -/
def assignedInLoop : List Stmt :=
  [.declaration ⟨0, ⟨0, 17⟩⟩ [⟨⟨1, ⟨4, 16⟩⟩, "xs", none⟩],
    .doLoop ⟨2, ⟨18, 60⟩⟩ ⟨some ⟨3, ⟨21, 47⟩⟩,
      [.expression ⟨4, ⟨23, 31⟩⟩ (.assign ⟨5, ⟨23, 30⟩⟩ none (.ident ⟨6, ⟨23, 25⟩⟩ "xs")
          (.ident ⟨7, ⟨28, 30⟩⟩ "ys")),
        .ifThen ⟨8, ⟨32, 45⟩⟩ (.ident ⟨9, ⟨36, 37⟩⟩ "c") ⟨none, [.breakStmt ⟨10, ⟨39, 45⟩⟩]⟩]⟩
      (.ident ⟨11, ⟨55, 56⟩⟩ "d"),
    .switchOn ⟨12, ⟨61, 90⟩⟩ (.ident ⟨14, ⟨69, 70⟩⟩ "n")
      [⟨some (.number ⟨15, ⟨78, 79⟩⟩ "1"),
        [.returnStmt ⟨16, ⟨81, 90⟩⟩ (some (.number ⟨17, ⟨88, 89⟩⟩ "1"))]⟩],
    .returnStmt ⟨18, ⟨91, 100⟩⟩ (some (.number ⟨19, ⟨98, 99⟩⟩ "0"))]

/-- On every path, `xs` has been assigned when it is released. -/
theorem releasesAssigned_iff_assignedInLoop : ∃ g w',
    ({} : Workspace).scopes.Reachable ∧
      functionBody "int16_t f(int16_t n)" assignedInLoop false false arraysAndNumbers {} =
        (.ok g, w') ∧
      g.returns.map (·.releases.map (·.name)) = [["xs"], ["xs"]] ∧
      g.ReleasesAssigned [⟨20, "n", .number⟩] assignedInLoop := by
  have checked : (match functionBody "int16_t f(int16_t n)" assignedInLoop false false
      arraysAndNumbers {} with
    | (.ok g, w') =>
      decide (g.returns.map (·.releases.map (·.name)) = [["xs"], ["xs"]]) &&
        (rowPlans arraysAndNumbers.types w'.names [] [] 0 assignedInLoop).all fun returning =>
          g.alwaysAssigned [⟨20, "n", .number⟩] assignedInLoop returning.place
            (.returned returning.place returning.index) returning.releases
    | _ => false) = true := by decide +kernel
  split at checked
  next g w' run =>
    obtain ⟨releases, assigned⟩ := Bool.and_eq_true_iff.1 checked
    refine ⟨g, w', .empty, run, of_decide_eq_true releases, ?_⟩
    rw [releasesAssigned_iff .empty _ run]
    exact ⟨List.all_eq_true.1 assigned, nofun⟩
  next => cases checked

end Emit

/-! ## A variable that is never assigned -/

/-- Declares an array, and does nothing else. -/
def declaredOnly : Source.Program :=
  [.statement (.declaration ⟨0, 17⟩ [⟨⟨4, 16⟩, some "xs", some (.array .number), none⟩])]

/-- The array is released at the end of the main program, and has never been assigned. -/
theorem declared_array_released_unassigned : ∃ lowered file w,
    Lowering.lowerProgram declaredOnly = .ok lowered ∧
      Emit.program lowered.module ⟨lowered.types.find?, "ts2c"⟩
        { names := lowered.mentioned.foldl Names.reserve {} } = (.ok file, w) ∧
      file.main.releases.map (·.name) = ["xs"] ∧
      ¬ file.main.ReleasesAssigned [] lowered.module.topLevel := by
  have writesNothing : (emitted? declaredOnly "ts2c").any (fun done =>
      done.2.main.releases.map (·.name) = ["xs"] &&
        rowSpares (fun _ _ => true) 0 done.1.module.topLevel .normal) = true := by decide +kernel
  obtain ⟨⟨lowered, file⟩, done, found⟩ := (Option.any_eq_true _ _).1 writesNothing
  obtain ⟨lower, w, emit⟩ := emitted?_eq_some done
  obtain ⟨releases, spares⟩ := Bool.and_eq_true_iff.1 found
  have releases : file.main.releases.map (·.name) = ["xs"] := of_decide_eq_true releases
  refine ⟨lowered, file, w, lower, emit, releases, ?_⟩
  intro assigned
  obtain ⟨written, path, noWrite⟩ := (rowSpares_exact _ _ _ _).1 spares
  obtain ⟨release, isRelease, -⟩ := List.mem_map.1 (releases ▸ List.mem_singleton_self "xs")
  obtain ⟨_, -, write, member, -⟩ := assigned.ending release isRelease written path
  cases noWrite write member

end ScriptToC
