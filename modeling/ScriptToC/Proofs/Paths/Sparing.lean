import ScriptToC.Proofs.Paths.Basic

/-!
# Exits that can be reached without a write

Whether some path leaves a statement in a given way without writing to a given variable can be found
by going through the statement once: what has not been written to in the first round of a loop need
not be written to in the others. `Stmt.spares` computes this, and is exact (`rowSpares_exact`).
-/

set_option autoImplicit false

namespace ScriptToC

open Ir

/-- The names that stand for a variable, place by place. -/
abbrev Target := Place → String → Bool

/-- The names that stand for a variable in a part. -/
def Target.within (target : Target) (step : Nat × Nat) : Target :=
  fun place => target (step :: place)

/-- None of the writes goes to the variable. -/
def Spares (target : Target) (written : List Write) : Prop :=
  ∀ write ∈ written, target write.place write.name = false

/-- One of the rows of names has none that stands for the variable. -/
def Target.avoidable (target : Target) (place : Place) (ways : List (List String)) : Bool :=
  ways.any (·.all fun name => !target place name)

/-- The exits that can be reached without a write to a variable. -/
abbrev Spared := Exit → Bool

namespace Spared

/-- Only this exit. -/
def leave (exit : Exit) : Spared := fun out => out = exit

/-- No exit. -/
def none : Spared := fun _ => false

/-- The normal exit, if the writes can be avoided. -/
def writing (avoidable : Bool) : Spared := fun out => avoidable && out = .normal

/-- The exits of both. -/
def either (first second : Spared) : Spared := fun out => first out || second out

/-- The exits of what follows, if it is reached, and those that skip it. -/
def andThen (first rest : Spared) : Spared := fun out =>
  (first out && out ≠ .normal) || (first .normal && rest out)

/-- The exits of a part, seen from outside the part. -/
def within (step : Nat × Nat) (inside : Spared) : Spared
  | .returned (first :: place) index => first = step && inside (.returned place index)
  | .returned [] _ => false
  | other => inside other

/-- The exits of a loop that ends with its body. -/
def ends (body : Spared) : Spared
  | .normal => body .broken
  | .returned place index => body (.returned place index)
  | .broken | .continued => false

/-- The exits of the body of a loop, and of the rest of the loop if it goes on. -/
def iterate (body rest : Spared) : Spared := fun out =>
  body.ends out || ((body .normal || body .continued) && rest out)

/-- The exits of a loop. -/
def loop (stop go : Bool) (body : Spared) : Spared := fun out =>
  (stop && out = .normal) || (go && body.ends out)

/-- The exits of a `switch` from those of its clauses. -/
def ofClauses (clauses : Spared) : Spared
  | .normal => clauses .normal || clauses .broken
  | .broken => false
  | other => clauses other

end Spared

open Spared

namespace Ir

mutual

/-- The exits that the statement with a given index can reach without a write to a variable. -/
def Stmt.spares (target : Target) (index : Nat) : Stmt → Spared
  | .breakStmt _ => leave .broken
  | .continueStmt _ => leave .continued
  | .emptyStmt _ | .importFrom _ _ => leave .normal
  | .returnStmt _ _ => leave (.returned [] index)
  | .expression _ e => writing (target.avoidable [] e.ways)
  | .declaration _ declarators => writing (target.avoidable [] (declarationWays declarators))
  | .block _ body => within (index, 0) (rowSpares (target.within (index, 0)) 0 body)
  | .ifThen _ test ⟨_, body⟩ =>
    andThen (writing (target.avoidable [] test.ways))
      (either (leave .normal) (within (index, 0) (rowSpares (target.within (index, 0)) 0 body)))
  | .ifElse _ test ⟨_, body⟩ ⟨_, otherwise⟩ =>
    andThen (writing (target.avoidable [] test.ways))
      (either (within (index, 0) (rowSpares (target.within (index, 0)) 0 body))
        (within (index, 1) (rowSpares (target.within (index, 1)) 0 otherwise)))
  | .whileLoop _ test ⟨_, body⟩ =>
    loop (target.avoidable [] test.ways) (target.avoidable [] test.ways)
      (within (index, 0) (rowSpares (target.within (index, 0)) 0 body))
  | .doLoop _ ⟨_, body⟩ test =>
    let body := within (index, 0) (rowSpares (target.within (index, 0)) 0 body)
    iterate body (loop (target.avoidable [] test.ways) (target.avoidable [] test.ways) body)
  | .forLoop _ init test _ ⟨_, body⟩ =>
    andThen (writing (target.avoidable [] (startWays init)))
      (loop (target.avoidable [] (test.elim [] Expr.ways)) (target.avoidable [] (partWays test))
        (within (index, 0) (rowSpares (target.within (index, 0)) 0 body)))
  | .forOf _ left right body =>
    andThen (writing (target.avoidable [] right.ways))
      (loop true (target.avoidable [(index, 0)] left.ways)
        (within (index, 0) (body.spares (target.within (index, 0)) 0)))
  | .forIn _ left right ⟨_, body⟩ =>
    andThen (writing (target.avoidable [] right.ways))
      (loop true (target.avoidable [(index, 0)] left.ways)
        (within (index, 0) (rowSpares (target.within (index, 0)) 0 body)))
  | .switchOn _ discriminant clauses =>
    andThen (writing (target.avoidable [] discriminant.ways))
      (ofClauses (selectedSpares target (index, 0) clauses 0 clauses))

/-- The exits of statements in a row, the first of which has the given index. -/
def rowSpares (target : Target) (index : Nat) : List Stmt → Spared
  | [] => leave .normal
  | first :: rest => andThen (first.spares target index) (rowSpares target (index + 1) rest)

/-- The exits of clauses that fall through, the first of which has the given index. -/
def clauseSpares (target : Target) (index : Nat) : List (Clause Stmt) → Spared
  | [] => leave .normal
  | ⟨_, body⟩ :: rest =>
    andThen (within (index, 0) (rowSpares (target.within (index, 0)) 0 body))
      (clauseSpares target (index + 1) rest)

/-- The exits of the last clauses of a `switch`, if one of them is selected, or of the `switch` if
none of its clauses is. -/
def selectedSpares (target : Target) (step : Nat × Nat) (all : List (Clause Stmt)) (index : Nat) :
    List (Clause Stmt) → Spared
  | [] =>
    if all.all (·.test.isSome) then writing (target.avoidable [] (testWays all)) else none
  | ⟨_, body⟩ :: rest =>
    let target' := target.within step
    either
      (andThen (writing (target.avoidable [] (reachingWays all index)))
        (within step
          (andThen (within (index, 0) (rowSpares (target'.within (index, 0)) 0 body))
            (clauseSpares target' (index + 1) rest))))
      (selectedSpares target step all (index + 1) rest)

end

end Ir

/-! ## Exactness -/

/-- The exits are exactly those of the paths that spare the variable. -/
def Exact (target : Target) (paths : Paths) (spared : Spared) : Prop :=
  ∀ out, spared out = true ↔ ∃ written, paths written out ∧ Spares target written

section Exactness

variable {target : Target} {written written' : List Write} {paths rest body : Paths}
  {spared spared' inside : Spared} {step : Nat × Nat}

theorem spares_nil : Spares target [] := by
  intro write member
  cases member

theorem spares_append :
    Spares target (written ++ written') ↔ Spares target written ∧ Spares target written' :=
  List.forall_mem_append

/-- Writes in a part go to the variable if they do inside the part. -/
theorem spares_enter :
    Spares target (written.map (.enter step)) ↔ Spares (target.within step) written :=
  List.forall_mem_map

/-- Some row at a place spares the variable if the rows of names can be avoided. -/
theorem avoidable_iff (target : Target) (place : Place) (ways : List (List String)) :
    target.avoidable place ways = true ↔
      ∃ written ∈ writesAt place ways, Spares target written := by
  simp only [Target.avoidable, List.any_eq_true, List.all_eq_true, Bool.not_eq_true', writesAt,
    List.mem_map]
  constructor
  · rintro ⟨names, isWay, avoids⟩
    refine ⟨_, ⟨names, isWay, rfl⟩, ?_⟩
    intro write member
    obtain ⟨name, isName, rfl⟩ := List.mem_map.1 member
    exact avoids name isName
  · rintro ⟨_, ⟨names, isWay, rfl⟩, spares⟩
    refine ⟨names, isWay, ?_⟩
    intro name isName
    exact spares _ (List.mem_map_of_mem isName)

theorem exact_leave (exit : Exit) : Exact target (.leave exit) (.leave exit) := by
  intro out
  simp only [Spared.leave, Paths.leave, decide_eq_true_eq]
  constructor
  · intro same
    exact ⟨[], ⟨rfl, same⟩, spares_nil⟩
  · rintro ⟨_, ⟨-, same⟩, -⟩
    exact same

theorem exact_none : Exact target .none .none := by
  intro out
  simp [Spared.none, Paths.none]

theorem exact_writing (place : Place) (ways : List (List String)) :
    Exact target (.writing (writesAt place ways)) (.writing (target.avoidable place ways)) := by
  intro out
  simp only [Spared.writing, Paths.writing, Bool.and_eq_true, decide_eq_true_eq, avoidable_iff]
  constructor
  · rintro ⟨⟨written, isWay, spares⟩, normal⟩
    exact ⟨written, ⟨isWay, normal⟩, spares⟩
  · rintro ⟨written, ⟨isWay, normal⟩, spares⟩
    exact ⟨⟨written, isWay, spares⟩, normal⟩

theorem Exact.either (first : Exact target paths spared) (second : Exact target rest spared') :
    Exact target (.either paths rest) (.either spared spared') := by
  intro out
  simp only [Spared.either, Paths.either, Bool.or_eq_true, first out, second out, or_and_right,
    exists_or]

theorem Exact.andThen (first : Exact target paths spared) (next : Exact target rest spared') :
    Exact target (.andThen paths rest) (.andThen spared spared') := by
  intro out
  simp only [Spared.andThen, Bool.or_eq_true, Bool.and_eq_true, decide_eq_true_eq, first out,
    first .normal, next out]
  constructor
  · rintro (⟨⟨written, run, spares⟩, left⟩ | ⟨⟨before, run, spares⟩, after, run', spares'⟩)
    · exact ⟨written, .inl ⟨run, left⟩, spares⟩
    · exact ⟨before ++ after, .inr ⟨before, after, run, run', rfl⟩,
        spares_append.2 ⟨spares, spares'⟩⟩
  · rintro ⟨written, ⟨run, left⟩ | ⟨before, after, run, run', rfl⟩, spares⟩
    · exact .inl ⟨⟨written, run, spares⟩, left⟩
    · obtain ⟨spares, spares'⟩ := spares_append.1 spares
      exact .inr ⟨⟨before, run, spares⟩, after, run', spares'⟩

theorem within_iff {out : Exit} : Spared.within step spared out = true ↔
    ∃ out', spared out' = true ∧ out = out'.enter step := by
  constructor
  · intro reached
    match out with
    | .normal => exact ⟨.normal, reached, rfl⟩
    | .broken => exact ⟨.broken, reached, rfl⟩
    | .continued => exact ⟨.continued, reached, rfl⟩
    | .returned (first :: place) index =>
      obtain ⟨same, reached⟩ := Bool.and_eq_true_iff.1 reached
      exact ⟨.returned place index, reached, by rw [of_decide_eq_true same, Exit.enter]⟩
  · rintro ⟨out', reached, rfl⟩
    cases out' with
    | returned place index =>
      exact Bool.and_eq_true_iff.2 ⟨decide_eq_true rfl, reached⟩
    | _ => exact reached

theorem Exact.within (exact : Exact (target.within step) paths spared) :
    Exact target (.within step paths) (.within step spared) := by
  intro out
  rw [within_iff]
  constructor
  · rintro ⟨out', reached, rfl⟩
    obtain ⟨written, run, spares⟩ := (exact out').1 reached
    exact ⟨_, ⟨written, out', run, rfl, rfl⟩, spares_enter.2 spares⟩
  · rintro ⟨_, ⟨written, out', run, rfl, rfl⟩, spares⟩
    exact ⟨out', (exact out').2 ⟨written, run, spares_enter.1 spares⟩, rfl⟩

theorem ends_iff {out : Exit} :
    Spared.ends spared out = true ↔ ∃ exit, spared exit = true ∧ exit.endsLoop = some out := by
  constructor
  · intro reached
    match out with
    | .normal => exact ⟨.broken, reached, rfl⟩
    | .returned place index => exact ⟨.returned place index, reached, rfl⟩
  · rintro ⟨exit, reached, ends⟩
    cases exit with
    | normal | continued => cases ends
    | broken | returned =>
      cases ends
      exact reached

theorem repeats_iff :
    (spared .normal || spared .continued) = true ↔
      ∃ exit, spared exit = true ∧ exit.repeats = true := by
  rw [Bool.or_eq_true]
  constructor
  · rintro (reached | reached)
    · exact ⟨.normal, reached, rfl⟩
    · exact ⟨.continued, reached, rfl⟩
  · rintro ⟨exit, reached, repeats⟩
    cases exit with
    | normal => exact .inl reached
    | continued => exact .inr reached
    | broken | returned => cases repeats

theorem Exact.iterate (exact : Exact target body spared) (next : Exact target rest spared') :
    Exact target (.iterate body rest) (.iterate spared spared') := by
  intro out
  rw [Spared.iterate, Bool.or_eq_true, Bool.and_eq_true, ends_iff, repeats_iff, next out]
  constructor
  · rintro (⟨exit, reached, ends⟩ | ⟨⟨exit, reached, repeats⟩, after, run', spares'⟩)
    · obtain ⟨written, run, spares⟩ := (exact exit).1 reached
      exact ⟨written, .inl ⟨exit, run, ends⟩, spares⟩
    · obtain ⟨before, run, spares⟩ := (exact exit).1 reached
      exact ⟨before ++ after, .inr ⟨before, after, exit, run, repeats, run', rfl⟩,
        spares_append.2 ⟨spares, spares'⟩⟩
  · rintro ⟨written, ⟨exit, run, ends⟩ | ⟨before, after, exit, run, repeats, run', rfl⟩, spares⟩
    · exact .inl ⟨exit, (exact exit).2 ⟨written, run, spares⟩, ends⟩
    · obtain ⟨spares, spares'⟩ := spares_append.1 spares
      exact .inr ⟨⟨exit, (exact exit).2 ⟨before, run, spares⟩, repeats⟩, after, run', spares'⟩

/-- A path through a loop that spares the variable ends with its first round or after some that
could have been left out. -/
theorem Exact.loop {stop go update : List (List Write)} {stops goes : Bool}
    (stopping : stops = true ↔ ∃ written ∈ stop, Spares target written)
    (going : goes = true ↔ ∃ written ∈ go, Spares target written)
    (exact : Exact target body spared) :
    Exact target (.loop stop go update body) (.loop stops goes spared) := by
  intro out
  simp only [Spared.loop, Bool.or_eq_true, Bool.and_eq_true, decide_eq_true_eq, ends_iff]
  constructor
  · rintro (⟨isStop, rfl⟩ | ⟨isGo, exit, reached, ends⟩)
    · obtain ⟨written, member, spares⟩ := stopping.1 isStop
      exact ⟨written, .stop member, spares⟩
    · obtain ⟨first, member, spares⟩ := going.1 isGo
      obtain ⟨written, run, spares'⟩ := (exact exit).1 reached
      exact ⟨first ++ written, .leave member run ends, spares_append.2 ⟨spares, spares'⟩⟩
  · rintro ⟨written, run, spares⟩
    induction run with
    | stop member => exact .inl ⟨stopping.2 ⟨_, member, spares⟩, rfl⟩
    | leave member inside ends =>
      obtain ⟨spares, spares'⟩ := spares_append.1 spares
      exact .inr ⟨going.2 ⟨_, member, spares⟩, _, (exact _).2 ⟨_, inside, spares'⟩, ends⟩
    | again _ _ _ _ _ ih =>
      apply ih
      exact (spares_append.1 (spares_append.1 (spares_append.1 spares).2).2).2

theorem Exact.ofClauses (exact : Exact target paths spared) :
    Exact target (.ofClauses paths) (.ofClauses spared) := by
  have left : ∀ {out : Exit}, Spared.ofClauses spared out = true ↔
      ∃ exit, spared exit = true ∧ out = exit.leavesSwitch := by
    intro out
    constructor
    · intro reached
      match out with
      | .normal =>
        rcases Bool.or_eq_true_iff.1 reached with reached | reached
        · exact ⟨.normal, reached, rfl⟩
        · exact ⟨.broken, reached, rfl⟩
      | .continued => exact ⟨.continued, reached, rfl⟩
      | .returned place index => exact ⟨.returned place index, reached, rfl⟩
    · rintro ⟨exit, reached, rfl⟩
      cases exit with
      | normal => exact Bool.or_eq_true_iff.2 (.inl reached)
      | broken => exact Bool.or_eq_true_iff.2 (.inr reached)
      | _ => exact reached
  intro out
  rw [left]
  constructor
  · rintro ⟨exit, reached, rfl⟩
    obtain ⟨written, run, spares⟩ := (exact exit).1 reached
    exact ⟨written, ⟨exit, run, rfl⟩, spares⟩
  · rintro ⟨written, ⟨exit, run, rfl⟩, spares⟩
    exact ⟨exit, (exact exit).2 ⟨written, run, spares⟩, rfl⟩

end Exactness

/-- A loop over a collection may always stop. -/
theorem stops_always (target : Target) :
    true = true ↔ ∃ written ∈ ([[]] : List (List Write)), Spares target written :=
  iff_of_true rfl ⟨[], List.mem_singleton_self [], spares_nil⟩

namespace Ir

mutual

/-- Going through a statement once finds exactly the exits that some path reaches without a write to
the variable. -/
theorem Stmt.spares_exact : ∀ (s : Stmt) (target : Target) (index : Nat),
    Exact target (s.paths index) (s.spares target index)
  | .breakStmt _, _, _ => exact_leave _
  | .continueStmt _, _, _ => exact_leave _
  | .emptyStmt _, _, _ => exact_leave _
  | .importFrom _ _, _, _ => exact_leave _
  | .returnStmt _ _, _, _ => exact_leave _
  | .expression _ e, _, _ => exact_writing [] e.ways
  | .declaration _ declarators, _, _ => exact_writing [] (declarationWays declarators)
  | .block _ body, target, index => (rowSpares_exact body (target.within (index, 0)) 0).within
  | .ifThen _ test ⟨_, body⟩, target, index =>
      (exact_writing [] test.ways).andThen
        ((exact_leave .normal).either (rowSpares_exact body (target.within (index, 0)) 0).within)
  | .ifElse _ test ⟨_, body⟩ ⟨_, otherwise⟩, target, index =>
      (exact_writing [] test.ways).andThen
        ((rowSpares_exact body (target.within (index, 0)) 0).within.either
          (rowSpares_exact otherwise (target.within (index, 1)) 0).within)
  | .whileLoop _ test ⟨_, body⟩, target, index =>
      .loop (avoidable_iff target [] test.ways) (avoidable_iff target [] test.ways)
        (rowSpares_exact body (target.within (index, 0)) 0).within
  | .doLoop _ ⟨_, body⟩ test, target, index => by
      have inside := (rowSpares_exact body (target.within (index, 0)) 0).within
      exact inside.iterate
        (.loop (avoidable_iff target [] test.ways) (avoidable_iff target [] test.ways) inside)
  | .forLoop _ init test _ ⟨_, body⟩, target, index =>
      (exact_writing [] (startWays init)).andThen
        (.loop (avoidable_iff target [] _) (avoidable_iff target [] _)
          (rowSpares_exact body (target.within (index, 0)) 0).within)
  | .forOf _ left right body, target, index =>
      (exact_writing [] right.ways).andThen
        (.loop (stops_always target) (avoidable_iff target [(index, 0)] left.ways)
          (body.spares_exact (target.within (index, 0)) 0).within)
  | .forIn _ left right ⟨_, body⟩, target, index =>
      (exact_writing [] right.ways).andThen
        (.loop (stops_always target) (avoidable_iff target [(index, 0)] left.ways)
          (rowSpares_exact body (target.within (index, 0)) 0).within)
  | .switchOn _ discriminant clauses, target, index =>
      (exact_writing [] discriminant.ways).andThen
        (selectedSpares_exact (index, 0) clauses clauses target 0).ofClauses

theorem rowSpares_exact : ∀ (list : List Stmt) (target : Target) (index : Nat),
    Exact target (rowPaths index list) (rowSpares target index list)
  | [], _, _ => exact_leave .normal
  | first :: rest, target, index =>
      (first.spares_exact target index).andThen (rowSpares_exact rest target (index + 1))

theorem clauseSpares_exact : ∀ (list : List (Clause Stmt)) (target : Target) (index : Nat),
    Exact target (clausePaths index list) (clauseSpares target index list)
  | [], _, _ => exact_leave .normal
  | ⟨_, body⟩ :: rest, target, index =>
      (rowSpares_exact body (target.within (index, 0)) 0).within.andThen
        (clauseSpares_exact rest target (index + 1))

theorem selectedSpares_exact (step : Nat × Nat) (all : List (Clause Stmt)) :
    ∀ (list : List (Clause Stmt)) (target : Target) (index : Nat),
      Exact target (selectedPaths step all index list) (selectedSpares target step all index list)
  | [], target, index => by
      rw [selectedPaths, selectedSpares]
      split
      · exact exact_writing [] (testWays all)
      · exact exact_none
  | ⟨_, body⟩ :: rest, target, index => by
      have first := (rowSpares_exact body ((target.within step).within (index, 0)) 0).within
      have fallen := first.andThen (clauseSpares_exact rest (target.within step) (index + 1))
      exact ((exact_writing [] (reachingWays all index)).andThen fallen.within).either
        (selectedSpares_exact step all rest target (index + 1))

end

end Ir

end ScriptToC
