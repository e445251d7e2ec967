import ScriptToC.Proofs.Emission.Evolution
import ScriptToC.Proofs.Emission.Frame
import ScriptToC.Proofs.Hoisting.Places

/-!
# Where bindings are declared

Emitting a row of statements places every binding in its home: the home declares the name, and at
the site of the binding, as at the home itself, the name stands for this local. The other way round,
a local that a block declares under a name that the script mentions comes from a binding whose home
the block is, with the type of that binding; only counters and temporaries come from nowhere, and
these have other names (`EmitsAll.placed`).
-/

set_option autoImplicit false

namespace ScriptToC

open Ir ScopeTree

/-! ## Locals by name -/

theorem localOf_append (locals xs : List Variable) (name : String) :
    localOf (locals ++ xs) name = (localOf locals name).or (localOf xs name) :=
  List.find?_append

theorem localOf_declare (locals : List Variable) (x : Variable) (name : String) :
    localOf (declare locals x) name = (localOf locals name).or (localOf [x] name) := by
  rw [declare]
  split
  next old =>
    by_cases same : x.name = name
    · -- The name is there already.
      rw [same] at old
      have isThere := List.find?_isSome.2 (List.any_eq_true.1 old)
      obtain ⟨found, isLocal⟩ := Option.isSome_iff_exists.1 isThere
      rw [localOf, isLocal, Option.some_or]
    · rw [localOf, localOf, List.find?_cons_of_neg (by simpa using same), List.find?_nil,
        Option.or_none]
  next => exact localOf_append locals [x] name

/-- Of several locals of a name the first one counts. -/
theorem localOf_introduce (locals xs : List Variable) (name : String) :
    localOf (introduce locals xs) name = (localOf locals name).or (localOf xs name) := by
  induction xs generalizing locals with
  | nil => exact (Option.or_none).symm
  | cons x rest ih =>
    have step := ih (declare locals x)
    rw [localOf_declare, Option.or_assoc, ← localOf_append] at step
    exact step

theorem localOf_eq_some {locals : List Variable} {name : String} {x : Variable}
    (found : localOf locals name = some x) : x ∈ locals ∧ x.name = name :=
  ⟨List.mem_of_find?_eq_some found, by simpa using List.find?_some found⟩

theorem exists_localOf {locals : List Variable} {name : String}
    (known : name ∈ locals.map (·.name)) : ∃ x, localOf locals name = some x := by
  obtain ⟨x, member, rfl⟩ := List.mem_map.1 known
  exact Option.isSome_iff_exists.1 (List.find?_isSome.2 ⟨x, member, by simp⟩)

/-! ## Placed bindings -/

/-- A binding that a block is home to has the name and the type of a local. -/
def Binds (types : Types) (bs : List Binding) (home : Place) (x : Variable) : Prop :=
  ∃ b ∈ bs, b.home = home ∧ b.name = x.name ∧ types b.id = some x.type

/-- The bindings of a row of statements are declared in their homes: those of the surrounding block
are among the locals `xs` that the row introduces in it, and the others among the locals of blocks
inside. What is declared under one of the names `mentioned` comes from a binding. -/
structure Placed (types : Types) (mentioned : List String) (xs : List Variable) (cs : List CStmt)
    (bs : List Binding) : Prop where
  site : ∀ b ∈ bs, ∀ (name : String) (known : Option Declaration) (here : Place),
    resolveFrom name known here cs b.site = resolveFrom name known here cs b.home
  introduced : ∀ b ∈ bs, b.home = [] → b.name ∈ xs.map (·.name)
  own : ∀ x ∈ xs, x.name ∈ mentioned → Binds types bs [] x
  inside : ∀ b ∈ bs, b.home ≠ [] → ∃ x : Variable, x.name = b.name ∧
    (∀ (known : Option Declaration) (here : Place),
      resolveFrom b.name known here cs b.home = some (.inBlock (here ++ b.home) x)) ∧
    (x.name ∈ mentioned → Binds types bs b.home x)

variable {types : Types} {mentioned : List String} {xs ys : List Variable} {cs inner : List CStmt}
  {bs bs' : List Binding} {step : Nat × Nat}

theorem Binds.mono {home : Place} {x : Variable} (binds : Binds types bs home x)
    (sub : ∀ b ∈ bs, b ∈ bs') : Binds types bs' home x := by
  obtain ⟨b, member, rest⟩ := binds
  exact ⟨b, sub b member, rest⟩

theorem Binds.enter {home : Place} {x : Variable} (binds : Binds types bs home x)
    (step : Nat × Nat) : Binds types (bs.map (.enter step)) (step :: home) x := by
  obtain ⟨b, member, rfl, name, type⟩ := binds
  exact ⟨b.enter step, List.mem_map_of_mem member, rfl, name, type⟩

theorem Binds.leave {home : Place} {x : Variable} (binds : Binds types bs home x)
    (step : Nat × Nat) :
    Binds types (bs.map (.leave step)) (if home = [] then [] else step :: home) x := by
  obtain ⟨b, member, rfl, name, type⟩ := binds
  exact ⟨b.leave step, List.mem_map_of_mem member, rfl, name, type⟩

theorem partAt_eq {index part : Nat} {c : CStmt} (found : cs[index]? = some c) :
    partAt cs (index, part) = c.parts[part]? := by
  rw [partAt, found]
  rfl

theorem resolveFrom_cons {part : List Variable × List CStmt} (found : partAt cs step = some part)
    (name : String) (known : Option Declaration) (here rest : Place) :
    resolveFrom name known here cs (step :: rest) =
      resolveFrom name (((localOf part.1 name).map (.inBlock (here ++ [step]))).or known)
        (here ++ [step]) part.2 rest := by
  rw [resolveFrom, found, Option.bind_some]

/-- In a part that declares nothing, a name stands for what it stands for around it. -/
theorem resolveFrom_leaf (found : partAt cs step = some ([], inner)) (name : String)
    (known : Option Declaration) (here : Place) :
    resolveFrom name known here cs [step] = known := by
  rw [resolveFrom_cons found]
  rfl

theorem placed_nil : Placed types mentioned [] cs [] where
  site := by simp
  introduced := by simp
  own := by simp
  inside := by simp

/-- What no binding introduces has a name that the script does not mention. -/
theorem placed_fresh {x : Variable} (fresh : x.name ∉ mentioned) :
    Placed types mentioned [x] cs [] where
  site := by simp
  introduced := by simp
  own := by
    intro other member known
    obtain rfl := List.mem_singleton.1 member
    exact absurd known fresh
  inside := by simp

theorem Placed.append (first : Placed types mentioned xs cs bs)
    (rest : Placed types mentioned ys cs bs') :
    Placed types mentioned (xs ++ ys) cs (bs ++ bs') where
  site := List.forall_mem_append.2 ⟨first.site, rest.site⟩
  introduced := by
    intro b member isHere
    rw [List.map_append]
    rcases List.mem_append.1 member with member | member
    · exact List.mem_append_left _ (first.introduced b member isHere)
    · exact List.mem_append_right _ (rest.introduced b member isHere)
  own := by
    intro x member known
    rcases List.mem_append.1 member with member | member
    · exact (first.own x member known).mono fun _ => List.mem_append_left _
    · exact (rest.own x member known).mono fun _ => List.mem_append_right _
  inside := by
    intro b member notHere
    rcases List.mem_append.1 member with member | member
    · obtain ⟨x, name, resolved, binds⟩ := first.inside b member notHere
      refine ⟨x, name, resolved, ?_⟩
      intro known
      exact (binds known).mono fun _ => List.mem_append_left _
    · obtain ⟨x, name, resolved, binds⟩ := rest.inside b member notHere
      refine ⟨x, name, resolved, ?_⟩
      intro known
      exact (binds known).mono fun _ => List.mem_append_right _

/-- The variables of a declaration are declared in the surrounding block. -/
theorem placed_declared {declarators : List Declarator} {site : Place}
    (typed : ∀ declarator ∈ declarators, (types declarator.node.id).isSome = true)
    (outside : ∀ (name : String) (known : Option Declaration) (here : Place),
      resolveFrom name known here cs site = known) :
    Placed types mentioned (Emit.declaredLocals types declarators) cs
      (declarators.map (.ofDeclarator site)) where
  site := by
    intro b member name known here
    obtain ⟨declarator, _, rfl⟩ := List.mem_map.1 member
    exact outside name known here
  introduced := by
    intro b member _
    obtain ⟨declarator, isOne, rfl⟩ := List.mem_map.1 member
    exact List.mem_map.2 ⟨_, List.mem_map_of_mem isOne, rfl⟩
  own := by
    intro x member _
    obtain ⟨declarator, isOne, rfl⟩ := List.mem_map.1 member
    obtain ⟨type, hasType⟩ := Option.isSome_iff_exists.1 (typed declarator isOne)
    refine ⟨_, List.mem_map_of_mem isOne, rfl, rfl, ?_⟩
    rw [Binding.ofDeclarator, hasType, Option.getD_some]
  inside := by
    intro b member notHere
    obtain ⟨declarator, _, rfl⟩ := List.mem_map.1 member
    exact absurd rfl notHere

/-- A block declares what is introduced in it. -/
theorem Placed.enter (placed : Placed types mentioned xs inner bs)
    (found : partAt cs step = some (introduce [] xs, inner)) :
    Placed types mentioned [] cs (bs.map (.enter step)) where
  site := by
    intro b member name known here
    obtain ⟨b, isInner, rfl⟩ := List.mem_map.1 member
    rw [Binding.enter, resolveFrom_cons found, resolveFrom_cons found]
    exact placed.site b isInner _ _ _
  introduced := by
    intro b member isHere
    obtain ⟨b, _, rfl⟩ := List.mem_map.1 member
    cases isHere
  own := by simp
  inside := by
    intro b member _
    obtain ⟨b, isInner, rfl⟩ := List.mem_map.1 member
    by_cases isHere : b.home = []
    · obtain ⟨x, isLocal⟩ := exists_localOf (placed.introduced b isInner isHere)
      obtain ⟨isOne, sameName⟩ := localOf_eq_some isLocal
      refine ⟨x, sameName, ?_, ?_⟩
      · intro known here
        have declared : localOf (introduce [] xs) b.name = some x := by
          rw [localOf_introduce, isLocal]
          rfl
        simp only [Binding.enter, isHere]
        rw [resolveFrom_cons found, declared]
        rfl
      · intro known
        have binds := (placed.own x isOne known).enter step
        rw [← isHere] at binds
        exact binds
    · obtain ⟨x, sameName, resolved, binds⟩ := placed.inside b isInner isHere
      refine ⟨x, sameName, ?_, ?_⟩
      · intro known here
        have later := resolved
          (((localOf (introduce [] xs) b.name).map (.inBlock (here ++ [step]))).or known)
          (here ++ [step])
        rw [List.append_assoc] at later
        rw [Binding.enter, resolveFrom_cons found]
        exact later
      · intro known
        exact (binds known).enter step

/-- What is introduced in a part that declares nothing is introduced around it. -/
theorem Placed.leave (placed : Placed types mentioned xs inner bs)
    (found : partAt cs step = some ([], inner)) :
    Placed types mentioned xs cs (bs.map (.leave step)) where
  site := by
    intro b member name known here
    obtain ⟨b, isInner, rfl⟩ := List.mem_map.1 member
    rw [Binding.leave, resolveFrom_cons found, placed.site b isInner]
    by_cases isHere : b.home = []
    · simp only [isHere]
      rfl
    · rw [if_neg isHere, resolveFrom_cons found]
  introduced := by
    intro b member isHere
    obtain ⟨b, isInner, rfl⟩ := List.mem_map.1 member
    by_cases further : b.home = []
    · exact placed.introduced b isInner further
    · rw [Binding.leave, if_neg further] at isHere
      cases isHere
  own := by
    intro x member known
    exact (placed.own x member known).leave step
  inside := by
    intro b member notHere
    obtain ⟨b, isInner, rfl⟩ := List.mem_map.1 member
    by_cases further : b.home = []
    · rw [Binding.leave, if_pos further] at notHere
      exact absurd rfl notHere
    · obtain ⟨x, sameName, resolved, binds⟩ := placed.inside b isInner further
      rw [Binding.leave, if_neg further]
      refine ⟨x, sameName, ?_, ?_⟩
      · intro known here
        have later := resolved known (here ++ [step])
        rw [List.append_assoc] at later
        rw [resolveFrom_cons found]
        exact later
      · intro known
        have left := (binds known).leave step
        rw [if_neg further] at left
        exact left

/-! ## What heads introduce -/

namespace Emit

variable {σ : Setting} {scope : ScopeId} {w w' : Workspace}

/-- A run keeps names apart from the reserved ones. -/
theorem Evolving.apart {α : Type} {m : EmitM α} (evolving : Evolving m)
    {result : Except EmitError α} (run : m σ w = (result, w'))
    (apart : w.names.Apart mentioned) : w'.names.Apart mentioned := by
  have evolves := evolving σ w
  rw [run] at evolves
  exact evolves.apart apart

/-- A variable that is declared has a type. -/
theorem typed_declarations {declarators : List Declarator} {list : List Assignment}
    (run : declarations scope declarators σ w = (.ok list, w')) :
    ∀ declarator ∈ declarators, (σ.types declarator.node.id).isSome = true := by
  induction declarators generalizing w list with
  | nil => simp
  | cons declarator rest ih =>
    simp only [declarations, bind_ok, pure_ok, typeOfNode_ok] at run
    obtain ⟨type, _, ⟨known, -⟩, _, _, -, _, _, -, _, _, others, -, rfl⟩ := run
    exact List.forall_mem_cons.2 ⟨Option.isSome_iff_exists.2 ⟨type, known⟩, ih others⟩

theorem placed_declarations {declarators : List Declarator} {list : List Assignment}
    (run : declarations scope declarators σ w = (.ok list, w')) (cs : List CStmt) :
    Placed σ.types mentioned (declaredLocals σ.types declarators) cs
      (declarators.map (.ofDeclarator [])) :=
  placed_declared (typed_declarations run) fun _ _ _ => rfl

theorem placed_loopStart {init : Option ForInit} {result : Option (List Assignment) × String}
    (run : loopStart scope init σ w = (.ok result, w')) (cs : List CStmt) :
    Placed σ.types mentioned (startLocals σ.types init) cs
      ((startDeclarators init).map (.ofDeclarator [])) := by
  rcases init with _ | (declarators | e)
  · exact placed_nil
  · simp only [loopStart, bind_ok, pure_ok] at run
    obtain ⟨_, _, declared, -, -⟩ := run
    exact placed_declarations declared cs
  · exact placed_nil

/-- The loop variable is assigned in the loop, and both it and the counter are declared around. -/
theorem placed_loopHead {id : NodeId} {left : ForBinding} {right : Expr}
    {index collection target : String} {site : Place}
    (run : loopHead scope id left right σ w = (.ok (index, collection, target), w'))
    (apart : w.names.Apart mentioned)
    (outside : ∀ (name : String) (known : Option Declaration) (here : Place),
      resolveFrom name known here cs site = known) :
    Placed σ.types mentioned (⟨index, .number⟩ :: bindingLocals σ.types left) cs
      (left.declarators.map (.ofDeclarator site)) := by
  simp only [loopHead, bind_ok, pure_ok, Prod.mk.injEq] at run
  obtain ⟨name, _, counted, _, _, -, _, _, -, _, _, bound, ⟨rfl, rfl, rfl⟩, -⟩ := run
  have fresh : name ∉ mentioned := by
    have given := (apart.counter id).1
    rwa [(counter_ok.1 counted).1] at given
  have first : Placed σ.types mentioned [⟨name, .number⟩] cs [] := placed_fresh fresh
  apply first.append
  cases left with
  | declare declarator =>
    simp only [binding, bind_ok, typeOfNode_ok] at bound
    obtain ⟨type, _, ⟨known, -⟩, -⟩ := bound
    have typed : ∀ other ∈ [declarator], (σ.types other.node.id).isSome = true := by
      rw [List.forall_mem_singleton]
      exact Option.isSome_iff_exists.2 ⟨type, known⟩
    exact placed_declared typed outside
  | target e => exact placed_nil

theorem placed_selection {id : NodeId} {discriminant : Expr} {select : Selection}
    (run : selection scope id discriminant σ w = (.ok select, w'))
    (apart : w.names.Apart mentioned) (cs : List CStmt) :
    Placed σ.types mentioned select.locals cs [] := by
  rw [selection, read_bind] at run
  simp only [bind_ok] at run
  obtain ⟨subject, middle, asked, run⟩ := run
  split at run
  · obtain ⟨rfl, -⟩ := pure_ok.1 run
    exact placed_nil
  · simp only [bind_ok, pure_ok] at run
    obtain ⟨name, _, named, _, _, -, _, _, -, rfl, -⟩ := run
    have given := (((evolving_expr _).apart asked apart).temporary id "tmp_switch").1
    rw [(temporary_ok.1 named).1] at given
    exact placed_fresh given

/-! ## Statements -/

theorem parts_switch (select : Selection) (comparisons : List String) (cases : List CStmt) :
    (select.switch comparisons cases).parts = [([], cases)] := by
  cases select <;> rfl

theorem parts_forOf (dynamic : Bool) (index array cast target : String) (capacity : Nat)
    (statements : List CStmt) :
    (if dynamic then CStmt.forDynamic index array cast target statements
      else .forFixed index capacity array cast target statements).parts = [([], statements)] := by
  cases dynamic <;> rfl

/-- Statements stand in their own row from its start on. -/
theorem getElem?_zero_add {row : List CStmt} (later : Nat) : row[0 + later]? = row[later]? := by
  rw [Nat.zero_add]

/-- The statements after the first one stand one place further. -/
theorem getElem?_after_first {whole rest : List CStmt} {first : CStmt} {index : Nat}
    (found : ∀ later, whole[index + later]? = (first :: rest)[later]?) (later : Nat) :
    whole[index + 1 + later]? = rest[later]? := by
  rw [Nat.add_right_comm]
  exact found (later + 1)

mutual

/-- A statement places its bindings, wherever it stands in a row. -/
theorem Emits.placed : ∀ {scope : ScopeId} {s : Stmt} {w w' : Workspace} {c : CStmt}
    {xs : List Variable}, Emits σ scope s w c xs w' → w.names.Apart mentioned →
      ∀ {index : Nat} {cs : List CStmt}, cs[index]? = some c →
        Placed σ.types mentioned xs cs (s.bindings index)
  | _, _, _, _, _, _, .breakStmt .., _, _, _, _ => placed_nil
  | _, _, _, _, _, _, .continueStmt .., _, _, _, _ => placed_nil
  | _, _, _, _, _, _, .emptyStmt .., _, _, _, _ => placed_nil
  | _, _, _, _, _, _, .returnStmt _, _, _, _, _ => placed_nil
  | _, _, _, _, _, _, .ifThen head yes, apart, _, _, found => by
      rw [Stmt.bindings]
      exact yes.placed ((evolving_expr _).apart head apart) ((partAt_eq found).trans rfl)
  | _, _, _, _, _, _, .ifElse head yes no, apart, _, _, found => by
      rw [Stmt.bindings]
      have start := (evolving_expr _).apart head apart
      have next := (evolving_block _ fun inner => evolving_stmts inner _).apart yes.run start
      exact Placed.append (yes.placed start ((partAt_eq found).trans rfl))
        (no.placed next ((partAt_eq found).trans rfl))
  | _, _, _, _, _, _, .switchOn head each, apart, index, cs, found => by
      rw [Stmt.bindings]
      have start := (evolving_selection _ _ _).apart head apart
      have part : partAt cs (index, 0) = _ := partAt_eq found
      rw [parts_switch] at part
      have inside := each.placed start getElem?_zero_add
      exact (placed_selection head apart cs).append (inside.leave part)
  | _, _, _, _, _, _, .whileLoop head loop, apart, _, _, found => by
      rw [Stmt.bindings]
      exact loop.placed ((evolving_expr _).apart head apart) ((partAt_eq found).trans rfl)
  | _, _, _, _, _, _, .doLoop loop _, apart, _, _, found => by
      rw [Stmt.bindings]
      exact loop.placed apart ((partAt_eq found).trans rfl)
  | _, _, _, _, _, _, .forLoop start head step loop, apart, index, cs, found => by
      rw [Stmt.bindings]
      have first := (evolving_loopStart _ _).apart start apart
      have second := (Evolving.mapM (fun _ => evolving_expr _) _).apart head first
      have third := (Evolving.mapM (fun _ => evolving_expr _) _).apart step second
      have part : partAt cs (index, 0) = some (_, _) := (partAt_eq found).trans rfl
      have all := (placed_loopStart start cs).append (loop.placed third part)
      rwa [List.append_nil] at all
  | _, _, _, _, _, _, .forOf known head loop, apart, index, cs, found => by
      rw [Stmt.bindings]
      have start := (evolving_loopHead _ _ _ _).apart head apart
      have part : partAt cs (index, 0) = _ := partAt_eq found
      rw [parts_forOf] at part
      have inside := (loop.placed start).leave part
      rw [rowBindings, rowBindings, List.append_nil] at inside
      exact (placed_loopHead head apart (resolveFrom_leaf part)).append inside
  | _, _, _, _, _, _, .forIn _ _ head loop, apart, index, cs, found => by
      rw [Stmt.bindings]
      have start := (evolving_loopHead _ _ _ _).apart head apart
      have part : partAt cs (index, 0) = some ([], _) := (partAt_eq found).trans rfl
      have inside := (loop.placed start).leave part
      exact (placed_loopHead head apart (resolveFrom_leaf part)).append inside
  | _, _, _, _, _, _, .expression _, _, _, _, _ => placed_nil
  | _, _, _, _, _, _, .block inner, apart, _, _, found => by
      rw [Stmt.bindings]
      exact inner.placed apart ((partAt_eq found).trans rfl)
  | _, _, _, _, _, _, .importFrom _, _, _, _, _ => placed_nil
  | _, _, _, _, _, _, .declaration run, _, _, cs, _ => placed_declarations run cs

theorem EmitsAll.placed : ∀ {scope : ScopeId} {body : List Stmt} {w w' : Workspace}
    {cs : List CStmt} {xs : List Variable}, EmitsAll σ scope body w cs xs w' →
      w.names.Apart mentioned → ∀ {index : Nat} {whole : List CStmt},
        (∀ later, whole[index + later]? = cs[later]?) →
          Placed σ.types mentioned xs whole (rowBindings index body)
  | _, _, _, _, _, _, .nil .., _, _, _, _ => placed_nil
  | _, _, _, _, _, _, .cons first others, apart, index, whole, found => by
      have next := (evolving_stmt _ _).apart first.run apart
      exact (first.placed apart (found 0)).append (others.placed next (getElem?_after_first found))

theorem EmitsBlock.placed : ∀ {scope : ScopeId} {body : List Stmt} {w w' : Workspace}
    {b : Block CStmt}, EmitsBlock σ scope body w b w' → w.names.Apart mentioned →
      ∀ {whole : List CStmt} {step : Nat × Nat},
        partAt whole step = some (b.locals, b.statements) →
          Placed σ.types mentioned [] whole ((rowBindings 0 body).map (.enter step))
  | _, _, _, _, _, .intro opened all kept, apart, _, _, found => by
      have start := (evolving_newChild _).apart opened apart
      rw [locals_of_block opened all kept] at found
      exact (all.placed start getElem?_zero_add).enter found

theorem EmitsHoisted.placed : ∀ {scope : ScopeId} {body : List Stmt} {w w' : Workspace}
    {cs : List CStmt} {xs : List Variable}, EmitsHoisted σ scope body w cs xs w' →
      w.names.Apart mentioned → Placed σ.types mentioned xs cs (rowBindings 0 body)
  | _, _, _, _, _, _, .intro opened all _, apart => by
      have start := (evolving_newChild _).apart opened apart
      exact all.placed start getElem?_zero_add

theorem EmitsClauses.placed : ∀ {scope : ScopeId} {select : Selection} {index : Nat}
    {list : List (Clause Stmt)} {w w' : Workspace} {comparisons : List String} {cases : List CStmt}
    {xs : List Variable}, EmitsClauses σ scope select index list w comparisons cases xs w' →
      w.names.Apart mentioned → ∀ {place : Nat} {whole : List CStmt},
        (∀ later, whole[place + later]? = cases[later]?) →
          Placed σ.types mentioned xs whole (clauseBindings place list)
  | _, _, _, _, _, _, _, _, _, .nil .., _, _, _, _ => placed_nil
  | _, _, _, _, _, _, _, _, _, .cons head first others, apart, place, whole, found => by
      have start := (Evolving.mapM (fun _ => evolving_label _ _ _) _).apart head apart
      have next := (evolving_hoisted _ fun inner => evolving_stmts inner _).apart first.run start
      rw [clauseBindings]
      have part : partAt whole (place, 0) = some ([], _) := (partAt_eq (found 0)).trans rfl
      have rest := others.placed next (getElem?_after_first found)
      exact ((first.placed start).leave part).append rest

end

end Emit

end ScriptToC
