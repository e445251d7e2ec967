import ScriptToC.Proofs.Hoisting.Homes
import ScriptToC.Proofs.Lowering.Bindings

/-!
# When hoisting captures nothing

The C form of a function declares its locals at the heads of blocks, and loops over collections and
clauses of a `switch` move theirs outward. A name that the block around declares already is not
declared again. Hence the bindings of a function stay apart, each with its own type, exactly if no
two of them have the same home and the same name (`captureFree_iff_homes`); it does not matter
which counters and temporaries the program needs. Two loops in a row that bind the same name share
one variable.
-/

set_option autoImplicit false

namespace ScriptToC

open Ir ScopeTree

/-- What the bindings of a function stand for at their sites, the parameters first. -/
def CFunction.standFor (g : CFunction) (params : List Param) (body : List Stmt) :
    List (Option Declaration) :=
  params.map (fun param => g.resolve params param.name []) ++
    (rowBindings 0 body).map fun b => g.resolve params b.name b.site

/-- The bindings of a function stay apart in its C form: different bindings stand for different
declarations, a parameter for a parameter and any other binding for a local, and the declaration has
the resolved type of the binding. -/
structure CaptureFree (types : Types) (params : List Param) (body : List Stmt) (g : CFunction) :
    Prop where
  distinct : (g.standFor params body).Nodup
  parameters : ∀ param ∈ params, ∃ declared : Param,
    g.resolve params param.name [] = some (.parameter declared) ∧
      types param.id = some declared.type
  locals : ∀ b ∈ rowBindings 0 body, ∃ (block : Place) (x : Variable),
    g.resolve params b.name b.site = some (.inBlock block x) ∧ types b.id = some x.type

/-- The home and the name of each binding of a function; the function is home to its parameters. -/
def homes (params : List Param) (body : List Stmt) : List (Place × String) :=
  params.map (fun param => ([], param.name)) ++
    (rowBindings 0 body).map fun b => (b.home, b.name)

/-- Where a declaration stands, and its name. -/
def Declaration.key : Declaration → Place × String
  | .parameter param => ([], param.name)
  | .inBlock block x => (block, x.name)

section Function

variable {types : Types} {mentioned : List String} {params : List Param} {body : List Stmt}
  {g : CFunction} {xs : List Variable}

/-- A binding stands for the same thing at its site and at its home. -/
theorem standFor_eq_map_homes
    (placed : Placed types mentioned xs g.statements (rowBindings 0 body)) :
    g.standFor params body = (homes params body).map fun key => g.resolve params key.2 key.1 := by
  rw [CFunction.standFor, homes, List.map_append, List.map_map, List.map_map]
  congr 1
  apply List.map_congr_left
  intro b member
  exact placed.site b member _ _ _

/-- Parameters of different names stand for themselves. -/
theorem resolve_parameter (distinct : (params.map (·.name)).Nodup) {param : Param}
    (member : param ∈ params) : g.resolve params param.name [] = some (.parameter param) := by
  have isThere : (params.find? fun other => other.name == param.name).isSome = true :=
    List.find?_isSome.2 ⟨param, member, beq_self_eq_true param.name⟩
  obtain ⟨first, found⟩ := Option.isSome_iff_exists.1 isThere
  have same : first = param := by
    apply List.inj_on_of_nodup_map distinct (List.mem_of_find?_eq_some found) member
    simpa using List.find?_some found
  rw [CFunction.resolve, found, same]
  rfl

/-- If no two bindings share home and name, each of them stands for a local of its own type in its
home. -/
theorem resolve_binding (placed : Placed types mentioned xs g.statements (rowBindings 0 body))
    (locals : g.locals = introduce [] xs)
    (mentions : Lowering.Mentions mentioned (rowBindings 0 body))
    (distinct : (homes params body).Nodup) {b : Binding} (member : b ∈ rowBindings 0 body) :
    ∃ x : Variable, x.name = b.name ∧
      g.resolve params b.name b.site = some (.inBlock b.home x) ∧ types b.id = some x.type := by
  obtain ⟨-, distinct, apart⟩ := List.nodup_append.1 distinct
  have own : ∀ x : Variable, x.name = b.name → (x.name ∈ mentioned →
      Binds types (rowBindings 0 body) b.home x) → types b.id = some x.type := by
    intro x sameName binds
    obtain ⟨other, isOther, home, name, type⟩ := binds (sameName ▸ mentions b member)
    have same : other = b := List.inj_on_of_nodup_map distinct isOther member
      (Prod.ext home (name.trans sameName))
    exact same ▸ type
  by_cases isOutermost : b.home = []
  · obtain ⟨x, isLocal⟩ := exists_localOf (placed.introduced b member isOutermost)
    obtain ⟨isOne, sameName⟩ := localOf_eq_some isLocal
    refine ⟨x, sameName, ?_, own x sameName fun known => isOutermost ▸ placed.own x isOne known⟩
    have declared : localOf g.locals b.name = some x := by
      rw [locals, localOf_introduce, isLocal]
      rfl
    have noParam : params.find? (fun param => param.name == b.name) = none := by
      rw [List.find?_eq_none]
      intro param isParam same
      apply apart _ (List.mem_map_of_mem isParam) _ (List.mem_map_of_mem member)
      rw [isOutermost, beq_iff_eq.1 same]
    rw [CFunction.resolve, placed.site b member, noParam, declared, isOutermost]
    rfl
  · obtain ⟨x, sameName, resolved, binds⟩ := placed.inside b member isOutermost
    refine ⟨x, sameName, ?_, own x sameName binds⟩
    rw [CFunction.resolve, placed.site b member]
    exact resolved _ []

/-- **When a function captures nothing**, from what its emission placed. -/
theorem captureFree_iff (placed : Placed types mentioned xs g.statements (rowBindings 0 body))
    (locals : g.locals = introduce [] xs)
    (mentions : Lowering.Mentions mentioned (rowBindings 0 body))
    (typed : ∀ param ∈ params, types param.id = some param.type) :
    CaptureFree types params body g ↔ (homes params body).Nodup := by
  constructor
  · intro free
    have distinct := free.distinct
    rw [standFor_eq_map_homes placed] at distinct
    exact distinct.of_map _
  · intro distinct
    have names : (params.map (·.name)).Nodup := by
      apply List.Nodup.of_map (fun name => (([] : Place), name))
      rw [List.map_map]
      exact (List.nodup_append.1 distinct).1
    have isLocal : ∀ b ∈ rowBindings 0 body, ∃ x : Variable, x.name = b.name ∧
        g.resolve params b.name b.site = some (.inBlock b.home x) ∧
          types b.id = some x.type := by
      intro b member
      exact resolve_binding placed locals mentions distinct member
    constructor
    · -- A declaration determines the home and the name that it was found by.
      have found : ∀ key ∈ homes params body, ∃ declared : Declaration,
          g.resolve params key.2 key.1 = some declared ∧ declared.key = key := by
        intro key member
        rcases List.mem_append.1 member with member | member
        · obtain ⟨param, isParam, rfl⟩ := List.mem_map.1 member
          exact ⟨_, resolve_parameter names isParam, rfl⟩
        · obtain ⟨b, isBinding, rfl⟩ := List.mem_map.1 member
          obtain ⟨x, sameName, resolved, -⟩ := isLocal b isBinding
          refine ⟨.inBlock b.home x, ?_, Prod.ext rfl sameName⟩
          exact (placed.site b isBinding _ _ _).symm.trans resolved
      rw [standFor_eq_map_homes placed]
      refine List.Nodup.map_on ?_ distinct
      intro key member key' member' same
      obtain ⟨declared, resolved, rfl⟩ := found key member
      obtain ⟨declared', resolved', rfl⟩ := found key' member'
      rw [resolved, resolved'] at same
      cases same
      rfl
    · intro param member
      exact ⟨param, resolve_parameter names member, typed param member⟩
    · intro b member
      obtain ⟨x, -, resolved, type⟩ := isLocal b member
      exact ⟨b.home, x, resolved, type⟩

end Function

/-! ## Programs -/

namespace Emit

variable {σ : Setting} {marker : String} {mentioned : List String} {w w' : Workspace}

/-- A function declares at its head what its statements introduce there. -/
theorem placed_functionBody {signature : String} {body : List Stmt} {releaseAtEnd isMain : Bool}
    {g : CFunction}
    (run : functionBody signature body releaseAtEnd isMain σ w = (.ok g, w'))
    (apart : w.names.Apart mentioned) :
    ∃ xs, g.locals = introduce [] xs ∧
      Placed σ.types mentioned xs g.statements (rowBindings 0 body) := by
  obtain ⟨scope, opened, xs, made, all, locals, -⟩ := emits_functionBody run
  have start := evolving_newFunction.apart made apart
  exact ⟨xs, locals, all.placed start getElem?_zero_add⟩

/-- A function that lowering covers captures nothing exactly if its bindings have different homes or
names. -/
theorem captureFree_functionBody {state : Lowering.State} {params : List Param} {body : List Stmt}
    {signature : String} {releaseAtEnd isMain : Bool} {g : CFunction}
    (covers : state.Covers params body)
    (run : functionBody signature body releaseAtEnd isMain ⟨state.resolved.find?, marker⟩ w =
      (.ok g, w'))
    (apart : w.names.Apart state.mentioned) :
    CaptureFree state.resolved.find? params body g ↔ (homes params body).Nodup := by
  obtain ⟨xs, locals, placed⟩ := placed_functionBody run apart
  apply captureFree_iff placed locals (covers.2 0)
  intro param member
  exact (covers.1 param member).resolved

theorem captureFree_functions {state : Lowering.State} : ∀ {list : List Function}
    {gs : List CFunction} {w w' : Workspace}, (∀ f ∈ list, state.Covers f.params f.body) →
      functions list ⟨state.resolved.find?, marker⟩ w = (.ok gs, w') →
        w.names.Apart state.mentioned →
          List.Forall₂ (fun f g => CaptureFree state.resolved.find? f.params f.body g ↔
            (homes f.params f.body).Nodup) list gs
  | [], _, _, _, _, run, _ => by
      rw [functions, pure_ok] at run
      obtain ⟨rfl, -⟩ := run
      exact .nil
  | f :: rest, _, _, _, covers, run, apart => by
      simp only [functions, bind_ok, pure_ok] at run
      obtain ⟨_, _, first, _, _, others, rfl, -⟩ := run
      obtain ⟨covers, coverRest⟩ := List.forall_mem_cons.1 covers
      have next := (evolving_functionBody _ _ _ _).apart first apart
      exact .cons (captureFree_functionBody covers first apart)
        (captureFree_functions coverRest others next)

end Emit

/-- **When hoisting captures nothing.** In a script that is lowered and emitted, the bindings of a
function, or of the main program, stay apart in C, each with its resolved type, exactly if no two of
them have the same home and the same name. -/
theorem captureFree_iff_homes {script : Source.Program} {lowered : Lowering.Lowered}
    {marker : String} {file : CProgram} {w : Workspace}
    (lower : Lowering.lowerProgram script = .ok lowered)
    (emit : Emit.program lowered.module ⟨lowered.types.find?, marker⟩
      { names := lowered.mentioned.foldl Names.reserve {} } = (.ok file, w)) :
    List.Forall₂ (fun f g => CaptureFree lowered.types.find? f.params f.body g ↔
        (homes f.params f.body).Nodup) lowered.module.functions file.functions ∧
      (CaptureFree lowered.types.find? [] lowered.module.topLevel file.main ↔
        (homes [] lowered.module.topLevel).Nodup) := by
  obtain ⟨module, state, run, rfl⟩ := Lowering.lowerProgram_ok lower
  obtain ⟨functions, topLevel⟩ := Lowering.lowerItems_covers (Lowering.settled_ofProgram script) run
  simp only [Emit.program, Emit.bind_ok, Emit.pure_ok] at emit
  obtain ⟨gs, middle, each, main, _, last, _, _, -, _, _, -, _, _, -, rfl, -⟩ := emit
  have start := Names.apart_reserved state.mentioned
  have next := (Emit.evolving_functions module.functions).apart each start
  exact ⟨Emit.captureFree_functions functions each start,
    Emit.captureFree_functionBody topLevel last next⟩

/-! ## A loop in a function -/

/-- Lowers and emits a script. -/
def emitted? (script : Source.Program) (marker : String) :
    Option (Lowering.Lowered × CProgram) :=
  match Lowering.lowerProgram script with
  | .ok lowered =>
    match (Emit.program lowered.module ⟨lowered.types.find?, marker⟩
      { names := lowered.mentioned.foldl Names.reserve {} }).1 with
    | .ok file => some (lowered, file)
    | .error _ => none
  | .error _ => none

theorem emitted?_eq_some {script : Source.Program} {marker : String} {lowered : Lowering.Lowered}
    {file : CProgram} (done : emitted? script marker = some (lowered, file)) :
    Lowering.lowerProgram script = .ok lowered ∧
      ∃ w, Emit.program lowered.module ⟨lowered.types.find?, marker⟩
        { names := lowered.mentioned.foldl Names.reserve {} } = (.ok file, w) := by
  unfold emitted? at done
  split at done
  next lowered' lower =>
    split at done
    next file' emit =>
      cases done
      exact ⟨lower, _, Prod.ext emit rfl⟩
    next => cases done
  next => cases done

/-- A function that runs through its parameter and returns a truth value that it kept before. The
variable of the loop has the given name. -/
def keepThenLoop (name : String) : Source.Program :=
  [.function ⟨⟨0, 93⟩, some "f", [⟨⟨11, 24⟩, some "ys", some (.array .boolean)⟩], false, false,
    some .boolean, some [
      .declaration ⟨39, 54⟩ [⟨⟨45, 53⟩, some "y", none, some (.bool ⟨49, 53⟩ true)⟩],
      .forOf ⟨57, 79⟩ false (.declare ⟨62, 69⟩ [⟨⟨68, 69⟩, some name, none, none⟩])
        (.ident ⟨73, 75⟩ "ys") (.block ⟨77, 79⟩ []),
      .returnStmt ⟨82, 91⟩ (some (.ident ⟨89, 90⟩ "y"))]⟩]

/-- With a name of its own, the variable of the loop is a variable of its own. -/
theorem captureFree_iff_homes_apart : ∃ lowered file w,
    Lowering.lowerProgram (keepThenLoop "z") = .ok lowered ∧
      Emit.program lowered.module ⟨lowered.types.find?, "ts2c"⟩
        { names := lowered.mentioned.foldl Names.reserve {} } = (.ok file, w) ∧
      List.Forall₂ (fun f g => CaptureFree lowered.types.find? f.params f.body g ↔
        (homes f.params f.body).Nodup) lowered.module.functions file.functions ∧
      (CaptureFree lowered.types.find? [] lowered.module.topLevel file.main ↔
        (homes [] lowered.module.topLevel).Nodup) := by
  have isSome : (emitted? (keepThenLoop "z") "ts2c").isSome = true := by decide +kernel
  obtain ⟨⟨lowered, file⟩, done⟩ := Option.isSome_iff_exists.1 isSome
  obtain ⟨lower, w, emit⟩ := emitted?_eq_some done
  exact ⟨lowered, file, w, lower, emit, captureFree_iff_homes lower emit⟩

/-- If the loop binds the name of the kept value, both share one variable. -/
theorem loop_captures_kept : ∃ lowered file w,
    Lowering.lowerProgram (keepThenLoop "y") = .ok lowered ∧
      Emit.program lowered.module ⟨lowered.types.find?, "ts2c"⟩
        { names := lowered.mentioned.foldl Names.reserve {} } = (.ok file, w) ∧
      ∃ f ∈ lowered.module.functions, ∃ g ∈ file.functions,
        ¬ CaptureFree lowered.types.find? f.params f.body g := by
  have shared : (emitted? (keepThenLoop "y") "ts2c").any (fun done =>
      done.1.module.functions.any fun f => done.2.functions.any fun g =>
        !decide (g.standFor f.params f.body).Nodup) = true := by decide +kernel
  obtain ⟨⟨lowered, file⟩, done, shared⟩ := (Option.any_eq_true _ _).1 shared
  obtain ⟨lower, w, emit⟩ := emitted?_eq_some done
  obtain ⟨f, isSource, shared⟩ := List.any_eq_true.1 shared
  obtain ⟨g, isC, shared⟩ := List.any_eq_true.1 shared
  refine ⟨lowered, file, w, lower, emit, f, isSource, g, isC, ?_⟩
  intro free
  rw [decide_eq_true free.distinct] at shared
  cases shared

end ScriptToC
