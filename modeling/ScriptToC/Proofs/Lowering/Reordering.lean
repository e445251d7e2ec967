import Mathlib.Data.List.Induction
import Mathlib.Data.List.Nodup
import Mathlib.Data.List.Perm.Basic
import ScriptToC.Proofs.Lowering.Lookups

/-!
# The order of declarations

The declarations of a script are gathered before anything else, so a body or a call may come before
a declaration that it uses. A declaration may not: what it says is read with the aliases that stand
before it. So the order of the declarations makes a difference exactly if one of them mentions the
alias that another one declares, and the alias stands for something other than a structure of its
own name (`reordering_iff`).

If none does, then every declaration says what it says on its own, and what the declarations of
different names say can be told in any order (`tables_alone`, `alone_perm`). If one does, then the
alias and the declaration that mentions it can be put first, in either order, and what the tables
tell about the second name tells the two orders apart.
-/

set_option autoImplicit false

namespace ScriptToC.Lowering

open Source

/-- The script has the same items, and only its declarations may stand elsewhere. -/
structure Reorders (reordered program : Program) : Prop where
  items : reordered.Perm program
  others : reordered.filter (fun item => (declaration? item).isNone) =
    program.filter fun item => (declaration? item).isNone

/-- No declaration mentions an alias that another one declares. An alias that stands for the
structure of its own name means what the name would mean without it. -/
def Independent (program : Program) : Prop :=
  ∀ name type, (name, .synonym type) ∈ declarations program → typeOfExpr [] type ≠ .struct name →
    ∀ user declaration, (user, declaration) ∈ declarations program → declaration.Mentions name →
      user = name

/-! ## Independent declarations -/

/-- What some declarations say if each is read on its own. -/
def alone (entries : List (String × Declaration)) : Tables :=
  entries.foldl (fun tables entry => tables.tell entry.1 (entry.2.fact [])) {}

theorem alone_concat (entries : List (String × Declaration)) (entry : String × Declaration) :
    alone (entries ++ [entry]) = (alone entries).tell entry.1 (entry.2.fact []) :=
  List.foldl_concat ..

/-- The aliases that declarations say something about on their own. -/
theorem mem_of_alone {name : String} {type : CType} (entries : List (String × Declaration)) :
    (alone entries).aliases name = some type →
      ∃ written, (name, .synonym written) ∈ entries ∧ typeOfExpr [] written = type := by
  induction entries using List.reverseRecOn with
  | nil => simp [alone]
  | append_singleton entries entry ih =>
    obtain ⟨user, declaration⟩ := entry
    have kept (known : (alone entries).aliases name = some type) :
        ∃ written, (name, .synonym written) ∈ entries ++ [(user, declaration)] ∧
          typeOfExpr [] written = type := by
      obtain ⟨written, declared, means⟩ := ih known
      exact ⟨written, List.mem_append_left _ declared, means⟩
    rw [alone_concat]
    cases declaration with
    | result | struct => exact kept
    | synonym written =>
      intro found
      by_cases same : name = user
      · subst same
        simp only [Tables.tell, Declaration.fact, Function.update_self, Option.some_inj] at found
        exact ⟨written, by simp, found⟩
      · simp only [Tables.tell, Declaration.fact, Function.update_of_ne same] at found
        exact kept found

/-- What declarations of different names say can be told in any order. -/
theorem alone_perm {entries entries' : List (String × Declaration)}
    (distinct : (entries.map Prod.fst).Nodup) (reordered : entries.Perm entries') :
    alone entries = alone entries' := by
  refine reordered.foldl_eq' ?_ _
  intro first firstIn second secondIn tables
  by_cases same : first = second
  · rw [same]
  · exact Tables.tell_comm fun equal =>
      same (List.inj_on_of_nodup_map distinct firstIn secondIn equal)

theorem declarations_cons (item : Item) (rest : Program) :
    declarations (item :: rest) = (declaration? item).toList ++ declarations rest := by
  cases found : declaration? item <;> simp [declarations, found]

theorem declarations_concat (program : Program) (item : Item) :
    declarations (program ++ [item]) = declarations program ++ (declaration? item).toList := by
  rw [declarations, List.filterMap_append]
  cases found : declaration? item <;> simp [declarations, found]

/-- What a script declares if no declaration uses another: each one is read on its own. -/
theorem tables_alone (program : Program) : ((declarations program).map Prod.fst).Nodup →
    Independent program → (Declared.ofProgram program).tables = alone (declarations program) := by
  induction program using List.reverseRecOn with
  | nil => intros; rfl
  | append_singleton program item ih =>
    intro distinct independent
    rw [Declared.ofProgram, List.foldl_concat, ← Declared.ofProgram, Declared.tables_collect]
    rw [declarations_concat] at distinct ⊢
    have within {entry : String × Declaration} (declared : entry ∈ declarations program) :
        entry ∈ declarations (program ++ [item]) := by
      rw [declarations_concat]
      exact List.mem_append_left _ declared
    rw [List.map_append] at distinct
    have before := ih distinct.of_append_left fun name type declared other user declaration used =>
      independent name type (within declared) other user declaration (within used)
    cases declares : declaration? item with
    | none => simpa [declares] using before
    | some entry =>
      obtain ⟨user, declaration⟩ := entry
      rw [Option.toList_some, alone_concat, Option.elim_some, before]
      refine congrArg ((alone (declarations program)).tell user) (declaration.fact_eq_iff.mpr ?_)
      intro name mentions
      have : (Declared.ofProgram program).aliases.lookup name =
          (alone (declarations program)).aliases name := by rw [← before]; rfl
      rw [meaning, this, meaning, List.lookup_nil, Option.getD_none]
      cases found : (alone (declarations program)).aliases name with
      | none => rfl
      | some type =>
        obtain ⟨written, declared, rfl⟩ := mem_of_alone _ found
        by_contra other
        have same : user = name := independent name written (within declared) other user
          declaration (by simp [declarations_concat, declares]) mentions
        subst same
        rw [declares] at distinct
        exact List.disjoint_of_nodup_append distinct
          (List.mem_map.mpr ⟨_, declared, rfl⟩) (by simp)

/-! ## Two declarations in either order -/

/-- Two declarations can be put first. -/
theorem exists_front {program : Program} {first second : Item} (firstIn : first ∈ program)
    (secondIn : second ∈ program) (differ : second ≠ first)
    (declares : (declaration? first).isSome) (declares' : (declaration? second).isSome) :
    ∃ rest, Reorders (first :: second :: rest) program := by
  obtain ⟨before, after, rfl⟩ := List.append_of_mem firstIn
  have secondIn : second ∈ before ++ after := by
    simp only [List.mem_append, List.mem_cons] at secondIn ⊢
    tauto
  obtain ⟨before', after', split⟩ := List.append_of_mem secondIn
  refine ⟨before' ++ after', ?_, ?_⟩
  · calc (first :: second :: (before' ++ after')).Perm (first :: (before' ++ second :: after')) :=
          List.perm_middle.symm.cons first
      _ = first :: (before ++ after) := by rw [split]
      _ |>.Perm (before ++ first :: after) := List.perm_middle.symm
  · have passes : (declaration? first).isNone = false := by simpa using declares
    have passes' : (declaration? second).isNone = false := by simpa using declares'
    simpa [List.filter_cons, List.filter_append, passes, passes'] using
      (congrArg (List.filter fun item => (declaration? item).isNone) split).symm

/-- Two declarations that stand next to each other at the front can change places. -/
theorem Reorders.swap {program rest : Program} {first second : Item}
    (reorders : Reorders (first :: second :: rest) program) (declares : (declaration? first).isSome)
    (declares' : (declaration? second).isSome) : Reorders (second :: first :: rest) program where
  items := (List.Perm.swap first second rest).trans reorders.items
  others := by
    have passes : (declaration? first).isNone = false := by simpa using declares
    have passes' : (declaration? second).isNone = false := by simpa using declares'
    simpa [List.filter_cons, passes, passes'] using reorders.others

theorem Reorders.distinct {reordered program : Program} (reorders : Reorders reordered program)
    (distinct : ((declarations program).map Prod.fst).Nodup) :
    ((declarations reordered).map Prod.fst).Nodup :=
  (((reorders.items.filterMap declaration?).map Prod.fst).nodup_iff).mpr distinct

/-- What is told about a name stays, as long as declarations of other names follow. -/
theorem tells_foldl {name : String} {fact : Fact} (rest : Program) :
    ∀ declared : Declared, name ∉ (declarations rest).map Prod.fst →
      declared.tables.Tells name fact →
        (rest.foldl Declared.collect declared).tables.Tells name fact := by
  induction rest with
  | nil => exact fun _ _ told => told
  | cons item rest ih =>
    intro declared fresh told
    rw [declarations_cons, List.map_append, List.mem_append, not_or] at fresh
    refine ih (declared.collect item) fresh.2 ?_
    rw [Declared.tables_collect]
    cases found : declaration? item with
    | none => exact told
    | some entry => exact (Tables.tells_tell_of_ne (by simpa [found] using fresh.1)).mpr told

/-- A declaration is read with the aliases before it, and found if none after it has its name. -/
theorem tells_ofProgram (before : Program) {rest : Program} {item : Item} {name : String}
    {declaration : Declaration} (declares : declaration? item = some (name, declaration))
    (fresh : name ∉ (declarations rest).map Prod.fst) :
    (Declared.ofProgram (before ++ item :: rest)).tables.Tells name
      (declaration.fact (Declared.ofProgram before).aliases) := by
  rw [Declared.ofProgram, List.foldl_append, List.foldl_cons]
  refine tells_foldl rest _ fresh ?_
  rw [Declared.tables_collect, declares]
  exact Tables.tells_tell

/-- If two declarations can stand in either order, then the second one does not mention the alias
that the first one declares, unless the alias makes no difference. -/
theorem synonym_of_swap {first second : Item} {rest : Program} {name user : String}
    {type : TypeExpr} {declaration : Declaration}
    (declares : declaration? first = some (name, .synonym type))
    (declares' : declaration? second = some (user, declaration))
    (distinct : ((declarations (first :: second :: rest)).map Prod.fst).Nodup)
    (same : (Declared.ofProgram (first :: second :: rest)).tables =
      (Declared.ofProgram (second :: first :: rest)).tables)
    (mentions : declaration.Mentions name) : typeOfExpr [] type = .struct name := by
  rw [declarations_cons, declarations_cons, declares, declares', Option.toList_some,
    Option.toList_some, List.singleton_append, List.singleton_append, List.map_cons, List.map_cons,
    List.nodup_cons, List.mem_cons, not_or, List.nodup_cons] at distinct
  obtain ⟨⟨differ, -⟩, fresh, -⟩ := distinct
  have after := tells_ofProgram [first] declares' fresh
  have fresh' : user ∉ (declarations (first :: rest)).map Prod.fst := by
    rw [declarations_cons, declares]
    exact List.not_mem_cons_of_ne_of_not_mem (Ne.symm differ) fresh
  have before := tells_ofProgram [] declares' fresh'
  rw [List.singleton_append, same] at after
  have said := declaration.fact_eq_iff.mp (after.unique before) name mentions
  have known : (Declared.ofProgram [first]).aliases.lookup name = some (typeOfExpr [] type) :=
    tells_ofProgram [] declares List.not_mem_nil
  rw [meaning, known] at said
  exact said

/-! ## Any order -/

/-- A script with independent declarations declares the same in any order. -/
theorem tables_reordered {reordered program : Program} (reorders : Reorders reordered program)
    (distinct : ((declarations program).map Prod.fst).Nodup) (independent : Independent program) :
    (Declared.ofProgram reordered).tables = (Declared.ofProgram program).tables := by
  have moved : (declarations reordered).Perm (declarations program) :=
    reorders.items.filterMap declaration?
  have independent' : Independent reordered := fun name type declared differs user declaration
      used => independent name type (moved.mem_iff.mp declared) differs user declaration
        (moved.mem_iff.mp used)
  calc (Declared.ofProgram reordered).tables = alone (declarations reordered) :=
        tables_alone reordered (reorders.distinct distinct) independent'
    _ = alone (declarations program) := alone_perm (reorders.distinct distinct) moved
    _ = (Declared.ofProgram program).tables := (tables_alone program distinct independent).symm

/-- A script that declares the same in any order has independent declarations. -/
theorem independent_of_reordered {program : Program}
    (distinct : ((declarations program).map Prod.fst).Nodup)
    (same : ∀ reordered, Reorders reordered program →
      (Declared.ofProgram reordered).tables = (Declared.ofProgram program).tables) :
    Independent program := by
  intro name type declared differs user declaration used mentions
  by_contra other
  obtain ⟨first, firstIn, declares⟩ := List.mem_filterMap.mp declared
  obtain ⟨second, secondIn, declares'⟩ := List.mem_filterMap.mp used
  have apart : second ≠ first := by
    rintro rfl
    exact other (congrArg Prod.fst (Option.some.inj (declares'.symm.trans declares)))
  have isDeclaration : (declaration? first).isSome := by rw [declares]; rfl
  have isDeclaration' : (declaration? second).isSome := by rw [declares']; rfl
  obtain ⟨rest, reorders⟩ := exists_front firstIn secondIn apart isDeclaration isDeclaration'
  have swapped := reorders.swap isDeclaration isDeclaration'
  exact differs (synonym_of_swap declares declares' (reorders.distinct distinct)
    ((same _ reorders).trans (same _ swapped).symm) mentions)

/-- The order of declarations of different names makes no difference exactly if they are
independent; then all items are lowered alike, with the declarations in any order. -/
theorem reordering_iff (program : Program)
    (distinct : ((declarations program).map Prod.fst).Nodup) :
    ((∀ reordered, Reorders reordered program →
          (Declared.ofProgram reordered).tables = (Declared.ofProgram program).tables) ↔
        Independent program) ∧
      (Independent program → ∀ reordered, Reorders reordered program → ∀ items,
        lowerItems items (Declared.ofProgram reordered) =
          lowerItems items (Declared.ofProgram program)) :=
  ⟨⟨independent_of_reordered distinct,
      fun independent _ reorders => tables_reordered reorders distinct independent⟩,
    fun independent _ reorders =>
      lowerItems_tables (tables_reordered reorders distinct independent)⟩

/-- A function whose result is a list of structures, before the structure and an alias:
`function all(): Item[]; interface Item { price: number } type Price = number`. -/
def lateStructure : Program :=
  [.function ⟨⟨0, 24⟩, some "all", [], false, false,
      some (.array (.named (.name "Item") [])), none⟩,
    .interface "Item" [.property (.name "price") (some .number)],
    .typeAlias "Price" .number]

theorem reordering_iff_lateStructure :
    ((declarations lateStructure).map Prod.fst).Nodup ∧ Independent lateStructure ∧
      ∀ reordered, Reorders reordered lateStructure →
        (Declared.ofProgram reordered).tables = (Declared.ofProgram lateStructure).tables := by
  have distinct : ((declarations lateStructure).map Prod.fst).Nodup := by decide
  have independent : Independent lateStructure := by
    intro name type declared _ user declaration used mentions
    have spelled : declarations lateStructure =
        [("all", .result (some (.array (.named (.name "Item") [])))),
          ("Item", .struct [.property (.name "price") (some .number)]),
          ("Price", .synonym .number)] := rfl
    simp only [spelled, List.mem_cons, Prod.mk.injEq, List.not_mem_nil, or_false, reduceCtorEq,
      and_false, false_or] at declared used
    obtain ⟨rfl, -⟩ := declared
    obtain ⟨rfl, rfl⟩ | ⟨rfl, rfl⟩ | ⟨rfl, rfl⟩ := used
    · exact absurd mentions (show some "Item" ≠ some "Price" by decide)
    · obtain ⟨field, type, found, mentioned⟩ := mentions
      have isNumber : type = .number := by
        simp only [namedFields, List.filterMap_cons, List.filterMap_nil, List.reverse_singleton,
          List.lookup_cons, List.lookup_nil] at found
        split at found
        · exact (Option.some.inj (Option.some.inj found)).symm
        · cases found
      rw [isNumber] at mentioned
      cases mentioned
    · rfl
  exact ⟨distinct, independent, (reordering_iff lateStructure distinct).1.mpr independent⟩

/-- A function whose result is an alias, before the alias:
`function price(): Price { return 1; } type Price = number`. -/
def lateAlias : Program :=
  [.function ⟨⟨0, 37⟩, some "price", [], false, false, some (.named (.name "Price") []),
      some [.returnStmt ⟨26, 35⟩ (some (.number ⟨33, 34⟩ (some ⟨1, 0⟩) "1"))]⟩,
    .typeAlias "Price" .number]

/-- With the alias first the function results in a number, and else in a structure. -/
theorem lateAlias_reordered :
    ((declarations lateAlias).map Prod.fst).Nodup ∧
      Reorders lateAlias.reverse lateAlias ∧
        (Declared.ofProgram lateAlias.reverse).tables.returns "price" = some .number ∧
        (Declared.ofProgram lateAlias).tables.returns "price" = some (.struct "Price") := by
  refine ⟨by decide, ⟨List.reverse_perm lateAlias, ?_⟩, ?_, ?_⟩
  · rfl
  · decide
  · decide

end ScriptToC.Lowering
