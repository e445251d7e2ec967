import Mathlib.Data.List.Perm.Basic
import ScriptToC.Lowering.Declared

/-!
# What declarations say

A declaration says something about one name: the result of a function, the fields of a structure, or
the type that an alias stands for (`Fact`). What it says depends on the aliases that are known when
it is read, and only through the names that its annotations mention: an annotation means the same
for two lists of aliases exactly if the name does that it mentions (`typeOfExpr_eq_iff`), and a
declaration says the same exactly if all the names do that it mentions (`Declaration.fact_eq_iff`).

The declarations of a script are compared by what is found in them (`Declared.tables`): of several
declarations of one name, and of several fields of one name, only the last one is found.
-/

set_option autoImplicit false

namespace ScriptToC.Lowering

open Source

/-! ## Annotations -/

/-- What a name means that is neither numeric nor built in. -/
def meaning (aliases : List (String × CType)) (name : String) : CType :=
  (aliases.lookup name).getD (.struct name)

mutual

/-- The name that the meaning of an annotation depends on, if there is one. -/
def mention? : TypeExpr → Option String
  | .array element => mention? element
  | .paren inner => mention? inner
  | .literal members => indexMention? members
  | .named name args =>
    if numericNames.contains name.dotted then none
    else if name.dotted = "Array" then (argMentions args)[0]?.join
    else if name.dotted = "Record" then (argMentions args)[1]?.join
    else some name.dotted
  | .number | .boolean | .string | .void | .other => none

/-- The name that the values under the first index signature depend on. -/
def indexMention? : List (Member TypeExpr) → Option String
  | [] => none
  | .index value :: _ => mention? value
  | .property .. :: rest | .other :: rest => indexMention? rest

/-- The names that the arguments of a type depend on. -/
def argMentions : List TypeExpr → List (Option String)
  | [] => []
  | type :: rest => mention? type :: argMentions rest

end

theorem isNone_indexType (aliases aliases' : List (String × CType)) :
    ∀ members : List (Member TypeExpr),
      (indexType aliases members).isNone = (indexType aliases' members).isNone
  | [] => rfl
  | .index _ :: _ => rfl
  | .property .. :: rest | .other :: rest => isNone_indexType aliases aliases' rest

theorem length_typesOfExprs (aliases : List (String × CType)) :
    ∀ args : List TypeExpr, (typesOfExprs aliases args).length = args.length
  | [] => rfl
  | _ :: rest => congrArg (· + 1) (length_typesOfExprs aliases rest)

theorem getD_eq_getD_iff {α : Type} {first second : Option α} {otherwise : α}
    (same : first.isNone = second.isNone) :
    first.getD otherwise = second.getD otherwise ↔ first = second := by
  cases first <;> cases second <;> simp_all

section

variable {aliases aliases' : List (String × CType)}

/-- An argument that is missing is missing for both, so that the type that stands in for it makes no
difference. -/
theorem getD_typesOfExprs_iff (args : List TypeExpr) (index : Nat) :
    (typesOfExprs aliases args)[index]?.getD .number =
        (typesOfExprs aliases' args)[index]?.getD .number ↔
      (typesOfExprs aliases args)[index]? = (typesOfExprs aliases' args)[index]? := by
  apply getD_eq_getD_iff
  rw [Bool.eq_iff_iff, Option.isNone_iff_eq_none, Option.isNone_iff_eq_none,
    List.getElem?_eq_none_iff, List.getElem?_eq_none_iff, length_typesOfExprs, length_typesOfExprs]

mutual

/-- An annotation means the same exactly if the name does that it depends on. -/
theorem typeOfExpr_eq_iff : ∀ type : TypeExpr,
    typeOfExpr aliases type = typeOfExpr aliases' type ↔
      ∀ name ∈ mention? type, meaning aliases name = meaning aliases' name
  | .number | .boolean | .string | .void | .other => by simp [typeOfExpr, mention?]
  | .array element => by
      simp only [typeOfExpr, mention?, CType.array.injEq, and_true]
      exact typeOfExpr_eq_iff element
  | .paren inner => typeOfExpr_eq_iff inner
  | .literal members => by
      rw [typeOfExpr, typeOfExpr, mention?, ← indexType_eq_iff members]
      have same := isNone_indexType aliases aliases' members
      cases found : indexType aliases members <;> cases found' : indexType aliases' members <;>
        simp_all
  | .named name args => by
      rw [typeOfExpr, typeOfExpr, mention?, namedType, namedType]
      by_cases isNumeric : numericNames.contains name.dotted
      · simp only [if_pos isNumeric, Option.not_mem_none, false_imp_iff, implies_true]
      by_cases isArray : name.dotted = "Array"
      · simp only [if_neg isNumeric, if_pos isArray, CType.dynamicArray, CType.array.injEq,
          and_true, List.head?_eq_getElem?]
        exact (getD_typesOfExprs_iff args 0).trans (typesOfExprs_eq_iff args 0)
      by_cases isRecord : name.dotted = "Record"
      · simp only [if_neg isNumeric, if_neg isArray, if_pos isRecord, CType.dict.injEq]
        exact (getD_typesOfExprs_iff args 1).trans (typesOfExprs_eq_iff args 1)
      · simp only [if_neg isNumeric, if_neg isArray, if_neg isRecord, Option.mem_some_iff,
          forall_eq', meaning]

theorem indexType_eq_iff : ∀ members : List (Member TypeExpr),
    indexType aliases members = indexType aliases' members ↔
      ∀ name ∈ indexMention? members, meaning aliases name = meaning aliases' name
  | [] => by simp [indexType, indexMention?]
  | .index value :: _ => by
      rw [indexType, indexType, indexMention?, Option.some_inj]
      exact typeOfExpr_eq_iff value
  | .property .. :: rest | .other :: rest => indexType_eq_iff rest

theorem typesOfExprs_eq_iff : ∀ (args : List TypeExpr) (index : Nat),
    (typesOfExprs aliases args)[index]? = (typesOfExprs aliases' args)[index]? ↔
      ∀ name ∈ (argMentions args)[index]?.join, meaning aliases name = meaning aliases' name
  | [], _ => by simp [typesOfExprs, argMentions]
  | type :: rest, 0 => by
      simp only [typesOfExprs, argMentions, List.getElem?_cons_zero, Option.some_inj,
        Option.join_some]
      exact typeOfExpr_eq_iff type
  | _ :: rest, index + 1 => by
      simp only [typesOfExprs, argMentions, List.getElem?_cons_succ]
      exact typesOfExprs_eq_iff rest index

end
end

/-- What an annotation that may be missing stands for. -/
theorem typeOfExpr_getD_eq_iff {aliases aliases' : List (String × CType)} {otherwise : CType} :
    ∀ type : Option TypeExpr,
      (type.map (typeOfExpr aliases)).getD otherwise =
          (type.map (typeOfExpr aliases')).getD otherwise ↔
        ∀ name ∈ type.bind mention?, meaning aliases name = meaning aliases' name
  | none => by simp
  | some type => typeOfExpr_eq_iff type

/-! ## Declarations -/

/-- What a declaration is about, apart from its name. -/
inductive Declaration
  /-- The result of a function. -/
  | result (type : Option TypeExpr)
  /-- The fields of a structure. -/
  | struct (members : List (Member TypeExpr))
  /-- The type that an alias stands for. -/
  | synonym (type : TypeExpr)

/-- The declaration that an item is, with its name. An alias of an object type declares a structure,
unless the type has an index signature. -/
def declaration? : Item → Option (String × Declaration)
  | .function f => f.name.map (·, .result f.returns)
  | .interface name members => some (name, .struct members)
  | .typeAlias name type =>
    match type with
    | .literal members =>
      if (indexType [] members).isNone then
        some (name, .struct members)
      else
        some (name, .synonym type)
    | _ => some (name, .synonym type)
  | .exportedVariables .. | .exportedOther _ | .statement _ => none

/-- The declarations of a script. -/
def declarations (program : Program) : List (String × Declaration) :=
  program.filterMap declaration?

/-- The fields among some members, with their annotations; the field declared last comes first. -/
def namedFields (members : List (Member TypeExpr)) : List (String × Option TypeExpr) :=
  (members.filterMap fun
    | .property (.name name) type => some (name, type)
    | _ => none).reverse

/-- What a declaration says about its name. -/
inductive Fact
  | result (type : CType)
  | struct (fields : String → Option CType)
  | synonym (type : CType)

/-- What a declaration says about its name if these aliases are known. -/
def Declaration.fact (aliases : List (String × CType)) : Declaration → Fact
  | result type => .result ((type.map (typeOfExpr aliases)).getD .void)
  | struct members => .struct fun field =>
    ((namedFields members).lookup field).map fun type =>
      (type.map (typeOfExpr aliases)).getD .unknown
  | synonym type => .synonym (typeOfExpr aliases type)

/-- What a declaration says depends on the meaning of this name. -/
def Declaration.Mentions (name : String) : Declaration → Prop
  | result type => type.bind mention? = some name
  | struct members => ∃ field type, (namedFields members).lookup field = some (some type) ∧
    mention? type = some name
  | synonym type => mention? type = some name

/-- A declaration says the same exactly if the names do that it mentions. -/
theorem Declaration.fact_eq_iff {aliases aliases' : List (String × CType)}
    (declaration : Declaration) :
    declaration.fact aliases = declaration.fact aliases' ↔
      ∀ name, declaration.Mentions name → meaning aliases name = meaning aliases' name := by
  cases declaration with
  | result type =>
    rw [fact, fact, Fact.result.injEq]
    exact typeOfExpr_getD_eq_iff type
  | struct members =>
    rw [fact, fact, Fact.struct.injEq, funext_iff]
    constructor
    · rintro same name ⟨field, type, found, mentioned⟩
      have same := same field
      simp only [found, Option.map_some, Option.some_inj] at same
      exact (typeOfExpr_eq_iff type).mp same name mentioned
    · intro same field
      cases found : (namedFields members).lookup field with
      | none => rfl
      | some type =>
        rw [Option.map_some, Option.map_some, Option.some_inj]
        refine (typeOfExpr_getD_eq_iff type).mpr fun name mentioned => ?_
        obtain ⟨type, rfl, mentioned⟩ := Option.bind_eq_some_iff.mp mentioned
        exact same name ⟨field, type, found, mentioned⟩
  | synonym type =>
    rw [fact, fact, Fact.synonym.injEq]
    exact typeOfExpr_eq_iff type

/-! ## Tables -/

/-- What is found among declarations under a name. -/
@[ext]
structure Tables where
  /-- The result types of functions. -/
  returns : String → Option CType := fun _ => none
  /-- The field types of structures. -/
  structs : String → Option (String → Option CType) := fun _ => none
  /-- The types that aliases stand for. -/
  aliases : String → Option CType := fun _ => none

namespace Tables

variable {tables : Tables} {name other : String} {fact : Fact}

/-- The tables when one more thing is said about a name. -/
def tell (tables : Tables) (name : String) : Fact → Tables
  | .result type => { tables with returns := Function.update tables.returns name (some type) }
  | .struct fields => { tables with structs := Function.update tables.structs name (some fields) }
  | .synonym type => { tables with aliases := Function.update tables.aliases name (some type) }

/-- The tables say this about a name. -/
def Tells (tables : Tables) (name : String) : Fact → Prop
  | .result type => tables.returns name = some type
  | .struct fields => tables.structs name = some fields
  | .synonym type => tables.aliases name = some type

theorem tells_tell : (tables.tell name fact).Tells name fact := by
  cases fact <;> simp [tell, Tells]

theorem tells_tell_of_ne {said : Fact} (differ : name ≠ other) :
    (tables.tell other said).Tells name fact ↔ tables.Tells name fact := by
  cases fact <;> cases said <;> simp [tell, Tells, differ]

/-- What is said about different names can be said in either order. -/
theorem tell_comm {said : Fact} (differ : name ≠ other) :
    (tables.tell name fact).tell other said = (tables.tell other said).tell name fact := by
  cases fact <;> cases said <;> simp [tell, Function.update_comm differ]

/-- Under one name the tables say one thing of each kind. -/
theorem Tells.unique {declaration : Declaration} {aliases aliases' : List (String × CType)}
    (told : tables.Tells name (declaration.fact aliases))
    (told' : tables.Tells name (declaration.fact aliases')) :
    declaration.fact aliases = declaration.fact aliases' := by
  cases declaration <;> simp_all [Tells, Declaration.fact]

end Tables

namespace Declared

/-- What is found among some declarations. -/
def tables (declared : Declared) : Tables where
  returns name := declared.returns.lookup name
  structs name := (declared.structs.lookup name).map fun fields field => fields.lookup field
  aliases name := declared.aliases.lookup name

theorem tables_returns (declared : Declared) (name : String) (type : CType) :
    { declared with returns := (name, type) :: declared.returns : Declared }.tables =
      declared.tables.tell name (.result type) := by
  ext1
  · funext other
    simp only [tables, Tables.tell, List.lookup_cons, Function.update_apply]
    split <;> simp_all
  · rfl
  · rfl

theorem tables_aliases (declared : Declared) (name : String) (type : CType) :
    { declared with aliases := (name, type) :: declared.aliases : Declared }.tables =
      declared.tables.tell name (.synonym type) := by
  ext1
  · rfl
  · rfl
  · funext other
    simp only [tables, Tables.tell, List.lookup_cons, Function.update_apply]
    split <;> simp_all

theorem tables_structs (declared : Declared) (name : String) (fields : List (String × CType)) :
    { declared with structs := (name, fields) :: declared.structs : Declared }.tables =
      declared.tables.tell name (.struct fun field => fields.lookup field) := by
  ext1
  · rfl
  · funext other
    simp only [tables, Tables.tell, List.lookup_cons, Function.update_apply]
    split <;> simp_all
  · rfl

theorem lookup_map {α β : Type} (convert : α → β) (key : String) :
    ∀ list : List (String × α),
      (list.map fun entry => (entry.1, convert entry.2)).lookup key = (list.lookup key).map convert
  | [] => rfl
  | (first, value) :: rest => by
    rw [List.map_cons, List.lookup_cons, List.lookup_cons, lookup_map convert key rest]
    cases key == first <;> rfl

theorem fieldTypes_eq (aliases : List (String × CType)) (members : List (Member TypeExpr)) :
    fieldTypes aliases members = (namedFields members).map fun field =>
      (field.1, (field.2.map (typeOfExpr aliases)).getD .unknown) := by
  rw [fieldTypes, namedFields, List.map_reverse, List.map_filterMap]
  congr 2
  funext member
  match member with
  | .property (.name _) _ | .property .computed _ | .index _ | .other => rfl

theorem fact_struct (aliases : List (String × CType)) (members : List (Member TypeExpr)) :
    (Declaration.struct members).fact aliases =
      .struct fun field => (fieldTypes aliases members).lookup field := by
  rw [Declaration.fact, fieldTypes_eq]
  congr 1
  funext field
  exact (lookup_map _ field (namedFields members)).symm

/-- What the declarations of a script say once they include one more item. -/
theorem tables_collect (declared : Declared) (item : Item) :
    (declared.collect item).tables = (declaration? item).elim declared.tables
      fun (name, declaration) => declared.tables.tell name (declaration.fact declared.aliases) := by
  cases item with
  | function f =>
    cases named : f.name <;> simp only [collect, declaration?, named]
    · rfl
    · exact tables_returns ..
  | interface name members =>
    exact (tables_structs ..).trans (congrArg _ (fact_struct ..).symm)
  | typeAlias name type =>
    simp only [collect, declaration?]
    cases type with
    | literal members =>
      simp only [isNone_indexType declared.aliases []]
      cases (indexType [] members).isNone with
      | true => exact (tables_structs ..).trans (congrArg _ (fact_struct ..).symm)
      | false => exact tables_aliases ..
    | _ => exact tables_aliases ..
  | exportedVariables span declarators => rfl
  | exportedOther span => rfl
  | statement s => rfl

end Declared

end ScriptToC.Lowering
