import ScriptToC.Proofs.Emission.Assignments
import ScriptToC.Proofs.Evaluation.Machine

/-!
# What a literal reads

An assignment of a literal becomes several lines: one creates the container, unless it is a fixed
array, and each of the others evaluates an element and stores its value (`literalRow`). So an
element is evaluated after lines that may have written what it reads, as in `xs = [5, xs[0]]`.
-/

set_option autoImplicit false

namespace ScriptToC

open Ir

/-- Lines that may create a container and then store values in it. -/
structure Row (Address Value : Type) where
  creation : Option (Action Address Value Unit)
  lines : List (Line Address Value)

namespace Row

variable {Address Value : Type} (row : Row Address Value)

/-- What the lines do. -/
def actions : List (Action Address Value Unit) :=
  row.creation.toList ++ row.lines.map Line.action

variable [DecidableEq Address] (memory : Address → Value)

/-- What the elements do if they are evaluated before the lines, one after another. -/
def before : List (Effect Address Value Value) :=
  Action.inTurn memory (row.lines.map Line.element)

/-- What the lines have done when they store values. -/
def storings : List (Storing Address Value) :=
  Line.storings (row.creation.elim [] fun action => (action.run memory).writes)
    (Action.after memory row.creation.toList) row.lines

/-- No element reads what the lines have written until then. -/
def Clean : Prop :=
  ∀ storing ∈ row.storings memory, storing.Clean

instance : Decidable (row.Clean memory) :=
  inferInstanceAs (Decidable (∀ storing ∈ row.storings memory, ∀ address ∈ storing.reads,
    address ∉ storing.written))

theorem length_storings : (row.storings memory).length = (row.before memory).length := by
  rw [storings, before, Line.length_storings, Action.length_inTurn, List.length_map]

/-- Whether the elements read what the lines have written can be told before the lines. -/
theorem clean_iff :
    (row.Clean memory ↔
        List.Forall₂ (fun storing old => ∀ address ∈ old.reads, address ∉ storing.written)
          (row.storings memory) (row.before memory)) ∧
      (row.Clean memory →
        List.Forall₂ (fun storing old => storing.stored = old.result)
          (row.storings memory) (row.before memory)) := by
  refine Line.clean_iff ?_ row.lines
  cases row.creation with
  | none => exact fun _ _ => rfl
  | some action => exact action.agree_run memory

end Row

namespace Emit

variable {types : Types} {Address Value : Type}

/-- What the lines do that fill a place from a literal. -/
def literalRow (machine : Machine Address Value) (types : Types) (place : CExpr)
    (type : Option CType) (value : Expr) : Row Address Value :=
  match value, type with
  | .array _ elements, some (.array _ _ dynamic) =>
    let array := if dynamic then .arrow place "data" else place
    { creation := if dynamic then
        some (machine.createArray (machine.operand place)
          (machine.constant (toString (max elements.length 2)))
          (machine.constant (toString elements.length)))
        else none
      lines := elements.zipIdx.map fun (e, index) =>
        machine.storeAt array (.number (toString index)) (exprTree types e) }
  | .object _ properties, some (.dict _) =>
    { creation := some (machine.createDict (machine.operand place)
        (machine.constant (toString (max properties.length 4))))
      lines := properties.map fun (key, e) =>
        machine.setEntry (machine.operand place)
          (machine.operand (.literal (Text.Quoted.literal key)))
          (machine.operand (exprTree types e)) }
  | _, _ => ⟨none, []⟩

theorem perform_store (machine : Machine Address Value) (array key item : CExpr) (cast : String) :
    machine.perform (.store (.index array key) cast item) =
      (machine.storeAt array key item).action := by
  change discard (do
    let place ← machine.elementPlace (machine.operand array) (machine.operand key)
    let stored ← machine.value (machine.operand item)
    Action.save place stored
    return stored) = _
  simp only [discard, map_const, Function.comp_apply, map_bind, map_pure, Function.const_apply,
    bind_pure_unit]
  rfl

/-- Each line of an assignment of a literal creates the container or stores an element. -/
theorem perform_assignmentCodes (machine : Machine Address Value) (place : CExpr)
    {type : CType} {value : Expr} (takes : type.takes value = true) :
    (assignmentCodes types place (some type) value).map machine.perform =
      (literalRow machine types place (some type) value).actions := by
  obtain ⟨_, elements, _, _, dynamic, rfl, rfl⟩ | ⟨_, properties, _, rfl, rfl⟩ :=
    CType.exists_of_takes takes
  · have stores (array : CExpr) (cast : String) :
        (elements.zipIdx.map fun (e, index) => Code.store (.index array
          (.number (toString index))) cast (exprTree types e)).map machine.perform =
        (elements.zipIdx.map fun (e, index) => machine.storeAt array (.number (toString index))
          (exprTree types e)).map Line.action := by
      rw [List.map_map, List.map_map]
      exact List.map_congr_left fun _ _ => perform_store machine ..
    cases dynamic with
    | true => exact congrArg _ (stores _ _)
    | false => exact stores _ _
  · have stores : (properties.map fun (key, e) => Code.line (.call (.name "DICT_SET")
          [place, .literal (Text.Quoted.literal key), exprTree types e])).map machine.perform =
        (properties.map fun (key, e) => machine.setEntry (machine.operand place)
          (machine.operand (.literal (Text.Quoted.literal key)))
          (machine.operand (exprTree types e))).map Line.action := by
      rw [List.map_map, List.map_map]
      rfl
    exact congrArg _ stores

/-- The lines that store evaluate the elements, in order. -/
theorem elements_literalRow (machine : Machine Address Value) (place : CExpr)
    {type : CType} {value : Expr} (takes : type.takes value = true) :
    (literalRow machine types place (some type) value).lines.map Line.element =
      value.contents.map fun e => machine.value (machine.operand (exprTree types e)) := by
  obtain ⟨_, elements, _, _, dynamic, rfl, rfl⟩ | ⟨_, properties, _, rfl, rfl⟩ :=
    CType.exists_of_takes takes
  · simp only [literalRow, Expr.contents, List.map_map]
    conv_rhs => rw [← List.zipIdx_map_fst 0 elements, List.map_map]
    rfl
  · simp only [literalRow, Expr.contents, List.map_map]
    rfl

/-- **What a literal stores.** The lines of an accepted assignment of a literal create the container
and store one element after another. The elements read nothing that the lines have written exactly
if they would not, were they evaluated before the lines. Then each line stores the value that its
element had before, and what is not stored over is there in the end. -/
theorem literal_clean_iff {place : CExpr} {target : String} (spells : Spells place target)
    {type : Option CType} {value : Expr} (literal : value.isLiteral = true)
    {headers headers' : Headers} {a : Assignment}
    (accepted : assignment types target type value headers = (.ok a, headers'))
    [DecidableEq Address] (machine : Machine Address Value) (memory : Address → Value) :
    let codes := assignmentCodes types place type value
    let row := literalRow machine types place type value
    SpellAll codes a.lines ∧
      codes.map machine.perform = row.actions ∧
      row.lines.map Line.element =
        (value.contents.map fun e => machine.value (machine.operand (exprTree types e))) ∧
      (row.Clean memory ↔
        List.Forall₂ (fun storing old => ∀ address ∈ old.reads, address ∉ storing.written)
          (row.storings memory) (row.before memory)) ∧
      (row.Clean memory →
        List.Forall₂ (fun storing old => storing.stored = old.result)
          (row.storings memory) (row.before memory)) ∧
      (Line.Kept (row.storings memory) → ∀ storing ∈ row.storings memory,
        Action.after memory row.actions storing.place = storing.stored) ∧
      ((∀ line ∈ row.lines, ∀ memory, (line.element.run memory).writes = []) →
        row.before memory = row.lines.map fun line => line.element.run memory) := by
  obtain ⟨found, rfl, takes⟩ := takes_of_assignment target type value accepted literal
  intro codes row
  obtain ⟨clean, stored⟩ := row.clean_iff memory
  refine ⟨spells_assignment spells _ value accepted, perform_assignmentCodes machine place takes,
    elements_literalRow machine place takes, clean, stored, ?_, ?_⟩
  · intro kept storing member
    rw [Row.actions, Action.after, List.foldl_append]
    exact Line.after_place kept storing member
  · intro pure
    rw [Row.before, Action.inTurn_of_writes_nil memory (List.forall_mem_map.2 pure), List.map_map]
    rfl

/-- For a variable that is a fixed array, this means that no element reads one of the elements in
front of it. -/
theorem clean_fixedArray_iff [DecidableEq Address] (machine : Machine Address Value)
    {name : String} (isVariable : name ≠ "NULL") {first : Value}
    (isArray : machine.array? (machine.variableAt name) = some first) (element : CType)
    (capacity : Nat) (node : Node) (elements : List Expr) (memory : Address → Value) :
    let row := literalRow machine types (.name name) (some (.array element capacity false))
      (.array node elements)
    row.Clean memory ↔ ∀ (i : Nat) old, (row.before memory)[i]? = some old → ∀ j < i,
      machine.element first (machine.number (toString j)) ∉ old.reads := by
  intro row
  let pairs := elements.zipIdx.map fun (e, index) =>
    (machine.element first (machine.number (toString index)),
      machine.value (machine.operand (exprTree types e)))
  have lines : row.lines = pairs.map fun pair => ⟨pure pair.1, pair.2⟩ := by
    have located (index : Nat) : machine.elementPlace (machine.operand (.name name))
        (machine.operand (.number (toString index))) =
          pure (machine.element first (machine.number (toString index))) := by
      simp [Machine.elementPlace, Machine.operand, isVariable, Machine.value, Machine.fetch,
        isArray, Machine.constant]
    rw [List.map_map]
    refine List.map_congr_left fun (e, index) _ => ?_
    exact congrArg (Line.mk · _) (located index)
  have lengths := row.length_storings memory
  have written {i : Nat} {now : Storing Address Value}
      (found : (row.storings memory)[i]? = some now) (address : Address) :
      address ∈ now.written ↔
        ∃ j < i, machine.element first (machine.number (toString j)) = address := by
    have inside : i < elements.length := by
      have bound := (List.getElem?_eq_some_iff.1 found).1
      simpa [Row.storings, lines, pairs] using bound
    have places : pairs.map Prod.fst = (List.range elements.length).map fun index =>
        machine.element first (machine.number (toString index)) := by
      rw [List.range_eq_range', ← List.zipIdx_map_snd 0 elements, List.map_map, List.map_map]
      rfl
    rw [Row.storings, lines] at found
    rw [Line.written_storings found, List.map_take, places, ← List.map_take, List.take_range,
      min_eq_left inside.le]
    simp [row, literalRow]
  rw [(row.clean_iff memory).1, List.forall₂_iff_get, and_iff_right lengths]
  constructor
  · intro all i old isOld j less reads
    obtain ⟨bound, rfl⟩ := List.getElem?_eq_some_iff.1 isOld
    have bound' := lengths ▸ bound
    exact all i bound' bound _ reads
      ((written (List.getElem?_eq_getElem bound') _).2 ⟨j, less, rfl⟩)
  · intro all i bound' bound address reads isWritten
    obtain ⟨j, less, rfl⟩ := (written (List.getElem?_eq_getElem bound') address).1 isWritten
    exact all i _ (List.getElem?_eq_getElem bound) j less reads

/-- An element that reads the variable reads what was written if the container is created, as a
dynamic array and a dictionary are. -/
theorem not_clean_of_reads_variable [DecidableEq Address] (machine : Machine Address Value)
    {name : String} (isVariable : name ≠ "NULL") {type : Option CType} {value : Expr}
    (created : (literalRow machine types (.name name) type value).creation.isSome = true)
    {memory : Address → Value} {old : Effect Address Value Value}
    (isOld : old ∈ (literalRow machine types (.name name) type value).before memory)
    (reads : machine.variableAt name ∈ old.reads) :
    ¬ (literalRow machine types (.name name) type value).Clean memory := by
  have isPlace : machine.operand (.name name) = .place (pure (machine.variableAt name)) := by
    rw [Machine.operand, if_neg isVariable]
  obtain ⟨action, isAction⟩ := Option.isSome_iff_exists.1 created
  have written : machine.variableAt name ∈ (action.run memory).writes := by
    unfold literalRow at isAction
    split at isAction
    · dsimp only at isAction
      split at isAction
      · obtain rfl := Option.some.inj isAction
        rw [isPlace]
        exact machine.mem_writes_createArray ..
      · cases isAction
    · obtain rfl := Option.some.inj isAction
      rw [isPlace]
      exact machine.mem_writes_createDict ..
    · cases isAction
  intro clean
  obtain ⟨i, bound, rfl⟩ := List.getElem_of_mem isOld
  obtain ⟨lengths, unread⟩ := List.forall₂_iff_get.1 ((Row.clean_iff _ memory).1.1 clean)
  refine unread i (lengths ▸ bound) bound _ reads ?_
  refine Line.subset_written _ _ _ _ (List.getElem_mem _) ?_
  rw [isAction]
  exact written

/-! ## Literals that read arrays -/

/-- A machine for programs that index two arrays of numbers. The elements of `xs` begin at the
address 1, those of `ys` at the address 11. -/
def flatMachine : Machine Nat Nat where
  variableAt name := if name = "xs" then 0 else 10
  array? address := if address % 10 = 0 then some (address + 1) else none
  target pointer := pointer
  field pointer _ := pointer
  element pointer index := pointer + index
  number text := Nat.ofDigitChars 10 text.toList 0
  literal _ := 0
  truth value := value ≠ 0
  ofBool holds := if holds then 1 else 0
  unary _ value := value
  binary _ value _ := value
  step _ value := value
  function _ _ := pure 0

/-- The elements of `xs` are 1 and 2, those of `ys` are 3 and 4. -/
def fourNumbers : Nat → Nat
  | 1 => 1
  | 2 => 2
  | 11 => 3
  | 12 => 4
  | _ => 0

/-- The type of both arrays. -/
def twoNumbers : CType :=
  .fixedArray .number 2

/-- Types of nodes, where one node stands for both arrays. -/
def arrayTypes : Types
  | 1 => some twoNumbers
  | _ => none

/-- An element of an array. -/
def elementOf (name index : String) : Expr :=
  .index ⟨2, ⟨0, 0⟩⟩ (.ident ⟨1, ⟨0, 0⟩⟩ name) (.number ⟨3, ⟨0, 0⟩⟩ index)

/-- The array `[ys[1], ys[0]]`. -/
def reversedOther : Expr :=
  .array ⟨4, ⟨0, 0⟩⟩ [elementOf "ys" "1", elementOf "ys" "0"]

/-- The array `[5, xs[0]]`. -/
def shiftedSelf : Expr :=
  .array ⟨4, ⟨0, 0⟩⟩ [.number ⟨3, ⟨0, 0⟩⟩ "5", elementOf "xs" "0"]

/-- What a literal reads in another array is what was there before. -/
theorem literal_clean_iff_reversedOther :
    (assignment arrayTypes "xs" (some twoNumbers) reversedOther {}).1 =
        .ok (.statements ["xs[0] = ys[1];", "xs[1] = ys[0];"]) ∧
      (literalRow flatMachine arrayTypes (.name "xs") (some twoNumbers) reversedOther).Clean
        fourNumbers ∧
      ((literalRow flatMachine arrayTypes (.name "xs") (some twoNumbers) reversedOther).before
        fourNumbers).map Effect.result = [4, 3] ∧
      ∀ storing ∈ (literalRow flatMachine arrayTypes (.name "xs") (some twoNumbers)
          reversedOther).storings fourNumbers,
        Action.after fourNumbers (literalRow flatMachine arrayTypes (.name "xs") (some twoNumbers)
          reversedOther).actions storing.place = storing.stored := by
  have accepted : assignment arrayTypes "xs" (some twoNumbers) reversedOther {} =
      (.ok (.statements ["xs[0] = ys[1];", "xs[1] = ys[0];"]), {}) := rfl
  obtain ⟨-, -, -, clean, -, kept, -⟩ := literal_clean_iff
    (show Spells (.name "xs") "xs" from rfl) rfl accepted flatMachine fourNumbers
  refine ⟨rfl, clean.2 ?_, by decide +kernel, kept (by decide +kernel)⟩
  exact .cons (by decide +kernel) (.cons (by decide +kernel) .nil)

/-- What a literal reads in the array that it fills may have been stored by the line before. -/
theorem shiftedSelf_reads_stored :
    (assignment arrayTypes "xs" (some twoNumbers) shiftedSelf {}).1 =
        .ok (.statements ["xs[0] = 5;", "xs[1] = xs[0];"]) ∧
      (assignmentCodes arrayTypes (.name "xs") (some twoNumbers) shiftedSelf).map
          flatMachine.perform =
        (literalRow flatMachine arrayTypes (.name "xs") (some twoNumbers) shiftedSelf).actions ∧
      ¬ (literalRow flatMachine arrayTypes (.name "xs") (some twoNumbers) shiftedSelf).Clean
        fourNumbers ∧
      ((literalRow flatMachine arrayTypes (.name "xs") (some twoNumbers) shiftedSelf).before
        fourNumbers).map Effect.result = [5, 1] ∧
      Action.after fourNumbers (literalRow flatMachine arrayTypes (.name "xs") (some twoNumbers)
        shiftedSelf).actions 2 = 5 :=
  ⟨rfl, perform_assignmentCodes _ _ rfl, by decide +kernel, by decide +kernel, by decide +kernel⟩

end Emit

end ScriptToC
