import ScriptToC.Proofs.Emission.Frame
import ScriptToC.Proofs.Evaluation.Machine
import ScriptToC.Proofs.Evaluation.Selection
import ScriptToC.Proofs.Grouping.Expected
import ScriptToC.Proofs.Hoisting.Homes
import ScriptToC.Proofs.Names.Runs

/-!
# Loops that count

A `for` loop of C runs in rounds: it tests, runs its body and steps, until the test fails
(`LoopHead.Rounds`). The head of a loop over a fixed array counts from zero to the capacity
(`countingHead`). Its counter is a variable of 16 bits, so it comes to the capacity only if that is
below 32768. From 32767 it goes on with -32768, and a test against a greater capacity never fails. A
loop over a fixed array hence ends exactly if the capacity is below 32768, and whenever it ends, its
rounds began with the indices of the array, in order (`fixedLoop_ends_iff`).
-/

set_option autoImplicit false

namespace ScriptToC

open Ir

/-! ## Names of counters -/

/-- The text is a name that C reads as a variable. -/
structure IsVariable (text : String) : Prop where
  word : isWord text = true
  noKeyword : text ∉ CExpr.keywords
  noMacro : text ≠ "NULL"

theorem isVariable_counterBases (place : Nat) (small : place < 6) :
    IsVariable (Names.counterBases.getD place "") := by
  have each : ∀ place < 6, isWord (Names.counterBases.getD place "") = true ∧
      Names.counterBases.getD place "" ∉ CExpr.keywords ∧
      Names.counterBases.getD place "" ≠ "NULL" := by decide
  obtain ⟨word, noKeyword, noMacro⟩ := each place small
  exact ⟨word, noKeyword, noMacro⟩

/-- A letter with a number behind it is a variable, as no keyword has its second character. -/
theorem IsVariable.numbered {base : String} (isVariable : IsVariable base)
    (single : base.length = 1)
    (number : Nat) : IsVariable (base ++ "_" ++ toString number) := by
  have second : (base ++ "_" ++ toString number).toList[1]? = some '_' := by
    obtain ⟨c, letter⟩ := List.length_eq_one_iff.1 single
    rw [String.toList_append, String.toList_append, letter]
    rfl
  have others : ∀ text ∈ "NULL" :: CExpr.keywords, text.toList[1]? ≠ some '_' := by decide
  refine ⟨?_, fun keyword => ?_, fun same => ?_⟩
  · have mark : ∀ c ∈ "_".toList, isWordChar c = true := List.forall_mem_singleton.2 (by decide)
    refine isWord_append (isWord_append isVariable.word mark) fun c member => ?_
    rw [isWordChar, Emit.isDigit_of_mem_toString member, Bool.or_true]
  · exact others _ (List.mem_cons_of_mem _ keyword) second
  · exact others _ (same ▸ List.mem_cons_self) second

/-- The names of counters are variables. -/
theorem isVariable_counterName (index : Nat) : IsVariable (Names.counterName index) := by
  have small : index % 6 < 6 := Nat.mod_lt _ (by decide)
  have base := isVariable_counterBases _ small
  rw [Names.counterName]
  split
  · exact base
  · exact base.numbered (Names.length_counterBases _ small) _

/-- A counter that is given is a variable. -/
theorem isVariable_counter {names : Names} {id : NodeId} (new : names.counters.lookup id = none) :
    IsVariable (names.counter id).1 := by
  obtain ⟨steps, -, found, -⟩ :=
    Names.firstFree_eq names.taken Names.counterName names.taken.size 0
  rw [Names.counter, new]
  change IsVariable (Names.firstFree names.taken Names.counterName names.taken.size 0)
  rw [found]
  exact isVariable_counterName _

/-! ## Rounds -/

/-- The expressions in the head of a `for` loop. -/
structure LoopHead where
  init : CExpr
  test : CExpr
  step : CExpr

/-- C reads the texts of the expressions as these trees. -/
def LoopHead.ReadAsWritten (head : LoopHead) : Prop :=
  ∀ tree ∈ [head.init, head.test, head.step], ReadsInto (String.ofList tree.chars) tree

/-- The text of a head. -/
def LoopHead.text (head : LoopHead) : String :=
  loopHead (String.ofList head.init.chars) (String.ofList head.test.chars)
    (String.ofList head.step.chars)

/-- The head of a loop whose counter goes from zero to a limit. -/
def countingHead (counter : String) (limit : Nat) : LoopHead where
  init := .assign none (.name counter) (.number "0")
  test := .between (.strict .lt) (.name counter) (.number (toString limit))
  step := .after .increment (.name counter)

theorem text_countingHead (counter : String) (limit : Nat) :
    (countingHead counter limit).text =
      loopHead (counter ++ " = 0") (counter ++ " < " ++ toString limit) (counter ++ "++") := by
  have assigned : (Mark.assign none).chars = ['='] := by decide
  have less : (Mark.inner (.strict .lt)).chars = ['<'] := by decide
  have increased : (Mark.update .increment).chars = ['+', '+'] := by decide
  have init : String.ofList (countingHead counter limit).init.chars = counter ++ " = 0" :=
    String.toList_inj.1 (by simp [countingHead, CExpr.spaced, assigned])
  have test : String.ofList (countingHead counter limit).test.chars =
      counter ++ " < " ++ toString limit :=
    String.toList_inj.1 (by simp [countingHead, CExpr.spaced, less])
  have step : String.ofList (countingHead counter limit).step.chars = counter ++ "++" :=
    String.toList_inj.1 (by simp [countingHead, increased])
  rw [LoopHead.text, init, test, step]

theorem readAsWritten_countingHead {counter : String} (isVariable : IsVariable counter)
    (limit : Nat) : (countingHead counter limit).ReadAsWritten := by
  have reads {level : Nat} {tree : CExpr} {text : String} (stands : Emit.Stands level tree text)
      (clear : tree.Clear) : ReadsInto (String.ofList tree.chars) tree :=
    (reads_iff stands.fits (String.toList_ofList ..)).2 clear
  have name := Emit.stands_name isVariable.word
  have named : (CExpr.name counter).Clear := .intro isVariable.noKeyword nofun
  have number (n : Nat) : (CExpr.number (toString n)).Clear := .intro trivial nofun
  refine List.forall_mem_cons.2 ⟨?_, List.forall_mem_cons.2 ⟨?_, List.forall_mem_singleton.2 ?_⟩⟩
  · refine reads (Emit.stands_assign name (Emit.stands_number (Emit.isNumber_toString 0))
      (by decide) (by decide)) (.intro trivial ?_)
    exact List.forall_mem_cons.2 ⟨named, List.forall_mem_singleton.2 (number 0)⟩
  · refine reads (Emit.stands_between name (Emit.stands_number (Emit.isNumber_toString limit))
      (by decide)) (.intro (show 9 ≤ 15 by decide) ?_)
    exact List.forall_mem_cons.2 ⟨named, List.forall_mem_singleton.2 (number limit)⟩
  · exact reads (Emit.stands_after name (by decide) rfl)
      (.intro trivial (List.forall_mem_singleton.2 named))

section Rounds

variable {Address Value : Type} [DecidableEq Address] (machine : Machine Address Value)

/-- The evaluation of an expression. -/
def Machine.evaluate (tree : CExpr) (memory : Address → Value) : Effect Address Value Value :=
  (machine.value (machine.operand tree)).run memory

/-- The rounds of a loop, told by the memories in which they begin, up to the memory in which the
test fails. The body is told by what it makes of a memory. -/
inductive LoopHead.Rounds (head : LoopHead) (body : (Address → Value) → Address → Value) :
    (Address → Value) → List (Address → Value) → (Address → Value) → Prop
  | stop {memory : Address → Value}
    (fails : machine.truth (machine.evaluate head.test memory).result = false) :
    Rounds head body memory [] (machine.evaluate head.test memory).memory
  | next {memory last : Address → Value} {others : List (Address → Value)}
    (holds : machine.truth (machine.evaluate head.test memory).result = true)
    (rest : Rounds head body
      (machine.evaluate head.step (body (machine.evaluate head.test memory).memory)).memory
      others last) :
    Rounds head body memory ((machine.evaluate head.test memory).memory :: others) last

/-- A run of a whole loop. -/
def LoopHead.Runs (head : LoopHead) (body : (Address → Value) → Address → Value)
    (memory : Address → Value) (rounds : List (Address → Value)) (last : Address → Value) : Prop :=
  head.Rounds machine body (machine.evaluate head.init memory).memory rounds last

end Rounds

/-! ## Counting -/

section Counting

variable {Address Value : Type} [DecidableEq Address]

/-- A machine handles a counter and a limit as C does: the counter is a variable that holds an
integer, the test compares the integer with the limit, and the step adds one and stores 16 bits of
the sum. The comparison is C's for all limits that an integer type of C has room for. -/
structure Machine.Counts (machine : Machine Address Value) (counter : String) (limit : Nat)
    (integer : Value → Int) : Prop where
  isVariable : IsVariable counter
  single : machine.array? (machine.variableAt counter) = none
  zero : integer (machine.number "0") = 0
  compare : ∀ value, machine.truth (machine.binary .lt value (machine.number (toString limit))) =
    decide (integer value < limit)
  step : ∀ value, integer (machine.step .increment value) = stored (integer value + 1)

namespace Machine.Counts

variable {machine : Machine Address Value} {counter : String} {limit : Nat} {integer : Value → Int}
  (counts : machine.Counts counter limit integer) (memory : Address → Value)

include counts

omit [DecidableEq Address] in
theorem operand_counter :
    machine.operand (.name counter) = .place (pure (machine.variableAt counter)) := by
  rw [Machine.operand, if_neg counts.isVariable.noMacro]

omit [DecidableEq Address] in
theorem fetch_counter :
    machine.fetch (machine.variableAt counter) = .load (machine.variableAt counter) := by
  rw [Machine.fetch, counts.single]

theorem evaluate_init : (machine.evaluate (countingHead counter limit).init memory).memory =
    Function.update memory (machine.variableAt counter) (machine.number "0") := by
  rw [countingHead, Machine.evaluate, Machine.operand, counts.operand_counter]
  rfl

theorem evaluate_test : machine.evaluate (countingHead counter limit).test memory =
    ⟨machine.binary .lt (memory (machine.variableAt counter)) (machine.number (toString limit)),
      memory, [machine.variableAt counter], []⟩ := by
  rw [countingHead, Machine.evaluate, Machine.operand, counts.operand_counter]
  change Action.run (do
    return machine.binary .lt (← machine.fetch (machine.variableAt counter))
      (machine.number (toString limit))) memory = _
  rw [counts.fetch_counter]
  rfl

theorem evaluate_step : (machine.evaluate (countingHead counter limit).step memory).memory =
    Function.update memory (machine.variableAt counter)
      (machine.step .increment (memory (machine.variableAt counter))) := by
  rw [countingHead, Machine.evaluate, Machine.operand, counts.operand_counter]
  change (Action.run (do
    let old ← machine.fetch (machine.variableAt counter)
    Action.save (machine.variableAt counter) (machine.step .increment old)
    return old) memory).memory = _
  rw [counts.fetch_counter]
  rfl

/-- The counter begins at zero. -/
theorem integer_init : integer ((machine.evaluate (countingHead counter limit).init memory).memory
    (machine.variableAt counter)) = 0 := by
  rw [counts.evaluate_init, Function.update_self, counts.zero]

/-- The test compares the counter with the limit. -/
theorem truth_test :
    machine.truth (machine.evaluate (countingHead counter limit).test memory).result =
      decide (integer (memory (machine.variableAt counter)) < limit) := by
  rw [counts.evaluate_test, counts.compare]

theorem memory_test :
    (machine.evaluate (countingHead counter limit).test memory).memory = memory := by
  rw [counts.evaluate_test]

/-- The step adds one to the counter, of which 16 bits are kept. -/
theorem integer_step : integer ((machine.evaluate (countingHead counter limit).step memory).memory
    (machine.variableAt counter)) =
      stored (integer (memory (machine.variableAt counter)) + 1) := by
  rw [counts.evaluate_step, Function.update_self, counts.step]

/-! ### Runs -/

variable {body : (Address → Value) → Address → Value}
  (keeps : ∀ memory, body memory (machine.variableAt counter) = memory (machine.variableAt counter))
  {memory} {rounds : List (Address → Value)} {last : Address → Value}

/-- A loop that ends from a counter of 16 bits has a limit that such a counter comes to. -/
theorem limit_lt (ends : (countingHead counter limit).Rounds machine body memory rounds last)
    (fits : integer (memory (machine.variableAt counter)) < 32768) : limit < 32768 := by
  induction ends with
  | stop fails =>
    rw [counts.truth_test, decide_eq_false_iff_not] at fails
    omega
  | next _ _ ih =>
    refine ih ?_
    rw [counts.integer_step]
    exact stored_lt _

include keeps

/-- After a round that does not leave 16 bits, the counter is one further. -/
theorem integer_round {index : Nat} (small : index + 1 < 32768)
    (here : integer (memory (machine.variableAt counter)) = index) :
    integer ((machine.evaluate (countingHead counter limit).step
      (body (machine.evaluate (countingHead counter limit).test memory).memory)).memory
        (machine.variableAt counter)) = (index + 1 : Nat) := by
  rw [counts.integer_step, keeps, counts.memory_test, here]
  exact (stored_eq_iff (index + 1)).2 small

/-- A loop that ends has counted up to its limit. -/
theorem counted (ends : (countingHead counter limit).Rounds machine body memory rounds last)
    (small : limit < 32768) {index : Nat} (within : index ≤ limit)
    (here : integer (memory (machine.variableAt counter)) = index) :
    rounds.map (fun memory => integer (memory (machine.variableAt counter))) =
      (List.range' index (limit - index)).map Nat.cast := by
  induction ends generalizing index with
  | stop fails =>
    rw [counts.truth_test, decide_eq_false_iff_not, here] at fails
    have reached : limit - index = 0 := by omega
    rw [reached]
    rfl
  | next holds _ ih =>
    rw [counts.truth_test, decide_eq_true_iff, here] at holds
    have more : limit - index = limit - (index + 1) + 1 := by omega
    rw [more, List.range'_succ, List.map_cons, List.map_cons, counts.memory_test, here,
      ih (by omega) (counts.integer_round keeps (by omega) here)]

/-- A loop whose limit a counter of 16 bits comes to ends. -/
theorem exists_rounds (small : limit < 32768) {left : Nat} (within : left ≤ limit)
    (here : integer (memory (machine.variableAt counter)) = (limit - left : Nat)) :
    ∃ rounds last, (countingHead counter limit).Rounds machine body memory rounds last := by
  induction left generalizing memory with
  | zero =>
    refine ⟨_, _, .stop ?_⟩
    rw [counts.truth_test, here, decide_eq_false_iff_not]
    omega
  | succ left ih =>
    have next := counts.integer_round keeps (by omega) here
    rw [show limit - (left + 1) + 1 = limit - left by omega] at next
    obtain ⟨rounds, last, rest⟩ := ih (by omega) next
    refine ⟨_, last, .next ?_ rest⟩
    rw [counts.truth_test, here, decide_eq_true_iff]
    omega

/-- A counting loop ends exactly if its limit is below 32768, and then it has counted. -/
theorem runs_iff (memory : Address → Value) :
    (∀ rounds last, (countingHead counter limit).Runs machine body memory rounds last →
      rounds.map (fun memory => integer (memory (machine.variableAt counter))) =
        (List.range limit).map Nat.cast) ∧
    ((∃ rounds last, (countingHead counter limit).Runs machine body memory rounds last) ↔
      limit < 32768) := by
  have zero := counts.integer_init memory
  have small {rounds : List (Address → Value)} {last : Address → Value}
      (ends : (countingHead counter limit).Runs machine body memory rounds last) :
      limit < 32768 :=
    counts.limit_lt ends (zero.trans_lt (by decide))
  refine ⟨fun rounds last ends => ?_, ⟨fun ⟨_, _, ends⟩ => small ends, fun fits => ?_⟩⟩
  · rw [List.range_eq_range']
    exact counts.counted keeps ends (small ends) (Nat.zero_le _) zero
  · refine counts.exists_rounds keeps fits (Nat.le_refl limit) ?_
    rw [Nat.sub_self]
    exact zero

end Machine.Counts

end Counting

/-! ## Loops over fixed arrays -/

/-- A number is declared with 16 bits. -/
theorem token_number (name : String) :
    Variable.token ⟨name, .number⟩ = .declaration ("int16_t " ++ name ++ ";") := by
  have noStar : "int16_t".toList.getLast? ≠ some '*' := by decide
  change Token.declaration (CType.joinDeclarator "int16_t" name ++ ";") = _
  rw [CType.joinDeclarator, if_neg noStar]
  rfl

namespace Emit

open ScopeTree

/-- **Loops over fixed arrays end exactly below 32768 elements.** A loop over a fixed array is
printed with a head that counts from zero to the capacity, and C reads it so. The counter, which the
node keeps, is a variable and is declared as `int16_t` in the scope of the loop, unless the node had
a counter before or the scope a variable of that name. On any machine that handles the counter and
the capacity as C does, if the body comes to its end and leaves the counter alone, the loop ends
exactly if the capacity is below 32768, and whenever it ends, its rounds began with each index of
the array once, in order. -/
theorem fixedLoop_ends_iff {σ : Setting} {scope : ScopeId} {node : Node} {left : ForBinding}
    {right : Expr} {body : Stmt} {element : CType} {capacity : Nat} {w w' : Workspace} {c : CStmt}
    (fixed : σ.types right.id = some (.fixedArray element capacity))
    (run : stmt scope (.forOf node left right body) σ w = (.ok c, w')) :
    ∃ counter array cast target statements,
      c = .forFixed counter capacity array cast target statements ∧
      c.tokens.head? = some (.loop (countingHead counter capacity).text) ∧
      (IsVariable counter → (countingHead counter capacity).ReadAsWritten) ∧
      w'.names.counters.lookup node.id = some counter ∧
      (w.names.counters.lookup node.id = none → IsVariable counter) ∧
      Variable.token ⟨counter, .number⟩ = .declaration ("int16_t " ++ counter ++ ";") ∧
      (∀ locals, w.scopes.locals? scope = some locals → localOf locals counter = none →
        ∃ declared, w'.scopes.locals? scope = some declared ∧
          localOf declared counter = some ⟨counter, .number⟩) ∧
      ∀ (Address Value : Type) [DecidableEq Address] (machine : Machine Address Value)
        (integer : Value → Int) (round : (Address → Value) → Address → Value),
        machine.Counts counter capacity integer →
        (∀ memory, round memory (machine.variableAt counter) =
          memory (machine.variableAt counter)) →
        ∀ memory : Address → Value,
          (∀ rounds last, (countingHead counter capacity).Runs machine round memory rounds last →
            rounds.map (fun memory => integer (memory (machine.variableAt counter))) =
              (List.range capacity).map Nat.cast) ∧
          ((∃ rounds last,
              (countingHead counter capacity).Runs machine round memory rounds last) ↔
            capacity < 32768) := by
  obtain ⟨xs, emits⟩ := emits_of_run _ run
  cases emits with
  | forOf known head loop =>
    cases fixed.symm.trans known
    refine ⟨_, _, _, _, _, rfl, ?_, fun isVariable => readAsWritten_countingHead isVariable _, ?_,
      ?_, token_number _, ?_, ?_⟩
    · rw [if_neg Bool.false_ne_true, CStmt.tokens, text_countingHead]
      rfl
    · exact loop.evolves.given.counters (loopHead_ok head).1
    · intro new
      rw [counter_of_loopHead head]
      exact isVariable_counter new
    · intro locals found new
      have start := frame_loopHead head
      have old := Nat.lt_of_lt_of_le (lt_size_of_locals? found) start.grows
      have frame := start.trans (loop.frame old)
      refine ⟨_, frame.own found, ?_⟩
      rw [localOf_introduce, new, Option.none_or]
      exact List.find?_cons_of_pos (by simp)
    · intro Address Value _ machine integer round counts keeps memory
      exact counts.runs_iff keeps memory

/-! ## The longest loop that ends -/

/-- `for (let x of xs) {}` -/
def numbersLoop : Stmt :=
  .forOf ⟨1, ⟨0, 21⟩⟩ (.declare ⟨⟨3, ⟨9, 10⟩⟩, "x", none⟩) (.ident ⟨2, ⟨14, 16⟩⟩ "xs")
    (.block ⟨4, ⟨18, 20⟩⟩ [])

/-- `xs` is an array of so many numbers. -/
def numbersOf (capacity : Nat) : Setting where
  types
    | 2 => some (.fixedArray .number capacity)
    | 3 => some .number
    | _ => none
  includeMarker := "ts2c"

/-- The loop in C. -/
def numbersLoopInC (capacity : Nat) : CStmt :=
  .forFixed "i" capacity "xs" "" "x" [.block ⟨[], [], false⟩]

theorem stmt_numbersLoop (capacity : Nat) :
    ∃ w', stmt 0 numbersLoop (numbersOf capacity) emptyFunction =
      (.ok (numbersLoopInC capacity), w') :=
  ⟨_, rfl⟩

/-- A machine with a cell for each variable, in which numbers have 16 bits. -/
def shortMachine : Machine String Int where
  variableAt name := name
  array? _ := none
  target pointer := toString pointer
  field _ name := name
  element _ index := toString index
  number text := Nat.ofDigitChars 10 text.toList 0
  literal _ := 0
  truth value := value ≠ 0
  ofBool holds := if holds then 1 else 0
  unary _ value := value
  binary
    | .lt, first, second => if first < second then 1 else 0
    | _, first, _ => first
  step
    | .increment, value => stored (value + 1)
    | .decrement, value => stored (value - 1)
  function _ _ := pure 0

theorem counts_shortMachine (limit : Nat) : shortMachine.Counts "i" limit id where
  isVariable := isVariable_counterName 0
  single := rfl
  zero := rfl
  compare := by
    intro value
    have text : shortMachine.number (toString limit) = limit := by simp [shortMachine]
    rw [text]
    by_cases less : value < limit <;> simp [shortMachine, less]
  step := fun _ => rfl

/-- A body that stores the index in `x`. -/
def storeIndex (memory : String → Int) : String → Int :=
  Function.update memory "x" (memory "i")

/-- The longest array whose loop ends: 32767 elements, and so many rounds. -/
theorem fixedLoop_ends_iff_longest :
    (∃ w', stmt 0 numbersLoop (numbersOf 32767) emptyFunction =
      (.ok (numbersLoopInC 32767), w')) ∧
    shortMachine.Counts "i" 32767 id ∧
    ∀ memory, ∃ rounds last,
      (countingHead "i" 32767).Runs shortMachine storeIndex memory rounds last ∧
        rounds.map (· "i") = (List.range 32767).map Nat.cast := by
  obtain ⟨w', run⟩ := stmt_numbersLoop 32767
  have counts := counts_shortMachine 32767
  refine ⟨⟨w', run⟩, counts, fun memory => ?_⟩
  obtain ⟨_, _, _, _, _, same, -, -, -, -, -, -, ends⟩ := fixedLoop_ends_iff rfl run
  cases same
  have keeps : ∀ memory, storeIndex memory "i" = memory "i" := fun memory =>
    Function.update_of_ne (by decide) _ _
  obtain ⟨counted, stops⟩ := ends String Int shortMachine id storeIndex counts keeps memory
  obtain ⟨rounds, last, runs⟩ := stops.2 (by decide)
  exact ⟨rounds, last, runs, counted rounds last runs⟩

/-- With one element more, the loop is emitted all the same, and its counter never comes to 32768:
after 32767 it is -32768. -/
theorem numbersLoop_never_ends :
    (∃ w', stmt 0 numbersLoop (numbersOf 32768) emptyFunction =
      (.ok (numbersLoopInC 32768), w')) ∧
    (numbersLoopInC 32768).tokens.head? = some (.loop "for (i = 0; i < 32768; i++)") ∧
    shortMachine.Counts "i" 32768 id ∧ stored (32767 + 1) = -32768 ∧
    ∀ memory, ¬ ∃ rounds last,
      (countingHead "i" 32768).Runs shortMachine storeIndex memory rounds last := by
  have counts := counts_shortMachine 32768
  refine ⟨stmt_numbersLoop 32768, by decide +kernel, counts, by decide, ?_⟩
  rintro memory ⟨rounds, last, runs⟩
  exact absurd (counts.limit_lt runs ((counts.integer_init memory).trans_lt (by decide)))
    (by decide)

end Emit

end ScriptToC
