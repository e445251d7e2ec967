import ScriptToC.Proofs.CCode.Tokens
import ScriptToC.Proofs.Errors.Statements
import ScriptToC.Proofs.Evaluation.Strings
import ScriptToC.Proofs.Runtime.Codes

/-!
# Which clause is entered

A script evaluates the tests of a `switch` in turn, up to the first that is equal to the
discriminant (`firstMatch`), and enters the clause there, or else the clause without a test, or
none. The clauses after it are run too, up to a `break`.

In C, a `switch` on strings is printed with a chain of conditional expressions in front of it
(`alike_indexText`). The chain compares the discriminant with the tests in turn and gives the index
of the first clause that matches, or -1 (`integer_chain`). The index is kept in a variable of 16
bits. The clauses are labelled by their indices (`IsCase`), so that C enters the clause that was
found, unless its index does not fit into the variable (`enteredAt_stored_iff`).

To `strcmp`, a string ends at its first NUL, so that a match is an equality of what stands before.
For strings without a NUL, that is equality (`switch_enters_clause`).
-/

set_option autoImplicit false

namespace ScriptToC

open Ir Text

/-! ## The clause that a script enters -/

section Script

variable {State : Type}

/-- The first of the clauses, whose indices begin with the given one, that has a test with a
suitable value: the tests are evaluated in turn up to that one. -/
def firstMatch (strings : Strings Expr State) (suits : String → Prop) [DecidablePred suits] :
    Nat → List (Clause Stmt) → State → Option Nat × State
  | _, [], s => (none, s)
  | index, ⟨none, _⟩ :: rest, s => firstMatch strings suits (index + 1) rest s
  | index, ⟨some test, _⟩ :: rest, s =>
    if suits (strings test s).1 then (some index, (strings test s).2)
    else firstMatch strings suits (index + 1) rest (strings test s).2

/-- Where the tests leave the state as it is, the first match is the first clause whose test has a
suitable value. -/
theorem firstMatch_eq_findIdx? {strings : Strings Expr State} {suits : String → Prop}
    [DecidablePred suits] {s : State} : ∀ {list : List (Clause Stmt)} (index : Nat),
    (∀ clause ∈ list, ∀ test ∈ clause.test, (strings test s).2 = s) →
      firstMatch strings suits index list s =
        ((list.findIdx? fun clause => clause.test.any fun test => suits (strings test s).1).map
          (· + index), s)
  | [], _, _ => rfl
  | ⟨none, _⟩ :: rest, index, still => by
      rw [firstMatch, firstMatch_eq_findIdx? (index + 1) fun clause member =>
        still clause (List.mem_cons_of_mem _ member), List.findIdx?_cons]
      simp [Function.comp_def, Nat.add_assoc, Nat.add_comm 1]
  | ⟨some test, body⟩ :: rest, index, still => by
      have same : (strings test s).2 = s := still ⟨some test, body⟩ List.mem_cons_self test rfl
      rw [firstMatch, same, firstMatch_eq_findIdx? (index + 1) fun clause member =>
        still clause (List.mem_cons_of_mem _ member), List.findIdx?_cons]
      by_cases matched : suits (strings test s).1
      · simp [matched]
      · simp [matched, Function.comp_def, Nat.add_assoc, Nat.add_comm 1]

/-- Conditions that agree on the values of the tests find the same clause. -/
theorem firstMatch_congr {strings : Strings Expr State} {suits suits' : String → Prop}
    [DecidablePred suits] [DecidablePred suits'] : ∀ {list : List (Clause Stmt)} (index : Nat)
    (s : State), (∀ clause ∈ list, ∀ test ∈ clause.test, ∀ s,
      suits (strings test s).1 ↔ suits' (strings test s).1) →
      firstMatch strings suits index list s = firstMatch strings suits' index list s
  | [], _, _, _ => rfl
  | ⟨none, _⟩ :: rest, index, s, agree =>
    firstMatch_congr (index + 1) s fun clause member =>
      agree clause (List.mem_cons_of_mem _ member)
  | ⟨some test, body⟩ :: rest, index, s, agree => by
      have here := agree ⟨some test, body⟩ List.mem_cons_self test rfl s
      have later := firstMatch_congr (index + 1) (strings test s).2 fun clause member =>
        agree clause (List.mem_cons_of_mem _ member)
      simp only [firstMatch, here, later]

/-- A match is a clause with a test. -/
theorem exists_test_of_firstMatch {strings : Strings Expr State} {suits : String → Prop}
    [DecidablePred suits] {found : Nat} : ∀ {list : List (Clause Stmt)} {index : Nat} {s : State},
    (firstMatch strings suits index list s).1 = some found →
      ∃ k clause, found = index + k ∧ list[k]? = some clause ∧ clause.test.isSome = true
  | [], _, _, matched => by cases matched
  | ⟨none, _⟩ :: rest, index, s, matched => by
      rw [firstMatch] at matched
      obtain ⟨k, clause, rfl, there, isSome⟩ := exists_test_of_firstMatch matched
      exact ⟨k + 1, clause, by omega, there, isSome⟩
  | ⟨some test, body⟩ :: rest, index, s, matched => by
      rw [firstMatch] at matched
      split at matched
      next =>
        cases matched
        exact ⟨0, _, rfl, rfl, rfl⟩
      next =>
        obtain ⟨k, clause, rfl, there, isSome⟩ := exists_test_of_firstMatch matched
        exact ⟨k + 1, clause, by omega, there, isSome⟩

/-- In a whole list, a match is the index of a clause with a test. -/
theorem test_of_firstMatch {strings : Strings Expr State} {suits : String → Prop}
    [DecidablePred suits] {list : List (Clause Stmt)} {s s' : State} {found : Option Nat}
    (matched : firstMatch strings suits 0 list s = (found, s')) :
    ∀ k ∈ found, ∃ clause, list[k]? = some clause ∧ clause.test.isSome = true := by
  rintro k rfl
  obtain ⟨k, clause, rfl, there, isSome⟩ := exists_test_of_firstMatch (congrArg Prod.fst matched)
  rw [Nat.zero_add]
  exact ⟨clause, there, isSome⟩

end Script

/-! ## The chain -/

/-- A chain of comparisons, each with the index that is the value of the chain if it holds. -/
def chain : List Code → CExpr
  | .comparison test index :: rest => .conditional test (.number (toString index)) (chain rest)
  | _ => .before (.unary .neg) (.number "1")

theorem chain_nil : chain [] = .before (.unary .neg) (.number (toString 1)) :=
  rfl

/-- The number for a clause that was found. -/
def clauseNumber (found : Option Nat) : Int :=
  found.elim (-1) Nat.cast

/-- What is printed in front of the `switch` is an assignment of the chain, on several lines. -/
theorem alike_indexText {subject : String} {codes : List Code} {comparisons : List String}
    (compare : ∀ code ∈ codes, ∃ test index, code = .comparison test index)
    (spell : List.Forall₂ Code.Spells codes comparisons) :
    Alike (indexText subject comparisons).toList
      ((CExpr.assign none (.name subject) (chain codes)).chars ++ [';']) := by
  intro after
  have lines : words ((comparisons.map (· ++ "\n    : ")).flatMap String.toList ++
      "-1".toList ++ ';' :: after) = words ((chain codes).chars ++ ';' :: after) := by
    induction spell with
    | nil => rfl
    | @cons _ text codes texts here _ ih =>
      obtain ⟨test, index, rfl⟩ := compare _ List.mem_cons_self
      have others := ih fun code member => compare code (List.mem_cons_of_mem _ member)
      have first : ((chain (.comparison test index :: codes)).chars ++ ';' :: after) =
          text.toList ++ ' ' :: ([':'] ++ ' ' :: ((chain codes).chars ++ ';' :: after)) := by
        have spelled : text.toList = test.chars ++ (" ? " ++ toString index).toList := here
        simp only [spelled, chain, CExpr.chars, CExpr.spaced, String.toList_append,
          List.append_assoc]
        rfl
      rw [first, words_space_append, words_space_append, ← others, ← words_space_append,
        ← words_newline_append]
      simp
  have start : ((CExpr.assign none (.name subject) (chain codes)).chars ++ [';']) ++ after =
      subject.toList ++ ' ' :: (['='] ++ ' ' :: ((chain codes).chars ++ ';' :: after)) := by
    simp only [CExpr.chars, CExpr.spaced, List.append_assoc]
    rfl
  rw [start, words_space_append, words_space_append, ← lines, ← words_space_append,
    ← words_space_append]
  simp [indexText, String.toList_join]

/-! ## The clause that C enters -/

namespace CStmt

/-- The label of a clause. -/
def label? : CStmt → Option String
  | clause label _ => label
  | _ => none

/-- The statements of a clause. -/
def inside : CStmt → List CStmt
  | clause _ statements => statements
  | _ => []

/-- A clause whose label is a number, in decimal. -/
def isLabelled (number : Int) : CStmt → Bool
  | clause (some label) _ => label.toNat?.any (↑· = number)
  | _ => false

/-- A clause without a label. -/
def isDefault : CStmt → Bool
  | clause none _ => true
  | _ => false

end CStmt

/-- The clause that C enters for a number: the one labelled with it, or else the one without a
label. -/
def enteredAt (number : Int) (cases : List CStmt) : Option Nat :=
  (cases.findIdx? (·.isLabelled number)).or (cases.findIdx? (·.isDefault))

/-- The clause that a script enters: the first match, or else the clause without a test. -/
def entered (found : Option Nat) (list : List (Clause Stmt)) : Option Nat :=
  found.or (list.findIdx? (·.test.isNone))

/-- What a variable of 16 bits keeps of a number. -/
def stored (number : Int) : Int :=
  number.bmod 65536

theorem stored_eq_iff (k : Nat) : stored k = k ↔ k < 32768 := by
  rw [stored, Int.bmod_def]
  split <;> omega

theorem stored_lt (number : Int) : stored number < 32768 :=
  Int.bmod_lt (by decide)

namespace Emit

variable {σ : Setting} {types : Types}

theorem exists_comparison {discriminant : Expr} : ∀ {index : Nat} {list : List (Clause Stmt)},
    ∀ code ∈ comparisonCodes types discriminant index list,
      ∃ test index, code = .comparison test index
  | _, [], _, member => by cases member
  | index, ⟨test, _⟩ :: rest, code, member => by
      rw [comparisonCodes] at member
      rcases List.mem_append.1 member with here | later
      · obtain ⟨_, -, rfl⟩ := List.mem_map.1 here
        exact ⟨_, _, rfl⟩
      · exact exists_comparison code later

/-- **The value of the chain.** The chain gives the number of the clause that is found by comparing
strings up to a NUL. -/
theorem integer_chain {State : Type} {discriminant : Expr} {d : String}
    {strings : Strings CExpr State} {values : Strings Expr State}
    (steady : ∀ s, strings (exprTree types discriminant) s = (d, s)) :
    ∀ {list : List (Clause Stmt)} (index : Nat) (s : State),
      (∀ clause ∈ list, ∀ test ∈ clause.test, strings (exprTree types test) = values test) →
      (chain (comparisonCodes types discriminant index list)).integer strings s =
        some ((firstMatch values (upToNul · = upToNul d) index list s).map clauseNumber id)
  | [], index, s, _ => by
      rw [comparisonCodes, chain_nil, CExpr.integer, CExpr.integer_numeral]
      rfl
  | ⟨none, _⟩ :: rest, index, s, faithful => by
      rw [comparisonCodes, firstMatch]
      exact integer_chain steady (index + 1) s fun clause member =>
        faithful clause (List.mem_cons_of_mem _ member)
  | ⟨some test, body⟩ :: rest, index, s, faithful => by
      have same := faithful ⟨some test, body⟩ List.mem_cons_self test rfl
      have later := integer_chain steady (index + 1) (values test s).2 fun clause member =>
        faithful clause (List.mem_cons_of_mem _ member)
      rw [comparisonCodes, Option.toList_some, List.map_singleton, List.singleton_append, chain,
        CExpr.integer, CExpr.integer_not_strcmp, steady, same, firstMatch]
      simp only [Option.bind_some]
      by_cases matched : upToNul (values test s).1 = upToNul d
      · rw [if_pos matched.symm, if_pos matched, if_neg (by decide), CExpr.integer_numeral]
        rfl
      · rw [if_neg (Ne.symm matched), if_neg matched, if_pos rfl, later]

/-! ## Clauses -/

/-- What a statement is emitted as, somewhere. -/
def Becomes (σ : Setting) (s : Stmt) (c : CStmt) : Prop :=
  ∃ scope before after, stmt scope s σ before = (.ok c, after)

/-- The label of the C form of a clause with an index: the index, if the clause has a test. -/
def caseLabel (entry : Clause Stmt × Nat) : Option String :=
  entry.1.test.map fun _ => toString entry.2

/-- The C form of a clause with an index. -/
def IsCase (σ : Setting) (entry : Clause Stmt × Nat) (c : CStmt) : Prop :=
  ∃ statements, c = .clause (caseLabel entry) statements ∧
    List.Forall₂ (Becomes σ) entry.1.body statements

theorem EmitsAll.becomes {scope : ScopeId} {body : List Stmt} {w w' : Workspace}
    {cs : List CStmt} {xs : List Variable} (all : EmitsAll σ scope body w cs xs w') :
    List.Forall₂ (Becomes σ) body cs := by
  induction body generalizing w cs xs with
  | nil =>
    cases all
    exact .nil
  | cons s rest ih =>
    cases all with
    | cons first others => exact .cons ⟨scope, w, _, first.run⟩ (ih others)

theorem EmitsClauses.isCase {subject text : String} : ∀ {scope : ScopeId} {index : Nat}
    {list : List (Clause Stmt)} {w w' : Workspace} {comparisons : List String}
    {cases : List CStmt} {xs : List Variable},
    EmitsClauses σ scope (.index subject text) index list w comparisons cases xs w' →
      List.Forall₂ (IsCase σ) (list.zipIdx index) cases
  | _, _, _, _, _, _, _, _, .nil .. => .nil
  | _, _, _, _, _, _, _, _, .cons head (.intro _ all _) others => by
      refine .cons ⟨_, ?_, all.becomes⟩ others.isCase
      rcases mapM_option_ok.1 head with ⟨rfl, rfl, -⟩ | ⟨_, _, rfl, rfl, run⟩
      · rfl
      · simp only [label, bind_ok, pure_ok] at run
        obtain ⟨_, _, -, rfl, -⟩ := run
        rfl

section Cases

variable {list : List (Clause Stmt)} {cases : List CStmt} {index : Nat}

theorem map_label? (all : List.Forall₂ (IsCase σ) (list.zipIdx index) cases) :
    cases.map CStmt.label? = (list.zipIdx index).map caseLabel := by
  rw [← List.forall₂_eq_eq_eq, List.forall₂_map_left_iff, List.forall₂_map_right_iff]
  refine all.flip.imp ?_
  rintro c entry ⟨statements, rfl, -⟩
  rfl

/-- No two clauses have the same label, and none is labelled -1. -/
theorem nodup_labels (all : List.Forall₂ (IsCase σ) (list.zipIdx index) cases) :
    (cases.filterMap CStmt.label?).Nodup ∧ "-1" ∉ cases.filterMap CStmt.label? := by
  have labels := congrArg (List.filterMap id) (map_label? all)
  rw [List.filterMap_map, List.filterMap_map, Function.id_comp, Function.id_comp] at labels
  rw [labels]
  constructor
  · have indices : ((list.zipIdx index).map Prod.snd).Nodup := by
      rw [List.zipIdx_map_snd]
      exact List.nodup_range'
    refine List.Pairwise.filterMap _ ?_ (List.pairwise_map.1 indices)
    rintro entry entry' differ label here label' here' rfl
    obtain ⟨_, -, rfl⟩ := Option.map_eq_some_iff.1 here
    obtain ⟨_, -, same⟩ := Option.map_eq_some_iff.1 here'
    exact differ (Nat.repr_inj.1 same).symm
  · intro member
    obtain ⟨entry, -, label⟩ := List.mem_filterMap.1 member
    obtain ⟨_, -, label⟩ := Option.map_eq_some_iff.1 label
    have sign : '-' ∈ (toString entry.2).toList := by
      rw [label]
      decide
    exact absurd (isDigit_of_mem_toString sign) (by decide)

theorem findIdx?_isDefault (all : List.Forall₂ (IsCase σ) (list.zipIdx index) cases) :
    cases.findIdx? CStmt.isDefault = list.findIdx? (·.test.isNone) := by
  induction list generalizing index cases with
  | nil =>
    cases all
    rfl
  | cons clause rest ih =>
    obtain ⟨c, cases, ⟨statements, rfl, -⟩, others, rfl⟩ := List.forall₂_cons_left_iff.1 all
    rw [List.findIdx?_cons, List.findIdx?_cons, ih others, caseLabel]
    cases clause.test <;> rfl

/-- The clauses with a test are found by their indices. -/
theorem findIdx?_isLabelled_iff (all : List.Forall₂ (IsCase σ) (list.zipIdx index) cases)
    {number : Int} {k : Nat} :
    cases.findIdx? (·.isLabelled number) = some k ↔
      number = ↑(index + k) ∧ ∃ clause, list[k]? = some clause ∧ clause.test.isSome = true := by
  induction list generalizing index cases k with
  | nil =>
    cases all
    simp
  | cons clause rest ih =>
    obtain ⟨c, cases, ⟨statements, rfl, -⟩, others, rfl⟩ := List.forall₂_cons_left_iff.1 all
    have head : (CStmt.clause (caseLabel (clause, index)) statements).isLabelled number = true ↔
        number = index ∧ clause.test.isSome = true := by
      rw [caseLabel]
      cases clause.test with
      | none => simp [CStmt.isLabelled]
      | some test => simp [CStmt.isLabelled, Nat.toNat?_repr, eq_comm]
    rw [List.findIdx?_cons]
    split
    next labelled =>
      obtain ⟨rfl, isSome⟩ := head.1 labelled
      cases k with
      | zero => simp [isSome]
      | succ k =>
        refine iff_of_false nofun ?_
        rintro ⟨same, -⟩
        omega
    next other =>
      rw [head] at other
      cases k with
      | zero => simpa using other
      | succ k =>
        have step : index + (k + 1) = index + 1 + k := by omega
        rw [step, List.getElem?_cons_succ, ← ih others, Option.map_eq_some_iff]
        simp

/-- The statements in the cases from a clause on are those of the clauses from there on. -/
theorem inside_becomes (all : List.Forall₂ (IsCase σ) (list.zipIdx index) cases) (k : Nat) :
    List.Forall₂ (Becomes σ) ((list.drop k).flatMap Clause.body)
      ((cases.drop k).flatMap CStmt.inside) := by
  have each : List.Forall₂ (fun clause c => List.Forall₂ (Becomes σ) clause.body c.inside) list
      cases := by
    rw [← List.zipIdx_map_fst index list, List.forall₂_map_left_iff]
    refine all.imp ?_
    rintro entry c ⟨statements, rfl, body⟩
    exact body
  rw [List.flatMap_def, List.flatMap_def]
  apply List.rel_flatten
  rw [List.forall₂_map_left_iff, List.forall₂_map_right_iff]
  exact List.forall₂_drop k each

/-- **The same clause is entered.** Going by the stored number of a match, C enters the clause that
the script enters exactly if the number fits into 16 bits. -/
theorem enteredAt_stored_iff (all : List.Forall₂ (IsCase σ) list.zipIdx cases) {found : Option Nat}
    (matched : ∀ k ∈ found, ∃ clause, list[k]? = some clause ∧ clause.test.isSome = true) :
    enteredAt (stored (clauseNumber found)) cases = entered found list ↔
      ∀ k ∈ found, k < 32768 := by
  rw [enteredAt, entered, findIdx?_isDefault all]
  cases found with
  | none =>
    have nowhere : cases.findIdx? (·.isLabelled (stored (clauseNumber none))) = none := by
      rw [Option.eq_none_iff_forall_ne_some]
      intro k here
      have negative : stored (clauseNumber none) = -1 := by decide
      have same := ((findIdx?_isLabelled_iff all).1 here).1
      omega
    rw [nowhere]
    exact iff_of_true rfl nofun
  | some k =>
    obtain ⟨clause, there, isSome⟩ := matched k rfl
    have number : clauseNumber (some k) = k := rfl
    have fits : (∀ k' ∈ some k, k' < 32768) ↔ stored k = k := by
      rw [stored_eq_iff]
      simp
    rw [number, fits, Option.some_or]
    constructor
    · intro same
      rcases Option.or_eq_some_iff.1 same with here | ⟨-, default⟩
      · simpa using ((findIdx?_isLabelled_iff all).1 here).1
      · -- The clause without a label is not the one that was found.
        obtain ⟨inside, isNone, -⟩ := List.findIdx?_eq_some_iff_getElem.1 default
        rw [List.getElem?_eq_getElem inside] at there
        cases there
        simp_all
    · intro same
      rw [(findIdx?_isLabelled_iff all).2 ⟨by simpa using same, clause, there, isSome⟩]
      rfl

end Cases

/-! ## The statement -/

/-- A script and C evaluate the strings of a `switch` alike: the discriminant is evaluated to one
string whenever it is read, which changes nothing, and the tests that are no literals have the same
values and effects. -/
structure Agree {State : Type} (types : Types) (discriminant : Expr) (list : List (Clause Stmt))
    (ofScript : Strings Expr State) (ofC : Strings CExpr State) (d : String) : Prop where
  discriminant : ∀ s, cStrings ofC (exprTree types discriminant) s = (d, s)
  tests : ∀ clause ∈ list, ∀ test ∈ clause.test, (∀ node text, test ≠ .string node text) →
    cStrings ofC (exprTree types test) = ofScript test

/-- Literals are evaluated alike too. -/
theorem Agree.all {State : Type} {discriminant : Expr} {list : List (Clause Stmt)}
    {ofScript : Strings Expr State} {ofC : Strings CExpr State} {d : String}
    (agree : Agree types discriminant list ofScript ofC d) :
    ∀ clause ∈ list, ∀ test ∈ clause.test,
      cStrings ofC (exprTree types test) = scriptStrings ofScript test := by
  intro clause member test there
  cases test with
  | string node text =>
    funext s
    rw [exprTree, cStrings, scriptStrings, Quoted.literalText_literal]
  | _ => exact agree.tests clause member _ there nofun

/-- The cases of a `switch` by index for the clauses of a script. -/
structure CasesFor (σ : Setting) (list : List (Clause Stmt)) (cases : List CStmt) : Prop where
  /-- A clause with a test is labelled by its index, one without has no label. -/
  labels : cases.map CStmt.label? = list.zipIdx.map caseLabel
  distinct : (cases.filterMap CStmt.label?).Nodup
  /-- The number for no clause is no label. -/
  noLabel : "-1" ∉ cases.filterMap CStmt.label?
  /-- From each clause on, C runs the statements that the script runs. -/
  through : ∀ k, List.Forall₂ (Becomes σ) ((list.drop k).flatMap Clause.body)
    ((cases.drop k).flatMap CStmt.inside)

/-- **The clause of a `switch` on strings.** The chain that is printed in front of the `switch`
gives the index, among all clauses, of the first clause with a test that is equal to the
discriminant up to a NUL, or -1. For strings without a NUL, that is the first clause that is equal,
and where the tests have no effects, the first in the list. The clauses are labelled by these
indices, so that C enters the clause that the script enters, exactly if the index fits into 16 bits,
and goes on with the same clauses. -/
theorem switch_enters_clause {State : Type} {scope : ScopeId} {w w' : Workspace} {node : Node}
    {discriminant : Expr} {list : List (Clause Stmt)} {c : CStmt}
    (run : stmt scope (.switchOn node discriminant list) σ w = (.ok c, w'))
    (known : σ.types discriminant.id = some .string) {ofScript : Strings Expr State}
    {ofC : Strings CExpr State} {d : String}
    (agree : Agree σ.types discriminant list ofScript ofC d) (s : State) :
    ∃ subject comparisons cases found s', c = .switchByIndex subject comparisons cases ∧
      Alike (ScriptToC.indexText subject comparisons).toList ((CExpr.assign none (.name subject)
        (chain (comparisonCodes σ.types discriminant 0 list))).chars ++ [';']) ∧
      (chain (comparisonCodes σ.types discriminant 0 list)).integer (cStrings ofC) s =
        some (clauseNumber found, s') ∧
      firstMatch (scriptStrings ofScript) (upToNul · = upToNul d) 0 list s = (found, s') ∧
      ('\x00' ∉ d.toList → (∀ clause ∈ list, ∀ test ∈ clause.test, ∀ s,
          '\x00' ∉ (scriptStrings ofScript test s).1.toList) →
        firstMatch (scriptStrings ofScript) (· = d) 0 list s = (found, s')) ∧
      ((∀ clause ∈ list, ∀ test ∈ clause.test, (scriptStrings ofScript test s).2 = s) →
        found = list.findIdx? fun clause => clause.test.any fun test =>
          upToNul (scriptStrings ofScript test s).1 = upToNul d) ∧
      CasesFor σ list cases ∧
      (enteredAt (stored (clauseNumber found)) cases = entered found list ↔
        ∀ k ∈ found, k < 32768) := by
  obtain ⟨xs, emits⟩ := emits_of_run _ run
  cases emits with
  | @switchOn _ _ _ _ _ _ _ _ comparisons cases _ head each =>
  obtain ⟨text, asked, read, ⟨isNumber, -⟩ | ⟨-, subject, rfl, -⟩⟩ := selection_ok head
  · rw [known] at isNumber
    cases isNumber
  have all := each.isCase
  generalize result : firstMatch (scriptStrings ofScript) (upToNul · = upToNul d) 0 list s = found
  obtain ⟨found, s'⟩ := found
  refine ⟨subject, comparisons, cases, found, s', rfl, ?_, ?_, rfl, ?_, ?_, ?_, ?_⟩
  · exact alike_indexText exists_comparison
      (each.spells_comparisons (of_expr read (spells_exprText _)))
  · rw [integer_chain agree.discriminant 0 s agree.all, result]
    rfl
  · intro noNul noNuls
    rw [← result]
    refine (firstMatch_congr 0 s ?_).symm
    intro clause member test there s
    exact upToNul_eq_iff (noNuls clause member test there s) noNul
  · intro still
    rw [firstMatch_eq_findIdx? 0 still] at result
    have same := (Prod.mk.inj result).1
    simpa using same.symm
  · obtain ⟨distinct, noLabel⟩ := nodup_labels all
    exact ⟨map_label? all, distinct, noLabel, inside_becomes all⟩
  · exact enteredAt_stored_iff all (test_of_firstMatch result)

/-- A variable. -/
def variableName : Expr :=
  .ident ⟨2, ⟨8, 9⟩⟩ "s"

/-- A `switch` on the variable. -/
def switchOnName (list : List (Clause Stmt)) : Stmt :=
  .switchOn ⟨1, ⟨0, 80⟩⟩ variableName list

/-- The variable is a string. -/
def stringName : Setting :=
  ⟨fun id => if id = 2 then some .string else none, "ts2c"⟩

/-- The workspace where a function begins. -/
def emptyFunction : Workspace :=
  { scopes := (ScopeTree.newFunction {}).2 }

/-- `case "b": default: case next(): break;` -/
def clausesWithCall : List (Clause Stmt) :=
  [⟨some (.string ⟨3, ⟨18, 21⟩⟩ "b"), []⟩, ⟨none, []⟩,
    ⟨some (.call ⟨4, ⟨37, 43⟩⟩ (.ident ⟨5, ⟨37, 41⟩⟩ "next") []), [.breakStmt ⟨6, ⟨45, 51⟩⟩]⟩]

/-- The cases of these clauses. -/
def casesWithCall : List CStmt :=
  [.clause (some "0") [], .clause none [], .clause (some "2") [.breakStmt]]

/-- The `switch` in C. -/
def comparedCallClause : CStmt :=
  .switchByIndex "tmp_switch" ["!strcmp(s, \"b\") ? 0", "!strcmp(s, next()) ? 2"] casesWithCall

/-- Each string is the same, and calls are counted. -/
def countedInScript (text : String) : Strings Expr Nat
  | .call .., calls => (text, calls + 1)
  | _, calls => (text, calls)

/-- Each string is the same, and calls are counted. -/
def countedInC (text : String) : Strings CExpr Nat
  | .call .., calls => (text, calls + 1)
  | _, calls => (text, calls)

/-- The clause with the call is entered if the call gives the string. -/
theorem switch_enters_clause_call :
    ∃ w', stmt 0 (switchOnName clausesWithCall) stringName emptyFunction =
        (.ok comparedCallClause, w') ∧
      stringName.types 2 = some .string ∧
      Agree stringName.types variableName clausesWithCall (countedInScript "a")
        (countedInC "a") "a" ∧
      (chain (comparisonCodes stringName.types variableName 0 clausesWithCall)).integer
        (cStrings (countedInC "a")) 0 = some (2, 1) ∧
      enteredAt 2 casesWithCall = some 2 := by
  have run : ∃ w', stmt 0 (switchOnName clausesWithCall) stringName emptyFunction =
    (.ok comparedCallClause, w') := ⟨_, rfl⟩
  obtain ⟨w', run⟩ := run
  have known : stringName.types 2 = some .string := rfl
  have agree : Agree stringName.types variableName clausesWithCall
      (countedInScript "a") (countedInC "a") "a" := by
    refine ⟨fun _ => rfl, ?_⟩
    intro clause member test there noLiteral
    simp only [clausesWithCall, List.mem_cons, List.not_mem_nil, or_false] at member
    rcases member with rfl | rfl | rfl <;> cases there
    · exact absurd rfl (noLiteral _ _)
    · rfl
  obtain ⟨_, _, _, _, _, same, -, value, matched, -, -, -, enters⟩ :=
    switch_enters_clause run known agree 0
  cases same
  have second : firstMatch (scriptStrings (countedInScript "a")) (upToNul · = upToNul "a") 0
      clausesWithCall 0 = (some 2, 1) := by decide
  rw [second] at matched
  cases matched
  exact ⟨w', run, known, agree, value, enters.2 (by decide)⟩

/-- `case "a\0b": case "a":`, where the first literal contains a NUL. -/
def clausesWithNul : List (Clause Stmt) :=
  [⟨some (.string ⟨3, ⟨18, 25⟩⟩ "a\x00b"), []⟩, ⟨some (.string ⟨4, ⟨32, 35⟩⟩ "a"), []⟩]

/-- The `switch` in C. -/
def comparedNul : CStmt :=
  .switchByIndex "tmp_switch" ["!strcmp(s, \"a\x00b\") ? 0", "!strcmp(s, \"a\") ? 1"]
    [.clause (some "0") [], .clause (some "1") []]

/-- `case "a": … case "a": case "b":`, where the last clause has a given index. -/
def lateClause (index : Nat) : List (Clause Stmt) :=
  List.replicate index ⟨some (.string ⟨3, ⟨18, 21⟩⟩ "a"), []⟩ ++
    [⟨some (.string ⟨4, ⟨28, 31⟩⟩ "b"), []⟩]

/-- The last clause is found by what suits it only. -/
theorem firstMatch_lateClause {suits : String → Prop} [DecidablePred suits]
    (others : ¬ suits "a") (last : suits "b") (text : String) (calls : Nat) : ∀ index first : Nat,
      firstMatch (scriptStrings (countedInScript text)) suits first (lateClause index) calls =
        (some (first + index), calls)
  | 0, first => if_pos last
  | index + 1, first => by
      have later := firstMatch_lateClause others last text calls index (first + 1)
      rw [lateClause, List.replicate_succ, List.cons_append]
      refine (if_neg others).trans (later.trans ?_)
      rw [Nat.add_right_comm, Nat.add_assoc]

/-- All tests are literals, and no clause has statements. -/
def AreLiterals (list : List (Clause Stmt)) : Prop :=
  ∀ clause ∈ list, ∃ node text, clause = ⟨some (.string node text), []⟩

/-- Nothing stops the emission of such clauses. -/
theorem located_literals {scope : ScopeId} (select : Selection) : ∀ {list : List (Clause Stmt)}
    (index : Nat), AreLiterals list → Located [] [scope] (clauses scope select index list)
  | [], _, _ => by
      rw [clauses]
      exact located_pure _
  | first :: rest, index, literal => by
      obtain ⟨node, text, rfl⟩ := literal first List.mem_cons_self
      rw [clauses]
      have test : Located [] [scope] (label select index (.string node text)) := by
        apply (located_expr fun types => ?_).bind (evolving_expr _)
        · intro value
          cases select <;> exact located_pure _
        · rw [exprText]
          exact exprLocated_pure _
      apply (test.map some (evolving_label select index _)).bind
        (Evolving.mapM (fun _ => evolving_label _ _ _) (some _))
      intro found
      apply (located_hoisted List.mem_cons_self (fun inner => evolving_stmts inner [])
        fun inner => by rw [stmts]; exact located_pure _).bind
        (evolving_hoisted scope fun inner => evolving_stmts inner [])
      intro statements
      apply (located_literals select (index + 1) fun clause member =>
        literal clause (List.mem_cons_of_mem _ member)).bind
        (evolving_clauses scope select (index + 1) rest)
      intro others
      exact located_pure _

/-- Literals are evaluated alike where every other string is the same. -/
theorem agree_literals {node : Node} {name : String} {list : List (Clause Stmt)}
    (literal : AreLiterals list) (text : String) :
    Agree types (.ident node name) list (countedInScript text) (countedInC text) text := by
  refine ⟨fun _ => rfl, ?_⟩
  intro clause member test there noLiteral
  obtain ⟨_, _, rfl⟩ := literal clause member
  cases there
  exact absurd rfl (noLiteral _ _)

theorem literal_clausesWithNul : AreLiterals clausesWithNul := by
  intro clause member
  simp only [clausesWithNul, List.mem_cons, List.not_mem_nil, or_false] at member
  rcases member with rfl | rfl <;> exact ⟨_, _, rfl⟩

theorem literal_lateClause (index : Nat) : AreLiterals (lateClause index) := by
  intro clause member
  rcases List.mem_append.1 member with first | last
  · obtain ⟨-, rfl⟩ := List.mem_replicate.1 first
    exact ⟨_, _, rfl⟩
  · obtain rfl := List.mem_singleton.1 last
    exact ⟨_, _, rfl⟩

/-- A `switch` with such clauses is emitted. -/
theorem exists_run_of_literals {list : List (Clause Stmt)} (literal : AreLiterals list) :
    ∃ comparisons cases w', stmt 0 (switchOnName list) stringName emptyFunction =
        (.ok (.switchByIndex "tmp_switch" comparisons cases), w') ∧
      List.Forall₂ (IsCase stringName) list.zipIdx cases := by
  have head : ∃ w, selection 0 1 variableName stringName emptyFunction =
    (.ok (.index "tmp_switch" "s"), w) := ⟨_, rfl⟩
  obtain ⟨w, head⟩ := head
  have evolves := evolving_selection 0 1 variableName stringName emptyFunction
  rw [head] at evolves
  have wf : emptyFunction.scopes.WellFormed :=
    (ScopeTree.Step.function {}).wellFormed ScopeTree.wellFormed_empty
  have isScope : 0 < emptyFunction.scopes.size := by decide
  have located := located_literals (.index "tmp_switch" "s") 0 literal stringName w
    (evolves.scopes.wellFormed wf) (by simpa using lt_size_of_evolves evolves isScope)
  rcases each : clauses 0 (.index "tmp_switch" "s") 0 list stringName w with ⟨result, w'⟩
  rw [each] at located
  cases result with
  | error cause =>
    have lies := located cause rfl
    cases cause <;> cases lies
  | ok result =>
    obtain ⟨comparisons, cases⟩ := result
    obtain ⟨_, emits⟩ := emitsClauses_of_run list each
    refine ⟨comparisons, cases, w', ?_, emits.isCase⟩
    simp only [switchOnName, stmt, bind_ok, pure_ok]
    exact ⟨_, _, head, _, _, each, rfl, rfl⟩

/-- If the variable is `"b"`, the script enters the last clause, and C does if its index fits into
16 bits. -/
theorem lateClause_entered_iff (index : Nat) :
    ∃ comparisons cases w', stmt 0 (switchOnName (lateClause index)) stringName emptyFunction =
        (.ok (.switchByIndex "tmp_switch" comparisons cases), w') ∧
      firstMatch (scriptStrings (countedInScript "b")) (· = "b") 0 (lateClause index) 0 =
        (some index, 0) ∧
      (chain (comparisonCodes stringName.types variableName 0 (lateClause index))).integer
        (cStrings (countedInC "b")) 0 = some (↑index, 0) ∧
      (enteredAt (stored index) cases = some index ↔ index < 32768) := by
  have literal := literal_lateClause index
  obtain ⟨comparisons, cases, w', run, all⟩ := exists_run_of_literals literal
  have agree : Agree stringName.types variableName (lateClause index) (countedInScript "b")
    (countedInC "b") "b" := agree_literals literal "b"
  have found : ∀ {suits : String → Prop} [DecidablePred suits], ¬ suits "a" → suits "b" →
      firstMatch (scriptStrings (countedInScript "b")) suits 0 (lateClause index) 0 =
        (some index, 0) := by
    intro suits _ others last
    rw [firstMatch_lateClause others last, Nat.zero_add]
  have sameText : firstMatch (scriptStrings (countedInScript "b")) (upToNul · = upToNul "b") 0
      (lateClause index) 0 = (some index, 0) := found (by decide) rfl
  refine ⟨comparisons, cases, w', run, found (by decide) rfl, ?_, ?_⟩
  · rw [integer_chain agree.discriminant 0 0 agree.all, sameText]
    rfl
  · have enters := enteredAt_stored_iff all (test_of_firstMatch sameText)
    simpa [entered, clauseNumber] using enters

/-- The variable is `"a"`: the first literal is the same to C up to its NUL, so that C enters a
clause that the script passes. The variable is `"b"`: the script enters the last of the clauses,
which C passes, as its index does not fit into 16 bits. -/
theorem other_clause_entered :
    (∃ w', stmt 0 (switchOnName clausesWithNul) stringName emptyFunction =
        (.ok comparedNul, w') ∧
      firstMatch (scriptStrings (countedInScript "a")) (· = "a") 0 clausesWithNul 0 =
        (some 1, 0) ∧
      (chain (comparisonCodes stringName.types variableName 0 clausesWithNul)).integer
        (cStrings (countedInC "a")) 0 = some (0, 0)) ∧
    ∃ comparisons cases w', stmt 0 (switchOnName (lateClause 32768)) stringName emptyFunction =
        (.ok (.switchByIndex "tmp_switch" comparisons cases), w') ∧
      firstMatch (scriptStrings (countedInScript "b")) (· = "b") 0 (lateClause 32768) 0 =
        (some 32768, 0) ∧
      enteredAt (stored (32768 : Nat)) cases ≠ some 32768 := by
  constructor
  · have agree : Agree stringName.types variableName clausesWithNul (countedInScript "a")
      (countedInC "a") "a" := agree_literals literal_clausesWithNul "a"
    refine ⟨_, rfl, by decide, ?_⟩
    rw [integer_chain agree.discriminant 0 0 agree.all]
    decide
  · obtain ⟨comparisons, cases, w', run, found, -, enters⟩ := lateClause_entered_iff 32768
    exact ⟨comparisons, cases, w', run, found, fun same => Nat.lt_irrefl _ (enters.1 same)⟩

end Emit

end ScriptToC
