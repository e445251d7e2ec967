import ScriptToC.CCode.Statement
import ScriptToC.Proofs.Paths.Basic

/-!
# Runs of C statements

A run of a C statement is what C does in it, one event after another: it evaluates code that the
statement has besides the statements in it, or it runs through the statements inside, of which only
the exit is kept. How a run leaves the statement is known as on paths, except that C returns are not
told apart.

What a condition gives is left open, so that each outcome belongs to a run, with two exceptions. A
`for` loop without a condition does not stop by itself, and the counter of a loop over a fixed
array, which nothing else changes and which is taken to count as far as the array goes, stops it
after the last element. A `switch` that finds its clause by comparisons makes them in turn up to the
first that holds (`Chain`), and enters the clause that belongs to it: the comparisons and the
clauses with a label have the same order.

For the loops over collections, the number of evaluations follows from the number of rounds
(`Loop.evaluations_size`, `Loop.evaluations_element`), for a chain from where it ends
(`Chain.evaluations_eq_one_iff`).
-/

set_option autoImplicit false

namespace ScriptToC

/-! ## Events -/

/-- Where a statement has code besides the statements in it. -/
inductive Point
  /-- What a loop does first. -/
  | start
  /-- The condition of a branch or of a loop. -/
  | condition
  /-- What a loop does after a round. -/
  | step
  /-- The assignment of an element, which begins a round of a loop over a collection. -/
  | element
  /-- The number that a `switch` goes by. -/
  | subject
  /-- One of the comparisons that find this number. -/
  | comparison (index : Nat)
  deriving DecidableEq, Repr

/-- What C does in a statement. -/
inductive Event
  | tests (point : Point) (holds : Bool)
  | does (point : Point)
  /-- A run through the statements inside. -/
  | inside (exit : Exit)
  deriving DecidableEq, Repr

namespace Event

/-- The point whose code is evaluated. -/
def point? : Event → Option Point
  | tests point _ | does point => some point
  | inside _ => none

/-- The statements inside are run. -/
def isInside : Event → Bool
  | inside _ => true
  | tests _ _ | does _ => false

end Event

/-- How often code at some points is evaluated. -/
def evaluations (sites : Point → Bool) (events : List Event) : Nat :=
  events.countP fun event => event.point?.any sites

/-- How often the statements inside are run. -/
def rounds (events : List Event) : Nat :=
  events.countP Event.isInside

section Counts

variable (sites : Point → Bool) (events later : List Event)

@[simp] theorem evaluations_nil : evaluations sites [] = 0 :=
  rfl

@[simp] theorem evaluations_tests (point : Point) (holds : Bool) :
    evaluations sites (.tests point holds :: events) =
      evaluations sites events + if sites point then 1 else 0 :=
  List.countP_cons

@[simp] theorem evaluations_does (point : Point) :
    evaluations sites (.does point :: events) =
      evaluations sites events + if sites point then 1 else 0 :=
  List.countP_cons

@[simp] theorem evaluations_inside (exit : Exit) :
    evaluations sites (.inside exit :: events) = evaluations sites events :=
  List.countP_cons_of_neg (by simp [Event.point?])

@[simp] theorem evaluations_append :
    evaluations sites (events ++ later) = evaluations sites events + evaluations sites later :=
  List.countP_append

@[simp] theorem rounds_nil : rounds [] = 0 :=
  rfl

@[simp] theorem rounds_tests (point : Point) (holds : Bool) :
    rounds (.tests point holds :: events) = rounds events :=
  List.countP_cons_of_neg (by simp [Event.isInside])

@[simp] theorem rounds_does (point : Point) : rounds (.does point :: events) = rounds events :=
  List.countP_cons_of_neg (by simp [Event.isInside])

@[simp] theorem rounds_inside (exit : Exit) : rounds (.inside exit :: events) = rounds events + 1 :=
  List.countP_cons_of_pos rfl

@[simp] theorem rounds_append : rounds (events ++ later) = rounds events + rounds later :=
  List.countP_append

end Counts

/-! ## Chains and loops -/

/-- How statements may be left. -/
abbrev Exits := Exit → Prop

/-- Runs, each with its events and its exit. -/
abbrev Runs := List Event → Exit → Prop

/-- The last comparisons of a chain, the first of which has the given index: they are made in turn
up to the first that holds, which is what is found. -/
inductive Chain : Nat → Nat → List Event → Option Nat → Prop
  | out (index : Nat) : Chain index 0 [] none
  | holds (index left : Nat) :
      Chain index (left + 1) [.tests (.comparison index) true] (some index)
  | fails {index left : Nat} {events : List Event} {found : Option Nat}
      (more : Chain (index + 1) left events found) :
      Chain index (left + 1) (.tests (.comparison index) false :: events) found

/-- The rounds of a loop from the one with the given number on: the condition may hold as `holds`
says, and what is done before and after the body is done in each round. -/
inductive Loop (holds : Nat → Bool → Prop) (before after : List Event) (body : Exits) : Nat → Runs
  | stop {round : Nat} (stops : holds round false) :
      Loop holds before after body round [.tests .condition false] .normal
  | leave {round : Nat} {exit out : Exit} (goes : holds round true) (inside : body exit)
      (ends : exit.endsLoop = some out) :
      Loop holds before after body round (.tests .condition true :: (before ++ [.inside exit])) out
  | again {round : Nat} {exit out : Exit} {events : List Event} (goes : holds round true)
      (inside : body exit) (repeats : exit.repeats = true)
      (more : Loop holds before after body (round + 1) events out) :
      Loop holds before after body round
        (.tests .condition true :: (before ++ .inside exit :: (after ++ events))) out

namespace Runs

/-- Nothing is done but to leave. -/
def leave (exit : Exit) : Runs := fun events out =>
  events = [] ∧ out = exit

/-- The statements inside are run. -/
def enter (inside : Exits) : Runs := fun events out =>
  inside out ∧ events = [.inside out]

/-- One of two branches is run. -/
def branch (yes no : Runs) : Runs := fun events out =>
  ∃ holds later, (if holds then yes else no) later out ∧
    events = .tests .condition holds :: later

/-- A loop whose condition comes last begins with its body. -/
def bodyFirst (body : Exits) (loop : Runs) : Runs := fun events out =>
  ∃ exit, body exit ∧
    (exit.endsLoop = some out ∧ events = [.inside exit] ∨
      exit.repeats = true ∧ ∃ later, loop later out ∧ events = .inside exit :: later)

/-- A loop with a counter. -/
def count (loop : Runs) : Runs := fun events out =>
  ∃ later, loop later out ∧ events = .does .start :: later

/-- A loop over a collection. -/
def overElements (holds : Nat → Bool → Prop) (body : Exits) : Runs :=
  count (Loop holds [.does .element] [.does .step] body 0)

/-- A `switch` that goes by its subject to one of its clauses, or past all of them. -/
def clauses (entered : Exits) : Runs := fun events out =>
  ∃ exit, entered exit ∧ events = [.does .subject, .inside exit] ∧ out = exit.leavesSwitch

/-- A `switch` that finds its clause by a number of comparisons. -/
def comparing (comparisons : Nat) (entered : Option Nat → Exits) : Runs := fun events out =>
  ∃ found tests later, Chain 0 comparisons tests found ∧ clauses (entered found) later out ∧
    events = tests ++ later

end Runs

/-- A statement before others. -/
def Runs.before (first : Runs) (rest : Exits) : Exits := fun out =>
  (∃ events, first events out) ∧ out ≠ .normal ∨ (∃ events, first events .normal) ∧ rest out

/-! ## Statements -/

/-- What remains to be found if a clause is not the one that is looked for: the clause with a given
number among those with a label, or the one without. -/
def CStmt.passes : CStmt → Option Nat → Option (Option Nat)
  | .clause (some _) _, some 0 | .clause none _, none => none
  | .clause (some _) _, some (index + 1) => some (some index)
  | _, found => some found

open Runs in
mutual

/-- The runs of a statement. -/
def CStmt.runs : CStmt → Runs
  | .breakStmt => leave .broken
  | .continueStmt => leave .continued
  | .returnStmt _ _ => leave (.returned [] 0)
  | .emptyStmt | .expression _ | .importStmt | .declaration _ => leave .normal
  | .ifThen _ body => branch (enter (blockExits body)) (leave .normal)
  | .ifElse _ body otherwise => branch (enter (blockExits body)) (enter (blockExits otherwise))
  | .switchOn _ cases => clauses fun out => ∃ found, enteredExits cases found out
  | .switchByIndex _ comparisons cases => comparing comparisons.length (enteredExits cases)
  | .clause _ statements => enter (listExits statements)
  | .whileLoop _ body => Loop (fun _ _ => True) [] [] (blockExits body) 0
  | .doLoop body _ =>
    bodyFirst (blockExits body) (Loop (fun _ _ => True) [] [] (blockExits body) 0)
  | .forLoop _ _ condition _ body =>
    count (Loop (fun _ holds => condition = "" → holds = true) [] [.does .step]
      (blockExits body) 0)
  | .forFixed _ capacity _ _ _ statements =>
    overElements (fun round holds => holds = decide (round < capacity)) (listExits statements)
  | .forDynamic _ _ _ _ statements | .forKeys _ _ _ statements =>
    overElements (fun _ _ => True) (listExits statements)
  | .block body => enter (blockExits body)

/-- How a block may be left. -/
def blockExits : Block CStmt → Exits
  | ⟨_, statements, _⟩ => listExits statements

/-- How statements in a row may be left. -/
def listExits : List CStmt → Exits
  | [] => (· = .normal)
  | first :: rest => Runs.before first.runs (listExits rest)

/-- How clauses may be left from the one that was found on. If no comparison holds and no clause is
without a label, none is entered. -/
def enteredExits : List CStmt → Option Nat → Exits
  | [], found => fun out => found = none ∧ out = .normal
  | first :: rest, found =>
    match first.passes found with
    | none => Runs.before first.runs (listExits rest)
    | some found => enteredExits rest found

end

/-! ## Counting -/

namespace Chain

variable {index left : Nat} {events : List Event} {found : Option Nat}

/-- Each event of a chain is a comparison. -/
theorem evaluations_eq_length {sites : Point → Bool} (chain : Chain index left events found)
    (all : ∀ k, k < index + left → sites (.comparison k) = true) :
    evaluations sites events = events.length := by
  induction chain with
  | out index => rfl
  | holds index left => simp [all index (by omega)]
  | @fails index left events found more ih =>
    have rest := ih fun k below => all k (by omega)
    simp [rest, all index (by omega)]

/-- A chain with comparisons makes the first of them. -/
theorem length_pos (chain : Chain index left events found) (some : 0 < left) :
    0 < events.length := by
  cases chain with
  | out => exact absurd some (Nat.lt_irrefl 0)
  | holds | fails => exact Nat.succ_pos _

/-- Exactly one comparison is made if there is only one, or if the first holds. -/
theorem length_eq_one_iff (chain : Chain index left events found) :
    events.length = 1 ↔ left = 1 ∨ events.head? = some (.tests (.comparison index) true) := by
  cases chain with
  | out => simp
  | holds => simp
  | @fails _ left events _ more =>
    have nothing : events = [] ↔ left = 0 := by
      constructor
      · rintro rfl
        exact Nat.eq_zero_of_not_pos fun some => Nat.lt_irrefl 0 (more.length_pos some)
      · rintro rfl
        cases more
        rfl
    simp [nothing]

end Chain

namespace Loop

variable {sites : Point → Bool} {holds : Nat → Bool → Prop} {body : Exits} {round : Nat}
  {events : List Event} {out : Exit}

/-- A loop over a collection assigns an element in each round. -/
theorem evaluations_element (element : sites .element = true)
    (condition : sites .condition = false) (step : sites .step = false)
    (loop : Loop holds [.does .element] [.does .step] body round events out) :
    evaluations sites events = rounds events := by
  induction loop with
  | stop => simp [condition]
  | leave => simp [element, condition]
  | again _ _ _ _ ih => simp [element, condition, step, ih]

/-- With the condition, there are two evaluations in each round, and one more where the condition
ends the loop. -/
theorem evaluations_size (element : sites .element = true)
    (condition : sites .condition = true) (step : sites .step = false)
    (loop : Loop holds [.does .element] [.does .step] body round events out) :
    evaluations sites events = 2 * rounds events + events.count (.tests .condition false) := by
  induction loop with
  | stop => simp [condition]
  | leave => simp [element, condition]
  | again _ _ _ _ ih =>
    simp [element, condition, step, ih]
    omega

/-- A loop that makes no round evaluates its condition only. -/
theorem rounds_eq_zero_iff {before after : List Event}
    (loop : Loop holds before after body round events out) :
    rounds events = 0 ↔ events = [.tests .condition false] := by
  cases loop with
  | stop => simp
  | leave => simp
  | again => simp

end Loop

section Heads

variable {sites : Point → Bool} {holds : Nat → Bool → Prop} {body : Exits} {events : List Event}
  {out : Exit}

/-- A `switch` that compares makes exactly one comparison if it has only one, or if the first one
holds. -/
theorem evaluations_eq_one_iff_first {comparisons : Nat} {entered : Option Nat → Exits}
    (all : ∀ index, index < comparisons → sites (.comparison index) = true)
    (subject : sites .subject = false) (run : Runs.comparing comparisons entered events out) :
    evaluations sites events = 1 ↔
      comparisons = 1 ∨ events.head? = some (.tests (.comparison 0) true) := by
  obtain ⟨found, tests, later, chain, ⟨exit, -, rfl, -⟩, rfl⟩ := run
  have first : (tests ++ [Event.does .subject, Event.inside exit]).head? =
      some (.tests (.comparison 0) true) ↔ tests.head? = some (.tests (.comparison 0) true) := by
    cases tests <;> simp
  rw [first, ← chain.length_eq_one_iff,
    ← chain.evaluations_eq_length fun index below => all index (by omega)]
  simp [subject]

/-- A loop over a fixed array evaluates the array in each round. -/
theorem evaluations_eq_rounds (element : sites .element = true)
    (condition : sites .condition = false) (start : sites .start = false)
    (step : sites .step = false) (run : Runs.overElements holds body events out) :
    evaluations sites events = rounds events := by
  obtain ⟨later, loop, rfl⟩ := run
  simp [start, loop.evaluations_element element condition step]

/-- A loop that asks a collection for its size evaluates the collection once exactly if it makes no
round. -/
theorem evaluations_eq_one_iff_no_round (element : sites .element = true)
    (condition : sites .condition = true) (start : sites .start = false)
    (step : sites .step = false) (run : Runs.overElements holds body events out) :
    evaluations sites events = 1 ↔ rounds events = 0 := by
  obtain ⟨later, loop, rfl⟩ := run
  have size := loop.evaluations_size element condition step
  simp only [evaluations_does, start, Bool.false_eq_true, ↓reduceIte, Nat.add_zero, rounds_does]
  constructor
  · intro once
    omega
  · intro none
    rw [loop.rounds_eq_zero_iff.1 none]
    simp [condition]

end Heads

end ScriptToC
