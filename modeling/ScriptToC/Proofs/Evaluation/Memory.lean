import Mathlib.Data.List.Forall2
import Mathlib.Logic.Function.Basic

/-!
# Actions on memory

What a piece of C does with memory is an action: it reads and writes cells until it has a result
(`Action`). A run tells which cells were read and written, and what memory is like afterwards. An
action that reads no cell in which two memories differ does the same in both (`Action.run_agree`).

The lines that fill a container store values one after another: each finds a place, evaluates an
element and stores the value there. An element may see what the lines before it have written.
Whether one does can be told by what the elements read if they are evaluated before any line, one
after another (`Line.clean_iff`); if none does, every line stores the value that its element had
before.
-/

set_option autoImplicit false

namespace ScriptToC

/-- What a piece of C does with memory until it has a result. -/
inductive Action (Address Cell α : Type)
  | done (result : α)
  | read (address : Address) (next : Cell → Action Address Cell α)
  | write (address : Address) (cell : Cell) (next : Action Address Cell α)

variable {Address Cell α β : Type}

namespace Action

/-- An action, and another one with its result. -/
def bind : Action Address Cell α → (α → Action Address Cell β) → Action Address Cell β
  | done result, next => next result
  | read address rest, next => read address fun cell => (rest cell).bind next
  | write address cell rest, next => write address cell (rest.bind next)

instance : Monad (Action Address Cell) where
  pure := done
  bind := bind

theorem bind_done (action : Action Address Cell α) : action.bind done = action := by
  induction action with
  | done result => rfl
  | read address next ih => exact congrArg (read address) (funext ih)
  | write address cell next ih => exact congrArg (write address cell) ih

theorem bind_bind {γ : Type} (action : Action Address Cell α) (first : α → Action Address Cell β)
    (second : β → Action Address Cell γ) :
    (action.bind first).bind second = action.bind fun result => (first result).bind second := by
  induction action with
  | done result => rfl
  | read address next ih => exact congrArg (read address) (funext ih)
  | write address cell next ih => exact congrArg (write address cell) ih

instance : LawfulMonad (Action Address Cell) :=
  .mk' _ bind_done (fun _ _ => rfl) bind_bind

/-- Reads a cell. -/
def load (address : Address) : Action Address Cell Cell :=
  read address done

/-- Writes a cell. -/
def save (address : Address) (cell : Cell) : Action Address Cell Unit :=
  write address cell (done ())

end Action

/-- What a run has done. -/
structure Effect (Address Cell α : Type) where
  result : α
  memory : Address → Cell
  reads : List Address
  writes : List Address

/-- Two memories differ in some cells at most. -/
def AgreeOutside (cells : List Address) (first second : Address → Cell) : Prop :=
  ∀ address, address ∉ cells → second address = first address

section Agree

variable {cells more : List Address} {first second third : Address → Cell}

theorem AgreeOutside.symm (agree : AgreeOutside cells first second) :
    AgreeOutside cells second first :=
  fun address outside => (agree address outside).symm

theorem AgreeOutside.trans (agree : AgreeOutside cells first second)
    (agree' : AgreeOutside more second third) : AgreeOutside (cells ++ more) first third := by
  intro address outside
  rw [List.mem_append, not_or] at outside
  exact (agree' address outside.2).trans (agree address outside.1)

end Agree

namespace Action

variable [DecidableEq Address] {memory memory' : Address → Cell} {cells : List Address}

/-- The run of an action. -/
def run : Action Address Cell α → (Address → Cell) → Effect Address Cell α
  | done result, memory => ⟨result, memory, [], []⟩
  | read address next, memory =>
    let rest := (next (memory address)).run memory
    { rest with reads := address :: rest.reads }
  | write address cell next, memory =>
    let rest := next.run (Function.update memory address cell)
    { rest with writes := address :: rest.writes }

/-- Cells that are not written stay. -/
theorem agree_run (action : Action Address Cell α) (memory : Address → Cell) :
    AgreeOutside (action.run memory).writes memory (action.run memory).memory := by
  induction action generalizing memory with
  | done result => exact fun _ _ => rfl
  | read address next ih => exact ih _ memory
  | write address cell next ih =>
    intro other outside
    obtain ⟨different, outside⟩ := not_or.1 (mt List.mem_cons.2 outside)
    exact (ih _ other outside).trans (Function.update_of_ne different _ _)

/-- An action that reads no cell in which two memories differ does the same in both. -/
theorem run_agree {action : Action Address Cell α} (agree : AgreeOutside cells memory memory')
    (clean : ∀ address ∈ (action.run memory).reads, address ∉ cells) :
    (action.run memory').result = (action.run memory).result ∧
      (action.run memory').reads = (action.run memory).reads ∧
      AgreeOutside cells (action.run memory).memory (action.run memory').memory := by
  induction action generalizing memory memory' with
  | done result => exact ⟨rfl, rfl, agree⟩
  | read address next ih =>
    obtain ⟨here, others⟩ := List.forall_mem_cons.1 clean
    have same := agree address here
    obtain ⟨result, reads, after⟩ := ih (memory address) agree others
    simp only [run, same]
    exact ⟨result, congrArg (address :: ·) reads, after⟩
  | write address cell next ih =>
    -- What is written is the same in both memories, even where they differed.
    have written : AgreeOutside cells (Function.update memory address cell)
        (Function.update memory' address cell) := by
      intro other outside
      by_cases same : other = address
      · rw [same, Function.update_self, Function.update_self]
      · rw [Function.update_of_ne same, Function.update_of_ne same]
        exact agree other outside
    exact ih written clean

/-- An action and the next one: the second runs in the memory that the first has left. -/
theorem run_bind (action : Action Address Cell α) (next : α → Action Address Cell β)
    (memory : Address → Cell) :
    (action >>= next).run memory =
      { (next (action.run memory).result).run (action.run memory).memory with
        reads := (action.run memory).reads ++
          ((next (action.run memory).result).run (action.run memory).memory).reads
        writes := (action.run memory).writes ++
          ((next (action.run memory).result).run (action.run memory).memory).writes } := by
  change (action.bind next).run memory = _
  induction action generalizing memory with
  | done result => rfl
  | read address rest ih => simp only [bind, run, ih, List.cons_append]
  | write address cell rest ih => simp only [bind, run, ih, List.cons_append]

/-- The memory after several actions. -/
def after (memory : Address → Cell) (actions : List (Action Address Cell Unit)) :
    Address → Cell :=
  actions.foldl (fun memory action => (action.run memory).memory) memory

/-- Several actions one after another, each in the memory that the ones before have left. -/
def inTurn (memory : Address → Cell) :
    List (Action Address Cell α) → List (Effect Address Cell α)
  | [] => []
  | action :: rest => action.run memory :: inTurn (action.run memory).memory rest

@[simp] theorem length_inTurn (memory : Address → Cell) (actions : List (Action Address Cell α)) :
    (inTurn memory actions).length = actions.length := by
  induction actions generalizing memory with
  | nil => rfl
  | cons action rest ih => simp only [inTurn, List.length_cons, ih]

/-- Actions that write nothing can each be run in the memory before. -/
theorem inTurn_of_writes_nil (memory : Address → Cell) {actions : List (Action Address Cell α)}
    (pure : ∀ action ∈ actions, ∀ memory, (action.run memory).writes = []) :
    inTurn memory actions = actions.map fun action => action.run memory := by
  induction actions with
  | nil => rfl
  | cons action rest ih =>
    obtain ⟨here, others⟩ := List.forall_mem_cons.1 pure
    have same : (action.run memory).memory = memory := by
      funext address
      exact action.agree_run memory address (by simp [here memory])
    rw [inTurn, same, ih others, List.map_cons]

end Action

/-! ## Lines that store values -/

/-- A line that stores a value: it finds a place, evaluates an element and stores the value. -/
structure Line (Address Cell : Type) where
  locate : Action Address Cell Address
  element : Action Address Cell Cell

/-- What has been done when a line stores a value. -/
structure Storing (Address Cell : Type) where
  /-- The cells that were written until the element is evaluated, apart from those that elements
  have written. -/
  written : List Address
  /-- The cells that the element has read. -/
  reads : List Address
  place : Address
  stored : Cell
  /-- All cells that the line has written. -/
  writes : List Address

/-- The element has read nothing that lines have written. -/
def Storing.Clean (storing : Storing Address Cell) : Prop :=
  ∀ address ∈ storing.reads, address ∉ storing.written

namespace Line

/-- What a line does. -/
def action (line : Line Address Cell) : Action Address Cell Unit := do
  let place ← line.locate
  let value ← line.element
  Action.save place value

variable [DecidableEq Address] {before memory : Address → Cell} {written : List Address}

/-- What a line has done, after lines that have written some cells. -/
def storing (line : Line Address Cell) (written : List Address) (memory : Address → Cell) :
    Storing Address Cell :=
  let found := line.locate.run memory
  let value := line.element.run found.memory
  { written := written ++ found.writes
    reads := value.reads
    place := found.result
    stored := value.result
    writes := found.writes ++ value.writes ++ [found.result] }

/-- What the lines of a row have done. -/
def storings (written : List Address) (memory : Address → Cell) :
    List (Line Address Cell) → List (Storing Address Cell)
  | [] => []
  | line :: rest =>
    let now := line.storing written memory
    now :: storings (now.written ++ [now.place]) (line.action.run memory).memory rest

@[simp] theorem length_storings (written : List Address) (memory : Address → Cell)
    (lines : List (Line Address Cell)) : (storings written memory lines).length = lines.length := by
  induction lines generalizing written memory with
  | nil => rfl
  | cons line rest ih => simp only [storings, List.length_cons, ih]

/-- What was written before a row counts as written in each line. -/
theorem subset_written (written : List Address) (memory : Address → Cell)
    (lines : List (Line Address Cell)) :
    ∀ now ∈ storings written memory lines, written ⊆ now.written := by
  induction lines generalizing written memory with
  | nil => exact List.forall_mem_nil _
  | cons line rest ih =>
    have first : written ⊆ (line.storing written memory).written := List.subset_append_left _ _
    refine List.forall_mem_cons.2 ⟨first, fun now member => ?_⟩
    have others := List.Subset.trans (List.subset_append_left _ _) (ih _ _ now member)
    exact List.Subset.trans first others

theorem run_action (line : Line Address Cell) (written : List Address) (memory : Address → Cell) :
    line.action.run memory =
      { result := ()
        memory := Function.update
          (line.element.run (line.locate.run memory).memory).memory
          (line.storing written memory).place (line.storing written memory).stored
        reads := (line.locate.run memory).reads ++ (line.storing written memory).reads
        writes := (line.storing written memory).writes } := by
  simp only [action, Action.run_bind, Action.save, Action.run, storing, List.append_nil,
    List.append_assoc]

/-- If the element of a line reads nothing that was written, it does what it does in a memory
without these writes, and the memories differ in what was written at most. -/
theorem storing_agree {line : Line Address Cell} (agree : AgreeOutside written before memory)
    (clean : (line.storing written memory).Clean ∨
      ∀ address ∈ (line.element.run before).reads,
        address ∉ (line.storing written memory).written) :
    (line.storing written memory).stored = (line.element.run before).result ∧
      (line.storing written memory).reads = (line.element.run before).reads ∧
      AgreeOutside ((line.storing written memory).written ++ [(line.storing written memory).place])
        (line.element.run before).memory (line.action.run memory).memory := by
  have found := agree.trans (line.locate.agree_run memory)
  have same : (line.storing written memory).stored = (line.element.run before).result ∧
      (line.storing written memory).reads = (line.element.run before).reads ∧
      AgreeOutside (line.storing written memory).written (line.element.run before).memory
        (line.element.run (line.locate.run memory).memory).memory := by
    rcases clean with clean | clean
    · obtain ⟨result, reads, agree⟩ := Action.run_agree found.symm clean
      exact ⟨result.symm, reads.symm, agree.symm⟩
    · exact Action.run_agree found clean
  obtain ⟨result, reads, agree⟩ := same
  refine ⟨result, reads, agree.trans fun address outside => ?_⟩
  rw [line.run_action written memory]
  exact Function.update_of_ne (mt List.mem_singleton.2 outside) _ _

/-- **What the lines of a row store.** The elements read nothing that lines have written exactly if
they would not, were they evaluated one after another before the lines. Then each line stores the
value that its element had there. -/
theorem clean_iff (agree : AgreeOutside written before memory) (lines : List (Line Address Cell)) :
    ((∀ storing ∈ storings written memory lines, storing.Clean) ↔
        List.Forall₂ (fun storing old => ∀ address ∈ old.reads, address ∉ storing.written)
          (storings written memory lines) (Action.inTurn before (lines.map element))) ∧
      ((∀ storing ∈ storings written memory lines, storing.Clean) →
        List.Forall₂ (fun storing old => storing.stored = old.result)
          (storings written memory lines) (Action.inTurn before (lines.map element))) := by
  -- The lines run in one memory and the elements in another, and the two differ only in what the
  -- lines have written. A clean element keeps it so; after another one, neither side holds.
  induction lines generalizing written before memory with
  | nil => simp [storings, Action.inTurn]
  | cons line rest ih =>
    simp only [storings, List.map_cons, Action.inTurn, List.forall_mem_cons, List.forall₂_cons]
    refine ⟨⟨?_, ?_⟩, ?_⟩
    · rintro ⟨here, others⟩
      obtain ⟨-, reads, agree⟩ := storing_agree agree (.inl here)
      exact ⟨reads ▸ here, (ih agree).1.1 others⟩
    · rintro ⟨here, others⟩
      obtain ⟨-, reads, agree⟩ := storing_agree agree (.inr here)
      exact ⟨by rwa [Storing.Clean, reads], (ih agree).1.2 others⟩
    · rintro ⟨here, others⟩
      obtain ⟨stored, -, agree⟩ := storing_agree agree (.inl here)
      exact ⟨stored, (ih agree).2 others⟩

/-- Lines that store at places which are known have written what they have stored. -/
theorem written_storings {pairs : List (Address × Action Address Cell Cell)} {i : Nat}
    {now : Storing Address Cell}
    (found : (storings written memory (pairs.map fun pair => ⟨pure pair.1, pair.2⟩))[i]? =
      some now) :
    now.written = written ++ (pairs.take i).map Prod.fst := by
  induction pairs generalizing written memory i with
  | nil => cases found
  | cons pair rest ih =>
    cases i with
    | zero =>
      obtain rfl := Option.some.inj found
      rfl
    | succ i =>
      rw [List.take_succ_cons, List.map_cons, List.append_cons]
      have later := ih found
      rwa [show (storing ⟨pure pair.1, pair.2⟩ written memory).written = written from
        List.append_nil written] at later

/-- No line writes where a line before it has stored. -/
def Kept (list : List (Storing Address Cell)) : Prop :=
  list.Pairwise fun earlier later => earlier.place ∉ later.writes

instance (list : List (Storing Address Cell)) : Decidable (Kept list) :=
  inferInstanceAs (Decidable (list.Pairwise fun earlier later => earlier.place ∉ later.writes))

theorem after_of_kept {address : Address} (lines : List (Line Address Cell))
    (outside : ∀ storing ∈ storings written memory lines, address ∉ storing.writes) :
    Action.after memory (lines.map action) address = memory address := by
  induction lines generalizing written memory with
  | nil => rfl
  | cons line rest ih =>
    obtain ⟨here, others⟩ := List.forall_mem_cons.1 outside
    refine (ih others).trans (line.action.agree_run memory address ?_)
    rwa [line.run_action written memory]

/-- What was stored and not written over is there in the end. -/
theorem after_place {lines : List (Line Address Cell)}
    (kept : Kept (storings written memory lines)) :
    ∀ storing ∈ storings written memory lines,
      Action.after memory (lines.map action) storing.place = storing.stored := by
  induction lines generalizing written memory with
  | nil => exact List.forall_mem_nil _
  | cons line rest ih =>
    obtain ⟨here, others⟩ := List.pairwise_cons.1 kept
    refine List.forall_mem_cons.2 ⟨(after_of_kept rest here).trans ?_, ih others⟩
    rw [line.run_action written memory]
    exact Function.update_self _ _ _

end Line

end ScriptToC
