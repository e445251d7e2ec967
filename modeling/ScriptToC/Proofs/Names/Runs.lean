import ScriptToC.Proofs.Names.Distinct

/-!
# Names over runs

A history is a row of operations on names: some are reserved, some are asked for. What a history
uses is what it reserves and what it is given, one name for each operation, and exactly these names
are taken after it (`isTaken_ofHistory`). So after any history a search through a sequence comes to
a name that is not used yet, since a sequence has no end and does not repeat (`exists_notMem_used`),
and it stops at the first one (`Request.free_eq`).

A request that was made before gets the answer that it got then, whatever happened in between, and
two requests never get the same name (`answers_over_runs`).
-/

set_option autoImplicit false

namespace ScriptToC.Names

/-! ## Operations and histories -/

/-- The names that are tried for a request, in order. -/
def Request.sequence : Request → Nat → String
  | .counter _ => counterName
  | .temporary _ hint => temporaryName hint

/-- The answer to a request, and the names after it. -/
def ask (names : Names) : Request → String × Names
  | .counter id => names.counter id
  | .temporary id hint => names.temporary id hint

/-- What is done with names. -/
inductive Operation
  | reserve (name : String)
  | ask (request : Request)
  deriving DecidableEq, Repr

/-- The name that an operation reserves or is given. -/
def nameOf (names : Names) : Operation → String
  | .reserve name => name
  | .ask request => (names.ask request).1

/-- The names after an operation. -/
def perform (names : Names) : Operation → Names
  | .reserve name => names.reserve name
  | .ask request => (names.ask request).2

/-- The names that the operations of a row reserve or are given, one for each. -/
def usedFrom (names : Names) : List Operation → List String
  | [] => []
  | operation :: rest => names.nameOf operation :: (names.perform operation).usedFrom rest

/-- The names after a history, which starts with none taken. -/
def ofHistory (history : List Operation) : Names :=
  history.foldl perform {}

/-- The names that a history reserves or is given. -/
def used (history : List Operation) : List String :=
  usedFrom {} history

/-- The answer to a request after a history. -/
def answerAfter (history : List Operation) (request : Request) : String :=
  ((ofHistory history).ask request).1

variable {names : Names} {request other : Request} {name : String}

/-! ## One request -/

theorem Request.sequence_injective : ∀ request : Request, Function.Injective request.sequence
  | .counter _ => counterName_injective
  | .temporary _ hint => temporaryName_injective hint

/-- A request that was answered gets that answer again, and nothing changes. -/
theorem ask_of_answer (found : names.answer? request = some name) :
    names.ask request = (name, names) := by
  cases request with
  | counter id => rw [ask, counter, show names.counters.lookup id = some name from found]
  | temporary id hint =>
    rw [ask, temporary, show names.temporaries.lookup (id, hint) = some name from found]

/-- A new request gets a free name, which is taken from then on. -/
theorem ask_of_none (new : names.answer? request = none) :
    (names.ask request).1 = names.free request.sequence ∧
      (names.ask request).2.taken = (names.reserve (names.free request.sequence)).taken := by
  cases request with
  | counter id =>
    rw [ask, counter, show names.counters.lookup id = none from new]
    exact ⟨rfl, rfl⟩
  | temporary id hint =>
    rw [ask, temporary, show names.temporaries.lookup (id, hint) = none from new]
    exact ⟨rfl, rfl⟩

/-- After a request its answer is known, and so are all earlier ones. -/
theorem answer?_ask (names : Names) (request : Request) :
    (names.ask request).2.answer? request = some (names.ask request).1 ∧
      names.Given (names.ask request).2 := by
  cases request with
  | counter id => exact counter_given names id
  | temporary id hint => exact temporary_given names id hint

theorem Given.answer? {later : Names} (given : names.Given later)
    (found : names.answer? request = some name) : later.answer? request = some name := by
  cases request with
  | counter => exact given.counters found
  | temporary => exact given.temporaries found

/-- A request makes known no answer but its own. -/
theorem answer?_ask_of_ne (names : Names) (different : other ≠ request) :
    (names.ask request).2.answer? other = names.answer? other := by
  cases known : names.answer? request with
  | some name => rw [ask_of_answer known]
  | none =>
    cases request with
    | counter id =>
      rw [ask, counter, show names.counters.lookup id = none from known]
      cases other with
      | counter id' =>
        have apart : (id' == id) = false := beq_false_of_ne fun same => different (by rw [same])
        simp only [Names.answer?, List.lookup_cons, apart]
      | temporary => rfl
    | temporary id hint =>
      rw [ask, temporary, show names.temporaries.lookup (id, hint) = none from known]
      cases other with
      | counter => rfl
      | temporary id' hint' =>
        have apart : ((id', hint') == (id, hint)) = false :=
          beq_false_of_ne fun same => different (by cases same; rfl)
        simp only [Names.answer?, List.lookup_cons, apart]

theorem Distinct.ask (distinct : names.Distinct) (request : Request) :
    (names.ask request).2.Distinct := by
  cases request with
  | counter id => exact distinct.counter id
  | temporary id hint => exact distinct.temporary id hint

/-! ## One operation -/

theorem given_perform (names : Names) (operation : Operation) :
    names.Given (names.perform operation) := by
  cases operation with
  | reserve name => exact ⟨id, id⟩
  | ask request => exact (answer?_ask names request).2

theorem Distinct.perform (distinct : names.Distinct) (operation : Operation) :
    (names.perform operation).Distinct := by
  cases operation with
  | reserve name =>
    refine ⟨distinct.nodup, fun given member => ?_⟩
    rw [Names.perform, isTaken_reserve, distinct.taken given member, Bool.or_true]
  | ask request => exact distinct.ask request

/-- An operation takes the name that it reserves or is given, and no other. -/
theorem Distinct.isTaken_perform (distinct : names.Distinct) (operation : Operation)
    (name : String) : (names.perform operation).isTaken name = true ↔
      name = names.nameOf operation ∨ names.isTaken name = true := by
  have reserved : ∀ fresh, (names.reserve fresh).isTaken name = true ↔
      name = fresh ∨ names.isTaken name = true := by
    intro fresh
    rw [isTaken_reserve, Bool.or_eq_true, beq_iff_eq]
  cases operation with
  | reserve fresh => exact reserved fresh
  | ask request =>
    rw [Names.perform, nameOf]
    cases known : names.answer? request with
    | some given =>
      -- The answer is an old one, so it is taken already.
      have old : names.isTaken given = true :=
        distinct.taken given (List.mem_map_of_mem (mem_answers_of_answer? known))
      rw [ask_of_answer known]
      exact ⟨.inr, fun either => either.elim (fun same => same ▸ old) id⟩
    | none =>
      obtain ⟨answer, taken⟩ := ask_of_none known
      rw [answer, ← reserved, isTaken, isTaken, taken]

/-! ## Runs -/

theorem given_foldl (history : List Operation) (names : Names) :
    names.Given (history.foldl perform names) := by
  induction history generalizing names with
  | nil => exact .refl names
  | cons operation rest ih => exact (given_perform names operation).trans (ih _)

theorem Distinct.foldl (distinct : names.Distinct) (history : List Operation) :
    (history.foldl Names.perform names).Distinct := by
  induction history generalizing names with
  | nil => exact distinct
  | cons operation rest ih => exact ih (distinct.perform operation)

theorem Distinct.isTaken_foldl (distinct : names.Distinct) (history : List Operation)
    (name : String) : (history.foldl Names.perform names).isTaken name = true ↔
      name ∈ names.usedFrom history ∨ names.isTaken name = true := by
  induction history generalizing names with
  | nil => simp [usedFrom]
  | cons operation rest ih =>
    rw [List.foldl_cons, ih (distinct.perform operation), distinct.isTaken_perform, usedFrom,
      List.mem_cons, or_left_comm, or_assoc]

/-- Only what was asked for has an answer. -/
theorem answer?_foldl_of_notMem {history : List Operation} (new : .ask request ∉ history) :
    (history.foldl perform names).answer? request = names.answer? request := by
  induction history generalizing names with
  | nil => rfl
  | cons operation rest ih =>
    obtain ⟨other, new⟩ := List.ne_and_not_mem_of_not_mem_cons new
    rw [List.foldl_cons, ih new]
    cases operation with
    | reserve name => cases request <;> rfl
    | ask asked => exact answer?_ask_of_ne names fun same => other (same ▸ rfl)

theorem distinct_ofHistory (history : List Operation) : (ofHistory history).Distinct :=
  (distinct_reserved []).foldl history

/-- Exactly what a history used is taken after it. -/
theorem isTaken_ofHistory (history : List Operation) (name : String) :
    (ofHistory history).isTaken name = true ↔ name ∈ used history := by
  have taken := (distinct_reserved []).isTaken_foldl history name
  have none : ¬ ({} : Names).isTaken name = true := by
    simp [isTaken]
  exact taken.trans (or_iff_left none)

/-- The answer that a request got is known from then on. -/
theorem answer?_of_asked {history before after : List Operation}
    (asked : history = before ++ .ask request :: after) :
    (ofHistory history).answer? request = some (answerAfter before request) := by
  rw [asked, ofHistory, List.foldl_append, List.foldl_cons]
  exact (given_foldl after _).answer? (answer?_ask (ofHistory before) request).1

/-! ## Searches -/

/-- A search stops at a name that is free or when it runs out of steps, and all names before it are
taken. -/
theorem firstFree_eq (taken : Std.TreeSet String) (sequence : Nat → String) (fuel index : Nat) :
    ∃ steps ≤ fuel, firstFree taken sequence fuel index = sequence (index + steps) ∧
      ∀ earlier < steps, taken.contains (sequence (index + earlier)) = true := by
  induction fuel generalizing index with
  | zero => exact ⟨0, Nat.le_refl 0, rfl, nofun⟩
  | succ fuel ih =>
    rw [firstFree]
    split
    next first =>
      obtain ⟨steps, few, found, passed⟩ := ih (index + 1)
      refine ⟨steps + 1, Nat.succ_le_succ few, ?_, ?_⟩
      · rw [found, Nat.add_right_comm, Nat.add_assoc]
      · intro earlier lt
        cases earlier with
        | zero => exact first
        | succ earlier =>
          have next := passed earlier (Nat.lt_of_succ_lt_succ lt)
          rwa [Nat.add_right_comm] at next
    next => exact ⟨0, Nat.zero_le _, rfl, nofun⟩

/-- After any history the sequence of a request has a name that was not used. -/
theorem exists_notMem_used (history : List Operation) (request : Request) :
    ∃ index, request.sequence index ∉ used history := by
  obtain ⟨steps, -, found, -⟩ := firstFree_eq (ofHistory history).taken request.sequence
    (ofHistory history).taken.size 0
  refine ⟨0 + steps, fun member => ?_⟩
  have free := isTaken_free (ofHistory history) request.sequence_injective
  rw [Names.free, found, ← Bool.not_eq_true] at free
  exact free ((isTaken_ofHistory history _).2 member)

/-- A new request gets the first name of its sequence that was not used. -/
theorem Request.free_eq {history : List Operation} (new : .ask request ∉ history) :
    ∃ index, answerAfter history request = request.sequence index ∧
      request.sequence index ∉ used history ∧
      ∀ earlier < index, request.sequence earlier ∈ used history := by
  have unknown : (ofHistory history).answer? request = none := by
    rw [ofHistory, answer?_foldl_of_notMem new]
    cases request <;> rfl
  obtain ⟨steps, -, found, passed⟩ := firstFree_eq (ofHistory history).taken request.sequence
    (ofHistory history).taken.size 0
  have free := isTaken_free (ofHistory history) request.sequence_injective
  rw [Nat.zero_add] at found
  refine ⟨steps, (ask_of_none unknown).1.trans found, ?_, ?_⟩
  · intro member
    rw [Names.free, found, (isTaken_ofHistory history _).2 member] at free
    cases free
  · intro earlier lt
    have taken := passed earlier lt
    rw [Nat.zero_add] at taken
    exact (isTaken_ofHistory history _).1 taken

/-! ## All requests of a run -/

/-- **Names over runs.** After any history, with any nodes and hints, the search for a name ends:
the sequence of a request has a name that was not used. The answer to a request is that of an
earlier one exactly if it is the same request, whatever happened in between. The answer to a new
request is the first name of its sequence that was neither reserved nor given before. -/
theorem answers_over_runs (history : List Operation) (request : Request) :
    (∃ index, request.sequence index ∉ used history) ∧
    (∀ (before after : List Operation) (other : Request),
      history = before ++ .ask other :: after →
        (answerAfter history request = answerAfter before other ↔ request = other)) ∧
    (.ask request ∉ history → ∃ index, answerAfter history request = request.sequence index ∧
      request.sequence index ∉ used history ∧
      ∀ earlier < index, request.sequence earlier ∈ used history) := by
  refine ⟨exists_notMem_used history request, ?_, Request.free_eq⟩
  intro before after other asked
  have known := answer?_of_asked asked
  constructor
  · intro same
    -- Both answers are known after the request, and no name was given twice.
    obtain ⟨answer, given⟩ := answer?_ask (ofHistory history) request
    have distinct := (distinct_ofHistory history).ask request
    rw [show ((ofHistory history).ask request).1 = answerAfter before other from same] at answer
    exact distinct.eq_of_answer answer (given.answer? known)
  · rintro rfl
    rw [answerAfter, ask_of_answer known]

/-- A history in which reserved names are passed over, by a counter and by a temporary. -/
def mixedHistory : List Operation :=
  [.reserve "i", .ask (.counter 1), .reserve "tmp", .ask (.temporary 1 "tmp")]

/-- The counter keeps its name, and a temporary whose hint is that name gets the next one. -/
theorem answers_over_runs_mixed :
    mixedHistory = [.reserve "i"] ++ .ask (.counter 1) ::
      [.reserve "tmp", .ask (.temporary 1 "tmp")] ∧
    .ask (.temporary 2 "j") ∉ mixedHistory ∧ used mixedHistory = ["i", "j", "tmp", "tmp_2"] ∧
    answerAfter mixedHistory (.counter 1) = answerAfter [.reserve "i"] (.counter 1) ∧
    answerAfter mixedHistory (.temporary 2 "j") ≠ answerAfter [.reserve "i"] (.counter 1) ∧
    ∃ index, answerAfter mixedHistory (.temporary 2 "j") = temporaryName "j" index ∧
      temporaryName "j" index ∉ used mixedHistory ∧
      ∀ earlier < index, temporaryName "j" earlier ∈ used mixedHistory := by
  obtain ⟨-, again, -⟩ := answers_over_runs mixedHistory (.counter 1)
  obtain ⟨-, other, first⟩ := answers_over_runs mixedHistory (.temporary 2 "j")
  have asked : mixedHistory = [.reserve "i"] ++ .ask (.counter 1) ::
      [.reserve "tmp", .ask (.temporary 1 "tmp")] := rfl
  have new : .ask (.temporary 2 "j") ∉ mixedHistory := by decide
  have same := (again _ _ _ asked).2 rfl
  have different := mt (other _ _ _ asked).1 (by decide)
  exact ⟨asked, new, by decide +kernel, same, different, first new⟩

end ScriptToC.Names
