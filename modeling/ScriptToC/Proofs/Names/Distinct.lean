import ScriptToC.Proofs.Names.Fresh

/-!
# Names that were given are different

A statement asks for a name with a request: for a counter, or for a temporary with a hint. What was
given stays given (`Names.Given`). The names that were given for requests are all taken, and no name
was given twice (`Names.Distinct`). So two requests that have the same name are the same request
(`Distinct.eq_of_answer`), and the answers to different requests are different names
(`Answered.nodup`).
-/

set_option autoImplicit false

namespace ScriptToC.Names

/-! ## What is given stays given -/

/-- What was given to a node stays given. -/
structure Given (old new : Names) : Prop where
  counters : ∀ {id : NodeId} {name : String}, old.counters.lookup id = some name →
    new.counters.lookup id = some name
  temporaries : ∀ {key : NodeId × String} {name : String},
    old.temporaries.lookup key = some name → new.temporaries.lookup key = some name

theorem Given.refl (names : Names) : Given names names :=
  ⟨id, id⟩

theorem Given.trans {first second third : Names} (given : Given first second)
    (given' : Given second third) : Given first third :=
  ⟨fun found => given'.counters (given.counters found),
    fun found => given'.temporaries (given.temporaries found)⟩

/-- A lookup finds what it found before something is added for another key. -/
theorem lookup_cons_of_none {α : Type} [BEq α] [LawfulBEq α] {list : List (α × String)}
    {key other : α} {name new : String} (fresh : list.lookup other = none)
    (found : list.lookup key = some name) : ((other, new) :: list).lookup key = some name := by
  rw [List.lookup_cons]
  have different : (key == other) = false := by
    rw [beq_eq_false_iff_ne]
    rintro rfl
    rw [fresh] at found
    cases found
  rw [different]
  exact found

/-- A node that was given a counter has it. -/
theorem counter_given (names : Names) (id : NodeId) :
    (names.counter id).2.counters.lookup id = some (names.counter id).1 ∧
      Given names (names.counter id).2 := by
  rw [Names.counter]
  split
  next name found => exact ⟨found, .refl names⟩
  next fresh =>
    refine ⟨by simp, ?_, fun found => found⟩
    intro other name found
    exact lookup_cons_of_none fresh found

/-- A node that was given a temporary has it. -/
theorem temporary_given (names : Names) (id : NodeId) (hint : String) :
    (names.temporary id hint).2.temporaries.lookup (id, hint) =
        some (names.temporary id hint).1 ∧
      Given names (names.temporary id hint).2 := by
  rw [Names.temporary]
  split
  next name found => exact ⟨found, .refl names⟩
  next fresh =>
    refine ⟨by simp, fun found => found, ?_⟩
    intro other name found
    exact lookup_cons_of_none fresh found

theorem counter_of_lookup {names : Names} {id : NodeId} {name : String}
    (found : names.counters.lookup id = some name) : (names.counter id).1 = name := by
  rw [Names.counter, found]

theorem temporary_of_lookup {names : Names} {id : NodeId} {hint name : String}
    (found : names.temporaries.lookup (id, hint) = some name) :
    (names.temporary id hint).1 = name := by
  rw [Names.temporary, found]

/-! ## Requests -/

/-- What a name is asked for. -/
inductive Request
  | counter (id : NodeId)
  | temporary (id : NodeId) (hint : String)
  deriving DecidableEq, Repr

/-- The node that asks. -/
def Request.id : Request → NodeId
  | counter id | temporary id _ => id

/-- The requests and the names that were given for them. -/
def answers (names : Names) : List (Request × String) :=
  names.counters.map (fun entry => (.counter entry.1, entry.2)) ++
    names.temporaries.map fun entry => (.temporary entry.1.1 entry.1.2, entry.2)

/-- The name that was given for a request. -/
def answer? (names : Names) : Request → Option String
  | .counter id => names.counters.lookup id
  | .temporary id hint => names.temporaries.lookup (id, hint)

/-- The names that were given. -/
def given (names : Names) : List String :=
  names.answers.map (·.2)

variable {names : Names}

theorem mem_answers_of_answer? {request : Request} {name : String}
    (found : names.answer? request = some name) : (request, name) ∈ names.answers := by
  cases request with
  | counter id =>
    exact List.mem_append_left _ (List.mem_map_of_mem (mem_of_lookup found))
  | temporary id hint =>
    exact List.mem_append_right _ (List.mem_map_of_mem (mem_of_lookup found))

/-! ## Distinct names -/

/-- The names that were given are taken, and none of them was given twice. -/
structure Distinct (names : Names) : Prop where
  nodup : names.given.Nodup
  taken : ∀ name ∈ names.given, names.isTaken name = true

theorem distinct_reserved (reserved : List String) : Distinct (reserved.foldl reserve {}) := by
  obtain ⟨counters, temporaries⟩ := foldl_reserve_given reserved {}
  have none : (reserved.foldl reserve {}).given = [] := by
    rw [given, answers, counters, temporaries]
    rfl
  constructor
  · rw [none]
    exact List.nodup_nil
  · rw [none]
    exact List.forall_mem_nil _

/-- One more name is given, which was free. -/
theorem Distinct.give (distinct : names.Distinct) {sequence : Nat → String}
    (different : Function.Injective sequence) {names' : Names}
    (given' : names'.given.Perm (names.free sequence :: names.given))
    (taken : names'.taken = (names.reserve (names.free sequence)).taken) : names'.Distinct where
  nodup := by
    refine given'.nodup_iff.2 (List.nodup_cons.2 ⟨?_, distinct.nodup⟩)
    intro old
    have found := distinct.taken _ old
    rw [isTaken_free names different] at found
    cases found
  taken := by
    intro name member
    have isTaken : names'.isTaken name = (names.reserve (names.free sequence)).isTaken name :=
      congrArg (·.contains name) taken
    rw [isTaken, isTaken_reserve, Bool.or_eq_true, beq_iff_eq]
    rcases List.mem_cons.1 (given'.mem_iff.1 member) with same | old
    · exact .inl same
    · exact .inr (distinct.taken name old)

theorem Distinct.counter (distinct : names.Distinct) (id : NodeId) :
    (names.counter id).2.Distinct := by
  rw [Names.counter]
  split
  · exact distinct
  · exact distinct.give counterName_injective (.refl _) rfl

theorem Distinct.temporary (distinct : names.Distinct) (id : NodeId) (hint : String) :
    (names.temporary id hint).2.Distinct := by
  rw [Names.temporary]
  split
  · exact distinct
  · refine distinct.give (temporaryName_injective hint) ?_ rfl
    rw [given, given, answers, answers, List.map_append, List.map_append]
    exact List.perm_middle

/-- A name is given for one request only. -/
theorem Distinct.eq_of_answer (distinct : names.Distinct) {request other : Request} {name : String}
    (found : names.answer? request = some name) (found' : names.answer? other = some name) :
    request = other := by
  have member := mem_answers_of_answer? found
  have member' := mem_answers_of_answer? found'
  exact congrArg Prod.fst (List.inj_on_of_nodup_map distinct.nodup member member' rfl)

/-- No reserved name was given. -/
theorem Apart.notMem_given {reserved : List String} (apart : names.Apart reserved) {name : String}
    (member : name ∈ names.given) : name ∉ reserved := by
  obtain ⟨⟨request, _⟩, entry, rfl⟩ := List.mem_map.1 member
  rcases List.mem_append.1 entry with counter | temporary
  · obtain ⟨_, old, same⟩ := List.mem_map.1 counter
    cases same
    exact apart.counters old
  · obtain ⟨_, old, same⟩ := List.mem_map.1 temporary
    cases same
    exact apart.temporaries old

/-! ## Rows of answers -/

/-- The requests were given these names, one after another. -/
abbrev Answered (names : Names) : List Request → List String → Prop :=
  List.Forall₂ fun request name => names.answer? request = some name

variable {requests : List Request} {list : List String}

theorem Answered.exists_request (answered : names.Answered requests list) {name : String}
    (member : name ∈ list) : ∃ request ∈ requests, names.answer? request = some name := by
  induction answered with
  | nil => cases member
  | cons first _ ih =>
    rcases List.mem_cons.1 member with rfl | later
    · exact ⟨_, List.mem_cons_self, first⟩
    · obtain ⟨request, isOne, found⟩ := ih later
      exact ⟨request, List.mem_cons_of_mem _ isOne, found⟩

theorem Answered.mem_given (answered : names.Answered requests list) {name : String}
    (member : name ∈ list) : name ∈ names.given := by
  obtain ⟨request, -, found⟩ := answered.exists_request member
  exact List.mem_map_of_mem (mem_answers_of_answer? found)

/-- Different requests are given different names. -/
theorem Answered.nodup (answered : names.Answered requests list) (distinct : names.Distinct)
    (different : requests.Nodup) : list.Nodup := by
  induction answered with
  | nil => exact List.nodup_nil
  | cons first others ih =>
    obtain ⟨isNew, different⟩ := List.nodup_cons.1 different
    refine List.nodup_cons.2 ⟨?_, ih different⟩
    intro again
    obtain ⟨request, isOne, found⟩ := Answered.exists_request others again
    exact isNew (distinct.eq_of_answer first found ▸ isOne)

end ScriptToC.Names
