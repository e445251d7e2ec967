import ScriptToC.Proofs.CCode.Files

/-!
# The scopes of a C file and their declarations

Each function, block, loop over a collection and clause of a `switch` is the C form of one scope.
`CProgram.openings` lists them in the order of the text. What a function or a block declares stands
at its head: a row of declarations follows an opening brace. Read off the tokens of the file, these
rows are exactly what the openings declare, in order, and there are no other declarations
(`declares_program`).
-/

set_option autoImplicit false

namespace ScriptToC

/-- The C form of a scope. -/
inductive Opening
  | function (locals : List Variable)
  | block (locals : List Variable)
  /-- A loop over a collection or a clause of a `switch`, whose locals moved outward. -/
  | moved

/-- What a scope declares in C. -/
def Opening.locals : Opening → List Variable
  | function locals | block locals => locals
  | moved => []

/-- The scope is that of a function. -/
def Opening.isFunction : Opening → Bool
  | function _ => true
  | block _ | moved => false

mutual

/-- The scopes of a statement. -/
def CStmt.openings : CStmt → List Opening
  | .ifThen _ body | .whileLoop _ body | .doLoop body _ | .forLoop _ _ _ _ body | .block body =>
    blockOpenings body
  | .ifElse _ body otherwise => blockOpenings body ++ blockOpenings otherwise
  | .switchOn _ cases | .switchByIndex _ _ cases => listOpenings cases
  | .clause _ statements | .forFixed _ _ _ _ _ statements | .forDynamic _ _ _ _ statements
  | .forKeys _ _ _ statements => .moved :: listOpenings statements
  | .breakStmt | .continueStmt | .emptyStmt | .returnStmt _ _ | .expression _ | .importStmt
  | .declaration _ => []

/-- The scopes of a block. -/
def blockOpenings : Block CStmt → List Opening
  | ⟨locals, statements, _⟩ => .block locals :: listOpenings statements

/-- The scopes of statements in a row. -/
def listOpenings : List CStmt → List Opening
  | [] => []
  | first :: rest => first.openings ++ listOpenings rest

end

/-- The scopes of a function. -/
def CFunction.openings (function : CFunction) : List Opening :=
  .function function.locals :: listOpenings function.statements

/-- The functions of a file, the main program last. -/
def CProgram.bodies (program : CProgram) : List CFunction :=
  program.functions ++ [program.main]

/-- The scopes of a file. -/
def CProgram.openings (program : CProgram) : List Opening :=
  program.bodies.flatMap CFunction.openings

/-! ## Declarations in a row of tokens -/

/-- The token is a declaration. -/
def Token.isDeclaration : Token → Bool
  | declaration _ => true
  | _ => false

/-- The declarations that follow each opening brace. -/
def heads : List Token → List (List Token)
  | [] => []
  | .opening _ :: rest => rest.takeWhile Token.isDeclaration :: heads rest
  | _ :: rest => heads rest

/-- The tokens declare what the openings declare: the nonempty heads are the nonempty lists of
locals, in order, and no declaration stands anywhere else. The tokens begin with something else than
a declaration. -/
structure Declares (tokens : List Token) (openings : List (List Variable)) : Prop where
  start : ∀ token, tokens.head? = some token → token.isDeclaration = false
  atHeads : (heads tokens).filter (· ≠ []) = (openings.filter (· ≠ [])).map (·.map Variable.token)
  only : tokens.filter Token.isDeclaration = (heads tokens).flatten

section Rows

variable {tokens more : List Token} {openings others : List (List Variable)}

theorem takeWhile_append_of_start (start : ∀ token, more.head? = some token →
    token.isDeclaration = false) :
    (tokens ++ more).takeWhile Token.isDeclaration = tokens.takeWhile Token.isDeclaration := by
  induction tokens with
  | nil =>
    cases more with
    | nil => rfl
    | cons token rest => rw [List.nil_append, List.takeWhile_cons, start token rfl]; rfl
  | cons token rest ih => rw [List.cons_append, List.takeWhile_cons, List.takeWhile_cons, ih]

theorem heads_append (start : ∀ token, more.head? = some token → token.isDeclaration = false) :
    heads (tokens ++ more) = heads tokens ++ heads more := by
  induction tokens with
  | nil => rfl
  | cons token rest ih =>
    cases token with
    | opening head =>
      rw [List.cons_append, heads, heads, takeWhile_append_of_start start, ih, List.cons_append]
    | _ => exact ih

theorem declares_nil : Declares [] [] :=
  ⟨nofun, rfl, rfl⟩

theorem Declares.append (first : Declares tokens openings) (rest : Declares more others) :
    Declares (tokens ++ more) (openings ++ others) where
  start := by
    intro token found
    rw [List.head?_append] at found
    cases here : tokens.head? with
    | none =>
      rw [here, Option.none_or] at found
      exact rest.start token found
    | some other =>
      rw [here, Option.some_or] at found
      exact first.start token (here.trans found)
  atHeads := by
    rw [heads_append rest.start, List.filter_append, List.filter_append, first.atHeads,
      rest.atHeads, List.map_append]
  only := by
    rw [heads_append rest.start, List.filter_append, first.only, rest.only, List.flatten_append]

/-- A token that neither opens nor declares something. -/
theorem declares_singleton (token : Token) (plain : heads [token] = [])
    (other : token.isDeclaration = false) : Declares [token] [] where
  start := by
    intro found same
    cases same
    exact other
  atHeads := by rw [plain]; rfl
  only := by rw [plain, List.filter_cons, other, if_neg (by decide)]; rfl

theorem Declares.cons (token : Token) (plain : heads [token] = [])
    (other : token.isDeclaration = false) (rest : Declares tokens openings) :
    Declares (token :: tokens) openings :=
  (declares_singleton token plain other).append rest

/-- An opening that declares nothing can be left out. -/
theorem declares_cons_nil : Declares tokens ([] :: openings) ↔ Declares tokens openings := by
  have same : ([] :: openings).filter (· ≠ []) = openings.filter (· ≠ []) := by
    rw [List.filter_cons]
    rfl
  constructor
  · rintro ⟨start, heads, only⟩
    exact ⟨start, same ▸ heads, only⟩
  · rintro ⟨start, heads, only⟩
    exact ⟨start, same.symm ▸ heads, only⟩

/-- Declarations that follow an opening brace are its head. -/
theorem Declares.braces (head : String) (locals : List Variable)
    (inner : Declares tokens openings) :
    Declares (.opening head :: (locals.map Variable.token ++ (tokens ++ [.closing])))
      (locals :: openings) := by
  obtain ⟨start, atHeads, only⟩ := inner.append (declares_singleton .closing rfl rfl)
  rw [List.append_nil] at atHeads
  generalize tokens ++ [.closing] = rest at start atHeads only
  have first : (locals.map Variable.token ++ rest).takeWhile Token.isDeclaration =
      locals.map Variable.token := by
    rw [takeWhile_append_of_start start, List.takeWhile_eq_self_iff]
    intro token member
    obtain ⟨x, -, rfl⟩ := List.mem_map.1 member
    rfl
  have later : heads (locals.map Variable.token ++ rest) = heads rest := by
    clear first
    induction locals with
    | nil => rfl
    | cons x others ih => exact ih
  have declared : (locals.map Variable.token).filter Token.isDeclaration =
      locals.map Variable.token := by
    rw [List.filter_eq_self]
    intro token member
    obtain ⟨x, -, rfl⟩ := List.mem_map.1 member
    rfl
  constructor
  · intro token same
    cases same
    rfl
  · rw [heads, first, later, List.filter_cons, List.filter_cons, atHeads]
    cases locals with
    | nil => rfl
    | cons x others => rfl
  · rw [heads, first, later, List.flatten_cons, ← only, List.filter_cons,
      List.filter_append, declared]
    rfl

end Rows

/-! ## Statements -/

theorem declares_phrases (texts : List String) : Declares (texts.map Token.phrase) [] := by
  induction texts with
  | nil => exact declares_nil
  | cons text rest ih => exact ih.cons (.phrase text) rfl rfl

theorem declares_assignment (assignment : Assignment) : Declares assignment.tokens [] := by
  cases assignment with
  | expression text => exact declares_singleton _ rfl rfl
  | statements lines => exact declares_phrases lines

theorem declares_flatMap {α : Type} {row : α → List Token} (list : List α)
    (each : ∀ a, Declares (row a) []) : Declares (list.flatMap row) [] := by
  induction list with
  | nil => exact declares_nil
  | cons a rest ih => exact (each a).append ih

theorem declares_releases (releases : List Release) :
    Declares (releases.flatMap Release.tokens) [] :=
  declares_flatMap releases fun release => declares_phrases release.frees

/-- Braces that belong to no block declare nothing. -/
theorem Declares.plainBraces {tokens : List Token} {openings : List (List Variable)} (head : String)
    (inner : Declares tokens openings) :
    Declares (.opening head :: (tokens ++ [.closing])) openings :=
  declares_cons_nil.1 (inner.braces head [])

/-- A loop over a collection assigns before its statements. -/
theorem Declares.loopBraces {tokens : List Token} {openings : List (List Variable)}
    (head first : String) (inner : Declares tokens openings) :
    Declares (.loop head :: .opening "" :: .phrase first :: (tokens ++ [.closing]))
      ([] :: openings) :=
  have braced := (inner.cons (.phrase first) rfl rfl).plainBraces ""
  declares_cons_nil.2 (braced.cons (.loop head) rfl rfl)

mutual

/-- The tokens of a statement declare what its scopes declare. -/
theorem declares_tokens : ∀ c : CStmt, Declares c.tokens (c.openings.map Opening.locals)
  | .breakStmt => declares_singleton _ rfl rfl
  | .continueStmt => declares_singleton _ rfl rfl
  | .emptyStmt => declares_singleton _ rfl rfl
  | .returnStmt _ releases => (declares_releases releases).append (declares_singleton _ rfl rfl)
  | .ifThen condition body => (declares_block body).cons (.test condition) rfl rfl
  | .ifElse condition body otherwise => by
      rw [CStmt.tokens, CStmt.openings, List.map_append]
      have second := (declares_block otherwise).cons .otherwise rfl rfl
      exact ((declares_block body).append second).cons (.test condition) rfl rfl
  | .switchOn _ cases => (declares_list cases).plainBraces _
  | .switchByIndex _ _ cases => ((declares_list cases).plainBraces _).cons (.phrase _) rfl rfl
  | .clause _ statements => declares_cons_nil.2 ((declares_list statements).cons (.label _) rfl rfl)
  | .whileLoop condition body => (declares_block body).cons (.loop _) rfl rfl
  | .doLoop body condition => by
      have all := (declares_block body).append (declares_singleton (.again condition) rfl rfl)
      rw [List.append_nil] at all
      exact all.cons .doLoop rfl rfl
  | .forLoop declared _ _ _ body =>
      (declares_flatMap (declared.getD []) declares_assignment).append
        ((declares_block body).cons (.loop _) rfl rfl)
  | .forFixed _ _ _ _ _ statements => (declares_list statements).loopBraces _ _
  | .forDynamic _ _ _ _ statements => (declares_list statements).loopBraces _ _
  | .forKeys _ _ _ statements => (declares_list statements).loopBraces _ _
  | .expression e => declares_assignment e
  | .block body => declares_block body
  | .importStmt => declares_nil
  | .declaration assignments => declares_flatMap assignments declares_assignment

/-- A block that declares something is braced, and declares it at its head. -/
theorem declares_block : ∀ block : Block CStmt,
    Declares (blockTokens block) ((blockOpenings block).map Opening.locals)
  | ⟨locals, statements, forceBraces⟩ => by
      have inner := declares_list statements
      have nothing : Declares (if statements.isEmpty && locals.isEmpty then
          [.phrase "/* no statements */;"] else []) [] := by
        split
        · exact declares_singleton _ rfl rfl
        · exact declares_nil
      rw [blockTokens, blockOpenings, List.map_cons, Opening.locals]
      cases braced : Block.isBraced ⟨locals, statements, forceBraces⟩ with
      | true =>
          have all := (inner.braces "" locals).append nothing
          simp only [List.append_nil] at all
          simpa using all
      | false =>
          rw [Block.isBraced, Bool.or_eq_false_iff, Bool.or_eq_false_iff] at braced
          obtain ⟨⟨-, few⟩, noLocals⟩ := braced
          obtain rfl : locals = [] := by simpa using noLocals
          rw [declares_cons_nil]
          match statements with
          | [] => exact nothing
          | [only] => simpa using inner
          | first :: second :: rest => simp at few

theorem declares_list : ∀ statements : List CStmt,
    Declares (listTokens statements) ((listOpenings statements).map Opening.locals)
  | [] => declares_nil
  | first :: rest => by
      rw [listTokens, listOpenings, List.map_append]
      exact (declares_tokens first).append (declares_list rest)

end

/-! ## Files -/

theorem declares_function (function : CFunction) :
    Declares function.tokens (function.openings.map Opening.locals) := by
  have last : Declares (if function.isMain then [.phrase "return 0;"] else []) [] := by
    split
    · exact declares_singleton _ rfl rfl
    · exact declares_nil
  have ending := (declares_releases function.releases).append last
  have all := ((declares_list function.statements).append ending).braces
    (function.signature ++ "\n") function.locals
  simp only [List.append_nil, List.append_assoc] at all
  exact all

theorem declares_bodies (list : List CFunction) :
    Declares (list.flatMap CFunction.tokens)
      ((list.flatMap CFunction.openings).map Opening.locals) := by
  induction list with
  | nil => exact declares_nil
  | cons function rest ih =>
    rw [List.flatMap_cons, List.flatMap_cons, List.map_append]
    exact (declares_function function).append ih

/-- **Where a file declares.** The tokens of a file declare what its scopes declare. -/
theorem declares_program (program : CProgram) :
    Declares program.tokens (program.openings.map Opening.locals) := by
  have same : program.tokens = program.bodies.flatMap CFunction.tokens := by
    rw [CProgram.tokens, CProgram.bodies, List.flatMap_append, List.flatMap_singleton]
  rw [same]
  exact declares_bodies program.bodies

end ScriptToC
