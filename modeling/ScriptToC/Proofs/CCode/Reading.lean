import ScriptToC.Proofs.CCode.Tokens

/-!
# How C reads statements

C reads a statement from the front of a row of tokens and leaves the rest. What a condition or the
head of a loop governs is the one statement that follows it, and an `else` belongs to the nearest
`if` that can have it. A row of tokens is one statement exactly if it is read and nothing is left.

A printed statement is read as it is meant if each body in it is printed as one statement
(`Block.Single`), and no `else` comes after an `if` that is open at its end (`CStmt.ElseSafe`).
-/

set_option autoImplicit false

namespace ScriptToC

open Text

/-! ## Reading -/

/-- A statement, a declaration or a label, with the statements that its head or its braces
govern. -/
inductive Tree
  | leaf (token : Token)
  | ifThen (condition : String) (body : List Tree)
  | ifElse (condition : String) (body other : List Tree)
  | loop (head : String) (body : List Tree)
  | doLoop (body : List Tree) (condition : String)
  | compound (head : String) (items : List Tree)

mutual

/-- C reads a statement from the front of some tokens and leaves the others. -/
inductive Reads : List Token → Tree → List Token → Prop
  | phrase {text : String} {rest : List Token} :
      Reads (.phrase text :: rest) (.leaf (.phrase text)) rest
  | ifThen {condition : String} {body rest : List Token} {tree : Tree} :
      Reads body tree rest → rest.head? ≠ some .otherwise →
      Reads (.test condition :: body) (.ifThen condition [tree]) rest
  | ifElse {condition : String} {body other rest : List Token} {tree tree' : Tree} :
      Reads body tree (.otherwise :: other) → Reads other tree' rest →
      Reads (.test condition :: body) (.ifElse condition [tree] [tree']) rest
  | loop {head : String} {body rest : List Token} {tree : Tree} :
      Reads body tree rest → Reads (.loop head :: body) (.loop head [tree]) rest
  | doLoop {condition : String} {body rest : List Token} {tree : Tree} :
      Reads body tree (.again condition :: rest) →
      Reads (.doLoop :: body) (.doLoop [tree] condition) rest
  | compound {head : String} {items rest : List Token} {trees : List Tree} :
      ReadsItems items trees (.closing :: rest) →
      Reads (.opening head :: items) (.compound head trees) rest

/-- C reads what may stand between braces: statements, declarations and labels. -/
inductive ReadsItems : List Token → List Tree → List Token → Prop
  | nil {rest : List Token} : ReadsItems rest [] rest
  | statement {tokens more rest : List Token} {tree : Tree} {trees : List Tree} :
      Reads tokens tree more → ReadsItems more trees rest → ReadsItems tokens (tree :: trees) rest
  | declaration {text : String} {more rest : List Token} {trees : List Tree} :
      ReadsItems more trees rest →
      ReadsItems (.declaration text :: more) (.leaf (.declaration text) :: trees) rest
  | label {text : String} {more rest : List Token} {trees : List Tree} :
      ReadsItems more trees rest →
      ReadsItems (.label text :: more) (.leaf (.label text) :: trees) rest

end

/-! ## What is meant -/

mutual

/-- The statements that a statement stands for, with what each of their heads is to govern. -/
def CStmt.trees : CStmt → List Tree
  | .ifThen condition body => [.ifThen condition (blockTrees body)]
  | .ifElse condition body other => [.ifElse condition (blockTrees body) (blockTrees other)]
  | .switchOn subject cases => [.compound ("switch (" ++ subject ++ ") ") (listTrees cases)]
  | .switchByIndex subject comparisons cases =>
    [.leaf (.phrase (indexText subject comparisons)),
      .compound ("switch (" ++ subject ++ ") ") (listTrees cases)]
  | .clause text statements =>
    .leaf (.label (text.elim "default:" fun value => "case " ++ value ++ ":")) ::
      listTrees statements
  | .whileLoop condition body => [.loop ("while (" ++ condition ++ ")") (blockTrees body)]
  | .doLoop body condition => [.doLoop (blockTrees body) condition]
  | .forLoop declared init condition increment body =>
    ((declared.getD []).flatMap Assignment.tokens).map .leaf ++
      [.loop (loopHead init condition increment) (blockTrees body)]
  | .forFixed counter capacity array cast target statements =>
    [.loop (loopHead (counter ++ " = 0") (counter ++ " < " ++ toString capacity) (counter ++ "++"))
      [.compound "" (.leaf (.phrase (target ++ " = " ++ cast ++ array ++ "[" ++ counter ++ "];")) ::
        listTrees statements)]]
  | .forDynamic counter array cast target statements =>
    [.loop (loopHead (counter ++ " = 0") (counter ++ " < " ++ array ++ "->size") (counter ++ "++"))
      [.compound "" (.leaf (.phrase (target ++ " = " ++ cast ++ array ++ "->data[" ++ counter ++
        "];")) :: listTrees statements)]]
  | .forKeys counter dict target statements =>
    [.loop (loopHead (counter ++ " = 0") (counter ++ " < " ++ dict ++ "->index->size")
        (counter ++ "++"))
      [.compound "" (.leaf (.phrase (target ++ " = " ++ dict ++ "->index->data[" ++ counter ++
        "];")) :: listTrees statements)]]
  | .block body => blockTrees body
  | other => other.tokens.map .leaf

/-- The statements that a block stands for: one in braces, or those of its only statement, or one
that does nothing. -/
def blockTrees : Block CStmt → List Tree
  | ⟨locals, statements, forceBraces⟩ =>
    let braced := Block.isBraced ⟨locals, statements, forceBraces⟩
    (if braced then
      [.compound "" (locals.map (fun x => .leaf x.token) ++ listTrees statements)] else []) ++
    (if !braced && statements.length == 1 then listTrees statements else []) ++
    (if statements.isEmpty && locals.isEmpty then
      [.leaf (.phrase "/* no statements */;")] else [])

/-- The statements that statements stand for. -/
def listTrees : List CStmt → List Tree
  | [] => []
  | first :: rest => first.trees ++ listTrees rest

end

mutual

/-- The statement is printed as one statement, if the bodies in it are. -/
def CStmt.Single : CStmt → Prop
  | .returnStmt _ releases => releases.flatMap Release.tokens = []
  | .switchByIndex .. => False
  | .clause .. => False
  | .forLoop declared _ _ _ _ => (declared.getD []).flatMap Assignment.tokens = []
  | .expression e => e.tokens.length = 1
  | .block body => Block.Single body
  | .importStmt => False
  | .declaration assignments => (assignments.flatMap Assignment.tokens).length = 1
  | _ => True

/-- The block is printed as one statement, if the bodies in it are: in braces, or as its only
statement, or as one that does nothing. -/
def Block.Single : Block CStmt → Prop
  | ⟨locals, statements, forceBraces⟩ =>
    if Block.isBraced ⟨locals, statements, forceBraces⟩ then
      ¬ (statements.isEmpty && locals.isEmpty)
    else listSingle statements

/-- The only statement of a list is printed as one. -/
def listSingle : List CStmt → Prop
  | [only] => only.Single
  | _ => True

end

/-! ## Bodies -/

mutual

/-- The blocks under the conditions and the heads of loops in a statement, at every depth. -/
def CStmt.bodies : CStmt → List (Block CStmt)
  | .ifThen _ body => body :: innerBodies body
  | .ifElse _ body other => body :: innerBodies body ++ other :: innerBodies other
  | .switchOn _ cases => listBodies cases
  | .switchByIndex _ _ cases => listBodies cases
  | .clause _ statements => listBodies statements
  | .whileLoop _ body => body :: innerBodies body
  | .doLoop body _ => body :: innerBodies body
  | .forLoop _ _ _ _ body => body :: innerBodies body
  | .forFixed _ _ _ _ _ statements => listBodies statements
  | .forDynamic _ _ _ _ statements => listBodies statements
  | .forKeys _ _ _ statements => listBodies statements
  | .block body => innerBodies body
  | _ => []

/-- The bodies in the statements of a block. -/
def innerBodies : Block CStmt → List (Block CStmt)
  | ⟨_, statements, _⟩ => listBodies statements

/-- The bodies in statements. -/
def listBodies : List CStmt → List (Block CStmt)
  | [] => []
  | first :: rest => first.bodies ++ listBodies rest

end

/-! ## Open ends -/

mutual

/-- The statement is printed so that it ends in an `if` without `else`. -/
def CStmt.openEnd : CStmt → Bool
  | .ifThen .. => true
  | .ifElse _ _ other => blockOpenEnd other
  | .whileLoop _ body => blockOpenEnd body
  | .forLoop _ _ _ _ body => blockOpenEnd body
  | .block body => blockOpenEnd body
  | _ => false

/-- The block is printed so that it ends in an `if` without `else`. -/
def blockOpenEnd : Block CStmt → Bool
  | ⟨locals, statements, forceBraces⟩ =>
    !Block.isBraced ⟨locals, statements, forceBraces⟩ && listOpenEnd statements

/-- The only statement of a list ends in an `if` without `else`. -/
def listOpenEnd : List CStmt → Bool
  | [only] => only.openEnd
  | _ => false

end

mutual

/-- No `else` in the statement comes after a body that is open at its end. -/
def CStmt.ElseSafe : CStmt → Prop
  | .ifThen _ body => blockElseSafe body
  | .ifElse _ body other => blockOpenEnd body = false ∧ blockElseSafe body ∧ blockElseSafe other
  | .switchOn _ cases => listElseSafe cases
  | .switchByIndex _ _ cases => listElseSafe cases
  | .clause _ statements => listElseSafe statements
  | .whileLoop _ body => blockElseSafe body
  | .doLoop body _ => blockElseSafe body
  | .forLoop _ _ _ _ body => blockElseSafe body
  | .forFixed _ _ _ _ _ statements => listElseSafe statements
  | .forDynamic _ _ _ _ statements => listElseSafe statements
  | .forKeys _ _ _ statements => listElseSafe statements
  | .block body => blockElseSafe body
  | _ => True

/-- No `else` in the statements of a block comes after a body that is open at its end. -/
def blockElseSafe : Block CStmt → Prop
  | ⟨_, statements, _⟩ => listElseSafe statements

/-- No `else` in the statements comes after a body that is open at its end. -/
def listElseSafe : List CStmt → Prop
  | [] => True
  | first :: rest => first.ElseSafe ∧ listElseSafe rest

end

/-! ## Rows of phrases -/

/-- The tokens are statements without statements in them. -/
def Phrases (tokens : List Token) : Prop :=
  ∀ token ∈ tokens, ∃ text, token = .phrase text

theorem Phrases.append {first second : List Token} (phrases : Phrases first)
    (others : Phrases second) : Phrases (first ++ second) := by
  intro token member
  rcases List.mem_append.1 member with member | member
  · exact phrases token member
  · exact others token member

theorem phrases_flatMap {α : Type} {tokens : α → List Token} {list : List α}
    (each : ∀ a, Phrases (tokens a)) : Phrases (list.flatMap tokens) := by
  intro token member
  obtain ⟨a, -, inside⟩ := List.mem_flatMap.1 member
  exact each a token inside

theorem phrases_map (texts : List String) : Phrases (texts.map .phrase) := by
  intro token member
  obtain ⟨text, -, rfl⟩ := List.mem_map.1 member
  exact ⟨text, rfl⟩

theorem phrases_assignment (assignment : Assignment) : Phrases assignment.tokens := by
  cases assignment with
  | expression text => exact phrases_map [text ++ ";"]
  | statements lines => exact phrases_map lines

theorem reads_phrase {text : String} {rest left : List Token} {tree : Tree}
    (reads : Reads (.phrase text :: rest) tree left) : rest = left := by
  cases reads
  rfl

/-- A row of phrases is one statement only if it is one phrase. -/
theorem Phrases.length_eq_one {tokens : List Token} (phrases : Phrases tokens) {tree : Tree}
    (reads : Reads tokens tree []) : tokens.length = 1 := by
  cases tokens with
  | nil => cases reads
  | cons first rest =>
    obtain ⟨text, rfl⟩ := phrases first List.mem_cons_self
    cases reads
    rfl

/-! ## A body that is one statement -/

mutual

theorem single_of_reads : ∀ {statement : CStmt} {tree : Tree},
    Reads statement.tokens tree [] → statement.Single
  | .breakStmt, _, _ | .continueStmt, _, _ | .emptyStmt, _, _ | .ifThen .., _, _ | .ifElse .., _, _
  | .switchOn .., _, _ | .whileLoop .., _, _ | .doLoop .., _, _ | .forFixed .., _, _
  | .forDynamic .., _, _ | .forKeys .., _, _ => trivial
  | .returnStmt value releases, tree, reads => by
    rw [CStmt.tokens] at reads
    have frees : Phrases (releases.flatMap Release.tokens) :=
      phrases_flatMap fun release => phrases_map release.frees
    have one := (frees.append (phrases_map [returnText value])).length_eq_one reads
    rw [List.length_append] at one
    exact List.length_eq_zero_iff.1 (Nat.add_right_cancel one)
  | .switchByIndex subject comparisons cases, _, reads => by
    rw [CStmt.tokens] at reads
    cases reads
  | .clause .., _, reads => by
    rw [CStmt.tokens] at reads
    cases reads
  | .forLoop declared init condition increment body, _, reads => by
    rw [CStmt.tokens] at reads
    rw [CStmt.Single]
    rcases eq : (declared.getD []).flatMap Assignment.tokens with _ | ⟨first, rest⟩
    · rfl
    · have phrases : Phrases ((declared.getD []).flatMap Assignment.tokens) :=
        phrases_flatMap phrases_assignment
      rw [eq] at reads phrases
      obtain ⟨text, rfl⟩ := phrases first List.mem_cons_self
      exact absurd (reads_phrase reads) (by simp)
  | .expression e, _, reads => by
    rw [CStmt.tokens] at reads
    exact (phrases_assignment e).length_eq_one reads
  | .block body, _, reads => by
    rw [CStmt.tokens] at reads
    exact block_single_of_reads reads
  | .importStmt, _, reads => by
    rw [CStmt.tokens] at reads
    cases reads
  | .declaration assignments, _, reads => by
    rw [CStmt.tokens] at reads
    exact (phrases_flatMap phrases_assignment).length_eq_one reads

/-- A block that C reads as one statement is printed as one. -/
theorem block_single_of_reads : ∀ {block : Block CStmt} {tree : Tree},
    Reads (blockTokens block) tree [] → Block.Single block
  | ⟨locals, statements, forceBraces⟩, tree, reads => by
    rw [Block.Single]
    rw [blockTokens] at reads
    cases truth : Block.isBraced ⟨locals, statements, forceBraces⟩ with
    | true =>
      rw [if_pos rfl]
      intro empty
      -- After the braces comes another statement, one that does nothing.
      obtain ⟨noStatements, noLocals⟩ := Bool.and_eq_true_iff.1 empty
      rw [List.isEmpty_iff] at noStatements noLocals
      subst noStatements noLocals
      rw [truth] at reads
      have reads : Reads [.opening "", .closing, .phrase "/* no statements */;"] tree [] := by
        simpa [listTokens] using reads
      cases reads with
      | compound items =>
        cases items with
        | statement first _ => cases first
    | false =>
      rw [if_neg Bool.false_ne_true]
      rw [truth] at reads
      match statements, reads with
      | [], _ => trivial
      | [only], reads =>
        have reads : Reads (listTokens [only]) tree [] := by simpa using reads
        exact list_single_of_reads reads
      | _ :: _ :: _, _ => trivial

theorem list_single_of_reads : ∀ {statements : List CStmt} {tree : Tree},
    Reads (listTokens statements) tree [] → listSingle statements
  | [], _, _ => trivial
  | [only], _, reads => by
    rw [listTokens, listTokens, List.append_nil] at reads
    exact single_of_reads reads
  | _ :: _ :: _, _, _ => trivial

end

/-! ## Statements that are read as they are meant -/

/-- In front of tokens that do not begin with an `else`, if that could be taken, some tokens are
read as one statement. -/
def ReadsAs (tokens : List Token) (tree : Tree) (isOpen : Bool) : Prop :=
  ∀ rest, (isOpen = true → rest.head? ≠ some .otherwise) → Reads (tokens ++ rest) tree rest

/-- In front of what can be read as items, some tokens are read as further items. -/
def ReadAsItems (tokens : List Token) (trees : List Tree) : Prop :=
  ∀ (rest left : List Token) (more : List Tree), rest.head? ≠ some .otherwise →
    ReadsItems rest more left → ReadsItems (tokens ++ rest) (trees ++ more) left

theorem ReadsAs.items {tokens : List Token} {tree : Tree} {isOpen : Bool}
    (reads : ReadsAs tokens tree isOpen) : ReadAsItems tokens [tree] := by
  intro rest left more noElse items
  have first : Reads (tokens ++ rest) tree rest := reads rest fun _ => noElse
  exact .statement first items

theorem readAsItems_nil : ReadAsItems [] [] := by
  intro rest left more _ items
  exact items

theorem ReadAsItems.append {first second : List Token} {trees trees' : List Tree}
    (items : ReadAsItems first trees) (others : ReadAsItems second trees')
    (noElse : second.head? ≠ some .otherwise) :
    ReadAsItems (first ++ second) (trees ++ trees') := by
  intro rest left more noElse' reads
  rw [List.append_assoc, List.append_assoc]
  apply items
  · cases second with
    | nil => exact noElse'
    | cons => exact noElse
  · exact others _ _ _ noElse' reads

theorem readAsItems_phrases {tokens : List Token} (phrases : Phrases tokens) :
    ReadAsItems tokens (tokens.map .leaf) := by
  intro rest left more noElse items
  induction tokens with
  | nil => exact items
  | cons first others ih =>
    obtain ⟨text, rfl⟩ := phrases first List.mem_cons_self
    apply ReadsItems.statement .phrase
    apply ih
    intro token member
    exact phrases token (List.mem_cons_of_mem _ member)

theorem readAsItems_declarations (locals : List Variable) :
    ReadAsItems (locals.map Variable.token) (locals.map fun x => .leaf x.token) := by
  intro rest left more _ items
  induction locals with
  | nil => exact items
  | cons first others ih => exact .declaration ih

/-- Items in braces are read as one statement. -/
theorem ReadAsItems.compound {tokens : List Token} {trees : List Tree}
    (items : ReadAsItems tokens trees) (head : String) (isOpen : Bool) :
    ReadsAs (.opening head :: (tokens ++ [.closing])) (.compound head trees) isOpen := by
  intro rest _
  have noElse : (Token.closing :: rest).head? ≠ some .otherwise := by simp
  have inside := items _ _ _ noElse .nil
  rw [List.append_nil] at inside
  rw [List.cons_append, List.append_assoc]
  exact .compound inside

/-- What the head of a loop governs is read with it. -/
theorem ReadsAs.loop {tokens : List Token} {tree : Tree} {isOpen : Bool}
    (reads : ReadsAs tokens tree isOpen) (head : String) :
    ReadsAs (.loop head :: tokens) (.loop head [tree]) isOpen := by
  intro rest noElse
  exact .loop (reads rest noElse)

/-- The loops over collections: the body in braces begins with the assignment of an element. -/
theorem ReadAsItems.collection {tokens : List Token} {trees : List Tree}
    (items : ReadAsItems tokens trees) (head first : String) :
    ReadsAs (.loop head :: .opening "" :: .phrase first :: (tokens ++ [.closing]))
      (.loop head [.compound "" (.leaf (.phrase first) :: trees)]) false := by
  have all : ReadAsItems (.phrase first :: tokens) (.leaf (.phrase first) :: trees) := by
    intro rest left more noElse reads
    exact .statement .phrase (items _ _ _ noElse reads)
  exact (all.compound "" false).loop head

theorem head?_append_ne {first second : List Token} (noElse : first.head? ≠ some .otherwise)
    (noElse' : second.head? ≠ some .otherwise) : (first ++ second).head? ≠ some .otherwise := by
  cases first with
  | nil => exact noElse'
  | cons => exact noElse

theorem ReadAsItems.part {tokens : List Token} {trees : List Tree}
    (items : ReadAsItems tokens trees) (truth : Bool) :
    ReadAsItems (if truth then tokens else []) (if truth then trees else []) := by
  cases truth
  · exact readAsItems_nil
  · exact items

theorem head?_part_ne {tokens : List Token} (noElse : tokens.head? ≠ some .otherwise)
    (truth : Bool) : (if truth then tokens else []).head? ≠ some .otherwise := by
  cases truth
  · simp
  · exact noElse

theorem Phrases.head?_ne {tokens : List Token} (phrases : Phrases tokens) :
    tokens.head? ≠ some .otherwise := by
  intro eq
  obtain ⟨text, absurd⟩ := phrases _ (List.mem_of_head? eq)
  cases absurd

mutual

theorem head?_tokens_ne : ∀ statement : CStmt, statement.tokens.head? ≠ some .otherwise
  | .breakStmt | .continueStmt | .emptyStmt | .ifThen .. | .ifElse .. | .switchOn ..
  | .switchByIndex .. | .clause .. | .whileLoop .. | .doLoop .. | .forFixed .. | .forDynamic ..
  | .forKeys .. | .importStmt => by simp [CStmt.tokens]
  | .returnStmt value releases => by
    rw [CStmt.tokens]
    have frees : Phrases (releases.flatMap Release.tokens) :=
      phrases_flatMap fun release => phrases_map release.frees
    exact head?_append_ne frees.head?_ne (by simp)
  | .forLoop declared _ _ _ _ => by
    rw [CStmt.tokens]
    exact head?_append_ne (phrases_flatMap phrases_assignment).head?_ne (by simp)
  | .expression e => by
    rw [CStmt.tokens]
    exact (phrases_assignment e).head?_ne
  | .block body => by
    rw [CStmt.tokens]
    exact head?_blockTokens_ne body
  | .declaration assignments => by
    rw [CStmt.tokens]
    exact (phrases_flatMap phrases_assignment).head?_ne

theorem head?_blockTokens_ne : ∀ block : Block CStmt,
    (blockTokens block).head? ≠ some .otherwise
  | ⟨locals, statements, forceBraces⟩ => by
    have only := head?_listTokens_ne statements
    rw [blockTokens]
    apply head?_append_ne
    · exact head?_append_ne (head?_part_ne (by simp) _) (head?_part_ne only _)
    · exact head?_part_ne (by simp) _

theorem head?_listTokens_ne : ∀ statements : List CStmt,
    (listTokens statements).head? ≠ some .otherwise
  | [] => by simp [listTokens]
  | first :: rest => by
    rw [listTokens]
    exact head?_append_ne (head?_tokens_ne first) (head?_listTokens_ne rest)

end

/-- What is read as one statement can be read as an item. -/
theorem items_of_single {tokens : List Token} {trees : List Tree} {isOpen : Bool}
    (single : ∃ tree, trees = [tree] ∧ ReadsAs tokens tree isOpen) : ReadAsItems tokens trees := by
  obtain ⟨tree, rfl, reads⟩ := single
  exact reads.items

/-- A statement is read as it is meant: as items where several may stand, and as one statement if it
is printed as one. -/
def CStmt.Readable (statement : CStmt) : Prop :=
  (statement.Single → ∃ tree, statement.trees = [tree] ∧
    ReadsAs statement.tokens tree statement.openEnd) ∧
  ReadAsItems statement.tokens statement.trees

theorem CStmt.Readable.of_single {statement : CStmt}
    (single : ∃ tree, statement.trees = [tree] ∧
      ReadsAs statement.tokens tree statement.openEnd) : statement.Readable :=
  ⟨fun _ => single, items_of_single single⟩

theorem CStmt.Readable.of_items {statement : CStmt} (several : ¬ statement.Single)
    (items : ReadAsItems statement.tokens statement.trees) : statement.Readable :=
  ⟨fun single => absurd single several, items⟩

theorem readable_phrases {statement : CStmt} (phrases : Phrases statement.tokens)
    (trees : statement.trees = statement.tokens.map .leaf)
    (one : statement.Single → statement.tokens.length = 1) : statement.Readable := by
  constructor
  · intro single
    obtain ⟨token, eq⟩ := List.length_eq_one_iff.1 (one single)
    obtain ⟨text, rfl⟩ := phrases token (eq ▸ List.mem_singleton_self token)
    refine ⟨.leaf (.phrase text), by rw [trees, eq]; rfl, ?_⟩
    intro rest _
    rw [eq]
    exact .phrase
  · rw [trees]
    exact readAsItems_phrases phrases

mutual

/-- A statement whose bodies are printed as one statement each, and in which no `else` comes after
an open end, is read as it is meant. -/
theorem readable : ∀ statement : CStmt, (∀ body ∈ statement.bodies, Block.Single body) →
    statement.ElseSafe → statement.Readable
  | .breakStmt, _, _ => readable_phrases (phrases_map ["break;"]) rfl fun _ => rfl
  | .continueStmt, _, _ => readable_phrases (phrases_map ["continue;"]) rfl fun _ => rfl
  | .emptyStmt, _, _ => readable_phrases (phrases_map [";"]) rfl fun _ => rfl
  | .returnStmt value releases, _, _ => by
    apply readable_phrases
    · have frees : Phrases (releases.flatMap Release.tokens) :=
        phrases_flatMap fun release => phrases_map release.frees
      rw [CStmt.tokens]
      exact frees.append (phrases_map [returnText value])
    · rfl
    · intro single
      rw [CStmt.Single] at single
      rw [CStmt.tokens, single]
      rfl
  | .ifThen condition body, single, safe => by
    rw [CStmt.bodies, List.forall_mem_cons] at single
    rw [CStmt.ElseSafe] at safe
    obtain ⟨tree, eq, reads⟩ := (readable_block body single.2 safe).1 single.1
    refine .of_single ⟨.ifThen condition [tree], by rw [CStmt.trees, eq], ?_⟩
    intro rest noElse
    rw [CStmt.tokens]
    exact .ifThen (reads rest fun _ => noElse rfl) (noElse rfl)
  | .ifElse condition body other, single, safe => by
    rw [CStmt.bodies, List.forall_mem_append, List.forall_mem_cons, List.forall_mem_cons] at single
    rw [CStmt.ElseSafe] at safe
    obtain ⟨tree, eq, reads⟩ := (readable_block body single.1.2 safe.2.1).1 single.1.1
    obtain ⟨tree', eq', reads'⟩ := (readable_block other single.2.2 safe.2.2).1 single.2.1
    refine .of_single ⟨.ifElse condition [tree] [tree'], by rw [CStmt.trees, eq, eq'], ?_⟩
    intro rest noElse
    rw [CStmt.tokens, List.cons_append, List.append_assoc]
    apply Reads.ifElse
    · apply reads
      rw [safe.1]
      simp
    · exact reads' rest noElse
  | .switchOn subject cases, single, safe => by
    rw [CStmt.bodies] at single
    rw [CStmt.ElseSafe] at safe
    refine .of_single ⟨_, by rw [CStmt.trees], ?_⟩
    rw [CStmt.tokens]
    exact (readable_list cases single safe).compound _ _
  | .switchByIndex subject comparisons cases, single, safe => by
    rw [CStmt.bodies] at single
    rw [CStmt.ElseSafe] at safe
    apply CStmt.Readable.of_items (by simp [CStmt.Single])
    rw [CStmt.trees, CStmt.tokens]
    have phrases := readAsItems_phrases (phrases_map [indexText subject comparisons])
    exact phrases.append ((readable_list cases single safe).compound _ false).items (by simp)
  | .clause text statements, single, safe => by
    rw [CStmt.bodies] at single
    rw [CStmt.ElseSafe] at safe
    apply CStmt.Readable.of_items (by simp [CStmt.Single])
    rw [CStmt.trees, CStmt.tokens]
    intro more trees rest noElse items
    exact .label (readable_list statements single safe _ _ _ noElse items)
  | .whileLoop condition body, single, safe => by
    rw [CStmt.bodies, List.forall_mem_cons] at single
    rw [CStmt.ElseSafe] at safe
    obtain ⟨tree, eq, reads⟩ := (readable_block body single.2 safe).1 single.1
    refine .of_single ⟨_, by rw [CStmt.trees, eq], ?_⟩
    rw [CStmt.tokens, CStmt.openEnd]
    exact reads.loop _
  | .doLoop body condition, single, safe => by
    rw [CStmt.bodies, List.forall_mem_cons] at single
    rw [CStmt.ElseSafe] at safe
    obtain ⟨tree, eq, reads⟩ := (readable_block body single.2 safe).1 single.1
    refine .of_single ⟨_, by rw [CStmt.trees, eq], ?_⟩
    intro rest _
    rw [CStmt.tokens, List.cons_append, List.append_assoc]
    apply Reads.doLoop
    apply reads
    simp
  | .forLoop declared init condition increment body, single, safe => by
    rw [CStmt.bodies, List.forall_mem_cons] at single
    rw [CStmt.ElseSafe] at safe
    obtain ⟨tree, eq, reads⟩ := (readable_block body single.2 safe).1 single.1
    have loop := reads.loop (loopHead init condition increment)
    have phrases : Phrases ((declared.getD []).flatMap Assignment.tokens) :=
      phrases_flatMap phrases_assignment
    constructor
    · intro alone
      rw [CStmt.Single] at alone
      rw [CStmt.trees, CStmt.tokens, CStmt.openEnd, alone, eq]
      exact ⟨_, rfl, loop⟩
    · rw [CStmt.trees, CStmt.tokens, eq]
      exact (readAsItems_phrases phrases).append loop.items (by simp)
  | .forFixed counter capacity array cast target statements, single, safe => by
    rw [CStmt.bodies] at single
    rw [CStmt.ElseSafe] at safe
    refine .of_single ⟨_, by rw [CStmt.trees], ?_⟩
    rw [CStmt.tokens]
    exact (readable_list statements single safe).collection _ _
  | .forDynamic counter array cast target statements, single, safe => by
    rw [CStmt.bodies] at single
    rw [CStmt.ElseSafe] at safe
    refine .of_single ⟨_, by rw [CStmt.trees], ?_⟩
    rw [CStmt.tokens]
    exact (readable_list statements single safe).collection _ _
  | .forKeys counter dict target statements, single, safe => by
    rw [CStmt.bodies] at single
    rw [CStmt.ElseSafe] at safe
    refine .of_single ⟨_, by rw [CStmt.trees], ?_⟩
    rw [CStmt.tokens]
    exact (readable_list statements single safe).collection _ _
  | .expression e, _, _ => by
    apply readable_phrases
    · rw [CStmt.tokens]
      exact phrases_assignment e
    · rfl
    · intro single
      rw [CStmt.Single] at single
      rw [CStmt.tokens, single]
  | .block body, single, safe => by
    rw [CStmt.bodies] at single
    rw [CStmt.ElseSafe] at safe
    rw [CStmt.Readable, CStmt.Single, CStmt.trees, CStmt.tokens, CStmt.openEnd]
    exact readable_block body single safe
  | .importStmt, _, _ => by
    apply CStmt.Readable.of_items (by simp [CStmt.Single])
    rw [CStmt.tokens]
    exact readAsItems_nil
  | .declaration assignments, _, _ => by
    apply readable_phrases
    · rw [CStmt.tokens]
      exact phrases_flatMap phrases_assignment
    · rfl
    · intro single
      rw [CStmt.Single] at single
      rw [CStmt.tokens, single]

/-- A block is read as it is meant. -/
theorem readable_block : ∀ block : Block CStmt, (∀ body ∈ innerBodies block, Block.Single body) →
    blockElseSafe block →
      (Block.Single block → ∃ tree, blockTrees block = [tree] ∧
        ReadsAs (blockTokens block) tree (blockOpenEnd block)) ∧
      ReadAsItems (blockTokens block) (blockTrees block)
  | ⟨locals, statements, forceBraces⟩, single, safe => by
    rw [innerBodies] at single
    rw [blockElseSafe] at safe
    have items := readable_list statements single safe
    have inBraces := ((readAsItems_declarations locals).append items
      (head?_listTokens_ne statements)).compound "" false
    have nothing := readAsItems_phrases (phrases_map ["/* no statements */;"])
    constructor
    · rw [Block.Single, blockOpenEnd, blockTokens, blockTrees]
      cases truth : Block.isBraced ⟨locals, statements, forceBraces⟩ with
      | true =>
        intro alone
        rw [if_pos rfl] at alone
        refine ⟨.compound "" (locals.map (fun x => .leaf x.token) ++ listTrees statements), ?_, ?_⟩
        · simp [alone]
        · simpa [alone] using inBraces
      | false =>
        simp only [Block.isBraced, Bool.or_eq_false_iff, Bool.not_eq_false'] at truth
        match statements, single, safe, truth with
        | [], _, _, truth =>
          intro _
          refine ⟨.leaf (.phrase "/* no statements */;"), by simp [truth], ?_⟩
          intro rest _
          simp only [truth]
          exact .phrase
        | [only], single, safe, truth =>
          rw [listBodies, listBodies, List.append_nil] at single
          intro alone
          obtain ⟨tree, eq, reads⟩ := (readable only single safe.1).1 alone
          refine ⟨tree, by simp [listTrees, eq], ?_⟩
          simpa [listTokens, listOpenEnd] using reads
        | _ :: _ :: _, _, _, truth => simp at truth
    · rw [blockTokens, blockTrees]
      apply ReadAsItems.append
      · apply (inBraces.items.part _).append (items.part _)
        exact head?_part_ne (head?_listTokens_ne statements) _
      · exact nothing.part _
      · exact head?_part_ne (by simp) _

theorem readable_list : ∀ statements : List CStmt, (∀ body ∈ listBodies statements,
    Block.Single body) → listElseSafe statements →
      ReadAsItems (listTokens statements) (listTrees statements)
  | [], _, _ => readAsItems_nil
  | first :: rest, single, safe => by
    rw [listBodies, List.forall_mem_append] at single
    rw [listElseSafe] at safe
    rw [listTokens, listTrees]
    exact (readable first single.1 safe.1).2.append (readable_list rest single.2 safe.2)
      (head?_listTokens_ne rest)

end

/-! ## Blocks that are printed as one statement -/

/-- The text of the block is one C statement, the one that the block stands for. -/
def Block.PrintsOne (block : Block CStmt) : Prop :=
  ∃ (text : String) (tree : Tree), (CStmt.blockValue block).render = .ok text ∧
    words text.toList = spell (blockTokens block) ∧ blockTrees block = [tree] ∧
    Reads (blockTokens block) tree []

/-- A body holds only bodies of the statement around it. -/
def Nested (blocks : List (Block CStmt)) (safe : Prop) : Prop :=
  ∀ block ∈ blocks, (∀ inner ∈ innerBodies block, inner ∈ blocks) ∧ (safe → blockElseSafe block)

theorem Nested.cons {body : Block CStmt} {safe : Prop} (nested : Nested (innerBodies body) safe)
    (imp : safe → blockElseSafe body) : Nested (body :: innerBodies body) safe := by
  intro block member
  rcases List.mem_cons.1 member with rfl | member
  · refine ⟨?_, imp⟩
    intro inner inside
    exact List.mem_cons_of_mem _ inside
  · obtain ⟨within, safeInside⟩ := nested block member
    refine ⟨?_, safeInside⟩
    intro inner inside
    exact List.mem_cons_of_mem _ (within inner inside)

theorem Nested.append {blocks others : List (Block CStmt)} {safe safe' : Prop}
    (nested : Nested blocks safe) (nested' : Nested others safe') :
    Nested (blocks ++ others) (safe ∧ safe') := by
  intro block member
  rcases List.mem_append.1 member with member | member
  · obtain ⟨within, safeInside⟩ := nested block member
    constructor
    · intro inner inside
      exact List.mem_append_left _ (within inner inside)
    · rintro ⟨first, -⟩
      exact safeInside first
  · obtain ⟨within, safeInside⟩ := nested' block member
    constructor
    · intro inner inside
      exact List.mem_append_right _ (within inner inside)
    · rintro ⟨-, second⟩
      exact safeInside second

theorem Nested.mono {blocks : List (Block CStmt)} {safe safe' : Prop} (nested : Nested blocks safe)
    (imp : safe' → safe) : Nested blocks safe' := by
  intro block member
  obtain ⟨within, safeInside⟩ := nested block member
  refine ⟨within, ?_⟩
  intro all
  exact safeInside (imp all)

theorem nested_nil (safe : Prop) : Nested [] safe :=
  List.forall_mem_nil _

mutual

theorem nested_bodies : ∀ statement : CStmt, Nested statement.bodies statement.ElseSafe
  | .ifThen _ body => by
    rw [CStmt.bodies, CStmt.ElseSafe]
    exact (nested_innerBodies body).cons id
  | .ifElse _ body other => by
    rw [CStmt.bodies, CStmt.ElseSafe]
    exact (((nested_innerBodies body).cons id).append ((nested_innerBodies other).cons id)).mono
      And.right
  | .switchOn _ cases | .switchByIndex _ _ cases => by
    rw [CStmt.bodies, CStmt.ElseSafe]
    exact nested_listBodies cases
  | .clause _ statements | .forFixed _ _ _ _ _ statements | .forDynamic _ _ _ _ statements
  | .forKeys _ _ _ statements => by
    rw [CStmt.bodies, CStmt.ElseSafe]
    exact nested_listBodies statements
  | .whileLoop _ body | .doLoop body _ | .forLoop _ _ _ _ body => by
    rw [CStmt.bodies, CStmt.ElseSafe]
    exact (nested_innerBodies body).cons id
  | .block body => by
    rw [CStmt.bodies, CStmt.ElseSafe]
    exact nested_innerBodies body
  | .breakStmt | .continueStmt | .emptyStmt | .returnStmt .. | .expression _ | .importStmt
  | .declaration _ => nested_nil _

theorem nested_innerBodies : ∀ block : Block CStmt,
    Nested (innerBodies block) (blockElseSafe block)
  | ⟨_, statements, _⟩ => by
    rw [innerBodies, blockElseSafe]
    exact nested_listBodies statements

theorem nested_listBodies : ∀ statements : List CStmt,
    Nested (listBodies statements) (listElseSafe statements)
  | [] => nested_nil _
  | first :: rest => by
    rw [listBodies, listElseSafe]
    exact (nested_bodies first).append (nested_listBodies rest)

end

/-- If no `else` comes after an open end, the bodies of a statement are printed as one statement
each exactly if each is in braces, or holds nothing, or holds only what is printed as one. -/
theorem bodies_printOne_iff {statement : CStmt} (safe : statement.ElseSafe) :
    (∀ body ∈ statement.bodies, body.PrintsOne) ↔ ∀ body ∈ statement.bodies, Block.Single body := by
  constructor
  · intro one body member
    obtain ⟨_, _, -, -, -, reads⟩ := one body member
    exact block_single_of_reads reads
  · intro single body member
    obtain ⟨inside, imp⟩ := nested_bodies statement body member
    have within : ∀ inner ∈ innerBodies body, Block.Single inner := by
      intro inner nested
      exact single inner (inside inner nested)
    obtain ⟨tree, trees, reads⟩ := (readable_block body within (imp safe)).1 (single body member)
    obtain ⟨text, inserted, -, same⟩ := prints_blockValue body
    refine ⟨String.ofList text.toChars, tree, ?_, ?_, trees, ?_⟩
    · rw [Value.render, inserted]
      rfl
    · rw [String.toList_ofList]
      exact same
    · have whole := reads [] (by simp)
      rwa [List.append_nil] at whole

end ScriptToC
