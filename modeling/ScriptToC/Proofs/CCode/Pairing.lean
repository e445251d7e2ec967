import ScriptToC.Proofs.CCode.Reading

/-!
# Which `if` an `else` belongs to

The `if`s of a text are numbered from its front. An `else` is paired with the nearest `if` before it
that stands in the same block and has no `else` yet (`pairElses`). A block is what stands between
braces, or between a `do` and the `while` that ends it: in C the body of a loop is a block of its
own, and what the `while` has ended cannot be continued by an `else`.

How the `if`s of a tree lie in each other (`Branch`) says which of them has which `else`. Any
reading of some tokens by the grammar of C says the same as their pairing
(`ReadsItems.pairElses_eq`).

Rows of tokens are paired part by part (`Scans`). A part may leave `if`s open, to which an `else`
after it would belong; a block leaves none, and neither does what comes before an `else` that has to
belong to an `if` further in front.
-/

set_option autoImplicit false

namespace ScriptToC

/-! ## Pairing tokens -/

/-- The number of the `if` that each `else` is paired with. The next `if` has the number `next`,
`unmatched` are those of the current block without an `else`, the nearest first, and `around` are
those of the blocks around it. -/
def pairElses (next : Nat) (unmatched : List Nat) (around : List (List Nat)) :
    List Token → List (Option Nat)
  | [] => []
  | .test _ :: rest => pairElses (next + 1) (next :: unmatched) around rest
  | .otherwise :: rest => unmatched.head? :: pairElses next unmatched.tail around rest
  | .opening _ :: rest | .doLoop :: rest => pairElses next [] (unmatched :: around) rest
  | .closing :: rest | .again _ :: rest => pairElses next (around.headD []) around.tail rest
  | .phrase _ :: rest | .declaration _ :: rest | .label _ :: rest | .loop _ :: rest =>
    pairElses next unmatched around rest

/-- The token is an `if`. -/
def Token.isTest : Token → Bool
  | .test _ => true
  | _ => false

/-- How many `if`s stand in some tokens shows in the number of one that comes after them. -/
theorem pairElses_after (tokens : List Token) (next : Nat) (unmatched : List Nat)
    (around : List (List Nat)) :
    ∃ before : List (Option Nat),
      pairElses next unmatched around (tokens ++ [.test "", .otherwise]) =
        before ++ [some (next + tokens.countP Token.isTest)] := by
  induction tokens generalizing next unmatched around with
  | nil => exact ⟨[], rfl⟩
  | cons token rest ih =>
    rw [List.cons_append, List.countP_cons]
    cases token with
    | test condition =>
      obtain ⟨before, same⟩ := ih (next + 1) (next :: unmatched) around
      refine ⟨before, ?_⟩
      rw [pairElses, same, Nat.add_assoc, Nat.add_comm 1]
      rfl
    | otherwise =>
      obtain ⟨before, same⟩ := ih next unmatched.tail around
      exact ⟨unmatched.head? :: before, congrArg _ same⟩
    | _ => exact ih _ _ _

/-! ## Pairs of a tree -/

/-- An `if` with those in its body and, if it has an `else`, those after it. -/
inductive Branch
  | ifThen (body : List Branch)
  | ifElse (body other : List Branch)

mutual

/-- The number of `if`s in a branch. -/
def Branch.count : Branch → Nat
  | .ifThen body => countAll body + 1
  | .ifElse body other => countAll body + countAll other + 1

/-- The number of `if`s in several branches. -/
def countAll : List Branch → Nat
  | [] => 0
  | first :: rest => first.count + countAll rest

end

mutual

/-- The `if`s that have an `else`, in the order of the `else`s, if the first `if` has the number
`next`. -/
def Branch.pairs (next : Nat) : Branch → List Nat
  | .ifThen body => pairsAll (next + 1) body
  | .ifElse body other =>
    pairsAll (next + 1) body ++ next :: pairsAll (next + 1 + countAll body) other

/-- The `if`s of several branches that have an `else`. -/
def pairsAll (next : Nat) : List Branch → List Nat
  | [] => []
  | first :: rest => first.pairs next ++ pairsAll (next + first.count) rest

end

theorem countAll_append (first second : List Branch) :
    countAll (first ++ second) = countAll first + countAll second := by
  induction first with
  | nil => exact (Nat.zero_add _).symm
  | cons branch rest ih => rw [List.cons_append, countAll, countAll, ih, Nat.add_assoc]

theorem pairsAll_append (next : Nat) (first second : List Branch) :
    pairsAll next (first ++ second) =
      pairsAll next first ++ pairsAll (next + countAll first) second := by
  induction first generalizing next with
  | nil => rfl
  | cons branch rest ih =>
    rw [List.cons_append, pairsAll, pairsAll, ih, countAll, List.append_assoc, Nat.add_assoc]

mutual

/-- How the `if`s of a tree lie in each other. -/
def Tree.branches : Tree → List Branch
  | .leaf _ => []
  | .ifThen _ body => [.ifThen (branchesAll body)]
  | .ifElse _ body other => [.ifElse (branchesAll body) (branchesAll other)]
  | .loop _ body | .doLoop body _ | .compound _ body => branchesAll body

/-- How the `if`s of several trees lie in each other. -/
def branchesAll : List Tree → List Branch
  | [] => []
  | first :: rest => first.branches ++ branchesAll rest

end

theorem branchesAll_singleton (tree : Tree) : branchesAll [tree] = tree.branches :=
  List.append_nil _

/-! ## Rows of tokens -/

/-- In front of any others the tokens are paired as the branches say. Only if they are open, some of
their `if`s may be taken by an `else` that comes after them. -/
def Scans (tokens : List Token) (branches : List Branch) (isOpen : Bool) : Prop :=
  ∀ (next : Nat) (unmatched : List Nat) (around : List (List Nat)) (rest : List Token),
    ∃ opened : List Nat, (isOpen = false → opened = []) ∧
      pairElses next unmatched around (tokens ++ rest) =
        (pairsAll next branches).map some ++
          pairElses (next + countAll branches) (opened ++ unmatched) around rest

namespace Scans

variable {tokens others : List Token} {branches more : List Branch} {isOpen isOpen' : Bool}

theorem mono (scans : Scans tokens branches isOpen) (imp : isOpen = true → isOpen' = true) :
    Scans tokens branches isOpen' := by
  intro next unmatched around rest
  obtain ⟨opened, closed, same⟩ := scans next unmatched around rest
  refine ⟨opened, fun isClosed => closed ?_, same⟩
  rw [Bool.eq_false_iff]
  intro isOpen
  rw [imp isOpen] at isClosed
  cases isClosed

/-- What is not open may be taken for open. -/
theorem weaken (scans : Scans tokens branches false) : Scans tokens branches isOpen :=
  scans.mono fun absurd => (Bool.false_ne_true absurd).elim

theorem nil : Scans [] [] false := by
  intro next unmatched around rest
  exact ⟨[], fun _ => rfl, rfl⟩

theorem append (scans : Scans tokens branches isOpen) (scans' : Scans others more isOpen') :
    Scans (tokens ++ others) (branches ++ more) (isOpen || isOpen') := by
  intro next unmatched around rest
  obtain ⟨opened, closed, same⟩ := scans next unmatched around (others ++ rest)
  obtain ⟨opened', closed', same'⟩ :=
    scans' (next + countAll branches) (opened ++ unmatched) around rest
  refine ⟨opened' ++ opened, ?_, ?_⟩
  · intro isClosed
    rw [Bool.or_eq_false_iff] at isClosed
    rw [closed isClosed.1, closed' isClosed.2, List.append_nil]
  · rw [List.append_assoc, same, same', pairsAll_append, List.map_append, countAll_append,
      List.append_assoc, List.append_assoc, Nat.add_assoc]

/-- A token that neither is an `if` or an `else` nor begins or ends a block. -/
theorem skip (token : Token)
    (skips : ∀ next unmatched around rest,
      pairElses next unmatched around (token :: rest) = pairElses next unmatched around rest) :
    Scans [token] [] false := by
  intro next unmatched around rest
  exact ⟨[], fun _ => rfl, skips next unmatched around rest⟩

theorem skipAll {α : Type} {token : α → Token} (list : List α)
    (skips : ∀ a next unmatched around rest,
      pairElses next unmatched around (token a :: rest) = pairElses next unmatched around rest) :
    Scans (list.map token) [] false := by
  induction list with
  | nil => exact nil
  | cons a rest ih => exact (skip (token a) (skips a)).append ih

theorem phrases (phrases : Phrases tokens) : Scans tokens [] false := by
  induction tokens with
  | nil => exact nil
  | cons token rest ih =>
    obtain ⟨text, rfl⟩ := phrases _ List.mem_cons_self
    have others := ih fun token member => phrases token (List.mem_cons_of_mem _ member)
    exact (skip (.phrase text) fun _ _ _ _ => rfl).append others

/-- What the head of a loop governs is paired in the block around it. -/
theorem loop (scans : Scans tokens branches isOpen) (head : String) :
    Scans (.loop head :: tokens) branches isOpen :=
  (skip (.loop head) fun _ _ _ _ => rfl).append scans

/-- What stands after a label is paired as without it. -/
theorem label (scans : Scans tokens branches isOpen) (text : String) :
    Scans (.label text :: tokens) branches isOpen :=
  (skip (.label text) fun _ _ _ _ => rfl).append scans

/-- Nothing in a block that has ended can be taken by an `else` after it. -/
theorem braces (scans : Scans tokens branches isOpen) (head : String) :
    Scans (.opening head :: (tokens ++ [.closing])) branches false := by
  intro next unmatched around rest
  obtain ⟨opened, -, same⟩ := scans next [] (unmatched :: around) (.closing :: rest)
  refine ⟨[], fun _ => rfl, ?_⟩
  rw [List.cons_append, pairElses, List.append_assoc]
  exact same

/-- The same of the body of a loop whose condition comes last. -/
theorem doLoop (scans : Scans tokens branches isOpen) (condition : String) :
    Scans (.doLoop :: (tokens ++ [.again condition])) branches false := by
  intro next unmatched around rest
  obtain ⟨opened, -, same⟩ := scans next [] (unmatched :: around) (.again condition :: rest)
  refine ⟨[], fun _ => rfl, ?_⟩
  rw [List.cons_append, pairElses, List.append_assoc]
  exact same

/-- The loops over collections: the body in braces begins with the assignment of an element. -/
theorem collection (scans : Scans tokens branches isOpen) (head first : String) :
    Scans (.loop head :: .opening "" :: .phrase first :: (tokens ++ [.closing])) branches false :=
  (((skip (.phrase first) fun _ _ _ _ => rfl).append scans).braces "").loop head

/-- An `if` without an `else` is open. -/
theorem ifThen (scans : Scans tokens branches isOpen) (condition : String) :
    Scans (.test condition :: tokens) [.ifThen branches] true := by
  intro next unmatched around rest
  obtain ⟨opened, -, same⟩ := scans (next + 1) (next :: unmatched) around rest
  refine ⟨opened ++ [next], nofun, ?_⟩
  have count : next + countAll [.ifThen branches] = next + 1 + countAll branches := by
    simp only [countAll, Branch.count]
    omega
  rw [List.cons_append, pairElses, same, count, pairsAll, Branch.pairs, pairsAll, List.append_nil,
    List.append_assoc, List.singleton_append]

/-- An `else` that comes right after a body that is not open belongs to the `if` of the body. -/
theorem ifElse (scans : Scans tokens branches false) (scans' : Scans others more isOpen)
    (condition : String) :
    Scans (.test condition :: (tokens ++ .otherwise :: others)) [.ifElse branches more] isOpen := by
  intro next unmatched around rest
  obtain ⟨opened, closed, same⟩ :=
    scans (next + 1) (next :: unmatched) around (.otherwise :: (others ++ rest))
  obtain ⟨opened', closed', same'⟩ := scans' (next + 1 + countAll branches) unmatched around rest
  refine ⟨opened', closed', ?_⟩
  have count : next + countAll [.ifElse branches more] =
      next + 1 + countAll branches + countAll more := by
    simp only [countAll, Branch.count]
    omega
  rw [closed rfl, List.nil_append, pairElses, List.head?_cons, List.tail_cons, same'] at same
  rw [List.cons_append, pairElses, List.append_assoc, List.cons_append, same, count, pairsAll,
    Branch.pairs, pairsAll, List.append_nil, List.map_append, List.map_cons, List.append_assoc,
    List.cons_append]

/-- The pairing of a whole row. -/
theorem pairElses_eq (scans : Scans tokens branches isOpen) :
    pairElses 0 [] [] tokens = (pairsAll 0 branches).map some := by
  obtain ⟨opened, -, same⟩ := scans 0 [] [] []
  rwa [List.append_nil, pairElses, List.append_nil] at same

/-- There are as many `if`s as the branches say. -/
theorem countP_eq (scans : Scans tokens branches isOpen) :
    tokens.countP Token.isTest = countAll branches := by
  obtain ⟨opened, -, same⟩ := scans 0 [] [] [.test "", .otherwise]
  obtain ⟨before, last⟩ := pairElses_after tokens 0 [] []
  rw [last, Nat.zero_add, Nat.zero_add] at same
  exact Option.some.inj (List.singleton_inj.1 (List.append_inj' same rfl).2)

end Scans

/-- A block is paired as its statements. In braces it leaves nothing open. -/
theorem scans_block {locals : List Variable} {cs : List CStmt} {forceBraces isOpen isOpen' : Bool}
    {branches : List Branch} (scans : Scans (listTokens cs) branches isOpen')
    (alone : cs.length ≤ 1 → isOpen' = isOpen) :
    Scans (blockTokens ⟨locals, cs, forceBraces⟩) branches (!forceBraces && isOpen) := by
  have declared : Scans (locals.map Variable.token) [] false :=
    Scans.skipAll locals fun _ _ _ _ _ => rfl
  have nothing : Scans (if cs.isEmpty && locals.isEmpty then [.phrase "/* no statements */;"]
      else []) [] false := by
    split
    · exact .skip _ fun _ _ _ _ => rfl
    · exact .nil
  rw [blockTokens]
  cases truth : Block.isBraced ⟨locals, cs, forceBraces⟩ with
  | true =>
    have whole := ((declared.append scans).braces "").append nothing
    rw [List.append_nil, List.nil_append] at whole
    have weaker : Scans _ branches (!forceBraces && isOpen) := whole.weaken
    simpa using weaker
  | false =>
    rw [Block.isBraced, Bool.or_eq_false_iff, Bool.or_eq_false_iff] at truth
    obtain ⟨⟨rfl, few⟩, -⟩ := truth
    obtain rfl := alone (by simpa using few)
    have whole := scans.append nothing
    match cs with
    | [] => simpa [listTokens] using whole
    | [only] => simpa using whole
    | first :: second :: rest => simp at few

/-! ## Readings -/

mutual

/-- What C reads as a statement is paired as the statement that is read, and it is not open if an
`else` follows it. -/
theorem Reads.scans : ∀ {tokens rest : List Token} {tree : Tree}, Reads tokens tree rest →
    ∃ (read : List Token) (isOpen : Bool), tokens = read ++ rest ∧
      Scans read tree.branches isOpen ∧ (rest.head? = some .otherwise → isOpen = false)
  | _, rest, _, .phrase =>
    ⟨[.phrase _], false, rfl, .skip _ fun _ _ _ _ => rfl, fun _ => rfl⟩
  | _, _, _, .ifThen body noElse => by
    obtain ⟨read, _, rfl, scans, -⟩ := body.scans
    refine ⟨.test _ :: read, true, rfl, ?_, fun isElse => absurd isElse noElse⟩
    rw [Tree.branches, branchesAll_singleton]
    exact scans.ifThen _
  | _, _, _, @Reads.ifElse condition _ _ _ _ _ body other => by
    obtain ⟨read, _, rfl, scans, closed⟩ := body.scans
    obtain ⟨read', isOpen, same, scans', closed'⟩ := other.scans
    cases closed rfl
    refine ⟨.test condition :: (read ++ .otherwise :: read'), isOpen, ?_, ?_, closed'⟩
    · simp [same]
    · rw [Tree.branches, branchesAll_singleton, branchesAll_singleton]
      exact scans.ifElse scans' _
  | _, _, _, .loop body => by
    obtain ⟨read, isOpen, rfl, scans, closed⟩ := body.scans
    refine ⟨.loop _ :: read, isOpen, rfl, ?_, closed⟩
    rw [Tree.branches, branchesAll_singleton]
    exact scans.loop _
  | _, _, _, @Reads.doLoop condition _ _ _ body => by
    obtain ⟨read, _, rfl, scans, -⟩ := body.scans
    refine ⟨.doLoop :: (read ++ [.again condition]), false, by simp, ?_, fun _ => rfl⟩
    rw [Tree.branches, branchesAll_singleton]
    exact scans.doLoop _
  | _, _, _, @Reads.compound head _ _ _ items => by
    obtain ⟨read, rfl, scans⟩ := items.scans
    exact ⟨.opening head :: (read ++ [.closing]), false, by simp, scans.braces head, fun _ => rfl⟩

theorem ReadsItems.scans : ∀ {tokens rest : List Token} {trees : List Tree},
    ReadsItems tokens trees rest →
      ∃ read : List Token, tokens = read ++ rest ∧ Scans read (branchesAll trees) true
  | _, _, _, .nil => ⟨[], rfl, Scans.nil.weaken⟩
  | _, _, _, .statement first others => by
    obtain ⟨read, isOpen, rfl, scans, -⟩ := first.scans
    obtain ⟨read', rfl, scans'⟩ := others.scans
    exact ⟨read ++ read', by simp, (scans.append scans').mono fun _ => rfl⟩
  | _, _, _, .declaration others => by
    obtain ⟨read, rfl, scans⟩ := others.scans
    exact ⟨.declaration _ :: read, rfl, (Scans.skip _ fun _ _ _ _ => rfl).append scans⟩
  | _, _, _, .label others => by
    obtain ⟨read, rfl, scans⟩ := others.scans
    exact ⟨.label _ :: read, rfl, scans.label _⟩

end

/-- **The grammar of C pairs as the blocks do.** However C reads some tokens, the `else`s belong to
the `if`s that they are paired with. -/
theorem ReadsItems.pairElses_eq {tokens : List Token} {trees : List Tree}
    (reads : ReadsItems tokens trees []) :
    pairElses 0 [] [] tokens = (pairsAll 0 (branchesAll trees)).map some := by
  obtain ⟨read, rfl, scans⟩ := reads.scans
  rw [List.append_nil]
  exact scans.pairElses_eq

end ScriptToC
