import ScriptToC.Proofs.Template.Joining

/-!
# Choices whose tags stand alone on their lines

The line rules go through the lines with the number of open choices (`openAfter`), so the text that
they make of lines followed by others is made of the lines alone (`layoutLines_append`). It is
sealed: it ends in the newline of its last line, or in a tag.

Where every tag that stands alone on a line has its partner among the lines (`Paired`), the lines
leave as many choices open as there were. Then taking one level of indentation off every line does
what one open choice more does (`laid_dedent`): what a line loses to the levels one after the other
it loses to all of them at once (`dedent_dedent`).

A block is a choice with its tags alone on their lines. Its text starts with its first tag, and each
branch is laid out one level deeper than the lines around the block (`Block.laid_lines`).
-/

set_option autoImplicit false

namespace ScriptToC.Template

open Text

/-! ## Laying out lines that are followed by others -/

/-- How many choices are open after a line. -/
def openAfter (depth : Nat) (line : List Char) : Nat :=
  let tag := trim line
  if isTag tag then
    let depth := if tag = endTag then depth - 1 else depth
    if opens tag then depth + 1 else depth
  else
    depth

/-- What the line rules make of lines that are followed by others. -/
def laid (depth : Nat) : List (List Char) → List Char
  | [] => []
  | line :: rest =>
    (if isTag (trim line) then trim line else dedent depth line ++ ['\n']) ++
      laid (openAfter depth line) rest

theorem layoutLines_append (depth : Nat) (lines : List (List Char)) {after : List (List Char)}
    (some : after ≠ []) :
    layoutLines depth (lines ++ after) =
      laid depth lines ++ layoutLines (lines.foldl openAfter depth) after := by
  induction lines generalizing depth with
  | nil => rfl
  | cons line rest ih =>
    have more : (rest ++ after).isEmpty = false := by simp [some]
    rw [List.cons_append, layoutLines, laid, List.foldl_cons]
    by_cases isTag' : isTag (trim line)
    · simp only [if_pos isTag', openAfter, ih, List.append_assoc]
    · simp only [if_neg isTag', openAfter, ih, more, Bool.false_eq_true, if_false,
        List.append_assoc]

theorem laid_append (depth : Nat) (lines others : List (List Char)) :
    laid depth (lines ++ others) =
      laid depth lines ++ laid (lines.foldl openAfter depth) others := by
  induction lines generalizing depth with
  | nil => rfl
  | cons line rest ih =>
    rw [List.cons_append, laid, laid, List.foldl_cons, ih, List.append_assoc]

/-- A tag that stands alone on its line ends in a brace. -/
theorem getLast?_of_isTag {tag : List Char} (isTag' : isTag tag = true) :
    tag.getLast? = some '\x7d' := by
  simp only [isTag, Bool.or_eq_true, Bool.and_eq_true, beq_iff_eq] at isTag'
  rcases isTag' with (rfl | rfl) | ⟨⟨-, last⟩, -⟩
  · rfl
  · rfl
  · exact last

theorem sealed_laid (depth : Nat) (lines : List (List Char)) : Sealed (laid depth lines) := by
  induction lines generalizing depth with
  | nil => exact sealed_nil
  | cons line rest ih =>
    rw [laid]
    refine Sealed.append ?_ (ih _)
    split
    next isTag' =>
      intro c last
      rw [getLast?_of_isTag isTag', Option.mem_some_iff] at last
      exact .inr last.symm
    next => exact sealed_append_singleton (.inl rfl) _

/-! ## Indentation -/

/-- The spaces at the start of a line. -/
def margin (line : List Char) : Nat :=
  (line.takeWhile (· = ' ')).length

theorem margin_drop {count : Nat} {line : List Char} (enough : count ≤ margin line) :
    margin (line.drop count) = margin line - count := by
  induction line generalizing count with
  | nil => simp [margin]
  | cons c rest ih =>
    cases count with
    | zero => rfl
    | succ count =>
      by_cases space : c = ' '
      · have more : margin (c :: rest) = margin rest + 1 := by
          simp [margin, space]
        rw [more] at enough ⊢
        rw [List.drop_succ_cons, ih (Nat.le_of_succ_le_succ enough), Nat.add_sub_add_right]
      · have none : margin (c :: rest) = 0 := by
          simp [margin, space]
        rw [none] at enough
        exact absurd enough (Nat.not_succ_le_zero count)

theorem dedent_eq_drop (depth : Nat) (line : List Char) :
    dedent depth line = line.drop (min (margin line) (depth * indentWidth)) :=
  rfl

/-- A line without a part of its indentation is the same without blanks. -/
theorem trim_dedent (depth : Nat) (line : List Char) : trim (dedent depth line) = trim line := by
  have spaces : ∀ c ∈ line.take (min (depth * indentWidth) (margin line)), isBlank c = true := by
    intro c member
    rw [← List.take_take, margin,
      ← List.prefix_iff_eq_take.1 (List.takeWhile_prefix (· = ' '))] at member
    have space := List.mem_takeWhile_imp (List.mem_of_mem_take member)
    rw [of_decide_eq_true space]
    decide
  have whole := List.take_append_drop (min (depth * indentWidth) (margin line)) line
  rw [dedent_eq_drop, Nat.min_comm, trim, trim, trimStart, trimStart]
  conv_rhs => rw [← whole, List.dropWhile_append_of_pos spaces]

/-- What a line loses to one level and then to others it loses to all of them at once. -/
theorem dedent_dedent (depth : Nat) (line : List Char) :
    dedent depth (dedent 1 line) = dedent (depth + 1) line := by
  have kept := margin_drop (Nat.min_le_left (margin line) (1 * indentWidth))
  rw [dedent_eq_drop, dedent_eq_drop, dedent_eq_drop, List.drop_drop, kept, Nat.add_mul]
  congr 1
  omega

/-! ## Paired tags -/

/-- How many choices are open after lines, counted from those that are open before, if no line ends
a choice that was opened before. -/
def nesting? (depth : Nat) : List (List Char) → Option Nat
  | [] => some depth
  | line :: rest =>
    if trim line = endTag ∧ depth = 0 then none else nesting? (openAfter depth line) rest

/-- Every tag that stands alone on a line has its partner among the lines. -/
def Paired (lines : List (List Char)) : Prop :=
  nesting? 0 lines = some 0

instance (lines : List (List Char)) : Decidable (Paired lines) :=
  inferInstanceAs (Decidable (_ = _))

theorem openAfter_add {depth : Nat} {line : List Char} (inside : ¬ (trim line = endTag ∧ depth = 0))
    (more : Nat) : openAfter (depth + more) line = openAfter depth line + more := by
  have some : trim line = endTag → depth ≠ 0 := fun isEnd none => inside ⟨isEnd, none⟩
  simp only [openAfter]
  by_cases isEnd : trim line = endTag
  · have := some isEnd
    simp only [isEnd, if_true]
    split_ifs <;> omega
  · simp only [if_neg isEnd]
    split_ifs <;> omega

theorem foldl_openAfter_add {depth after : Nat} {lines : List (List Char)}
    (nested : nesting? depth lines = some after) (more : Nat) :
    lines.foldl openAfter (depth + more) = after + more := by
  induction lines generalizing depth with
  | nil =>
    cases nested
    rfl
  | cons line rest ih =>
    rw [nesting?] at nested
    split at nested
    next => cases nested
    next inside => rw [List.foldl_cons, openAfter_add inside, ih nested]

/-- One open choice more takes one level of indentation more off every line. -/
theorem laid_dedent {depth after : Nat} {lines : List (List Char)}
    (nested : nesting? depth lines = some after) (more : Nat) :
    laid (depth + (more + 1)) lines = laid (depth + more) (lines.map (dedent 1)) := by
  induction lines generalizing depth with
  | nil => rfl
  | cons line rest ih =>
    rw [nesting?] at nested
    split at nested
    next => cases nested
    next inside =>
      have inside' : ¬ (trim (dedent 1 line) = endTag ∧ depth = 0) := by rwa [trim_dedent]
      have same : openAfter depth (dedent 1 line) = openAfter depth line := by
        rw [openAfter, trim_dedent, openAfter]
      rw [List.map_cons, laid, laid, openAfter_add inside, openAfter_add inside', same, ih nested,
        trim_dedent, dedent_dedent, Nat.add_assoc]

/-! ## Blocks -/

/-- A choice on a field, as the lines of its tags and those of its branches. -/
structure Block where
  negated : Bool
  name : String
  /-- The line of the tag that opens the choice. -/
  opening : List Char
  yes : List (List Char)
  /-- The line of the tag between the branches, and the lines of the second branch. -/
  other : Option (List Char × List (List Char))
  /-- The line of the tag that ends the choice. -/
  closing : List Char

namespace Block

/-- The lines of the second branch. -/
def no (block : Block) : List (List Char) :=
  block.other.elim [] (·.2)

/-- All lines of the block. -/
def lines (block : Block) : List (List Char) :=
  block.opening :: block.yes ++ block.other.elim [] (fun (middle, no) => middle :: no) ++
    [block.closing]

/-- The lines of the branch that is chosen if the field is truthy, or if it is not. -/
def branch (block : Block) (truthy : Bool) : List (List Char) :=
  if truthy ≠ block.negated then block.yes else block.no

/-- Each tag of the choice stands alone on its line, and so does the partner of every tag inside
that does. -/
structure Standalone (block : Block) : Prop where
  opening : TestSpelling block.negated block.name (trim block.opening)
  middle : ∀ middle no, block.other = some (middle, no) → trim middle = elseTag
  closing : trim block.closing = endTag
  yes_paired : Paired block.yes
  no_paired : Paired block.no

/-- What the line rules make of the block. -/
def text (block : Block) (depth : Nat) : List Char :=
  trim block.opening ++ laid (depth + 1) block.yes ++
    block.other.elim [] (fun (_, no) => elseTag ++ laid (depth + 1) no) ++ endTag

end Block

/-- What stands in a tag that opens a choice is free of closing braces. -/
theorem TestSpelling.exists_inside {negated : Bool} {name : String} {tag : List Char}
    (spelling : TestSpelling negated name tag) :
    ∃ inside, '\x7d' ∉ inside ∧ tag = openTag ++ inside ++ ['\x7d'] := by
  obtain ⟨named, before, between, after, front, inner, back, rfl⟩ := spelling
  refine ⟨before ++ (if negated then '!' :: between else []) ++ name.toList ++ after, ?_,
    by simp only [List.append_assoc]⟩
  have noBraceName : '\x7d' ∉ name.toList := fun member =>
    absurd (continuesName_of_isName named _ member) (by decide)
  have := not_mem_of_all_isBlank front
  have := not_mem_of_all_isBlank inner
  have := not_mem_of_all_isBlank back
  cases negated <;> simp_all

theorem TestSpelling.isTag {negated : Bool} {name : String} {tag : List Char}
    (spelling : TestSpelling negated name tag) : isTag tag = true ∧ opens tag = true := by
  obtain ⟨inside, free, rfl⟩ := spelling.exists_inside
  have opening : opens (openTag ++ inside ++ ['\x7d']) = true := by
    rw [opens, List.isPrefixOf_iff_prefix, List.append_assoc]
    exact List.prefix_append _ _
  have last : (openTag ++ inside ++ ['\x7d']).getLast? = some '\x7d' := List.getLast?_concat
  have once : (openTag ++ inside ++ ['\x7d']).count '\x7d' = 1 := by
    rw [List.count_append, List.count_append, List.count_eq_zero.2 free]
    rfl
  refine ⟨?_, opening⟩
  simp only [Template.isTag, opening, last, once, beq_self_eq_true, Bool.and_self, Bool.or_true]

theorem laid_tag {line : List Char} (isTag' : isTag (trim line) = true) (depth : Nat)
    (rest : List (List Char)) :
    laid depth (line :: rest) = trim line ++ laid (openAfter depth line) rest := by
  rw [laid, if_pos isTag']

theorem openAfter_opening {negated : Bool} {name : String} {line : List Char}
    (spelling : TestSpelling negated name (trim line)) (depth : Nat) :
    openAfter depth line = depth + 1 := by
  have notEnd : trim line ≠ endTag := by
    intro isEnd
    have opening := spelling.isTag.2
    rw [isEnd] at opening
    revert opening
    decide
  simp only [openAfter, spelling.isTag.1, spelling.isTag.2, if_true, if_neg notEnd]

theorem openAfter_elseTag {line : List Char} (same : trim line = elseTag) (depth : Nat) :
    openAfter depth line = depth := by
  have isTag' : isTag elseTag = true := by decide
  have notEnd : elseTag ≠ endTag := by decide
  have notOpen : opens elseTag = false := by decide
  simp only [openAfter, same, isTag', notOpen, if_true, if_neg notEnd, Bool.false_eq_true, if_false]

theorem openAfter_endTag {line : List Char} (same : trim line = endTag) (depth : Nat) :
    openAfter (depth + 1) line = depth := by
  have isTag' : isTag endTag = true := by decide
  have notOpen : opens endTag = false := by decide
  simp only [openAfter, same, isTag', notOpen, if_true, Bool.false_eq_true, if_false,
    Nat.add_sub_cancel]

theorem Paired.foldl_openAfter {lines : List (List Char)} (paired : Paired lines) (depth : Nat) :
    lines.foldl openAfter depth = depth := by
  have same := foldl_openAfter_add paired depth
  rwa [Nat.zero_add] at same

/-- Lines with paired tags are laid out one level deeper as without one level of indentation. -/
theorem Paired.laid_dedent {lines : List (List Char)} (paired : Paired lines) (depth : Nat) :
    laid (depth + 1) lines = laid depth (lines.map (dedent 1)) := by
  have same := Template.laid_dedent paired depth
  rwa [Nat.zero_add, Nat.zero_add] at same

theorem Paired.map_dedent {lines : List (List Char)} (paired : Paired lines) :
    Paired (lines.map (dedent 1)) := by
  have same : ∀ (lines : List (List Char)) (depth : Nat),
      nesting? depth (lines.map (dedent 1)) = nesting? depth lines := by
    intro lines
    induction lines with
    | nil => exact fun _ => rfl
    | cons line rest ih =>
      intro depth
      have after : openAfter depth (dedent 1 line) = openAfter depth line := by
        rw [openAfter, trim_dedent, openAfter]
      rw [List.map_cons, nesting?, nesting?, trim_dedent, after, ih]
  exact (same lines 0).trans paired

namespace Block

variable {block : Block}

theorem Standalone.paired (standalone : block.Standalone) (truthy : Bool) :
    Paired (block.branch truthy) := by
  rw [branch]
  split
  · exact standalone.yes_paired
  · exact standalone.no_paired

/-- **The line rules make the text of a block of its lines**, and leave as many choices open as
there were. -/
theorem laid_lines (standalone : block.Standalone) (depth : Nat) :
    laid depth block.lines = block.text depth ∧ block.lines.foldl openAfter depth = depth := by
  have isEnd : isTag (trim block.closing) = true := by
    rw [standalone.closing]
    decide
  have ending : laid (depth + 1) [block.closing] = endTag := by
    rw [laid_tag isEnd, standalone.closing]
    exact List.append_nil _
  have closes := openAfter_endTag standalone.closing depth
  have yes := standalone.yes_paired.foldl_openAfter (depth + 1)
  have opening := openAfter_opening standalone.opening depth
  -- Between the branches the depth is the one inside the choice, with and without a second branch.
  obtain ⟨others, inside⟩ :
      laid (depth + 1) (block.other.elim [] fun (middle, no) => middle :: no) =
        block.other.elim [] (fun (_, no) => elseTag ++ laid (depth + 1) no) ∧
      (block.other.elim [] fun (middle, no) => middle :: no).foldl openAfter (depth + 1) =
        depth + 1 := by
    have paired := standalone.no_paired
    rw [no] at paired
    cases other : block.other with
    | none => exact ⟨rfl, rfl⟩
    | some parts =>
      obtain ⟨middle, no⟩ := parts
      rw [other] at paired
      have isElse := standalone.middle middle no other
      have isTag' : isTag (trim middle) = true := by
        rw [isElse]
        decide
      constructor
      · simp only [Option.elim_some, laid_tag isTag', isElse, openAfter_elseTag isElse]
      · simp only [Option.elim_some, List.foldl_cons, openAfter_elseTag isElse]
        exact paired.foldl_openAfter (depth + 1)
  rw [lines, text, List.cons_append, List.cons_append, laid_tag standalone.opening.isTag.1,
    openAfter_opening standalone.opening, laid_append, laid_append, List.foldl_cons,
    List.foldl_append, List.foldl_append, openAfter_opening standalone.opening,
    standalone.yes_paired.foldl_openAfter, others, List.foldl_append,
    standalone.yes_paired.foldl_openAfter, inside, ending, List.foldl_cons, List.foldl_nil,
    openAfter_endTag standalone.closing]
  exact ⟨by simp only [List.append_assoc], rfl⟩

end Block

end ScriptToC.Template
