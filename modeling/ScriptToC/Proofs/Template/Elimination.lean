import ScriptToC.Proofs.Template.Blocks

/-!
# Choices can be eliminated

A block can be replaced by the lines of the branch that its field chooses, each without one level of
indentation, and the object renders as before (`render_branch`). The block may stand at any depth of
other choices, but not in a repeated template.

The reader comes to the place of the block along the tokens before it (`Outside`), and it takes them
off in the same way whatever stands at that place. So the reading of the whole source changes at
that place alone (`Outside.replace`): instead of the choice, it has the template of a branch, joined
with what follows. Where the old template is filled, the new one is filled with the same text
(`Refines`).
-/

set_option autoImplicit false

namespace ScriptToC.Template

open Text

/-! ## Filling the same -/

/-- Where the old template is filled, the new one is filled in the same way. -/
def Refines (fields : Fields) (old new : Template) : Prop :=
  ∀ writer written, old.fill fields writer = .ok written → new.fill fields writer = .ok written

/-- A run in two steps succeeds as before if both steps do. -/
theorem bind_ok_of_ok {ε α β : Type} {first first' : Except ε α} {next next' : α → Except ε β}
    {b : β}
    (same : ∀ a, first = .ok a → first' = .ok a) (after : ∀ a, next a = .ok b → next' a = .ok b)
    (ran : first >>= next = .ok b) : first' >>= next' = .ok b := by
  cases eq : first with
  | error =>
    rw [eq] at ran
    cases ran
  | ok a =>
    rw [eq] at ran
    rw [same a eq]
    exact after a ran

/-- A run over a list succeeds as before if every step does. -/
theorem mapM_ok_of_ok {ε α β : Type} {step step' : α → Except ε β} {list : List α}
    {results : List β} (same : ∀ a b, step a = .ok b → step' a = .ok b)
    (ran : list.mapM step = .ok results) : list.mapM step' = .ok results := by
  induction list generalizing results with
  | nil => exact ran
  | cons a rest ih =>
    rw [List.mapM_cons] at ran ⊢
    exact bind_ok_of_ok (same a) (fun b => bind_ok_of_ok (fun _ => ih) fun _ => id) ran

namespace Refines

variable {fields : Fields} {rest rest' : Template}

theorem refl (template : Template) : Refines fields template template :=
  fun _ _ filled => filled

theorem cons (refines : Refines fields rest rest') (c : Char) :
    Refines fields (cons c rest) (cons c rest') := by
  intro writer written filled
  rw [fill_cons] at filled ⊢
  exact refines _ _ filled

theorem field (refines : Refines fields rest rest') (name : String) :
    Refines fields (field name rest) (field name rest') := by
  intro writer written filled
  rw [fill] at filled ⊢
  refine bind_ok_of_ok (fun _ => id) (fun value => ?_) filled
  exact bind_ok_of_ok (fun _ => id) fun text => refines _ _

theorem each {item item' : Template} (refinesItem : ∀ fields, Refines fields item item')
    (refines : Refines fields rest rest') (name : String) (separator : List Char) :
    Refines fields (each name separator item rest) (each name separator item' rest') := by
  intro writer written filled
  rw [fill] at filled ⊢
  refine bind_ok_of_ok (fun _ => id) (fun value => ?_) filled
  refine bind_ok_of_ok (fun _ => mapM_ok_of_ok fun element text => ?_) fun texts => refines _ _
  exact bind_ok_of_ok (refinesItem (fields.at element) {}) fun writer => id

theorem choose {yes yes' no no' : Template} (refinesYes : Refines fields yes yes')
    (refinesNo : Refines fields no no') (refines : Refines fields rest rest') (negated : Bool)
    (name : String) :
    Refines fields (choose negated name yes no rest) (choose negated name yes' no' rest') := by
  intro writer written filled
  rw [fill] at filled ⊢
  refine bind_ok_of_ok (fun _ => id) (fun value => ?_) filled
  intro filled
  split at filled
  next chosen =>
    rw [if_pos chosen]
    exact bind_ok_of_ok (refinesYes writer) (fun writer => refines writer written) filled
  next chosen =>
    rw [if_neg chosen]
    exact bind_ok_of_ok (refinesNo writer) (fun writer => refines writer written) filled

end Refines

/-! ## Places outside of repeated templates -/

/-- The token begins a repeated template. -/
def Token.isRepeated : Token → Bool
  | repeated .. => true
  | _ => false

/-- The reader comes from a source to a later place of it without stopping in a repeated template.
It passes a repetition as a whole. -/
inductive Outside : List Char → List Char → Prop
  | here (place : List Char) : Outside place place
  | token {source left place : List Char} {token : Token}
      (found : nextToken false source = (token, left)) (isPart : token.isPart = true)
      (notRepeated : token.isRepeated = false) (outside : Outside left place) :
      Outside source place
  | repetition {source left following place separator : List Char} {name : String} {item : Template}
      (found : nextToken false source = (.repeated name separator, left))
      (repeated : Reads true left item .closingBrace following)
      (outside : Outside following place) :
      Outside source place

namespace Outside

variable {source left place : List Char} {token : Token}

theorem suffix (outside : Outside source place) : place <:+ source := by
  induction outside with
  | here => exact List.suffix_rfl
  | token found _ _ _ ih => exact ih.trans (suffix_of_nextToken found)
  | repetition found repeated _ ih =>
    exact (ih.trans repeated.after_suffix).trans (suffix_of_nextToken found)

/-- A token before the place, and none that begins a repeated template. -/
theorem next (outside : Outside source place) (before : source ≠ place)
    (found : nextToken false source = (token, left)) (notRepeated : token.isRepeated = false) :
    token.isPart = true ∧ Outside left place := by
  cases outside with
  | here => exact absurd rfl before
  | token found' isPart _ outside =>
    rw [found] at found'
    cases found'
    exact ⟨isPart, outside⟩
  | repetition found' =>
    rw [found] at found'
    cases found'
    cases notRepeated

/-- A repetition before the place. -/
theorem next_repetition {following separator : List Char} {name : String} {item : Template}
    (outside : Outside source place) (before : source ≠ place)
    (found : nextToken false source = (.repeated name separator, left))
    (repeated : Reads true left item .closingBrace following) : Outside following place := by
  cases outside with
  | here => exact absurd rfl before
  | token found' _ notRepeated =>
    rw [found] at found'
    cases found'
    cases notRepeated
  | repetition found' repeated' outside =>
    rw [found] at found'
    cases found'
    obtain ⟨-, -, rfl⟩ := repeated.unique repeated'
    exact outside

end Outside

/-! ## Replacing what stands at a place -/

/-- What becomes of the reading of a text and what follows it when something else follows: it ends
in the text and stays, or it goes on to a template that is filled in the same way. -/
inductive Replaced (fields : Fields) (old new text : List Char) (template : Template)
    (stop : Stop) :
    List Char → Prop
  | inside {left : List Char} (suffix : left <:+ text) (outside : Outside (left ++ old) old)
      (reads : Reads false (text ++ new) template stop (left ++ new)) :
      Replaced fields old new text template stop (left ++ old)
  | beyond {template' : Template} {after : List Char}
      (reads : Reads false (text ++ new) template' stop after)
      (refines : Refines fields template template') :
      Replaced fields old new text template stop after

/-- What becomes of the last part of a reading becomes of the whole, `wrap` around it. -/
theorem Replaced.extend {fields : Fields} {old new text last after : List Char} {rest : Template}
    {stop : Stop} (replaced : Replaced fields old new last rest stop after) (inside : last <:+ text)
    (wrap : Template → Template)
    (reads : ∀ {rest' : Template} {after' : List Char},
      Reads false (last ++ new) rest' stop after' → Reads false (text ++ new) (wrap rest') stop after')
    (refines : ∀ {rest' : Template}, Refines fields rest rest' →
      Refines fields (wrap rest) (wrap rest')) :
    Replaced fields old new text (wrap rest) stop after := by
  cases replaced with
  | inside suffix outside others => exact .inside (suffix.trans inside) outside (reads others)
  | beyond others refined => exact .beyond (reads others) (refines refined)

/-- A token of a text is taken off whatever follows the text. -/
theorem exists_step {old left text : List Char} {token : Token} (sealed : Sealed text)
    (found : nextToken false (text ++ old) = (token, left)) (isPart : token.isPart = true)
    (suffix : old <:+ left) (new : List Char) :
    ∃ more, left = more ++ old ∧ more <:+ text ∧ more.length < text.length ∧
      nextToken false (text ++ new) = (token, more ++ new) := by
  obtain ⟨more, rfl, inside⟩ :=
    exists_between (show [] ++ old <:+ left from suffix) (suffix_of_nextToken found)
  have shorter := length_lt_of_nextToken found isPart
  simp only [List.length_append] at shorter
  exact ⟨more, rfl, inside, by omega, nextToken_local sealed isPart found new⟩

/-- A token before the place, and none that begins a repeated template, is taken off in the same way
whatever stands at the place. What is left of the text is still before the place. -/
theorem Outside.step {old left text : List Char} {token : Token} (sealed : Sealed text)
    (outside : Outside (text ++ old) old) (some : text ≠ [])
    (found : nextToken false (text ++ old) = (token, left)) (notRepeated : token.isRepeated = false)
    (new : List Char) :
    ∃ more, left = more ++ old ∧ more <:+ text ∧ more.length < text.length ∧ Sealed more ∧
      Outside (more ++ old) old ∧ nextToken false (text ++ new) = (token, more ++ new) := by
  have before : text ++ old ≠ old := by simpa using some
  obtain ⟨isPart, outside⟩ := outside.next before found notRepeated
  obtain ⟨more, rfl, inside, shorter, found'⟩ := exists_step sealed found isPart outside.suffix new
  exact ⟨more, rfl, inside, shorter, sealed.of_suffix inside, outside, found'⟩

/-- **A reading changes at the place of the change alone.** If what stands at a place outside of
repeated templates is replaced by something that reads as a template that is filled in the same way,
so is the whole. -/
theorem Outside.replace {fields : Fields} {old new : List Char}
    (replaces : ∀ {template : Template} {stop : Stop} {after : List Char},
      Reads false old template stop after →
        ∃ template', Reads false new template' stop after ∧ Refines fields template template')
    {text after : List Char} {template : Template} {stop : Stop} (sealed : Sealed text)
    (outside : Outside (text ++ old) old) (reads : Reads false (text ++ old) template stop after) :
    Replaced fields old new text template stop after := by
  induction bound : text.length using Nat.strongRecOn generalizing text template stop after with
  | ind length ih =>
    subst bound
    by_cases empty : text = []
    · subst empty
      obtain ⟨template', reads', refines⟩ := replaces reads
      exact .beyond reads' refines
    generalize whole : text ++ old = source at reads
    cases reads with
    | stop token =>
      subst whole
      obtain ⟨more, rfl, inside, -, -, outside, token'⟩ := outside.step sealed empty token rfl new
      exact .inside inside outside (.stop token')
    | char token others =>
      subst whole
      obtain ⟨more, rfl, inside, shorter, sealed, outside, token'⟩ :=
        outside.step sealed empty token rfl new
      exact (ih more.length shorter sealed outside others rfl).extend inside (cons _) (.char token')
        (·.cons _)
    | field token others =>
      subst whole
      obtain ⟨more, rfl, inside, shorter, sealed, outside, token'⟩ :=
        outside.step sealed empty token rfl new
      exact (ih more.length shorter sealed outside others rfl).extend inside (.field _)
        (.field token') (·.field _)
    | choose token first second others =>
      subst whole
      obtain ⟨one, rfl, inOne, shorterOne, sealedOne, outside, token'⟩ :=
        outside.step sealed empty token rfl new
      cases ih one.length shorterOne sealedOne outside first rfl with
      | beyond first' refines =>
        exact .beyond (.choose token' first' second others)
          (refines.choose (.refl _) (.refl _) _ _)
      | @inside two inTwo outside first' =>
        have sealedTwo := sealedOne.of_suffix inTwo
        have shorterTwo := Nat.lt_of_le_of_lt inTwo.length_le shorterOne
        cases ih two.length shorterTwo sealedTwo outside second rfl with
        | beyond second' refines =>
          exact .beyond (.choose token' first' second' others)
            (Refines.choose (.refl _) refines (.refl _) _ _)
        | @inside three inThree outside second' =>
          have sealedThree := sealedTwo.of_suffix inThree
          have shorterThree := Nat.lt_of_le_of_lt inThree.length_le shorterTwo
          exact (ih three.length shorterThree sealedThree outside others rfl).extend
            ((inThree.trans inTwo).trans inOne) (.choose _ _ _ _) (.choose token' first' second')
            (Refines.choose (.refl _) (.refl _) · _ _)
    | chooseOne token first others =>
      subst whole
      obtain ⟨one, rfl, inOne, shorterOne, sealedOne, outside, token'⟩ :=
        outside.step sealed empty token rfl new
      cases ih one.length shorterOne sealedOne outside first rfl with
      | beyond first' refines =>
        exact .beyond (.chooseOne token' first' others) (refines.choose (.refl _) (.refl _) _ _)
      | @inside two inTwo outside first' =>
        have sealedTwo := sealedOne.of_suffix inTwo
        have shorterTwo := Nat.lt_of_le_of_lt inTwo.length_le shorterOne
        exact (ih two.length shorterTwo sealedTwo outside others rfl).extend (inTwo.trans inOne)
          (.choose _ _ _ _) (.chooseOne token' first') (Refines.choose (.refl _) (.refl _) · _ _)
    | each token repeated others =>
      subst whole
      have before : text ++ old ≠ old := by simpa using empty
      have outside := outside.next_repetition before token repeated
      have afterItem := repeated.after_suffix
      obtain ⟨one, rfl, inOne, shorterOne, token'⟩ :=
        exists_step sealed token rfl (outside.suffix.trans afterItem) new
      obtain ⟨two, rfl, inTwo⟩ :=
        exists_between (show [] ++ old <:+ _ from outside.suffix) afterItem
      have sealedOne := sealed.of_suffix inOne
      have repeated' := repeated.local sealedOne nofun new
      have sealedTwo := sealedOne.of_suffix inTwo
      have shorterTwo := Nat.lt_of_le_of_lt inTwo.length_le shorterOne
      exact (ih two.length shorterTwo sealedTwo outside others rfl).extend (inTwo.trans inOne)
        (.each _ _ _) (.each token' repeated') (Refines.each (fun _ => .refl _) · _ _)

/-! ## The branches of a block -/

/-- A branch and what follows the block, joined, are filled as the choice is. -/
theorem refines_branch {fields : Fields} {negated truthy : Bool} {name : String}
    (decides : ∀ value, fields.find name = .ok value → value.isTruthy = truthy)
    {yes no : Template} (yesNormal : yes.Normal) (noNormal : no.Normal) (rest : Template) :
    Refines fields (choose negated name (yes.joined done) (no.joined done) rest)
      ((if truthy ≠ negated then yes else no).joined rest) := by
  intro writer written filled
  rw [fill] at filled
  cases found : fields.find name with
  | error =>
    rw [found] at filled
    cases filled
  | ok value =>
    rw [found] at filled
    have whole : ∀ {branch : Template}, branch.Normal →
        (branch.joined done).fill fields writer = branch.fill fields writer := by
      intro branch normal
      rw [fill_joined normal]
      exact bind_pure _
    rw [← decides value found]
    change (if value.isTruthy ≠ negated then _ else _) = _ at filled
    split at filled
    next chosen =>
      rw [if_pos chosen, fill_joined yesNormal, ← whole yesNormal]
      exact filled
    next chosen =>
      rw [if_neg chosen, fill_joined noNormal, ← whole noNormal]
      exact filled

/-- A block is read as a choice between the templates of its branches. -/
theorem Block.reads {block : Block} (standalone : block.Standalone) {depth : Nat}
    {yes no : Template} (readsYes : Reads false (laid (depth + 1) block.yes) yes .endOfText [])
    (readsNo : Reads false (laid (depth + 1) block.no) no .endOfText [])
    {source after : List Char} {template : Template} {stop : Stop}
    (reads : Reads false (block.text depth ++ source) template stop after) :
    ∃ rest, Reads false source rest stop after ∧
      template = .choose block.negated block.name (yes.joined done) (no.joined done) rest := by
  have stops : ∀ (kind : Stop) (left : List Char), kind = .otherwise ∨ kind = .endIf →
      Reads false (kind.mark ++ left) done kind left := by
    rintro kind left (rfl | rfl) <;> exact .stop (nextToken_mark nofun nofun)
  have ends : Reads false (endTag ++ source) done .endIf source := stops .endIf source (.inr rfl)
  cases other : block.other with
  | none =>
    have isNo : block.no = [] := by rw [Block.no, other, Option.elim_none]
    rw [isNo] at readsNo
    obtain ⟨rfl, -, -⟩ := readsNo.unique (.stop rfl)
    have whole : block.text depth ++ source =
        trim block.opening ++ (laid (depth + 1) block.yes ++ (endTag ++ source)) := by
      simp only [Block.text, other, Option.elim_none, List.append_nil, List.append_assoc]
    obtain ⟨condition, token⟩ := nextToken_test false standalone.opening
      (laid (depth + 1) block.yes ++ (endTag ++ source))
    rw [whole] at reads
    obtain ⟨first, second, rest, following, rfl, others, branches⟩ := reads.of_test token
    have isYes := readsYes.joined (sealed_laid _ _) ends
    rcases branches with ⟨middle, first', -⟩ | ⟨first', rfl⟩
    · cases (first'.unique isYes).2.1
    · obtain ⟨rfl, -, rfl⟩ := first'.unique isYes
      exact ⟨rest, others, rfl⟩
  | some parts =>
    obtain ⟨middle, lines⟩ := parts
    have isNo : block.no = lines := by rw [Block.no, other, Option.elim_some]
    rw [isNo] at readsNo
    have whole : block.text depth ++ source = trim block.opening ++ (laid (depth + 1) block.yes ++
        (elseTag ++ (laid (depth + 1) lines ++ (endTag ++ source)))) := by
      simp only [Block.text, other, Option.elim_some, List.append_assoc]
    obtain ⟨condition, token⟩ := nextToken_test false standalone.opening
      (laid (depth + 1) block.yes ++ (elseTag ++ (laid (depth + 1) lines ++ (endTag ++ source))))
    rw [whole] at reads
    obtain ⟨first, second, rest, following, rfl, others, branches⟩ := reads.of_test token
    have between : Reads false (elseTag ++ (laid (depth + 1) lines ++ (endTag ++ source))) done
        .otherwise (laid (depth + 1) lines ++ (endTag ++ source)) :=
      stops .otherwise _ (.inl rfl)
    have isYes := readsYes.joined (sealed_laid _ _) between
    have isOther := readsNo.joined (sealed_laid _ _) ends
    rcases branches with ⟨left, first', second'⟩ | ⟨first', -⟩
    · obtain ⟨rfl, -, rfl⟩ := first'.unique isYes
      obtain ⟨rfl, -, rfl⟩ := second'.unique isOther
      exact ⟨rest, others, rfl⟩
    · cases (first'.unique isYes).2.1

theorem Block.mem_lines_of_mem_branch {block : Block} {truthy : Bool} {line : List Char}
    (member : line ∈ block.branch truthy) : line ∈ block.lines := by
  rw [branch, no] at member
  rw [lines]
  cases other : block.other <;> rw [other] at member <;> split at member <;> simp_all

/-- The lines of a block, laid out before others. -/
theorem Block.layoutLines_append {block : Block} (standalone : block.Standalone) (depth : Nat)
    {after : List (List Char)} (follows : after ≠ []) :
    layoutLines depth (block.lines ++ after) = block.text depth ++ layoutLines depth after := by
  obtain ⟨laidBlock, sameDepth⟩ := Block.laid_lines standalone depth
  rw [Template.layoutLines_append depth block.lines follows, laidBlock, sameDepth]

/-- Lines that read as a block and what follows it read as the chosen branch and what follows, when
the branch stands in its place. -/
theorem Block.reads_branch {block : Block} (standalone : block.Standalone) {depth : Nat}
    {yes no : Template} (readsYes : Reads false (laid (depth + 1) block.yes) yes .endOfText [])
    (readsNo : Reads false (laid (depth + 1) block.no) no .endOfText [])
    {after : List (List Char)} (follows : after ≠ []) {truthy : Bool} {fields : Fields}
    (decides : ∀ value, fields.find block.name = .ok value → value.isTruthy = truthy)
    {template : Template} {stop : Stop} {left : List Char}
    (reads : Reads false (layoutLines depth (block.lines ++ after)) template stop left) :
    ∃ template', Reads false (layoutLines depth ((block.branch truthy).map (dedent 1) ++ after))
      template' stop left ∧ Refines fields template template' := by
  have paired := standalone.paired truthy
  have new : layoutLines depth ((block.branch truthy).map (dedent 1) ++ after) =
      laid (depth + 1) (block.branch truthy) ++ layoutLines depth after := by
    rw [Template.layoutLines_append depth _ follows, ← paired.laid_dedent,
      paired.map_dedent.foldl_openAfter]
  have chosen : Reads false (laid (depth + 1) (block.branch truthy))
      (if truthy ≠ block.negated then yes else no) .endOfText [] := by
    rw [Block.branch]
    split
    · exact readsYes
    · exact readsNo
  rw [Block.layoutLines_append standalone depth follows] at reads
  obtain ⟨rest, others, rfl⟩ := Block.reads standalone readsYes readsNo reads
  rw [new]
  exact ⟨_, chosen.joined (sealed_laid _ _) others,
    refines_branch decides readsYes.normal readsNo.normal rest⟩

/-- The lines of a branch are pieces of lines of the block. -/
theorem Block.not_mem_of_branch {block : Block} {before after : List (List Char)} {c : Char}
    (free : ∀ line ∈ before ++ (block.lines ++ after), c ∉ line) (truthy : Bool) :
    ∀ line ∈ before ++ ((block.branch truthy).map (dedent 1) ++ after), c ∉ line := by
  simp only [List.mem_append, List.mem_map] at free ⊢
  rintro line (member | ⟨whole, member, rfl⟩ | member)
  · exact free line (.inl member)
  · intro inside
    have within := Block.mem_lines_of_mem_branch member
    exact free whole (.inr (.inl within)) (List.mem_of_mem_drop inside)
  · exact free line (.inr (.inr member))

/-! ## Whole objects -/

/-- A field that is found outside of repetitions is a field of the object. -/
theorem exists_field_of_find {object name : String} {fields : List (String × Value)}
    {value : Rendered}
    (found : (Fields.mk object none (Value.renderedFields fields)).find name = .ok value) :
    ∃ field, fields.lookup name = some field ∧ field.rendered = value := by
  have entry : (Value.renderedFields fields).lookup name = some value := by
    rw [Fields.find, ite_self] at found
    simp only at found
    split at found
    next same =>
      cases found
      exact same
    next => cases found
  clear found
  induction fields with
  | nil => cases entry
  | cons first rest ih =>
    obtain ⟨key, field⟩ := first
    rw [Value.renderedFields, List.lookup_cons] at entry
    rw [List.lookup_cons]
    cases same : name == key with
    | true =>
      rw [same] at entry
      exact ⟨field, rfl, Option.some.inj entry⟩
    | false =>
      rw [same] at entry
      exact ih entry

/-- The source with the given lines. -/
def ofLines (lines : List (List Char)) : String :=
  String.ofList (join '\n' lines)

/-- The block is a choice of the source that has lines before it and after it: its tags stand alone
on their lines, each of its branches is a template of its own, and the reader comes to it outside of
repeated templates. -/
structure Block.Within (block : Block) (before after : List (List Char)) : Prop where
  standalone : block.Standalone
  follows : after ≠ []
  yes_reads : ∃ yes, Reads false (laid (before.foldl openAfter 0 + 1) block.yes) yes .endOfText []
  no_reads : ∃ no, Reads false (laid (before.foldl openAfter 0 + 1) block.no) no .endOfText []
  outside : Outside (layoutLines 0 (before ++ (block.lines ++ after)))
    (layoutLines (before.foldl openAfter 0) (block.lines ++ after))

/-- **Choices can be eliminated.** If an object renders, it renders to the same text when a block of
its template, at whatever depth, is replaced by the lines of the branch that the truth of its field
chooses, each without one level of indentation. -/
theorem render_branch {block : Block} {before after : List (List Char)}
    (within : block.Within before after) {source : String}
    (lines : split '\n' source.toList = before ++ (block.lines ++ after)) {name text : String}
    {fields : List (String × Value)} {truthy : Bool}
    (decides : ∀ value, fields.lookup block.name = some value → value.rendered.isTruthy = truthy)
    (renders : (Value.node name (read name source) fields).render = .ok text) :
    (Value.node name
      (read name (ofLines (before ++ ((block.branch truthy).map (dedent 1) ++ after))))
      fields).render = .ok text := by
  obtain ⟨standalone, follows, ⟨yes, readsYes⟩, ⟨no, readsNo⟩, outside⟩ := within
  set depth := before.foldl openAfter 0 with isDepth
  -- The sources after the line rules differ at the place of the block alone.
  have someLines : block.lines ++ after ≠ [] := by simp [follows]
  have someBranch : (block.branch truthy).map (dedent 1) ++ after ≠ [] := by simp [follows]
  have free : ∀ line ∈ before ++ (block.lines ++ after), '\n' ∉ line :=
    fun line member => not_mem_of_mem_split (lines ▸ member)
  have layoutOld : layout source.toList =
      laid 0 before ++ layoutLines depth (block.lines ++ after) := by
    rw [layout, lines, layoutLines_append 0 before someLines]
  have layoutNew :
      layout (ofLines (before ++ ((block.branch truthy).map (dedent 1) ++ after))).toList =
        laid 0 before ++ layoutLines depth ((block.branch truthy).map (dedent 1) ++ after) := by
    rw [layout, ofLines, String.toList_ofList,
      split_join (by simp [follows]) (Block.not_mem_of_branch free truthy),
      layoutLines_append 0 before someBranch]
  rw [layoutLines_append 0 before someLines, ← isDepth] at outside
  obtain ⟨template, writer, read, filled, rfl⟩ := render_node_eq_ok.1 renders
  rw [Template.read, layoutOld, readLaidOut_eq_ok_iff] at read
  -- The reading changes there alone.
  have decides' : ∀ value, (Fields.mk name none (Value.renderedFields fields)).find block.name =
      .ok value → value.isTruthy = truthy := by
    intro value found
    obtain ⟨field, entry, rfl⟩ := exists_field_of_find found
    exact decides field entry
  have replaced := outside.replace
    (Block.reads_branch standalone readsYes readsNo follows decides') (sealed_laid 0 before) read
  generalize none : ([] : List Char) = left at replaced
  cases replaced with
  | inside =>
    have opening := standalone.opening.length_pos
    have short := congrArg List.length none
    simp only [Block.layoutLines_append standalone depth follows, Block.text, List.length_append,
      List.length_nil] at short
    omega
  | beyond reads refines =>
    subst none
    refine render_node_eq_ok.2 ⟨_, writer, ?_, refines {} writer filled, rfl⟩
    rw [Template.read, layoutNew, readLaidOut_eq_ok_iff]
    exact reads

/-- The lines before a block, which open another choice and hold a repetition. -/
def linesBefore : List (List Char) :=
  ["\x7b#if a\x7d".toList, "  \x7bxs \x7b,\x7d=> \x7bthis\x7d;\x7d".toList]

/-- A block inside another choice. One of its branches holds a choice on a line, the other one on
lines of its own. -/
def innerBlock : Block where
  negated := true
  name := "b"
  opening := "  \x7b#if !b\x7d".toList
  yes := ["one \x7b#if c\x7dtwo\x7b/if\x7d".toList]
  other := some ("  \x7b#else\x7d".toList,
    ["\x7b#if c\x7d".toList, "      three".toList, "\x7b/if\x7d".toList])
  closing := "  \x7b/if\x7d".toList

/-- The lines after the block. -/
def linesAfter : List (List Char) :=
  ["\x7b/if\x7d".toList, "end".toList]

/-- Fields with which the second branch of the inner block is chosen. -/
def innerFields : List (String × Value) :=
  [("a", .flag true), ("xs", .texts ["1", "2"]), ("b", .flag true), ("c", .text "x")]

theorem innerBlock_within : innerBlock.Within linesBefore linesAfter := by
  have spelling : TestSpelling true "b" (trim innerBlock.opening) :=
    ⟨by decide, [], [], [], rfl, rfl, rfl, by decide⟩
  have reads : ∀ {inItem : Bool} {source after : List Char} {template : Template} {stop : Stop},
      (readUntil (source.length + 1) inItem source).toOption = some (template, stop, after) →
        Reads inItem source template stop after :=
    fun found => reads_of_readUntil (Nat.lt_succ_self _) (ok_of_toOption found)
  refine ⟨⟨spelling, ?_, by decide, by decide, by decide⟩, by decide, ⟨_, reads rfl⟩,
    ⟨_, reads rfl⟩, ?_⟩
  · rintro middle no same
    cases same
    decide
  · exact .token rfl rfl rfl (.repetition rfl (reads rfl) (.token rfl rfl rfl (.here _)))

/-- A block at some depth of other choices, after a repetition, gives way to its second branch. -/
theorem render_branch_inner :
    innerBlock.Within linesBefore linesAfter ∧
    split '\n' (ofLines (linesBefore ++ (innerBlock.lines ++ linesAfter))).toList =
      linesBefore ++ (innerBlock.lines ++ linesAfter) ∧
    (∀ value, innerFields.lookup "b" = some value → value.rendered.isTruthy = true) ∧
    (Value.node "Sample" (read "Sample" (ofLines (linesBefore ++ (innerBlock.lines ++ linesAfter))))
      innerFields).render = .ok "1;,2;\nthree\nend" ∧
    (Value.node "Sample" (read "Sample" (ofLines (linesBefore ++
      ((innerBlock.branch true).map (dedent 1) ++ linesAfter)))) innerFields).render =
        .ok "1;,2;\nthree\nend" := by
  have lines : split '\n' (ofLines (linesBefore ++ (innerBlock.lines ++ linesAfter))).toList =
      linesBefore ++ (innerBlock.lines ++ linesAfter) := by decide +kernel
  have decides : ∀ value, innerFields.lookup "b" = some value → value.rendered.isTruthy = true := by
    intro value found
    cases found
    rfl
  have renders : (Value.node "Sample" (read "Sample"
      (ofLines (linesBefore ++ (innerBlock.lines ++ linesAfter)))) innerFields).render =
        .ok "1;,2;\nthree\nend" := by
    apply ok_of_toOption
    decide +kernel
  exact ⟨innerBlock_within, lines, decides, renders,
    render_branch innerBlock_within lines decides renders⟩

end ScriptToC.Template
