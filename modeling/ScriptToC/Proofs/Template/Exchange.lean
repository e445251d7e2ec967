import ScriptToC.Proofs.Template.Placeholders

/-!
# Parts of template sources can be exchanged

Where a template has a placeholder, its source has the tag of the placeholder on one of its lines.
With another text instead of the tag, the source is read as the template with the part that stands
in this text (`exists_exchange`).

The line rules come to the tag by the same lines as before. It does not lie in a line that holds a
tag of a choice alone: such a line ends with the only closing brace in it, and no tag of a choice is
left open before a placeholder. The line with the other text is no such line either, if there are
two closing braces in the text.
-/

set_option autoImplicit false

namespace ScriptToC.Template

open Text

/-! ## Lines with a tag alone -/

/-- Trimming takes no brace off a line. -/
theorem count_trim (line : List Char) : (trim line).count '\x7d' = line.count '\x7d' := by
  obtain ⟨before, after, front, back, whole⟩ := exists_blanks_trim line
  have isZero {gap : List Char} (blank : gap.all isBlank = true) : gap.count '\x7d' = 0 :=
    List.count_eq_zero.2 (not_mem_of_all_isBlank blank)
  conv_rhs => rw [whole, List.count_append, List.count_append, isZero front, isZero back]
  omega

/-- A tag that stands alone on its line has one closing brace. -/
theorem count_of_isTag {tag : List Char} (isTag' : isTag tag = true) : tag.count '\x7d' = 1 := by
  simp only [isTag, Bool.or_eq_true, Bool.and_eq_true, beq_iff_eq] at isTag'
  rcases isTag' with (rfl | rfl) | ⟨-, once⟩
  · rfl
  · rfl
  · exact once

/-- A placeholder does not begin at the start of such a tag. -/
theorem not_field_of_isTag {inside rest behind : List Char} {name : String}
    (isTag' : isTag ('\x7b' :: inside) = true) (named : isName name.toList = true)
    (field : name.toList ++ '\x7d' :: behind = inside ++ rest) : False := by
  obtain ⟨mark, inside, rfl, isMark⟩ : ∃ mark more, inside = mark :: more ∧
      (mark = '#' ∨ mark = '/') := by
    simp only [isTag, opens, elseTag_eq, endTag_eq, openTag_eq, Bool.or_eq_true, Bool.and_eq_true,
      beq_iff_eq, List.isPrefixOf_iff_prefix] at isTag'
    rcases isTag' with (same | same) | ⟨⟨⟨more, same⟩, -⟩, -⟩
    · exact ⟨'#', _, (List.cons.inj same).2, .inl rfl⟩
    · exact ⟨'/', _, (List.cons.inj same).2, .inr rfl⟩
    · exact ⟨'#', _, (List.cons.inj same).2.symm, .inl rfl⟩
  have first : mark ∈ name.toList := by
    generalize name.toList = chars at named field
    cases chars with
    | nil => cases named
    | cons c others => exact (List.cons.inj field).1 ▸ List.mem_cons_self
  have continues := continuesName_of_isName named mark first
  rcases isMark with rfl | rfl <;> exact absurd continues (by decide)

/-- A brace further on in such a tag comes after a closing brace, or the tag is still open there. -/
theorem not_brace_of_isTag {before inside : List Char} {c : Char}
    (isTag' : isTag (c :: before ++ '\x7b' :: inside) = true)
    (untagged : Untagged (c :: before)) : '\x7d' ∈ c :: before := by
  simp only [isTag, opens, elseTag_eq, endTag_eq, openTag_eq, Bool.or_eq_true, Bool.and_eq_true,
    beq_iff_eq, List.isPrefixOf_iff_prefix, List.cons_append] at isTag'
  have inside {chars : List Char} (same : before ++ '\x7b' :: inside = chars) : '\x7b' ∈ chars :=
    same ▸ List.mem_append_right before List.mem_cons_self
  rcases isTag' with (same | same) | ⟨⟨opening, -⟩, -⟩
  · exact absurd (inside (List.cons.inj same).2) (by decide)
  · exact absurd (inside (List.cons.inj same).2) (by decide)
  · obtain ⟨rfl, others⟩ := List.cons_prefix_cons.1 opening
    have free : '\x7b' ∉ ['#', 'i', 'f', ' '] := by decide
    obtain ⟨after, rfl⟩ := (prefix_append_brace free).1 others
    have ends : '\x7d' ∈ after := untagged [] after rfl
    exact List.mem_cons_of_mem _ (List.mem_append_right _ ends)

/-- A placeholder does not begin in a tag that stands alone on its line, if no tag is left open
before it. -/
theorem exists_of_tag_append {tag rest before behind : List Char} {name : String}
    (isTag' : isTag tag = true) (named : isName name.toList = true) (untagged : Untagged before)
    (whole : tag ++ rest = before ++ (fieldTag name ++ behind)) :
    ∃ more, before = tag ++ more ∧ rest = more ++ (fieldTag name ++ behind) := by
  rcases List.append_eq_append_iff.1 whole with beyond | ⟨inside, isTag, field⟩
  · exact beyond
  cases inside with
  | nil => exact ⟨[], by simpa using isTag.symm, field.symm⟩
  | cons d inside =>
    obtain ⟨rfl, named'⟩ : '\x7b' = d ∧ name.toList ++ ['\x7d'] ++ behind = inside ++ rest :=
      List.cons.inj field
    subst isTag
    cases before with
    | nil => exact (not_field_of_isTag isTag' named (by simpa using named')).elim
    | cons c before =>
      -- The tag has one closing brace, which is its last character.
      have inTag := List.count_pos_iff.2 (not_brace_of_isTag isTag' untagged)
      have ends := getLast?_of_isTag isTag'
      rw [List.getLast?_append_of_ne_nil _ (List.cons_ne_nil _ _)] at ends
      have atEnd := List.count_pos_iff.2 (List.mem_of_getLast? ends)
      have once := count_of_isTag isTag'
      rw [List.count_append] at once
      omega

/-! ## Lines that are indented -/

theorem margin_append_brace (front more : List Char) :
    margin (front ++ '\x7b' :: more) = margin front := by
  induction front with
  | nil => rfl
  | cons c front ih =>
    by_cases space : c = ' '
    · simpa [margin, space] using ih
    · simp [margin, space]

/-- A line loses its indentation up to a brace whatever follows the brace. -/
theorem exists_of_dedent {depth : Nat} {line before more : List Char}
    (dedented : dedent depth line = before ++ '\x7b' :: more) :
    ∃ front, line = front ++ '\x7b' :: more ∧
      ∀ other, dedent depth (front ++ '\x7b' :: other) = before ++ '\x7b' :: other := by
  rw [dedent_eq_drop] at dedented
  generalize isCount : min (margin line) (depth * indentWidth) = count at dedented
  have few : count ≤ line.length :=
    isCount ▸ (Nat.min_le_left _ _).trans (List.takeWhile_prefix _).length_le
  have whole : line = line.take count ++ before ++ '\x7b' :: more := by
    rw [List.append_assoc, ← dedented, List.take_append_drop]
  refine ⟨line.take count ++ before, whole, fun other => ?_⟩
  have same : margin (line.take count ++ before ++ '\x7b' :: other) = margin line := by
    rw [margin_append_brace, ← margin_append_brace _ more, ← whole]
  rw [dedent_eq_drop, same, isCount, List.append_assoc]
  exact List.drop_left' (List.length_take_of_le few)

theorem layoutLines_tag {line : List Char} (isTag' : isTag (trim line) = true) (depth : Nat)
    (rest : List (List Char)) :
    layoutLines depth (line :: rest) = trim line ++ layoutLines (openAfter depth line) rest := by
  simp only [layoutLines, openAfter, if_pos isTag']

theorem layoutLines_line {line : List Char} (noTag : ¬ isTag (trim line) = true) (depth : Nat)
    (rest : List (List Char)) :
    layoutLines depth (line :: rest) =
      dedent depth line ++ if rest = [] then [] else '\n' :: layoutLines depth rest := by
  cases rest <;> simp [layoutLines, noTag]

/-- The tag of a placeholder stands before the end of its line. -/
theorem exists_of_field_append {name : String} (named : isName name.toList = true)
    {inside behind below : List Char} {last : Prop} [Decidable last]
    (field : fieldTag name ++ behind = inside ++ if last then [] else '\n' :: below) :
    ∃ more, inside = fieldTag name ++ more ∧
      behind = more ++ if last then [] else '\n' :: below := by
  rcases List.append_eq_append_iff.1 field with onLine | ⟨others, isField, ended⟩
  · exact onLine
  cases others with
  | nil => exact ⟨[], by simpa using isField.symm, ended.symm⟩
  | cons c others =>
    split at ended
    next => cases ended
    next =>
      -- A newline would stand in the tag.
      obtain ⟨rfl, -⟩ := List.cons.inj ended
      have inTag : '\n' ∈ fieldTag name :=
        isField ▸ List.mem_append_right inside List.mem_cons_self
      have free : '\n' ∉ name.toList := fun inName =>
        absurd (continuesName_of_isName named _ inName) (by decide)
      simp [fieldTag, free] at inTag

/-- The tag of a placeholder stands on a line, and another text can stand there. If the text has two
closing braces, its line is none of the lines with a tag alone. -/
theorem exists_line {name : String} (named : isName name.toList = true) {depth : Nat}
    {lines : List (List Char)} {before behind : List Char} (untagged : Untagged before)
    (laid : layoutLines depth lines = before ++ (fieldTag name ++ behind)) :
    ∃ above front back below, lines = above ++ (front ++ (fieldTag name ++ back)) :: below ∧
      ∀ more, 1 < more.count '\x7d' →
        layoutLines depth (above ++ (front ++ ('\x7b' :: more ++ back)) :: below) =
          before ++ ('\x7b' :: more ++ behind) := by
  induction lines generalizing depth before with
  | nil =>
    have none := congrArg List.length laid
    simp [layoutLines, fieldTag] at none
  | cons line rest ih =>
    by_cases isTag' : isTag (trim line) = true
    · rw [layoutLines_tag isTag'] at laid
      obtain ⟨after, rfl, laid'⟩ := exists_of_tag_append isTag' named untagged laid
      obtain ⟨above, front, back, below, rfl, exchanged⟩ := ih untagged.of_append laid'
      refine ⟨line :: above, front, back, below, rfl, fun more two => ?_⟩
      rw [List.cons_append, layoutLines_tag isTag', exchanged more two, List.append_assoc]
    rw [layoutLines_line isTag'] at laid
    rcases List.append_eq_append_iff.1 laid with ⟨after, rfl, laid'⟩ | ⟨inside, dedented, field⟩
    · -- The placeholder stands on a line below.
      have some : rest ≠ [] := by
        rintro rfl
        simp [fieldTag] at laid'
      rw [if_neg some] at laid'
      cases after with
      | nil => cases (List.cons.inj laid').1
      | cons c next =>
        obtain ⟨rfl, laidBelow⟩ := List.cons.inj laid'
        have ended : Untagged (['\n'] ++ next) := untagged.of_append
        obtain ⟨above, front, back, below, rfl, exchanged⟩ := ih ended.of_append laidBelow
        refine ⟨line :: above, front, back, below, rfl, fun more two => ?_⟩
        rw [List.cons_append, layoutLines_line isTag', if_neg (by simp), exchanged more two,
          List.append_assoc]
        rfl
    · -- The placeholder stands on this line, since there is no newline in its tag.
      obtain ⟨more, rfl, rfl⟩ := exists_of_field_append named field
      have shown : dedent depth line = before ++ '\x7b' :: (name.toList ++ '\x7d' :: more) := by
        simpa [fieldTag] using dedented
      obtain ⟨front, rfl, dedented'⟩ := exists_of_dedent shown
      refine ⟨[], front, more, rest, by simp [fieldTag], fun text two => ?_⟩
      have noTag : ¬ isTag (trim (front ++ ('\x7b' :: text ++ more))) = true := by
        intro isTag''
        have once := count_of_isTag isTag''
        rw [count_trim] at once
        simp only [List.cons_append, List.count_append, List.count_cons] at once
        omega
      rw [List.nil_append, layoutLines_line noTag, List.cons_append, dedented']
      simp

/-! ## Sources -/

theorem exists_join (above : List (List Char)) (front back : List Char) (below : List (List Char)) :
    ∃ before behind, ∀ text,
      join '\n' (above ++ (front ++ (text ++ back)) :: below) = before ++ (text ++ behind) := by
  induction above with
  | nil =>
    cases below with
    | nil => exact ⟨front, back, fun text => by simp [join]⟩
    | cons next below =>
      refine ⟨front, back ++ '\n' :: join '\n' (next :: below), fun text => ?_⟩
      rw [List.nil_append, join_cons_cons, List.append_assoc, List.append_assoc]
  | cons line above ih =>
    obtain ⟨before, behind, joined⟩ := ih
    refine ⟨line ++ '\n' :: before, behind, fun text => ?_⟩
    rw [List.append_assoc, List.cons_append, List.cons_append, ← joined text]
    cases above <;> exact join_cons_cons ..

/-- A source that is read as a template with a placeholder has the tag of the placeholder. With
another text instead of the tag, on one line and with two closing braces, it is read as the template
with the part that stands in this text. -/
theorem exists_exchange {object source name : String} {context : Context}
    (reads : read object source = .ok (context.plug (slot name))) :
    isName name.toList = true ∧ ∃ before behind,
      source.toList = before ++ (fieldTag name ++ behind) ∧
      ∀ {text : List Char} {part : Template}, Stands text part → '\n' ∉ text →
        1 < text.count '\x7d' →
          read object (String.ofList (before ++ (text ++ behind))) = .ok (context.plug part) := by
  rw [read, readLaidOut_eq_ok_iff] at reads
  obtain ⟨named, before, behind, laid, untagged, exchanged⟩ := reads.placed rfl
  obtain ⟨above, front, back, below, lines, relaid⟩ := exists_line named untagged laid
  obtain ⟨before', behind', joined⟩ := exists_join above front back below
  refine ⟨named, before', behind', ?_, fun {text part} stands noNewline two => ?_⟩
  · rw [← joined, ← lines, join_split]
  · have free : ∀ line ∈ above ++ (front ++ (text ++ back)) :: below, '\n' ∉ line := by
      have free' : ∀ line ∈ above ++ (front ++ (fieldTag name ++ back)) :: below, '\n' ∉ line :=
        fun line member => not_mem_of_mem_split (lines ▸ member)
      simp only [List.mem_append, List.mem_cons, or_imp, forall_and, forall_eq, not_or] at free' ⊢
      exact ⟨free'.1, ⟨free'.2.1.1, noNewline, free'.2.1.2.2⟩, free'.2.2⟩
    have whole := exchanged stands
    obtain ⟨more, rfl⟩ := stands.opens
    rw [read, readLaidOut_eq_ok_iff, layout, String.toList_ofList, ← joined,
      split_join (by simp) free, relaid more (by simpa using two)]
    exact whole

end ScriptToC.Template
