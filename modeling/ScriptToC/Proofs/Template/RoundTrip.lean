import ScriptToC.Proofs.Template.Readings

/-!
# Reading and printing are inverse

A source that reads as a template is a spelling of it (`Reads.spelled`), and the template is normal;
the other way, a spelling of a template that is normal and printable reads as that template
(`Spelled.reads`). Both are statements about the source up to a stop and what follows it, because
the parts of choices and repetitions are read in the same way as the whole.
-/

set_option autoImplicit false

namespace ScriptToC.Template

open Text

/-! ## From sources to templates -/

/-- **What reads as a template spells it**, up to the stop. -/
theorem Reads.spelled {inItem : Bool} {source after : List Char} {template : Template} {stop : Stop}
    (reads : Reads inItem source template stop after) :
    ∃ shown, source = shown ++ (stop.mark ++ after) ∧ template.Spelled shown := by
  induction reads with
  | stop token =>
    obtain ⟨_, rfl, rfl⟩ := nextToken_spelling token
    exact ⟨[], rfl, .done⟩
  | char token _ ih =>
    obtain ⟨_, rfl, rfl⟩ := nextToken_spelling token
    obtain ⟨shown, rfl, spelled⟩ := ih
    exact ⟨_, rfl, spelled.cons _⟩
  | field token _ ih =>
    obtain ⟨_, rfl, rfl⟩ := nextToken_spelling token
    obtain ⟨shown, rfl, spelled⟩ := ih
    exact ⟨_, (List.append_assoc ..).symm, .field spelled⟩
  | choose token _ _ _ yesIh noIh ih =>
    obtain ⟨tag, rfl, spelling⟩ := nextToken_spelling token
    obtain ⟨first, rfl, yesSpelled⟩ := yesIh
    obtain ⟨second, rfl, noSpelled⟩ := noIh
    obtain ⟨shown, rfl, spelled⟩ := ih
    refine ⟨_, ?_, .choose spelling yesSpelled noSpelled spelled⟩
    simp [Stop.mark]
  | chooseOne token _ _ yesIh ih =>
    obtain ⟨tag, rfl, spelling⟩ := nextToken_spelling token
    obtain ⟨first, rfl, yesSpelled⟩ := yesIh
    obtain ⟨shown, rfl, spelled⟩ := ih
    refine ⟨_, ?_, .chooseOne spelling yesSpelled spelled⟩
    simp [Stop.mark]
  | each token _ _ itemIh ih =>
    obtain ⟨_, rfl, rfl⟩ := nextToken_spelling token
    obtain ⟨inner, rfl, itemSpelled⟩ := itemIh
    obtain ⟨shown, rfl, spelled⟩ := ih
    refine ⟨_, ?_, .each itemSpelled spelled⟩
    simp [Stop.mark]

/-! ## From templates to sources -/

/-- Characters without braces become the text in front of what follows them. -/
theorem Reads.text_append {chars : List Char} (some : chars ≠ []) (opens : '\x7b' ∉ chars)
    (closes : '\x7d' ∉ chars) {rest : Template} (apart : rest.startsWithText = false)
    {inItem : Bool} {source after : List Char} {stop : Stop}
    (reads : Reads inItem source rest stop after) :
    Reads inItem (chars ++ source) (text chars rest) stop after := by
  induction chars with
  | nil => exact absurd rfl some
  | cons c chars ih =>
    obtain ⟨notOpen, opens⟩ := List.ne_and_not_mem_of_not_mem_cons opens
    obtain ⟨notClose, closes⟩ := List.ne_and_not_mem_of_not_mem_cons closes
    have token := nextToken_char inItem notOpen.symm notClose.symm (chars ++ source)
    cases chars with
    | nil =>
      have whole : text [c] rest = cons c rest := by
        cases rest with
        | text => cases apart
        | done | field | choose | each => rfl
      rw [whole]
      exact .char token reads
    | cons d chars => exact .char token (ih (List.cons_ne_nil _ _) opens closes)

/-- **What spells a template reads as it.** Every spelling of a normal, printable template reads as
that template, up to the stop that comes after it. -/
theorem Spelled.reads {template : Template} {source : List Char}
    (spelled : template.Spelled source) (normal : template.Normal) (printable : template.Printable)
    (inItem : Bool) (stop : Stop) {after : List Char} (ends : stop = .endOfText → after = [])
    (closes : stop = .closingBrace → inItem = true) :
    Reads inItem (source ++ (stop.mark ++ after)) template stop after := by
  induction spelled generalizing inItem stop after with
  | done => exact .stop (nextToken_mark ends closes)
  | text _ ih =>
    obtain ⟨some, apart, normal⟩ := normal
    obtain ⟨opens, closed, printable⟩ := printable
    rw [List.append_assoc]
    exact (ih normal printable inItem stop ends closes).text_append some opens closed apart
  | field _ ih =>
    rw [List.append_assoc]
    exact .field (nextToken_fieldTag inItem printable.1 _)
      (ih normal printable.2 inItem stop ends closes)
  | @choose _ _ _ _ _ tag first second source spelling _ _ _ yesIh noIh restIh =>
    obtain ⟨yesNormal, noNormal, restNormal⟩ := normal
    obtain ⟨-, yesPrints, noPrints, restPrints⟩ := printable
    have layout : tag ++ first ++ (elseTag ++ second) ++ endTag ++ source ++ (stop.mark ++ after) =
        tag ++ (first ++ (Stop.otherwise.mark ++ (second ++ (Stop.endIf.mark ++
          (source ++ (stop.mark ++ after)))))) := by
      simp [Stop.mark]
    rw [layout]
    refine .choose_of_spelling spelling (yesIh yesNormal yesPrints inItem .otherwise ?_ ?_)
      (noIh noNormal noPrints inItem .endIf ?_ ?_)
      (restIh restNormal restPrints inItem stop ends closes) <;> simp
  | @chooseOne _ _ _ _ tag first source spelling _ _ yesIh restIh =>
    obtain ⟨yesNormal, -, restNormal⟩ := normal
    obtain ⟨-, yesPrints, -, restPrints⟩ := printable
    have layout : tag ++ first ++ endTag ++ source ++ (stop.mark ++ after) =
        tag ++ (first ++ (Stop.endIf.mark ++ (source ++ (stop.mark ++ after)))) := by
      simp [Stop.mark]
    rw [layout]
    refine .chooseOne_of_spelling spelling (yesIh yesNormal yesPrints inItem .endIf ?_ ?_)
      (restIh restNormal restPrints inItem stop ends closes) <;> simp
  | @each name separator shown source _ _ _ _ itemIh restIh =>
    obtain ⟨itemNormal, restNormal⟩ := normal
    obtain ⟨named, free, itemPrints, restPrints⟩ := printable
    have layout : listHead name separator ++ shown ++ ['\x7d'] ++ source ++ (stop.mark ++ after) =
        listHead name separator ++ (shown ++ (Stop.closingBrace.mark ++
          (source ++ (stop.mark ++ after)))) := by
      simp [Stop.mark]
    rw [layout]
    exact .each (nextToken_listHead inItem named free _)
      (itemIh itemNormal itemPrints true .closingBrace (by simp) fun _ => rfl)
      (restIh restNormal restPrints inItem stop ends closes)

/-! ## Whole sources -/

/-- **Reading and printing are inverse.** A laid out source that reads as a template is a spelling
of it: it differs from the print at most in the blanks inside the tags that open choices and in tags
before an empty second branch; and no text of the template, at any depth, is empty or stands right
before another text. The other way, a template without such texts, whose fields are named by names,
whose texts are free of braces and whose separators are free of the arrow, is what its print reads
as. -/
theorem readLaidOut_print (object : String) (source : List Char) (template : Template) :
    (readLaidOut object source = .ok template →
      template.Spelled source ∧ Respaced template.print source ∧ template.Normal) ∧
    (template.Normal → template.Printable →
      readLaidOut object template.print = .ok template) := by
  constructor
  · intro read
    have reads := readLaidOut_eq_ok_iff.1 read
    obtain ⟨shown, rfl, spelled⟩ := reads.spelled
    rw [Stop.mark, List.append_nil, List.append_nil]
    exact ⟨spelled, spelled.respaced, reads.normal⟩
  · intro normal printable
    have whole : template.print ++ (Stop.endOfText.mark ++ []) = template.print := by
      simp [Stop.mark]
    have reads := (spelled_print printable).reads normal printable false .endOfText
      (fun _ => rfl) (by simp)
    rw [whole] at reads
    exact readLaidOut_eq_ok_iff.2 reads

/-- A choice without a second branch, and a repetition. -/
def choiceAndList : Template :=
  choose true "none" (lit "x") done (forEach "all" ", " (slot this))

/-- A source with a brace in its text, with blanks in the tag of its choice, and with a tag before
the empty second branch. -/
def spacedSource : List Char :=
  "f \x7b \x7b#if  ! none \x7dx\x7b#else\x7d\x7b/if\x7d\x7ball \x7b, \x7d=> \x7bthis\x7d\x7d".toList

/-- A source that spells a template in another way than its print does, and a template that its
print reads as. -/
theorem readLaidOut_print_spaced :
    (readLaidOut "Sample" spacedSource = .ok (lit "f \x7b " ++ choiceAndList) ∧
      (lit "f \x7b " ++ choiceAndList).Spelled spacedSource ∧
      Respaced (lit "f \x7b " ++ choiceAndList).print spacedSource ∧
      (lit "f \x7b " ++ choiceAndList).Normal) ∧
    (lit "f " ++ choiceAndList).Normal ∧ (lit "f " ++ choiceAndList).Printable ∧
      readLaidOut "Sample" (lit "f " ++ choiceAndList).print = .ok (lit "f " ++ choiceAndList) := by
  have found : (readLaidOut "Sample" spacedSource).toOption =
      some (lit "f \x7b " ++ choiceAndList) := by decide +kernel
  have read : readLaidOut "Sample" spacedSource = .ok (lit "f \x7b " ++ choiceAndList) := by
    revert found
    cases readLaidOut "Sample" spacedSource with
    | error => nofun
    | ok template => exact fun same => congrArg Except.ok (Option.some.inj same)
  have normal : (lit "f " ++ choiceAndList).Normal := by decide +kernel
  have printable : (lit "f " ++ choiceAndList).Printable := by decide +kernel
  exact ⟨⟨read, (readLaidOut_print "Sample" spacedSource _).1 read⟩, normal, printable,
    (readLaidOut_print "Sample" spacedSource _).2 normal printable⟩

end ScriptToC.Template
