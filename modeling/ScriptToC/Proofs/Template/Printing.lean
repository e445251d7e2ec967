import ScriptToC.Template.Reader

/-!
# Printing templates

A template is written back as source with `print`, and every source that reads as it is one of its
spellings (`Spelled`): the print itself, except that the tag of a choice may hold blanks around its
marks and a choice without a second branch may still have the tag between its branches. The same
freedom as a relation between two texts, without the template, is `Respaced`; a spelling is a
respacing of the print (`Spelled.respaced`), and the print is a spelling (`spelled_print`).

A template that a reader makes is normal: none of its texts is empty or stands right before another
text. It can be printed and read again if, besides, its fields are named by names, its texts are
free of braces, and the arrow does not occur in its separators (`Printable`).
-/

set_option autoImplicit false

namespace ScriptToC.Template

open Text

/-! ## Tags -/

/-- The tag of a field. -/
def fieldTag (name : String) : List Char :=
  '\x7b' :: name.toList ++ ['\x7d']

/-- The tag that opens a choice. -/
def testTag (negated : Bool) (name : String) : List Char :=
  openTag ++ (if negated then ['!'] else []) ++ name.toList ++ ['\x7d']

/-- The head of a repetition, up to the repeated template. -/
def listHead (name : String) (separator : List Char) : List Char :=
  '\x7b' :: name.toList ++ [' ', '\x7b'] ++ separator ++ arrow

/-- A tag that opens a choice on a field, with any blanks around its marks. -/
def TestSpelling (negated : Bool) (name : String) (tag : List Char) : Prop :=
  isName name.toList = true ∧
    ∃ before between after : List Char,
      before.all isBlank = true ∧ between.all isBlank = true ∧ after.all isBlank = true ∧
        tag = openTag ++ before ++ (if negated then '!' :: between else []) ++ name.toList ++
          after ++ ['\x7d']

/-- A tag without blanks is a spelling of itself. -/
theorem testSpelling_testTag (negated : Bool) {name : String} (named : isName name.toList = true) :
    TestSpelling negated name (testTag negated name) :=
  ⟨named, [], [], [], rfl, rfl, rfl, by simp [testTag]⟩

/-! ## Templates as sources -/

/-- The source of a template. A choice whose second branch is empty has no tag between its
branches. -/
def print : Template → List Char
  | done => []
  | text chars rest => chars ++ rest.print
  | field name rest => fieldTag name ++ rest.print
  | choose negated name yes no rest =>
    testTag negated name ++ yes.print ++ (if no = done then [] else elseTag ++ no.print) ++
      endTag ++ rest.print
  | each name separator item rest =>
    listHead name separator ++ item.print ++ ['\x7d'] ++ rest.print

/-- The sources of a template. -/
inductive Spelled : Template → List Char → Prop
  | done : Spelled done []
  | text {chars source : List Char} {rest : Template} :
    Spelled rest source → Spelled (text chars rest) (chars ++ source)
  | field {name : String} {source : List Char} {rest : Template} :
    Spelled rest source → Spelled (field name rest) (fieldTag name ++ source)
  | choose {negated : Bool} {name : String} {yes no rest : Template}
    {tag first second source : List Char} :
    TestSpelling negated name tag → Spelled yes first → Spelled no second → Spelled rest source →
      Spelled (choose negated name yes no rest)
        (tag ++ first ++ (elseTag ++ second) ++ endTag ++ source)
  | chooseOne {negated : Bool} {name : String} {yes rest : Template}
    {tag first source : List Char} :
    TestSpelling negated name tag → Spelled yes first → Spelled rest source →
      Spelled (choose negated name yes .done rest) (tag ++ first ++ endTag ++ source)
  | each {name : String} {separator shown source : List Char} {item rest : Template} :
    Spelled item shown → Spelled rest source →
      Spelled (each name separator item rest)
        (listHead name separator ++ shown ++ ['\x7d'] ++ source)

/-- Two texts that differ at most in the blanks of the tags that open choices, and in a tag between
two branches that stands right before the end of its choice. -/
inductive Respaced : List Char → List Char → Prop
  | nil : Respaced [] []
  | char (c : Char) {printed source : List Char} :
    Respaced printed source → Respaced (c :: printed) (c :: source)
  | test {negated : Bool} {name : String} {tag printed source : List Char} :
    TestSpelling negated name tag → Respaced printed source →
      Respaced (testTag negated name ++ printed) (tag ++ source)
  | emptyElse {printed source : List Char} :
    Respaced printed source → Respaced (endTag ++ printed) (elseTag ++ endTag ++ source)

namespace Respaced

/-- The same text in front. -/
theorem same (shared : List Char) {printed source : List Char} (rest : Respaced printed source) :
    Respaced (shared ++ printed) (shared ++ source) := by
  induction shared with
  | nil => exact rest
  | cons c shared ih => exact .char c ih

/-- Texts are compared one after another. -/
theorem append {first shown second source : List Char} (front : Respaced first shown)
    (back : Respaced second source) : Respaced (first ++ second) (shown ++ source) := by
  induction front with
  | nil => exact back
  | char c _ ih => exact .char c ih
  | test spelling _ ih =>
    rw [List.append_assoc, List.append_assoc]
    exact .test spelling ih
  | emptyElse _ ih =>
    rw [List.append_assoc, List.append_assoc]
    exact .emptyElse ih

end Respaced

/-- The empty template has one source. -/
theorem Spelled.eq_nil {source : List Char} (spelled : Spelled .done source) : source = [] := by
  cases spelled
  rfl

/-- A spelling of a template differs from its print at most in blanks and empty branches. -/
theorem Spelled.respaced {template : Template} {source : List Char}
    (spelled : template.Spelled source) : Respaced template.print source := by
  induction spelled with
  | done => exact .nil
  | text _ ih => exact ih.same _
  | field _ ih => exact ih.same _
  | @choose negated name yes no rest tag first second source spelling _ other _ yesIh noIh restIh =>
    simp only [print, List.append_assoc]
    refine .test spelling (yesIh.append ?_)
    by_cases empty : no = .done
    · subst empty
      obtain rfl := other.eq_nil
      simpa using Respaced.emptyElse restIh
    · simp only [if_neg empty, List.append_assoc]
      exact (noIh.append (restIh.same endTag)).same elseTag
  | chooseOne spelling _ _ yesIh restIh =>
    simp only [print, if_true, List.append_assoc, List.nil_append]
    exact .test spelling (yesIh.append (restIh.same endTag))
  | each _ _ itemIh restIh =>
    simp only [print, List.append_assoc]
    exact (itemIh.append (restIh.same ['\x7d'])).same _

/-! ## Normal templates -/

/-- The template begins with a text. -/
def startsWithText : Template → Bool
  | text .. => true
  | _ => false

/-- At no depth is a text empty or right before another text. -/
def Normal : Template → Prop
  | done => True
  | text chars rest => chars ≠ [] ∧ rest.startsWithText = false ∧ rest.Normal
  | field _ rest => rest.Normal
  | choose _ _ yes no rest => yes.Normal ∧ no.Normal ∧ rest.Normal
  | each _ _ item rest => item.Normal ∧ rest.Normal

/-- The fields are named by names, the texts are free of braces, and the arrow does not occur in the
separators. -/
def Printable : Template → Prop
  | done => True
  | text chars rest => '\x7b' ∉ chars ∧ '\x7d' ∉ chars ∧ rest.Printable
  | field name rest => isName name.toList = true ∧ rest.Printable
  | choose _ name yes no rest =>
    isName name.toList = true ∧ yes.Printable ∧ no.Printable ∧ rest.Printable
  | each name separator item rest =>
    isName name.toList = true ∧ ¬ arrow <:+: separator ∧ item.Printable ∧ rest.Printable

instance decidableNormal : (template : Template) → Decidable template.Normal
  | done => isTrue trivial
  | text _ rest =>
    have := decidableNormal rest
    inferInstanceAs (Decidable (_ ∧ _ ∧ _))
  | field _ rest => decidableNormal rest
  | choose _ _ yes no rest =>
    have := decidableNormal yes
    have := decidableNormal no
    have := decidableNormal rest
    inferInstanceAs (Decidable (_ ∧ _ ∧ _))
  | each _ _ item rest =>
    have := decidableNormal item
    have := decidableNormal rest
    inferInstanceAs (Decidable (_ ∧ _))

instance decidablePrintable : (template : Template) → Decidable template.Printable
  | done => isTrue trivial
  | text _ rest =>
    have := decidablePrintable rest
    inferInstanceAs (Decidable (_ ∧ _ ∧ _))
  | field _ rest =>
    have := decidablePrintable rest
    inferInstanceAs (Decidable (_ ∧ _))
  | choose _ _ yes no rest =>
    have := decidablePrintable yes
    have := decidablePrintable no
    have := decidablePrintable rest
    inferInstanceAs (Decidable (_ ∧ _ ∧ _ ∧ _))
  | each _ _ item rest =>
    have := decidablePrintable item
    have := decidablePrintable rest
    inferInstanceAs (Decidable (_ ∧ _ ∧ _ ∧ _))

/-- A character in front of a normal template becomes part of its first text. -/
theorem Normal.cons {template : Template} (normal : template.Normal) (c : Char) :
    (cons c template).Normal := by
  cases template with
  | text => exact ⟨List.cons_ne_nil _ _, normal.2⟩
  | done | field | choose | each => exact ⟨List.cons_ne_nil _ _, rfl, normal⟩

/-- A character in front of a template is spelled in front. -/
theorem Spelled.cons {template : Template} {source : List Char} (spelled : template.Spelled source)
    (c : Char) : (cons c template).Spelled (c :: source) := by
  cases template with
  | text =>
    cases spelled with
    | text rest => exact Spelled.text rest
  | done | field | choose | each => exact Spelled.text spelled

/-- The print of a template is one of its spellings. -/
theorem spelled_print {template : Template} (printable : template.Printable) :
    template.Spelled template.print := by
  induction template with
  | done => exact .done
  | text _ _ ih => exact .text (ih printable.2.2)
  | field _ _ ih => exact .field (ih printable.2)
  | choose negated name yes no rest yesIh noIh restIh =>
    obtain ⟨named, yesPrints, noPrints, restPrints⟩ := printable
    have tag := testSpelling_testTag negated named
    simp only [print]
    by_cases empty : no = .done
    · subst empty
      simpa using Spelled.chooseOne tag (yesIh yesPrints) (restIh restPrints)
    · simpa only [if_neg empty] using
        Spelled.choose tag (yesIh yesPrints) (noIh noPrints) (restIh restPrints)
  | each _ _ _ _ itemIh restIh =>
    exact .each (itemIh printable.2.2.1) (restIh printable.2.2.2)

end ScriptToC.Template
