import Mathlib.Data.List.Forall2
import Mathlib.Data.List.TakeWhile
import ScriptToC.Proofs.Text.Words
import ScriptToC.Template.Render

/-!
# What filling a template writes

The line rules of the writer change white space only. If a template is filled with nothing but
substitution, by putting the texts of its holes where they stand, the result has the same words as
what the writer gives, and the writer's text is closed if that of the substitution is
(`Fills.holds`).
-/

set_option autoImplicit false

namespace ScriptToC

open Text

/-! ## Lines that are indented -/

/-- The text whose lines are indented, except those that are empty. -/
def Text.Lines.indent (gap : List Char) (text : Lines) : Lines :=
  text.map fun line => if line.isEmpty then line else gap ++ line

theorem words_indent {gap : List Char} (blank : gap.all isBlank = true) (text : Lines)
    (after : List Char) :
    words ((text.indent gap).toChars ++ after) = words (text.toChars ++ after) := by
  have first : ∀ line after : List Char,
      words ((if line.isEmpty then line else gap ++ line) ++ after) = words (line ++ after) := by
    intro line after
    split
    · rfl
    · rw [List.append_assoc, words_blanks_append blank]
  induction text with
  | last line => exact first line after
  | next line rest ih =>
    simp only [Lines.indent, Lines.map, Lines.toChars, List.append_assoc, List.cons_append] at ih ⊢
    rw [first, words_newline_append, words_newline_append, ih]

theorem closed_newline_indent (gap : List Char) {text : Lines}
    (closed : Closed ('\n' :: text.toChars)) : Closed ('\n' :: (text.indent gap).toChars) := by
  induction text with
  | last line =>
    simp only [Lines.indent, Lines.map, Lines.toChars] at closed ⊢
    split
    · exact closed
    next full =>
      have notEmpty : line ≠ [] := by simpa using full
      have ends := (closed_append_iff notEmpty ['\n']).1 closed
      exact ends.append_left notEmpty ('\n' :: gap)
  | next line rest ih =>
    have notEmpty : '\n' :: rest.toChars ≠ [] := List.cons_ne_nil _ _
    have ends := (closed_append_iff notEmpty ('\n' :: line)).1 closed
    exact (ih ends).append_left (List.cons_ne_nil _ _) ('\n' :: _)

namespace Writer

theorem all_isBlank_indentation (writer : Writer) : writer.indentation.all isBlank = true := by
  rw [List.all_eq_true]
  intro c member
  have small := List.mem_takeWhile_imp member
  simp only [Bool.decide_or, Bool.or_eq_true, decide_eq_true_eq] at small
  rcases small with rfl | rfl <;> decide

theorem reindent_next (writer : Writer) (line : List Char) (rest : Lines) :
    writer.reindent (.next line rest) = .next line (rest.indent writer.indentation) :=
  rfl

theorem words_reindent (writer : Writer) (text : Lines) (before : List Char) :
    Alike (before ++ (writer.reindent text).toChars) (before ++ text.toChars) := by
  intro after
  cases text with
  | last line => rfl
  | next line rest =>
    rw [reindent_next]
    simp only [Lines.toChars, List.append_assoc, List.cons_append]
    rw [← List.append_assoc, words_newline_append, ← List.append_assoc before, words_newline_append,
      words_indent writer.all_isBlank_indentation]

theorem closed_reindent (writer : Writer) {text : Lines} (closed : Closed text.toChars) :
    Closed (writer.reindent text).toChars := by
  cases text with
  | last line => exact closed
  | next line rest =>
    have ends := (closed_append_iff (List.cons_ne_nil _ _) line).1 closed
    exact (closed_newline_indent _ ends).append_left (List.cons_ne_nil _ _) line

theorem reindent_ne_nil (writer : Writer) {text : Lines} (notEmpty : text.toChars ≠ []) :
    (writer.reindent text).toChars ≠ [] := by
  cases text with
  | last line => exact notEmpty
  | next line rest => simp [reindent_next, Lines.toChars]

/-! ## What a writer holds -/

/-- The text above the current line. -/
def finished (writer : Writer) : List Char :=
  writer.above.reverse.flatMap fun line => line ++ ['\n']

theorem closed_finished (writer : Writer) : Closed writer.finished := by
  rw [finished, List.flatMap_def]
  apply closed_flatten
  intro text member
  obtain ⟨line, -, rfl⟩ := List.mem_map.1 member
  exact closed_newline line

theorem lines_eq (writer : Writer) : writer.lines.toChars = writer.finished ++ writer.line :=
  writer.chars_lines

/-- The text written so far, with the newline that is held back. -/
def visible (writer : Writer) : List Char :=
  writer.lines.toChars ++ if writer.pending = .newline then ['\n'] else []

/-- The writer holds a text up to the width of its gaps. -/
structure Holds (writer : Writer) (text : List Char) : Prop where
  alike : Alike writer.visible text
  closed : Closed text → Closed writer.visible
  blank : writer.pending = .blankLine → writer.line.all isBlank = true

theorem holds_empty : Holds {} [] where
  alike := .refl []
  closed := id
  blank := nofun

@[simp] theorem pending_push (writer : Writer) (text : Lines) :
    (writer.push text).pending = .nothing := by
  induction text generalizing writer with
  | last line => rfl
  | next line rest ih => exact ih _

theorem visible_push (writer : Writer) (text : Lines) :
    (writer.push text).visible = writer.lines.toChars ++ text.toChars := by
  rw [visible, pending_push, chars_push]
  exact List.append_nil _

theorem visible_of_not_held {writer : Writer} (notHeld : writer.pending ≠ .newline) :
    writer.visible = writer.lines.toChars := by
  rw [visible, if_neg notHeld, List.append_nil]

/-- After a push nothing is held back, so the writer holds its lines and what is pushed. -/
theorem holds_push {writer : Writer} {more : Lines} {text : List Char}
    (alike : Alike (writer.lines.toChars ++ more.toChars) text)
    (closed : Closed text → Closed (writer.lines.toChars ++ more.toChars)) :
    (writer.push more).Holds text where
  alike := by rwa [visible_push]
  closed := by rwa [visible_push]
  blank := by
    rw [pending_push]
    nofun

/-- A text that is pushed as it stands. -/
theorem Holds.push {writer : Writer} {text : List Char} (holds : writer.Holds text)
    (notHeld : writer.pending ≠ .newline) (more : Lines) :
    (writer.push more).Holds (text ++ more.toChars) := by
  have same := visible_of_not_held notHeld
  apply holds_push
  · rw [← same]
    exact holds.alike.append more.toChars
  · rw [← same]
    intro closed
    by_cases empty : more.toChars = []
    · rw [empty, List.append_nil] at closed ⊢
      exact holds.closed closed
    · exact ((closed_append_iff empty text).1 closed).append_left empty writer.visible

/-- The held-back newline may be written at any time. -/
theorem Holds.release {writer : Writer} {text : List Char} (holds : writer.Holds text)
    (held : writer.pending = .newline) : (writer.push .newline).Holds text := by
  have same : writer.lines.toChars ++ Lines.newline.toChars = writer.visible := by
    rw [visible, if_pos held]
    rfl
  apply holds_push
  · rw [same]
    exact holds.alike
  · rw [same]
    exact holds.closed

/-- A line that is held back can be removed. -/
theorem Holds.clearLine {writer : Writer} {text : List Char} (holds : writer.Holds text)
    (held : writer.pending = .blankLine) {gap : List Char} (blank : gap.all isBlank = true) :
    Alike writer.finished (text ++ gap) := by
  have same : writer.visible = writer.finished ++ writer.line := by
    rw [visible_of_not_held (by rw [held]; nofun), lines_eq]
  have blank' : (writer.line ++ gap).all isBlank = true := by
    rw [List.all_append, holds.blank held, blank]
    rfl
  have alike := holds.alike.append gap
  rw [same, List.append_assoc] at alike
  exact (alike_blankLine writer.closed_finished blank').symm.trans alike

theorem lines_clearLine (writer : Writer) : writer.clearLine.lines.toChars = writer.finished := by
  rw [lines_eq]
  exact List.append_nil _

/-! ## Writing -/

theorem Holds.text {writer : Writer} {text : List Char} (holds : writer.Holds text)
    (more : Lines) : (writer.text more).Holds (text ++ more.toChars) := by
  unfold Writer.text
  split
  next rest held =>
    -- Of two newlines one is dropped.
    apply holds_push
    · have one := ((alike_two_newlines writer.lines.toChars).append rest.toChars).symm
      have two := holds.alike.append ('\n' :: rest.toChars)
      rw [visible, if_pos held] at two
      rw [List.append_assoc, List.append_assoc] at one
      rw [List.append_assoc] at two
      exact one.trans two
    · intro closed
      have ends := (closed_append_iff (List.cons_ne_nil _ _) text).1 closed
      exact ends.append_left (List.cons_ne_nil _ _) _
  next more _ _ held _ =>
    have released := (holds.release held).push (by rw [pending_push]; nofun) more
    have same : writer.push (.newline ++ more) = (writer.push .newline).push more := by
      cases more <;> rfl
    rw [same]
    exact released
  next rest held =>
    -- The blank line is dropped together with the newline that ends it.
    have cleared : Alike writer.finished (text ++ ['\n']) := holds.clearLine held (by decide)
    have alike := cleared.append rest.toChars
    rw [List.append_assoc] at alike
    apply holds_push
    · rw [lines_clearLine]
      exact alike
    · intro closed
      have ends := (closed_append_iff (List.cons_ne_nil _ _) text).1 closed
      rw [lines_clearLine]
      by_cases empty : rest.toChars = []
      · rw [empty, List.append_nil]
        exact writer.closed_finished
      · exact ((closed_append_iff empty ['\n']).1 ends).append_left empty writer.finished
  next more _ _ notHeld _ _ => exact holds.push notHeld more

theorem toChars_of_dropFinalNewline? {text body : Lines}
    (dropped : text.dropFinalNewline? = some body) : text.toChars = body.toChars ++ ['\n'] := by
  rw [← Lines.append_newline_of_dropFinalNewline? dropped, Lines.toChars_append]
  rfl

/-- A blank line may be held back. -/
theorem Holds.holdLine {writer : Writer} {text : List Char} (holds : writer.Holds text)
    (notHeld : writer.pending ≠ .newline) (blank : writer.line.all isBlank = true) :
    ({ writer with pending := .blankLine }).Holds text := by
  have same : ({ writer with pending := .blankLine }).visible = writer.visible := by
    rw [visible_of_not_held notHeld]
    exact List.append_nil _
  constructor
  case alike =>
    rw [same]
    exact holds.alike
  case closed =>
    rw [same]
    exact holds.closed
  case blank => exact fun _ => blank

/-- The lines of a value are pushed with the indentation of the line that they follow. -/
theorem Holds.reindented {writer : Writer} {text : List Char} (holds : writer.Holds text)
    (notHeld : writer.pending ≠ .newline) {more : Lines} (some : more.toChars ≠ []) :
    (writer.push (writer.reindent more)).Holds (text ++ more.toChars) := by
  have same := visible_of_not_held notHeld
  apply holds_push
  · rw [← same]
    exact (writer.words_reindent more writer.visible).trans (holds.alike.append more.toChars)
  · intro closed
    have ends := writer.closed_reindent ((closed_append_iff some text).1 closed)
    exact ends.append_left (writer.reindent_ne_nil some) _

/-- The newline that ends a value is held back. -/
theorem Holds.reindented_newline {writer : Writer} {text : List Char} (holds : writer.Holds text)
    (notHeld : writer.pending ≠ .newline) (body : Lines) :
    ({ writer.push (writer.reindent body) with pending := .newline }).Holds
      (text ++ (body.toChars ++ ['\n'])) := by
  have same : ({ writer.push (writer.reindent body) with pending := .newline }).visible =
      writer.visible ++ (writer.reindent body).toChars ++ ['\n'] := by
    rw [visible_of_not_held notHeld, ← chars_push]
    rfl
  constructor
  case alike =>
    rw [same, ← List.append_assoc]
    have lines := writer.words_reindent body writer.visible
    exact (lines.trans (holds.alike.append body.toChars)).append ['\n']
  case closed =>
    intro _
    rw [same]
    exact closed_newline _
  case blank => nofun

theorem Holds.value {writer : Writer} {text : List Char} (holds : writer.Holds text)
    (more : Lines) : (writer.value more).Holds (text ++ more.toChars) := by
  have released : (writer.push (if writer.pending = .newline then .newline else .empty)).Holds
      text := by
    split
    next held => exact holds.release held
    next notHeld =>
      have same := holds.push notHeld .empty
      rwa [show Lines.empty.toChars = [] from rfl, List.append_nil] at same
  have notHeld : (writer.push (if writer.pending = .newline then .newline else .empty)).pending ≠
      .newline := by
    rw [pending_push]
    nofun
  rw [Writer.value]
  generalize writer.push _ = writer at released notHeld
  split
  next empty =>
    rw [(Lines.isEmpty_iff more).1 empty, List.append_nil]
    split
    next blank =>
      apply released.holdLine notHeld
      rwa [line, List.all_reverse]
    next => exact released
  next full =>
    have notEmpty : more.toChars ≠ [] := fun empty => full ((Lines.isEmpty_iff more).2 empty)
    split
    next body dropped =>
      rw [toChars_of_dropFinalNewline? dropped]
      exact released.reindented_newline notHeld body
    next => exact released.reindented notHeld notEmpty

theorem Holds.finish {writer : Writer} {text : List Char} (holds : writer.Holds text) :
    Alike writer.finish.toChars text ∧ (Closed text → Closed writer.finish.toChars) := by
  rw [Writer.finish]
  split
  next free =>
    have notHeld : writer.pending ≠ .newline := by
      rw [free]
      nofun
    have same := visible_of_not_held notHeld
    exact ⟨same ▸ holds.alike, same ▸ holds.closed⟩
  next held =>
    have same : writer.visible = (writer.push .newline).lines.toChars := by
      rw [visible, if_pos held, chars_push]
      rfl
    exact ⟨same ▸ holds.alike, same ▸ holds.closed⟩
  next held =>
    have alike : Alike writer.finished (text ++ []) := holds.clearLine held rfl
    rw [List.append_nil] at alike
    rw [lines_clearLine]
    exact ⟨alike, fun _ => writer.closed_finished⟩

theorem indent_nil (text : Lines) : text.indent [] = text := by
  induction text with
  | last line => simp [Lines.indent, Lines.map]
  | next line rest ih =>
    simp only [Lines.indent, Lines.map, List.nil_append, ite_self] at ih ⊢
    rw [ih]

/-- A value that is inserted first takes no indentation. -/
theorem reindent_empty (text : Lines) : reindent {} text = text := by
  cases text with
  | last line => rfl
  | next line rest => exact congrArg (Lines.next line) (indent_nil rest)

theorem lines_push_empty (text : Lines) : (push {} text).lines = text := by
  rw [lines_push]
  exact Lines.empty_append text

/-- A value alone is written as it stands. -/
theorem finish_value (text : Lines) : (value {} text).finish = text := by
  have start : push {} (if ({} : Writer).pending = .newline then .newline else .empty) = {} := rfl
  rw [value, start, reindent_empty]
  split
  next empty =>
    -- The line is held back, and nothing is left when it is removed.
    cases text with
    | last line =>
      cases line with
      | nil => rfl
      | cons => cases empty
    | next => cases empty
  next =>
    split
    next body dropped =>
      -- The newline that is held back is written at the end.
      have written := lines_push (push {} body) .newline
      rw [lines_push_empty, Lines.append_newline_of_dropFinalNewline? dropped] at written
      rw [reindent_empty]
      exact written
    next =>
      rw [finish, pending_push]
      exact lines_push_empty text

end Writer

/-! ## Substitution -/

namespace Template

/-- The text of a template by substitution alone: the texts of its holes stand where the holes
are. The elements of a repetition have the texts that a writer gives them. -/
inductive Fills (fields : Fields) : Template → List Char → Prop
  | done : Fills fields .done []
  | text {chars : List Char} {rest : Template} {after : List Char} :
      Fills fields rest after → Fills fields (.text chars rest) (chars ++ after)
  | field {name : String} {rest : Template} {after : List Char} {value : Rendered} {text : Lines}
      (found : fields.find name = .ok value)
      (inserted : value.inserted fields.object name = .ok text) :
      Fills fields rest after → Fills fields (.field name rest) (text.toChars ++ after)
  | choose {negated : Bool} {name : String} {yes no rest : Template} {chosen after : List Char}
      {value : Rendered} (found : fields.find name = .ok value) :
      Fills fields (if value.isTruthy ≠ negated then yes else no) chosen →
      Fills fields rest after → Fills fields (.choose negated name yes no rest) (chosen ++ after)
  | each {name : String} {separator : List Char} {item rest : Template} {after : List Char}
      {value : Rendered} {texts : List Lines} (found : fields.find name = .ok value)
      (items : List.Forall₂ (fun element text =>
        ∃ writer, item.fill (fields.at element) {} = .ok writer ∧ writer.finish = text)
        value.elements texts) :
      Fills fields rest after → Fills fields (.each name separator item rest)
        (((texts.map Lines.toChars).intersperse separator).flatten ++ after)

theorem toChars_concat (texts : List Lines) :
    (Lines.concat texts).toChars = (texts.map Lines.toChars).flatten := by
  induction texts with
  | nil => rfl
  | cons first rest ih =>
    rw [List.map_cons, List.flatten_cons, ← ih]
    exact Lines.toChars_append first _

theorem toChars_concat_intersperse (separator : List Char) (texts : List Lines) :
    (Lines.concat (texts.intersperse (.ofChars separator))).toChars =
      ((texts.map Lines.toChars).intersperse separator).flatten := by
  rw [toChars_concat]
  congr 1
  induction texts with
  | nil => rfl
  | cons first rest ih =>
    cases rest with
    | nil => rfl
    | cons second rest =>
      rw [List.intersperse_cons_cons, List.map_cons, List.map_cons, ih, Lines.toChars_ofChars]
      rfl

theorem mapM_of_forall₂ {item : Template} {fields : Fields} {elements : List Rendered}
    {texts : List Lines} (items : List.Forall₂ (fun element text =>
      ∃ writer, item.fill (fields.at element) {} = .ok writer ∧ writer.finish = text)
      elements texts) :
    (elements.mapM fun element => do
      let writer ← item.fill (fields.at element) {}
      return writer.finish) = (.ok texts : Except TemplateError (List Lines)) := by
  induction items with
  | nil => rfl
  | cons first _ ih =>
    obtain ⟨writer, run, rfl⟩ := first
    rw [List.mapM_cons, run, ih]
    rfl

/-- A template that can be filled by substitution is filled by the writer, which then holds the same
text. -/
theorem Fills.holds {fields : Fields} {template : Template} {text : List Char}
    (fills : Fills fields template text) {writer : Writer} {before : List Char}
    (holds : writer.Holds before) :
    ∃ writer', template.fill fields writer = .ok writer' ∧ writer'.Holds (before ++ text) := by
  induction fills generalizing writer before with
  | done => exact ⟨writer, rfl, (List.append_nil before).symm ▸ holds⟩
  | @text chars _ _ _ ih =>
    obtain ⟨writer', run, holds'⟩ := ih (holds.text (.ofChars chars))
    rw [Lines.toChars_ofChars, List.append_assoc] at holds'
    exact ⟨writer', run, holds'⟩
  | @field _ _ _ _ text found inserted _ ih =>
    obtain ⟨writer', run, holds'⟩ := ih (holds.value text)
    rw [List.append_assoc] at holds'
    refine ⟨writer', ?_, holds'⟩
    simp only [fill, found, inserted, bind, Except.bind]
    exact run
  | choose found _ _ ihChosen ih =>
    obtain ⟨middle, runChosen, held⟩ := ihChosen holds
    obtain ⟨writer', run, holds'⟩ := ih held
    rw [List.append_assoc] at holds'
    refine ⟨writer', ?_, holds'⟩
    simp only [fill, found, bind, Except.bind]
    split at runChosen
    next truth => rw [if_pos truth, runChosen]; exact run
    next truth => rw [if_neg truth, runChosen]; exact run
  | @each _ separator _ _ _ _ texts found items _ ih =>
    obtain ⟨writer', run, holds'⟩ :=
      ih (holds.value (.concat (texts.intersperse (.ofChars separator))))
    rw [toChars_concat_intersperse, List.append_assoc] at holds'
    refine ⟨writer', ?_, holds'⟩
    have written := mapM_of_forall₂ items
    simp only [fill, found, bind, Except.bind, pure, Except.pure] at written ⊢
    rw [written]
    exact run

/-! ## Templates put together -/

variable {fields : Fields}

theorem Fills.append {first second : Template} {text more : List Char}
    (fills : Fills fields first text) (others : Fills fields second more) :
    Fills fields (first ++ second) (text ++ more) := by
  induction fills with
  | done => exact others
  | text _ ih =>
    rw [List.append_assoc]
    exact .text ih
  | field found inserted _ ih =>
    rw [List.append_assoc]
    exact .field found inserted ih
  | choose found chosen _ _ ih =>
    rw [List.append_assoc]
    exact .choose found chosen ih
  | each found items _ ih =>
    rw [List.append_assoc]
    exact .each found items ih

theorem Fills.of_eq {template : Template} {text text' : List Char}
    (fills : Fills fields template text) (same : text = text') : Fills fields template text' :=
  same ▸ fills

theorem fills_lit (chars : String) : Fills fields (lit chars) chars.toList := by
  have fills : Fills fields (lit chars) (chars.toList ++ []) := .text .done
  rwa [List.append_nil] at fills

theorem fills_slot {name : String} {value : Rendered} {text : Lines}
    (found : fields.find name = .ok value)
    (inserted : value.inserted fields.object name = .ok text) :
    Fills fields (slot name) text.toChars := by
  have fills : Fills fields (slot name) (text.toChars ++ []) := .field found inserted .done
  rwa [List.append_nil] at fills

/-- A text is inserted as it stands. -/
theorem fills_text {name : String} {chars : List Char}
    (found : fields.find name = .ok (.text (.ofChars chars))) : Fills fields (slot name) chars := by
  have fills : Fills fields (slot name) (Lines.ofChars chars).toChars := fills_slot found rfl
  rwa [Lines.toChars_ofChars] at fills

theorem fills_ifField {name : String} {yes no : Template} {value : Rendered} (chosen : List Char)
    (found : fields.find name = .ok value)
    (fills : Fills fields (if value.isTruthy then yes else no) chosen) :
    Fills fields (ifField name yes no) chosen := by
  have fills : Fills fields (ifField name yes no) (chosen ++ []) := by
    refine .choose found ?_ .done
    cases truth : value.isTruthy <;> rw [truth] at fills <;> exact fills
  rwa [List.append_nil] at fills

theorem flatten_intersperse_nil (texts : List (List Char)) :
    (texts.intersperse []).flatten = texts.flatten := by
  induction texts with
  | nil => rfl
  | cons first rest ih =>
    cases rest with
    | nil => rfl
    | cons second rest =>
      rw [List.intersperse_cons_cons, List.flatten_cons, List.flatten_cons, ih]
      rfl

/-- The elements of a list with a separator between them, each with the text that is inserted for
it. -/
theorem fills_forEach {name separator : String} {elements : List Rendered} {texts : List Lines}
    (found : fields.find name = .ok (.list elements))
    (items : List.Forall₂ (fun element text => element.inserted fields.object this = .ok text)
      elements texts) :
    Fills fields (forEach name separator (slot this))
      ((texts.map Lines.toChars).intersperse separator.toList).flatten := by
  have written : List.Forall₂ (fun element text => ∃ writer,
      (slot this).fill (fields.at element) {} = .ok writer ∧ writer.finish = text)
      elements texts := by
    refine items.imp fun element text inserted => ⟨_, ?_, Writer.finish_value text⟩
    change (element.inserted fields.object this >>= _) = _
    rw [inserted]
    rfl
  have fills : Fills fields (forEach name separator (slot this)) _ := .each found written .done
  rwa [List.append_nil] at fills

/-- The elements of a list one after another. -/
theorem fills_items {name : String} {elements : List Rendered} {texts : List Lines}
    (found : fields.find name = .ok (.list elements))
    (items : List.Forall₂ (fun element text => element.inserted fields.object this = .ok text)
      elements texts) :
    Fills fields (Template.items name) (texts.map Lines.toChars).flatten := by
  rw [← flatten_intersperse_nil, ← String.toList_empty]
  exact fills_forEach found items

/-- The texts of a list with a separator between them. -/
theorem fills_texts {name separator : String} {list : List String}
    (found : fields.find name = .ok (.list (Value.renderedAll (list.map .text)))) :
    Fills fields (forEach name separator (slot this))
      ((list.map String.toList).intersperse separator.toList).flatten := by
  have items : List.Forall₂ (fun element text => element.inserted fields.object this = .ok text)
      (Value.renderedAll (list.map .text)) (list.map fun text => .ofChars text.toList) := by
    clear found
    induction list with
    | nil => exact .nil
    | cons first rest ih => exact .cons rfl ih
  have fills := @fills_forEach _ _ separator _ _ found items
  have same : Lines.toChars ∘ (fun text => Lines.ofChars text.toList) = String.toList := by
    funext text
    exact Lines.toChars_ofChars text.toList
  rwa [List.map_map, same] at fills

end Template

/-! ## Objects -/

/-- An object renders as what its template writes. -/
theorem Template.render_node_eq_ok {name text : String} {fields : List (String × Value)}
    {template : Except TemplateError Template} :
    (Value.node name template fields).render = .ok text ↔
      ∃ source writer, template = .ok source ∧
        source.fill ⟨name, none, Value.renderedFields fields⟩ {} = .ok writer ∧
        String.ofList writer.finish.toChars = text := by
  have whole : (Value.node name template fields).render =
      (do return (← (← template).fill ⟨name, none, Value.renderedFields fields⟩ {}).finish).map
        fun text : Lines => String.ofList text.toChars := rfl
  rw [whole]
  cases template with
  | error cause => simp [bind, Except.bind, Except.map]
  | ok source =>
    cases filled : source.fill ⟨name, none, Value.renderedFields fields⟩ {} with
    | error cause => simp [bind, Except.bind, Except.map, filled]
    | ok writer => simp [bind, Except.bind, Except.map, filled, pure, Except.pure]

/-- The value prints a closed text with these words, wherever it is inserted. -/
def Value.Prints (value : Value) (contents : List (List Char)) : Prop :=
  ∃ text : Lines, (∀ object field, value.rendered.inserted object field = .ok text) ∧
    Closed text.toChars ∧ words text.toChars = contents

/-- An object prints what substitution makes of its template, if that is closed. -/
theorem prints_object {name : String} {template : Template} {entries : List (String × Value)}
    (text : List Char) (fills : template.Fills ⟨name, none, Value.renderedFields entries⟩ text)
    (closed : Closed text) {contents : List (List Char)} (same : words text = contents) :
    (Value.object name template entries).Prints contents := by
  obtain ⟨writer, run, holds⟩ := fills.holds Writer.holds_empty
  obtain ⟨alike, ends⟩ := holds.finish
  refine ⟨writer.finish, ?_, ends closed, alike.words_eq.trans same⟩
  intro object field
  change (Except.ok template >>= fun template =>
    template.fill _ {} >>= fun writer => pure writer.finish) = _
  change (template.fill _ {} >>= fun writer => pure writer.finish) = _
  rw [run]
  rfl

/-- The texts of values that print closed texts are closed together, wherever each is inserted. -/
theorem texts_of_prints {values : List Value} {contents : List (List (List Char))}
    (prints : List.Forall₂ Value.Prints values contents) :
    ∃ texts : List Lines, (∀ object field, List.Forall₂ (fun element text =>
        Rendered.inserted object field element = .ok text) (Value.renderedAll values) texts) ∧
      Closed (texts.map Lines.toChars).flatten ∧
      words (texts.map Lines.toChars).flatten = contents.flatten := by
  induction prints with
  | nil => exact ⟨[], fun _ _ => .nil, closed_nil, words_nil⟩
  | cons first _ ih =>
    obtain ⟨text, inserted, closed, rfl⟩ := first
    obtain ⟨texts, items, ends, same⟩ := ih
    refine ⟨text :: texts, ?_, ?_, ?_⟩
    · intro object field
      exact .cons (inserted _ _) (items _ _)
    · rw [List.map_cons, List.flatten_cons]
      exact closed.append ends
    · rw [List.map_cons, List.flatten_cons, closed.words_append, same, List.flatten_cons]

/-- A list that is inserted as a whole gives the texts of its elements one after another. -/
theorem inserted_list {object field : String} {elements : List Rendered} {texts : List Lines}
    (items : List.Forall₂ (fun element text => Rendered.inserted object field element = .ok text)
      elements texts) :
    (Rendered.list elements).inserted object field = .ok (.concat texts) := by
  rw [Rendered.inserted]
  induction items with
  | nil => rfl
  | cons first _ ih =>
    rw [Rendered.insertedAll, first, ih]
    rfl

end ScriptToC
