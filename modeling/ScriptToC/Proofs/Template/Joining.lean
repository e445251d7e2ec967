import ScriptToC.Proofs.Template.Filling
import ScriptToC.Proofs.Template.Locality

/-!
# Putting templates together

A template that is read from a sealed text and a template that is read from what follows the text
are read together as the two joined (`Reads.joined`). Joining them is not putting the one after the
other: if the first ends in a text and the second begins with one, the two make a single text.

What is written does not show where a text was cut. Text that comes in two pieces, of which the
first is not empty, is written as text that comes in one (`Writer.push_text`), although the writer
looks at the start of each piece for a newline. So filling the joined template is filling the first
and then the second (`fill_joined`).
-/

set_option autoImplicit false

namespace ScriptToC

open Text

/-! ## Text in pieces -/

theorem Text.Lines.ofChars_cons (c : Char) (chars : List Char) :
    Lines.ofChars (c :: chars) = Lines.ofChars [c] ++ Lines.ofChars chars := by
  by_cases isNewline : c = '\n'
  · subst isNewline
    rw [Lines.ofChars, if_pos rfl]
    cases Lines.ofChars chars <;> rfl
  · simp only [Lines.ofChars, if_neg isNewline]
    cases Lines.ofChars chars <;> rfl

namespace Writer

theorem push_push (writer : Writer) (first second : Lines) :
    (writer.push first).push second = writer.push (first ++ second) := by
  induction first generalizing writer with
  | last text =>
    cases second with
    | last other =>
      show Writer.mk writer.above (other.reverse ++ (text.reverse ++ writer.reversed)) .nothing =
        Writer.mk writer.above ((text ++ other).reverse ++ writer.reversed) .nothing
      rw [List.reverse_append, List.append_assoc]
    | next other rest =>
      show push ⟨((text.reverse ++ writer.reversed).reverse ++ other) :: writer.above, [], .nothing⟩
          rest =
        push ⟨(writer.reversed.reverse ++ (text ++ other)) :: writer.above, [], .nothing⟩ rest
      rw [List.reverse_append, List.reverse_reverse, List.append_assoc]
  | next text rest ih => exact ih _

theorem pending_text (writer : Writer) (more : Lines) : (writer.text more).pending = .nothing := by
  unfold Writer.text
  split <;> exact pending_push _ _

/-- Text that does not begin with a newline ends a newline that is held back. -/
theorem text_eq_push (writer : Writer) {text : Lines} (other : ∀ rest, text ≠ .next [] rest) :
    writer.text text =
      writer.push (if writer.pending = .newline then .newline ++ text else text) := by
  unfold Writer.text
  split
  next rest _ => exact absurd rfl (other rest)
  next held _ => rw [if_pos held]
  next rest _ => exact absurd rfl (other rest)
  next notHeld _ _ => rw [if_neg notHeld]

/-- What is pushed after a piece of text continues the text. -/
theorem push_text (writer : Writer) {first : Lines} (some : first.isEmpty = false)
    (second : Lines) : (writer.text first).push second = writer.text (first ++ second) := by
  -- Whether the text begins with a newline is seen at its first piece.
  have starts : (∃ rest, first = .next [] rest) ∨
      ∀ rest, first ≠ .next [] rest ∧ first ++ second ≠ .next [] rest := by
    cases first with
    | last text =>
      cases text with
      | nil => cases some
      | cons c text =>
        right
        intro rest
        cases second <;> exact ⟨nofun, nofun⟩
    | next text rest =>
      cases text with
      | nil => exact .inl ⟨rest, rfl⟩
      | cons c text => exact .inr fun _ => ⟨nofun, nofun⟩
  rcases starts with ⟨rest, rfl⟩ | other
  · have same : Lines.next [] rest ++ second = .next [] (rest ++ second) := rfl
    rw [same]
    cases held : writer.pending <;> simp only [Writer.text, held, push_push] <;> rfl
  · have apart : Lines.newline ++ first ++ second = .newline ++ (first ++ second) := by
      cases first <;> cases second <;> rfl
    rw [text_eq_push writer fun rest => (other rest).1,
      text_eq_push writer fun rest => (other rest).2, push_push]
    split
    next => rw [apart]
    next => rfl

/-- Text that comes character by character is written as text that comes in one piece. -/
theorem text_ofChars_cons (writer : Writer) (c : Char) (chars : List Char) :
    writer.text (.ofChars (c :: chars)) = (writer.text (.ofChars [c])).text (.ofChars chars) := by
  have some : (Lines.ofChars [c]).isEmpty = false := by
    rw [Bool.eq_false_iff, ne_eq, Lines.isEmpty_iff, Lines.toChars_ofChars]
    exact List.cons_ne_nil c []
  have free : ∀ writer' : Writer, writer'.pending = .nothing → ∀ more : Lines,
      writer'.text more = writer'.push more := by
    intro writer' nothing more
    simp only [Writer.text, nothing]
  rw [Lines.ofChars_cons, ← push_text writer some, free _ (pending_text writer _)]

end Writer

namespace Template

/-! ## Joined templates -/

/-- The characters in front of a template, as a part of its first text if it begins with one. -/
def spell (chars : List Char) (template : Template) : Template :=
  chars.foldr cons template

/-- One template after another. A text at the end of the first and a text at the start of the second
make one text. -/
def joined : Template → Template → Template
  | done, next => next
  | text chars rest, next => spell chars (rest.joined next)
  | field name rest, next => field name (rest.joined next)
  | choose negated name yes no rest, next => choose negated name yes no (rest.joined next)
  | each name separator item rest, next => each name separator item (rest.joined next)

theorem cons_joined (c : Char) (first second : Template) :
    (cons c first).joined second = cons c (first.joined second) := by
  cases first <;> rfl

theorem fill_cons (c : Char) (template : Template) (fields : Fields) (writer : Writer) :
    (cons c template).fill fields writer = template.fill fields (writer.text (.ofChars [c])) := by
  cases template with
  | text chars rest => rw [cons, fill, fill, Writer.text_ofChars_cons]
  | done | field | choose | each => rfl

theorem fill_spell {chars : List Char} (some : chars ≠ []) (template : Template) (fields : Fields)
    (writer : Writer) :
    (spell chars template).fill fields writer =
      template.fill fields (writer.text (.ofChars chars)) := by
  induction chars generalizing writer with
  | nil => exact absurd rfl some
  | cons c chars ih =>
    have first : (spell (c :: chars) template).fill fields writer =
        (spell chars template).fill fields (writer.text (.ofChars [c])) :=
          fill_cons c _ fields writer
    rw [first]
    cases chars with
    | nil => rfl
    | cons d chars => rw [ih (List.cons_ne_nil d chars), ← Writer.text_ofChars_cons]

/-- Joined templates are filled one after the other. -/
theorem fill_joined {first : Template} (normal : first.Normal) (second : Template) (fields : Fields)
    (writer : Writer) :
    (first.joined second).fill fields writer =
      first.fill fields writer >>= second.fill fields := by
  induction first generalizing writer with
  | done => rfl
  | text chars rest ih =>
    rw [joined, fill_spell normal.1, ih normal.2.2]
    rfl
  | field name rest ih =>
    simp only [joined, fill, ih normal, bind_assoc]
  | choose negated name yes no rest _ _ ih =>
    simp only [joined, fill, ih normal.2.2, bind_assoc]
    refine bind_congr fun value => ?_
    split <;> rw [bind_assoc]
  | each name separator item rest _ ih =>
    simp only [joined, fill, ih normal.2, bind_assoc]

/-! ## Joined readings -/

/-- **What is read from a sealed text goes on with what is read after the text.** -/
theorem Reads.joined {inItem : Bool} {text source after : List Char} {first second : Template}
    {stop : Stop} (reads : Reads inItem text first .endOfText []) (sealed : Sealed text)
    (others : Reads inItem source second stop after) :
    Reads inItem (text ++ source) (first.joined second) stop after := by
  generalize ends : Stop.endOfText = final at reads
  generalize ([] : List Char) = left at reads
  induction reads with
  | stop token =>
    subst ends
    obtain ⟨shown, rfl, rfl⟩ := nextToken_spelling token
    rw [nextToken_endOfText token]
    exact others
  | char token _ ih =>
    rw [cons_joined]
    have inside := suffix_of_nextToken token
    have rest := ih (sealed.of_suffix inside) others ends
    exact .char (nextToken_append sealed rfl token source) rest
  | field token _ ih =>
    have inside := suffix_of_nextToken token
    have rest := ih (sealed.of_suffix inside) others ends
    exact .field (nextToken_append sealed rfl token source) rest
  | choose token yes no _ _ _ ih =>
    have sealedYes := sealed.of_suffix (suffix_of_nextToken token)
    have sealedNo := sealedYes.of_suffix yes.after_suffix
    exact .choose (nextToken_append sealed rfl token source) (yes.append sealedYes nofun source)
      (no.append sealedNo nofun source) (ih (sealedNo.of_suffix no.after_suffix) others ends)
  | chooseOne token yes _ _ ih =>
    have sealedYes := sealed.of_suffix (suffix_of_nextToken token)
    exact .chooseOne (nextToken_append sealed rfl token source) (yes.append sealedYes nofun source)
      (ih (sealedYes.of_suffix yes.after_suffix) others ends)
  | each token item _ _ ih =>
    have sealedItem := sealed.of_suffix (suffix_of_nextToken token)
    exact .each (nextToken_append sealed rfl token source) (item.append sealedItem nofun source)
      (ih (sealedItem.of_suffix item.after_suffix) others ends)

end Template

end ScriptToC
