import ScriptToC.Proofs.Template.Exchange

/-!
# Lists are inserted in two ways

A field is inserted by a placeholder, or by a repetition of its bare elements. The placeholder puts
the texts of a list together, at whatever depth they stand in it. The repetition gives each element
a writer of its own and puts together what the writers hold when they are finished.

A writer that is given one text and finished gives this text back, since a line of nothing but the
text has no indentation and a newline that is held back is written at the end (`finish_value`). So
the two ways insert the same text and fail with the same values (`fill_items`), and a template can
have either of them at any place (`slot_agrees_items`).
-/

set_option autoImplicit false

namespace ScriptToC

open Text

/-! ## Texts that are put together -/

namespace Text.Lines

theorem concat_intersperse_empty (texts : List Lines) :
    concat (texts.intersperse empty) = concat texts := by
  induction texts with
  | nil => rfl
  | cons first rest ih =>
    cases rest with
    | nil => rfl
    | cons second rest =>
      rw [List.intersperse_cons_cons]
      exact congrArg (first ++ ·) ((empty_append _).trans ih)

end Text.Lines

namespace Rendered

theorem insertedAll_eq (object field : String) (items : List Rendered) :
    insertedAll object field items = (items.mapM (inserted object field)).map Lines.concat := by
  induction items with
  | nil => rfl
  | cons item rest ih =>
    rw [insertedAll, ih, List.mapM_cons]
    cases inserted object field item with
    | error => rfl
    | ok first => cases rest.mapM (inserted object field) <;> rfl

/-- The text of a value is made up of those of its elements. -/
theorem concat_elements (object field : String) (value : Rendered) :
    (value.elements.mapM (inserted object field)).map Lines.concat =
      value.inserted object field := by
  have alone : ([value].mapM (inserted object field)).map Lines.concat =
      value.inserted object field := by
    rw [List.mapM_cons, List.mapM_nil]
    cases inserted object field value with
    | error => rfl
    | ok text => exact congrArg Except.ok text.append_empty
  cases value with
  | list items => exact (insertedAll_eq object field items).symm
  | text | flag | node => exact alone

mutual

/-- The text of a value does not depend on what messages call the place where it is inserted. -/
theorem inserted_ok {object field object' field' : String} : ∀ {value : Rendered} {text : Lines},
    value.inserted object field = .ok text → value.inserted object' field' = .ok text
  | .text _, _, given => given
  | .flag _, _, given => by cases given
  | .list _, _, given => insertedAll_ok given
  | .node _ _, _, given => given

theorem insertedAll_ok {object field object' field' : String} :
    ∀ {items : List Rendered} {text : Lines},
      insertedAll object field items = .ok text → insertedAll object' field' items = .ok text
  | [], _, given => given
  | _ :: _, _, given =>
    Template.bind_ok_of_ok (fun _ => inserted_ok)
      (fun _ => Template.bind_ok_of_ok (fun _ => insertedAll_ok) fun _ => id) given

end

end Rendered

namespace Template

/-! ## The two ways -/

/-- An element that is repeated bare gives its text. -/
theorem finish_fill_this (fields : Fields) (value : Rendered) :
    ((slot this).fill (fields.at value) {}).map Writer.finish =
      value.inserted fields.object this := by
  change ((value.inserted fields.object this >>= fun text => pure (Writer.value {} text)).map
    Writer.finish) = _
  cases value.inserted fields.object this with
  | error => rfl
  | ok text => exact congrArg Except.ok (Writer.finish_value text)

/-- A repetition of bare elements inserts the text of the field. -/
theorem fill_items (name : String) (fields : Fields) (writer : Writer) :
    (items name).fill fields writer = (do
      let value ← fields.find name
      let text ← value.inserted fields.object this
      return writer.value text) := by
  have element (value : Rendered) : (do
      let writer ← (slot this).fill (fields.at value) {}
      return writer.finish) = value.inserted fields.object this := by
    rw [← finish_fill_this]
    cases (slot this).fill (fields.at value) {} <;> rfl
  change ((fields.find name) >>= fun value => _) = _
  refine bind_congr fun value => ?_
  simp only [element]
  rw [← value.concat_elements]
  cases value.elements.mapM (Rendered.inserted fields.object this) with
  | error => rfl
  | ok texts =>
    have joined := Lines.concat_intersperse_empty texts
    exact congrArg (fun text => Except.ok (writer.value text)) joined

theorem items_refines_slot (name : String) (fields : Fields) :
    Refines fields (items name) (slot name) := by
  intro writer written filled
  rw [fill_items] at filled
  exact bind_ok_of_ok (fun _ => id)
    (fun _ => bind_ok_of_ok (fun _ => Rendered.inserted_ok) fun _ => id) filled

theorem slot_refines_items (name : String) (fields : Fields) :
    Refines fields (slot name) (items name) := by
  intro writer written filled
  rw [fill_items]
  exact bind_ok_of_ok (fun _ => id)
    (fun _ => bind_ok_of_ok (fun _ => Rendered.inserted_ok) fun _ => id) filled

/-! ## At any place -/

theorem print_items (name : String) :
    (items name).print = ("\x7b" ++ name ++ " \x7b\x7d=> \x7bthis\x7d\x7d").toList := by
  simp [items, forEach, slot, print, fieldTag, listHead, arrow, this]

/-- What the reader makes of a repetition of bare elements. -/
theorem stands_items {name : String} (named : isName name.toList = true) :
    Stands (items name).print (items name) where
  opens := ⟨_, rfl⟩
  apart _ := rfl
  reads {inItem source after rest stop} others := by
    have whole : (items name).print ++ source =
        listHead name [] ++ (fieldTag this ++ '\x7d' :: source) := by
      simp [items, forEach, slot, print]
    have element : Reads true (fieldTag this ++ '\x7d' :: source) (slot this) .closingBrace
        source :=
      .field (nextToken_fieldTag true (by decide) _) (.stop rfl)
    rw [whole]
    exact .each (nextToken_listHead inItem named (by decide) _) element others

/-- **The two ways to insert a list agree.** What is written through a fresh writer comes out as it
is. So a placeholder and a repetition of the bare elements write the same with every field and after
every text, or neither can be filled. Objects with one or the other at any place of their template
render to the same texts, and where a source has the placeholder it can have the repetition. -/
theorem slot_agrees_items (context : Context) (name object : String)
    (entries : List (String × Value)) :
    (∀ text : Lines, (Writer.value {} text).finish = text) ∧
    (∀ (fields : Fields) (value : Rendered),
      ((slot this).fill (fields.at value) {}).map Writer.finish =
        value.inserted fields.object this) ∧
    (∀ fields writer written, (items name).fill fields writer = .ok written ↔
      (slot name).fill fields writer = .ok written) ∧
    (∀ text, (Value.object object (context.plug (items name)) entries).render = .ok text ↔
      (Value.object object (context.plug (slot name)) entries).render = .ok text) ∧
    ∀ source, read object source = .ok (context.plug (slot name)) →
      ∃ before behind, source = before ++ ("\x7b" ++ name ++ "\x7d") ++ behind ∧
        read object (before ++ ("\x7b" ++ name ++ " \x7b\x7d=> \x7bthis\x7d\x7d") ++ behind) =
          .ok (context.plug (items name)) := by
  refine ⟨Writer.finish_value, finish_fill_this, fun fields writer written => ?_,
    fun text => ?_, fun source reads => ?_⟩
  · exact ⟨items_refines_slot name fields writer written,
      slot_refines_items name fields writer written⟩
  · exact ⟨context.render_plug (items_refines_slot name),
      context.render_plug (slot_refines_items name)⟩
  · obtain ⟨named, before, behind, whole, exchanged⟩ := exists_exchange reads
    have free : '\n' ∉ name.toList := fun inside =>
      absurd (continuesName_of_isName named _ inside) (by decide)
    have noNewline : '\n' ∉ (items name).print := by
      simp [print_items, free]
    have two : 1 < (items name).print.count '\x7d' := by
      simp only [print_items, String.toList_append, List.count_append]
      simp
    have new := exchanged (stands_items named) noNewline two
    refine ⟨String.ofList before, String.ofList behind, ?_, ?_⟩
    · rw [← String.toList_inj, whole]
      simp [fieldTag]
    · rw [← new, print_items]
      refine congrArg (read object) ?_
      rw [← String.toList_inj]
      simp

/-- A source with a placeholder in a repeated template, in a choice and among braces. -/
def nestedSource : String :=
  "main \x7b\n\x7b#if a\x7d\n    \x7bxs \x7b, \x7d=> <\x7bf\x7d>\x7d\n\x7b/if\x7d\n\x7d\n"

/-- What stands around the placeholder. -/
def nestedContext : Context :=
  .afterText "main \x7b\n".toList (.inYes false "a"
    (.inItem "xs" ", ".toList (.afterText "<".toList (.here (lit ">"))) (lit "\n")) done
    (lit "\x7d\n"))

/-- Fields with texts and objects in nested lists. -/
def nestedFields : List (String × Value) :=
  [("a", .flag true), ("xs", .list
    [.object "Item" done [("f", .list [.text "1\n\n", .list [.text "", .text "2\n"]])],
      .object "Item" done [("f", .object "Part" (slot "g") [("g", .text "\n3")])]])]

/-- Lists of lists are inserted in the two ways at a nested place. -/
theorem slot_agrees_items_nested :
    read "Sample" nestedSource = .ok (nestedContext.plug (slot "f")) ∧
    (Value.object "Sample" (nestedContext.plug (slot "f")) nestedFields).render =
      .ok "main \x7b\n<1\n\n2\n>, <\n3>\n\x7d\n" ∧
    (Value.object "Sample" (nestedContext.plug (items "f")) nestedFields).render =
      .ok "main \x7b\n<1\n\n2\n>, <\n3>\n\x7d\n" ∧
    ∃ before behind, nestedSource = before ++ ("\x7b" ++ "f" ++ "\x7d") ++ behind ∧
      read "Sample" (before ++ ("\x7b" ++ "f" ++ " \x7b\x7d=> \x7bthis\x7d\x7d") ++ behind) =
        .ok (nestedContext.plug (items "f")) := by
  have reads : read "Sample" nestedSource = .ok (nestedContext.plug (slot "f")) := by
    apply ok_of_toOption
    decide +kernel
  have renders : (Value.object "Sample" (nestedContext.plug (slot "f")) nestedFields).render =
      .ok "main \x7b\n<1\n\n2\n>, <\n3>\n\x7d\n" := by
    apply ok_of_toOption
    decide +kernel
  obtain ⟨-, -, -, same, exchanged⟩ := slot_agrees_items nestedContext "f" "Sample" nestedFields
  exact ⟨reads, renders, (same _).2 renders, exchanged nestedSource reads⟩

end Template

end ScriptToC
