import ScriptToC.Proofs.Template.Survival

/-!
# Templates whose texts end in a newline

A writer is at the start of a line if it has written nothing on its current line and holds nothing
back. A text of the template that ends in a newline brings it there, whatever it held back before
(`atStart_text`), and a value takes it away from there, even an empty one, as its line is held back.

So the parts of a template tell whether filling it leaves the writer at the start of a line
(`Template.endsLine`, `atStart_fill`). The text of an object with such a template is empty or ends
in a newline, whatever its fields are (`endsLine_render`).
-/

set_option autoImplicit false

namespace ScriptToC

open Text

/-! ## Texts that end in a newline -/

/-- The text is empty or ends in a newline, so that what follows it starts a line. -/
def EndsLine (text : List Char) : Prop :=
  text = [] ∨ text.getLast? = some '\n'

theorem EndsLine.append {text more : List Char} (ends : EndsLine text) (ends' : EndsLine more) :
    EndsLine (text ++ more) := by
  rcases ends' with rfl | last
  · rwa [List.append_nil]
  · right
    rw [List.getLast?_append, last, Option.some_or]

theorem endsLine_flatten {texts : List (List Char)} (ends : ∀ text ∈ texts, EndsLine text) :
    EndsLine texts.flatten := by
  induction texts with
  | nil => exact .inl rfl
  | cons text rest ih =>
    exact (ends text List.mem_cons_self).append
      (ih fun other member => ends other (List.mem_cons_of_mem _ member))

namespace Text.Lines

/-- The line that no newline ends. -/
def lastLine : Lines → List Char
  | last line => line
  | next _ rest => rest.lastLine

/-- A text that ends in a newline has lines before its last one, which is empty. -/
theorem exists_of_getLast? {text : List Char} (ends : text.getLast? = some '\n') :
    ∃ line rest, ofChars text = next line rest ∧ rest.lastLine = [] := by
  induction text with
  | nil => cases ends
  | cons c rest ih =>
    cases rest with
    | nil =>
      cases ends
      exact ⟨[], empty, rfl, rfl⟩
    | cons d rest =>
      obtain ⟨line, others, lines, isEmpty⟩ := ih ends
      rw [ofChars, lines]
      split
      · exact ⟨[], _, rfl, isEmpty⟩
      · exact ⟨c :: line, others, rfl, isEmpty⟩

end Text.Lines

/-! ## Writers at the start of a line -/

namespace Writer

/-- Nothing stands on the current line, and nothing is held back. -/
structure AtStart (writer : Writer) : Prop where
  reversed : writer.reversed = []
  pending : writer.pending = .nothing

variable {writer : Writer} {line : List Char} {rest : Lines}

theorem atStart_push (start : writer.reversed = []) (ends : rest.lastLine = []) :
    (writer.push rest).AtStart := by
  induction rest generalizing writer with
  | last line =>
    obtain rfl : line = [] := ends
    exact ⟨start, rfl⟩
  | next line rest ih => exact ih rfl ends

theorem atStart_push_next (writer : Writer) (ends : rest.lastLine = []) :
    (writer.push (.next line rest)).AtStart := by
  rw [push]
  exact atStart_push rfl ends

/-- After text that ends in a newline the writer is at the start of a line. -/
theorem atStart_text (writer : Writer) (ends : rest.lastLine = []) :
    (writer.text (.next line rest)).AtStart := by
  unfold text
  split
  next same =>
    cases same
    exact writer.atStart_push_next ends
  next => exact writer.atStart_push_next ends
  next same =>
    cases same
    exact atStart_push rfl ends
  next => exact writer.atStart_push_next ends

theorem AtStart.finish (start : writer.AtStart) : EndsLine writer.finish.toChars := by
  rw [Writer.finish, start.pending]
  simp only
  rw [chars_lines, line, start.reversed, List.reverse_nil, List.append_nil, List.flatMap_def]
  apply endsLine_flatten
  intro text member
  obtain ⟨line, -, rfl⟩ := List.mem_map.1 member
  exact .inr List.getLast?_concat

end Writer

/-! ## Templates -/

namespace Template

/-- Filling the template leaves the writer at the start of a line, given whether it is there
before. -/
def endsLine (start : Bool) : Template → Bool
  | done => start
  | text chars rest => rest.endsLine (chars.getLast? == some '\n')
  | field _ rest => rest.endsLine false
  | choose _ _ yes no rest => rest.endsLine (yes.endsLine start && no.endsLine start)
  | each _ _ _ rest => rest.endsLine false

theorem atStart_fill (template : Template) {start : Bool} {fields : Fields}
    {writer written : Writer} (ends : template.endsLine start = true)
    (before : start = true → writer.AtStart) (filled : template.fill fields writer = .ok written) :
    written.AtStart := by
  induction template generalizing start writer written with
  | done =>
    cases filled
    exact before ends
  | text chars rest ih =>
    refine ih ends (fun newline => ?_) filled
    obtain ⟨line, others, lines, isEmpty⟩ := Lines.exists_of_getLast? (beq_iff_eq.1 newline)
    rw [lines]
    exact writer.atStart_text isEmpty
  | field name rest ih =>
    simp only [fill, except_bind_ok] at filled
    obtain ⟨value, -, text, -, filled⟩ := filled
    exact ih ends (fun never => by cases never) filled
  | choose negated name yes no rest ihYes ihNo ih =>
    simp only [fill, except_bind_ok] at filled
    obtain ⟨value, -, filled⟩ := filled
    split at filled
    all_goals obtain ⟨middle, chosen, filled⟩ := except_bind_ok.1 filled
    · exact ih ends (fun both => ihYes (Bool.and_eq_true_iff.1 both).1 before chosen) filled
    · exact ih ends (fun both => ihNo (Bool.and_eq_true_iff.1 both).2 before chosen) filled
  | each name separator item rest _ ih =>
    simp only [fill, except_bind_ok] at filled
    obtain ⟨value, -, texts, -, filled⟩ := filled
    exact ih ends (fun never => by cases never) filled

/-- The text of an object is empty or ends in a newline if its template ends its line. -/
theorem endsLine_render {name text : String} {template : Template}
    {entries : List (String × Value)} (ends : template.endsLine true = true)
    (renders : (Value.object name template entries).render = .ok text) : EndsLine text.toList := by
  obtain ⟨_, writer, same, filled, rfl⟩ := render_node_eq_ok.1 renders
  cases same
  rw [String.toList_ofList]
  exact (atStart_fill template ends (fun _ => ⟨rfl, rfl⟩) filled).finish

end Template

/-! ## Values in a row -/

/-- The text of a list begins with that of its first element. -/
theorem Value.render_list_cons {item : Value} {items : List Value} {text rest : String}
    (first : item.render = .ok text) (others : (Value.list items).render = .ok rest) :
    (Value.list (item :: items)).render = .ok (text ++ rest) := by
  have whole : (Value.list (item :: items)).render =
      (item.rendered.inserted "" "" >>= fun first =>
        (Value.list items).rendered.inserted "" "" >>= fun others =>
          pure (first ++ others)).map fun text => String.ofList text.toChars := rfl
  rw [whole]
  rw [render] at first others
  cases given : item.rendered.inserted "" "" with
  | error =>
    rw [given] at first
    cases first
  | ok lines =>
    cases given' : (Value.list items).rendered.inserted "" "" with
    | error =>
      rw [given'] at others
      cases others
    | ok more =>
      rw [given] at first
      rw [given'] at others
      cases first
      cases others
      refine congrArg Except.ok ?_
      simp only [Lines.toChars_append, String.ofList_append]

end ScriptToC
