import ScriptToC.Proofs.Template.Filling
import ScriptToC.Text.Split

/-!
# What the writer keeps

The writer takes whole lines away, and only such lines as hold nothing but blanks. So a part of a
line that is not blank stays where it was put: it stands on one of the lines above, or on a current
line that is not held back (`Writer.Keeps`). Writing more keeps it (`Writer.Keeps.text`,
`Writer.Keeps.value`), a value that is inserted brings the parts of its lines along
(`Writer.keeps_value`), and the finished text has what the writer kept (`Writer.Keeps.finish`).
-/

set_option autoImplicit false

namespace ScriptToC

open Text

variable {part : List Char}

/-! ## Parts of lines -/

namespace Text

/-- Each of the pieces stands in the text that they are joined to. -/
theorem infix_join (mark : Char) {pieces : List (List Char)} (member : part ∈ pieces) :
    part <:+: join mark pieces := by
  induction pieces with
  | nil => cases member
  | cons first pieces ih =>
    cases pieces with
    | nil =>
      obtain rfl := List.mem_singleton.1 member
      simp [join]
    | cons next pieces =>
      rw [join_cons_cons]
      rcases List.mem_cons.1 member with rfl | inside
      · exact List.infix_append_left
      · exact List.infix_append_of_infix_right (List.infix_cons (ih inside))

theorem infix_of_mem_split {mark : Char} {text : List Char} (member : part ∈ split mark text) :
    part <:+: text := by
  have joined := infix_join mark member
  rwa [join_split] at joined

/-- A part without the mark lies on one side of it. -/
theorem infix_around {mark : Char} {before after : List Char} (free : mark ∉ part)
    (inside : part <:+: before ++ mark :: after) : part <:+: before ∨ part <:+: after := by
  rcases List.infix_append_iff.1 inside with front | back | ⟨first, second, rfl, ends, starts⟩
  · exact .inl front
  · rcases List.infix_cons_iff.1 back with starts | back
    · rcases List.prefix_cons_iff.1 starts with rfl | ⟨rest, rfl, -⟩
      · exact .inl List.nil_infix
      · exact absurd List.mem_cons_self free
    · exact .inr back
  · rcases List.prefix_cons_iff.1 starts with rfl | ⟨rest, rfl, -⟩
    · rw [List.append_nil]
      exact .inl ends.isInfix
    · exact absurd (List.mem_append_right first List.mem_cons_self) free

namespace Lines

/-- The part stands on one of the lines. -/
def Has (part : List Char) : Lines → Prop
  | last line => part <:+: line
  | next line rest => part <:+: line ∨ rest.Has part

variable {first second text : Lines}

theorem Has.append_left (has : first.Has part) : (first ++ second).Has part := by
  induction first with
  | last line =>
    cases second with
    | last other => exact List.infix_append_of_infix_left has
    | next other rest => exact .inl (List.infix_append_of_infix_left has)
  | next line rest ih =>
    rcases has with here | has
    · exact .inl here
    · exact .inr (ih has)

theorem Has.append_right (has : second.Has part) : (first ++ second).Has part := by
  induction first with
  | last line =>
    cases second with
    | last other => exact List.infix_append_of_infix_right has
    | next other rest => exact has.imp_left List.infix_append_of_infix_right
  | next line rest ih => exact .inr ih

theorem Has.concat {texts : List Lines} (has : text.Has part) (member : text ∈ texts) :
    (concat texts).Has part := by
  induction texts with
  | nil => cases member
  | cons first rest ih =>
    rcases List.mem_cons.1 member with rfl | inside
    · exact has.append_left
    · exact (ih inside).append_right

/-- A part without a newline stands in a text if it stands on one of the lines. -/
theorem has_iff (free : '\n' ∉ part) : text.Has part ↔ part <:+: text.toChars := by
  induction text with
  | last line => exact Iff.rfl
  | next line rest ih =>
    rw [Has, ih, toChars]
    constructor
    · rintro (here | below)
      · exact List.infix_append_of_infix_left here
      · exact List.infix_append_of_infix_right (List.infix_cons below)
    · exact infix_around free

theorem Has.indent (has : text.Has part) (gap : List Char) : (text.indent gap).Has part := by
  have moved : ∀ {line : List Char}, part <:+: line →
      part <:+: if line.isEmpty then line else gap ++ line := by
    intro line inside
    split
    · exact inside
    · exact List.infix_append_of_infix_right inside
  induction text with
  | last line => exact moved has
  | next line rest ih => exact has.imp moved ih

theorem Has.dropFinalNewline? {body : Lines} (has : text.Has part) (some : part ≠ [])
    (dropped : text.dropFinalNewline? = .some body) : body.Has part := by
  induction text generalizing body with
  | last line => cases dropped
  | next line rest ih =>
    unfold Lines.dropFinalNewline? at dropped
    split at dropped
    next => cases dropped
    next same =>
      cases same
      cases dropped
      rcases has with here | below
      · exact here
      · exact absurd (List.infix_nil.1 below) some
    next _ _ _ same =>
      cases same
      obtain ⟨shorter, eq, rfl⟩ := Option.map_eq_some_iff.1 dropped
      exact has.imp_right fun below => ih below eq

end Lines

end Text

/-! ## Writers -/

namespace Writer

variable {writer : Writer}

/-- The part stands on a line of the writer that is not held back. -/
def Keeps (writer : Writer) (part : List Char) : Prop :=
  (∃ line ∈ writer.above, part <:+: line) ∨ (part <:+: writer.line ∧ writer.pending ≠ .blankLine)

/-- A line that is pushed keeps what stands before it and has what stands on it. -/
theorem keeps_pushed (above : List (List Char)) {reversed text : List Char}
    (inside : part <:+: reversed.reverse ++ text) :
    Keeps ⟨above, text.reverse ++ reversed, .nothing⟩ part := by
  right
  have free : Pending.nothing ≠ .blankLine := by decide
  rw [line, List.reverse_append, List.reverse_reverse]
  exact ⟨inside, free⟩

theorem Keeps.push (keeps : writer.Keeps part) (more : Lines) : (writer.push more).Keeps part := by
  induction more generalizing writer with
  | last text =>
    rcases keeps with above | ⟨here, -⟩
    · exact .inl above
    · exact keeps_pushed _ (List.infix_append_of_infix_left here)
  | next text rest ih =>
    apply ih
    left
    rcases keeps with ⟨line, member, inside⟩ | ⟨here, -⟩
    · exact ⟨line, List.mem_cons_of_mem _ member, inside⟩
    · exact ⟨_, List.mem_cons_self, List.infix_append_of_infix_left here⟩

/-- What is pushed is kept. -/
theorem keeps_push (writer : Writer) {text : Lines} (has : text.Has part) :
    (writer.push text).Keeps part := by
  induction text generalizing writer with
  | last text => exact keeps_pushed _ (List.infix_append_of_infix_right has)
  | next text rest ih =>
    rcases has with here | below
    · have above : Keeps ⟨(writer.line ++ text) :: writer.above, [], .nothing⟩ part :=
        .inl ⟨_, List.mem_cons_self, List.infix_append_of_infix_right here⟩
      exact above.push rest
    · exact ih _ below

/-- A newline that is held back does not hold back the line before it. -/
theorem Keeps.endLine (keeps : writer.Keeps part) :
    ({ writer with pending := .newline }).Keeps part := by
  have free : Pending.newline ≠ .blankLine := by decide
  exact keeps.imp_right fun here => ⟨here.1, free⟩

/-- If the current line is held back, the part stands above it. -/
theorem Keeps.clearLine (keeps : writer.Keeps part) (held : writer.pending = .blankLine) :
    writer.clearLine.Keeps part :=
  .inl (keeps.resolve_right fun here => here.2 held)

theorem Keeps.text (keeps : writer.Keeps part) (more : Lines) : (writer.text more).Keeps part := by
  unfold Writer.text
  split
  · exact keeps.push _
  · exact keeps.push _
  next held => exact (keeps.clearLine held).push _
  · exact keeps.push _

theorem has_reindent (writer : Writer) {text : Lines} (has : text.Has part) :
    (writer.reindent text).Has part := by
  cases text with
  | last line => exact has
  | next line rest =>
    rw [reindent_next]
    exact has.imp_right fun below => Lines.Has.indent below _

section Values

variable (visible : part.all isBlank = false)
include visible

theorem ne_nil_of_visible : part ≠ [] := by
  rintro rfl
  cases visible

/-- Only a line of blanks is held back. -/
theorem Keeps.hold (keeps : writer.Keeps part) (blank : writer.reversed.all isBlank = true) :
    ({ writer with pending := .blankLine }).Keeps part := by
  rcases keeps with above | ⟨⟨before, after, here⟩, -⟩
  · exact .inl above
  · rw [← List.all_reverse, ← line, ← here, List.all_append, List.all_append, visible] at blank
    simp at blank

theorem Keeps.value (keeps : writer.Keeps part) (more : Lines) :
    (writer.value more).Keeps part := by
  have released := keeps.push (if writer.pending = .newline then .newline else .empty)
  rw [Writer.value]
  generalize writer.push _ = writer at released
  split
  · split
    next blank => exact released.hold visible blank
    next => exact released
  · split
    next body _ =>
      exact (released.push (writer.reindent body)).endLine
    next => exact released.push _

/-- A value that is inserted is kept. -/
theorem keeps_value (writer : Writer) {text : Lines} (has : text.Has part) :
    (writer.value text).Keeps part := by
  have some := ne_nil_of_visible visible
  have full : text.isEmpty = false := by
    cases text with
    | last line =>
      cases line with
      | nil => exact absurd (List.infix_nil.1 has) some
      | cons c line => rfl
    | next line rest => cases line <;> rfl
  rw [Writer.value, full]
  generalize writer.push _ = writer
  cases dropped : text.dropFinalNewline? with
  | none => exact keeps_push writer (writer.has_reindent has)
  | some body =>
    have shorter := has.dropFinalNewline? some dropped
    exact (keeps_push writer (writer.has_reindent shorter)).endLine

end Values

theorem has_lines (writer : Writer)
    (shown : (∃ line ∈ writer.above, part <:+: line) ∨ part <:+: writer.line) :
    writer.lines.Has part := by
  rw [lines]
  obtain ⟨above, reversed, pending⟩ := writer
  have step : ∀ rest : Lines, ((∃ line ∈ above, part <:+: line) ∨ rest.Has part) →
      (above.foldl (fun rest line => Lines.next line rest) rest).Has part := by
    clear shown
    induction above with
    | nil =>
      rintro rest (⟨_, ⟨⟩, -⟩ | below)
      exact below
    | cons first above ih =>
      rintro rest (⟨line, member, inside⟩ | below)
      · rcases List.mem_cons.1 member with rfl | member
        · exact ih _ (.inr (.inl inside))
        · exact ih _ (.inl ⟨line, member, inside⟩)
      · exact ih _ (.inr (.inr below))
  exact step _ shown

/-- The finished text has what was kept. -/
theorem Keeps.finish (keeps : writer.Keeps part) : writer.finish.Has part := by
  have shown : ∀ {writer : Writer}, writer.Keeps part → writer.lines.Has part :=
    fun keeps => has_lines _ (keeps.imp_right And.left)
  rw [Writer.finish]
  split
  · exact shown keeps
  · exact shown (keeps.push .newline)
  next held => exact shown (keeps.clearLine held)

end Writer

/-! ## Templates -/

theorem except_bind_ok {ε α β : Type} {m : Except ε α} {next : α → Except ε β} {b : β} :
    m >>= next = .ok b ↔ ∃ a, m = .ok a ∧ next a = .ok b := by
  cases m with
  | error cause => exact ⟨nofun, fun ⟨_, given, _⟩ => nomatch given⟩
  | ok a => exact ⟨fun run => ⟨a, rfl, run⟩, fun ⟨_, given, run⟩ => Except.ok.inj given ▸ run⟩

/-- Filling a template keeps what was written before. -/
theorem Template.keeps_fill (visible : part.all isBlank = false) (template : Template)
    {fields : Fields} {writer writer' : Writer} (keeps : writer.Keeps part)
    (filled : template.fill fields writer = .ok writer') : writer'.Keeps part := by
  induction template generalizing writer writer' with
  | done =>
    cases filled
    exact keeps
  | text chars rest ih => exact ih (keeps.text _) filled
  | field name rest ih =>
    simp only [fill, except_bind_ok] at filled
    obtain ⟨value, -, text, -, filled⟩ := filled
    exact ih (keeps.value visible text) filled
  | choose negated name yes no rest ihYes ihNo ih =>
    simp only [fill, except_bind_ok] at filled
    obtain ⟨value, -, filled⟩ := filled
    split at filled
    all_goals obtain ⟨middle, chosen, filled⟩ := except_bind_ok.1 filled
    · exact ih (ihYes keeps chosen) filled
    · exact ih (ihNo keeps chosen) filled
  | each name separator item rest _ ih =>
    simp only [fill, except_bind_ok] at filled
    obtain ⟨value, -, texts, -, filled⟩ := filled
    exact ih (keeps.value visible _) filled

end ScriptToC
