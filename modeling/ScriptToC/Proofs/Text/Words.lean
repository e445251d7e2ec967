import ScriptToC.Text.Blank
import ScriptToC.Text.Lines

/-!
# The words of a text

The words of a text are its maximal runs of characters that are not blank. Texts with the same words
differ only in how wide the gaps between the words are. Two texts are alike if they have the same
words whatever follows them, so that they stay alike when the same text is added to both. Without
the blanks, a text is the row of its words (`flatten_words`).

A text is closed if it ends with a newline or has no characters at all. What follows a closed text
begins a new word.
-/

set_option autoImplicit false

namespace ScriptToC.Text

/-! ## Words -/

/-- The words of a text. -/
def words (text : List Char) : List (List Char) :=
  (text.splitOnP isBlank).filter (· ≠ [])

@[simp] theorem words_nil : words [] = [] := by
  simp [words, List.splitOnP_nil]

/-- A blank separates words. -/
theorem words_append_cons (before after : List Char) {c : Char} (blank : isBlank c = true) :
    words (before ++ c :: after) = words before ++ words after := by
  rw [words, List.splitOnP_append_cons before after blank, List.filter_append]
  rfl

theorem words_cons_of_isBlank (text : List Char) {c : Char} (blank : isBlank c = true) :
    words (c :: text) = words text := by
  rw [← List.nil_append (c :: text), words_append_cons [] text blank, words_nil, List.nil_append]

/-- Blanks in front of a text belong to no word. -/
theorem words_blanks_append {gap : List Char} (blank : gap.all isBlank = true) (text : List Char) :
    words (gap ++ text) = words text := by
  induction gap with
  | nil => rfl
  | cons c rest ih =>
    obtain ⟨first, others⟩ := Bool.and_eq_true_iff.1 blank
    rw [List.cons_append, words_cons_of_isBlank _ first, ih others]

@[simp] theorem words_newline_append (before after : List Char) :
    words (before ++ '\n' :: after) = words before ++ words after :=
  words_append_cons before after (by decide)

@[simp] theorem words_newline_cons (text : List Char) : words ('\n' :: text) = words text :=
  words_cons_of_isBlank text (by decide)

@[simp] theorem words_space_append (before after : List Char) :
    words (before ++ ' ' :: after) = words before ++ words after :=
  words_append_cons before after (by decide)

@[simp] theorem words_space_cons (text : List Char) : words (' ' :: text) = words text :=
  words_cons_of_isBlank text (by decide)

/-! ## Texts without blanks -/

/-- The text without its blanks. -/
def unspaced (text : List Char) : List Char :=
  text.filter fun c => !isBlank c

@[simp] theorem unspaced_append (first second : List Char) :
    unspaced (first ++ second) = unspaced first ++ unspaced second :=
  List.filter_append ..

/-- What is left of a text without its blanks are its words. -/
theorem flatten_words (text : List Char) : (words text).flatten = unspaced text := by
  rw [words, List.flatten_filter_ne_nil]
  induction text with
  | nil => rfl
  | cons c rest ih =>
    obtain ⟨piece, pieces, eq⟩ := List.exists_cons_of_ne_nil (List.splitOnP_ne_nil isBlank rest)
    rw [eq, unspaced] at ih
    rw [List.splitOnP_cons_eq_if_modifyHead, eq, unspaced, List.filter_cons, ← ih]
    by_cases blank : isBlank c = true
    · simp [blank]
    · simp [blank]

/-! ## Closed texts -/

/-- The text has no characters or ends with a newline. -/
def Closed (text : List Char) : Prop :=
  text = [] ∨ ∃ body, text = body ++ ['\n']

theorem closed_nil : Closed [] :=
  .inl rfl

theorem closed_newline (body : List Char) : Closed (body ++ ['\n']) :=
  .inr ⟨body, rfl⟩

/-- A text with something after it is closed if what comes after it is. -/
theorem Closed.append_left {text : List Char} (closed : Closed text) (notEmpty : text ≠ [])
    (before : List Char) : Closed (before ++ text) := by
  rcases closed with rfl | ⟨body, rfl⟩
  · exact absurd rfl notEmpty
  · exact .inr ⟨before ++ body, (List.append_assoc _ _ _).symm⟩

theorem Closed.append {first second : List Char} (closed : Closed first) (closed' : Closed second) :
    Closed (first ++ second) := by
  by_cases empty : second = []
  · rw [empty, List.append_nil]
    exact closed
  · exact closed'.append_left empty first

theorem closed_flatten {texts : List (List Char)} (closed : ∀ text ∈ texts, Closed text) :
    Closed texts.flatten := by
  induction texts with
  | nil => exact closed_nil
  | cons first rest ih =>
    rw [List.flatten_cons]
    apply (closed first List.mem_cons_self).append
    apply ih
    intro text member
    exact closed text (List.mem_cons_of_mem _ member)

theorem closed_iff {text : List Char} :
    Closed text ↔ ∀ c, text.getLast? = some c → c = '\n' := by
  constructor
  · rintro (rfl | ⟨body, rfl⟩) c last
    · cases last
    · rw [List.getLast?_concat] at last
      exact (Option.some.inj last).symm
  · intro ends
    rcases List.eq_nil_or_concat text with rfl | ⟨front, last, rfl⟩
    · exact closed_nil
    · rw [List.concat_eq_append] at ends ⊢
      rw [ends last List.getLast?_concat]
      exact closed_newline front

/-- Two nonempty texts end alike, so that one is closed if the other is. -/
theorem closed_append_iff {text : List Char} (notEmpty : text ≠ []) (before : List Char) :
    Closed (before ++ text) ↔ Closed text := by
  constructor
  · rintro (empty | ⟨body, eq⟩)
    · exact absurd (List.append_eq_nil_iff.1 empty).2 notEmpty
    · obtain ⟨front, last, rfl⟩ := (List.eq_nil_or_concat text).resolve_left notEmpty
      rw [List.concat_eq_append, ← List.append_assoc] at eq
      obtain ⟨-, same⟩ := List.append_inj' eq rfl
      rw [List.concat_eq_append, same]
      exact closed_newline front
  · intro closed
    exact closed.append_left notEmpty before

/-- What follows a closed text begins a new word. -/
theorem Closed.words_append {before : List Char} (closed : Closed before) (after : List Char) :
    words (before ++ after) = words before ++ words after := by
  rcases closed with rfl | ⟨body, rfl⟩
  · rfl
  · rw [List.append_assoc, List.singleton_append, words_newline_append, words_newline_append,
      words_nil, List.append_nil]

/-- Newlines between texts separate their words. -/
theorem words_intersperse (texts : List (List Char)) :
    words (texts.intersperse ['\n']).flatten = texts.flatMap words := by
  induction texts with
  | nil => exact words_nil
  | cons first rest ih =>
    cases rest with
    | nil => rw [List.intersperse_singleton, List.flatten_singleton, List.flatMap_singleton]
    | cons second rest =>
      rw [List.intersperse_cons_cons, List.flatten_cons, List.flatten_cons, List.flatMap_cons, ← ih]
      exact words_newline_append first _

/-! ## Texts that are alike -/

/-- The texts have the same words, whatever follows them. -/
def Alike (text other : List Char) : Prop :=
  ∀ after, words (text ++ after) = words (other ++ after)

theorem Alike.refl (text : List Char) : Alike text text := by
  intro after
  rfl

theorem Alike.symm {text other : List Char} (alike : Alike text other) : Alike other text := by
  intro after
  exact (alike after).symm

theorem Alike.trans {first second third : List Char} (alike : Alike first second)
    (alike' : Alike second third) : Alike first third := by
  intro after
  rw [alike after, alike' after]

theorem Alike.append {text other : List Char} (alike : Alike text other) (more : List Char) :
    Alike (text ++ more) (other ++ more) := by
  intro after
  rw [List.append_assoc, List.append_assoc]
  exact alike (more ++ after)

theorem Alike.words_eq {text other : List Char} (alike : Alike text other) :
    words text = words other := by
  have same := alike []
  rwa [List.append_nil, List.append_nil] at same

/-- One newline separates words as well as two. -/
theorem alike_two_newlines (text : List Char) : Alike (text ++ ['\n', '\n']) (text ++ ['\n']) := by
  intro after
  simp

/-- A blank line can be left out after a closed text. -/
theorem alike_blankLine {text gap : List Char} (closed : Closed text)
    (blank : gap.all isBlank = true) : Alike (text ++ gap) text := by
  intro after
  rw [List.append_assoc, closed.words_append, closed.words_append, words_blanks_append blank]

end ScriptToC.Text
