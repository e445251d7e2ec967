/-!
# Splitting a text at a character

A text is a row of pieces separated by a character: a text in which the character stands `n` times
has `n + 1` pieces, any of which may be empty. Joining the pieces again gives the text back
(`join_split`).
-/

set_option autoImplicit false

namespace ScriptToC.Text

/-- The pieces of a text between the occurrences of `mark`. There is always at least one. -/
def split (mark : Char) : List Char → List (List Char)
  | [] => [[]]
  | c :: rest =>
    if c = mark then
      [] :: split mark rest
    else
      match split mark rest with
      | [] => [[c]]
      | piece :: pieces => (c :: piece) :: pieces

/-- The text with the given pieces. -/
def join (mark : Char) (pieces : List (List Char)) : List Char :=
  [mark].intercalate pieces

/-- A text has at least one piece. -/
theorem split_ne_nil (mark : Char) (text : List Char) : split mark text ≠ [] := by
  cases text with
  | nil => simp [split]
  | cons c rest =>
    rw [split]
    split
    · simp
    · split <;> simp

/-- Joining puts the mark between two pieces. -/
theorem join_cons_cons (mark : Char) (piece next : List Char) (pieces : List (List Char)) :
    join mark (piece :: next :: pieces) = piece ++ mark :: join mark (next :: pieces) := by
  simp [join, List.intercalate]

/-- Joining the pieces of a text gives the text back. -/
theorem join_split (mark : Char) (text : List Char) : join mark (split mark text) = text := by
  induction text with
  | nil => rfl
  | cons c rest ih =>
    obtain ⟨piece, pieces, eq⟩ := List.exists_cons_of_ne_nil (split_ne_nil mark rest)
    rw [split, eq]
    split
    · next same => subst same; rw [join_cons_cons, ← eq, ih]; rfl
    · rw [eq] at ih
      cases pieces with
      | nil => simpa [join, List.intercalate] using ih
      | cons next pieces => simpa [join_cons_cons] using ih

/-- The mark does not occur in a piece. -/
theorem not_mem_of_mem_split {mark : Char} {text piece : List Char}
    (member : piece ∈ split mark text) : mark ∉ piece := by
  induction text generalizing piece with
  | nil =>
    rw [split, List.mem_singleton] at member
    exact member ▸ List.not_mem_nil
  | cons c rest ih =>
    obtain ⟨first, pieces, eq⟩ := List.exists_cons_of_ne_nil (split_ne_nil mark rest)
    rw [eq] at ih
    rw [split, eq] at member
    split at member
    next =>
      rcases List.mem_cons.1 member with rfl | member
      · exact List.not_mem_nil
      · exact ih member
    next other =>
      rcases List.mem_cons.1 member with rfl | member
      · rw [List.mem_cons, not_or]
        exact ⟨fun same => other same.symm, ih List.mem_cons_self⟩
      · exact ih (List.mem_cons_of_mem first member)

/-- A text without the mark lengthens the first piece of what follows it. -/
theorem split_append_of_not_mem {mark : Char} {front : List Char} (free : mark ∉ front)
    {rest piece : List Char} {pieces : List (List Char)} (eq : split mark rest = piece :: pieces) :
    split mark (front ++ rest) = (front ++ piece) :: pieces := by
  induction front with
  | nil => exact eq
  | cons c front ih =>
    obtain ⟨other, free⟩ := List.ne_and_not_mem_of_not_mem_cons free
    rw [List.cons_append, split, if_neg (Ne.symm other), ih free]
    rfl

/-- A piece that the mark ends. -/
theorem split_append_cons {mark : Char} {piece : List Char} (free : mark ∉ piece)
    (rest : List Char) : split mark (piece ++ mark :: rest) = piece :: split mark rest := by
  have ended : split mark (mark :: rest) = [] :: split mark rest := by rw [split, if_pos rfl]
  rw [split_append_of_not_mem free ended, List.append_nil]

/-- A text is split into the pieces that it was joined from, if the mark is in none of them. -/
theorem split_join {mark : Char} {pieces : List (List Char)} (some : pieces ≠ [])
    (free : ∀ piece ∈ pieces, mark ∉ piece) : split mark (join mark pieces) = pieces := by
  induction pieces with
  | nil => exact absurd rfl some
  | cons piece pieces ih =>
    have here := free piece List.mem_cons_self
    cases pieces with
    | nil => simpa [join] using split_append_of_not_mem here (rfl : split mark [] = [[]])
    | cons next pieces =>
      rw [join_cons_cons, split_append_cons here, ih (List.cons_ne_nil _ _)
        fun other member => free other (List.mem_cons_of_mem _ member)]

/-- What follows the last occurrence of the mark. -/
def lastPiece (mark : Char) (text : List Char) : List Char :=
  (text.reverse.takeWhile (· ≠ mark)).reverse

/-- Nothing follows the mark at the end of a text. -/
@[simp] theorem lastPiece_concat_self (mark : Char) (text : List Char) :
    lastPiece mark (text ++ [mark]) = [] := by
  simp [lastPiece]

/-- A text without the mark lengthens the last piece of what stands before it. -/
theorem lastPiece_append_of_not_mem {mark : Char} {rest : List Char} (free : mark ∉ rest)
    (text : List Char) : lastPiece mark (text ++ rest) = lastPiece mark text ++ rest := by
  have all : ∀ c ∈ rest.reverse, decide (c ≠ mark) = true := fun c member =>
    decide_eq_true fun same => free (List.mem_reverse.1 (same ▸ member))
  rw [lastPiece, List.reverse_append, List.takeWhile_append_of_pos all, List.reverse_append,
    List.reverse_reverse, lastPiece]

end ScriptToC.Text
