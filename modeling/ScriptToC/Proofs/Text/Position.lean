import Mathlib.Data.List.Induction
import Mathlib.Data.Prod.Lex
import Mathlib.Data.String.Basic
import ScriptToC.Text.Position

/-!
# Positions against offsets

A text is a row of ended lines and the piece that follows the last newline
(`exists_lines_append_lastPiece`). The position just after a text counts the lines and measures the
piece, so it grows with each character (`Position.after_lt_after_append`), and in a source text that
begins with the text it leads to the line in which the text ends and to a place in that line
(`Position.after_leads_back`).

The offset of a character is the size of the text before it, which is what `takeBytes` gives back
(`takeBytes_utf8Len_append`). Positions of offsets are ordered as the offsets are, and the offset
can be computed from the position (`Position.ofOffset_identifies`).
-/

set_option autoImplicit false

namespace ScriptToC.Text

/-! ## Ended lines -/

/-- A text with each line ended by a newline. -/
def endedLines (lines : List (List Char)) : List Char :=
  lines.flatMap (· ++ ['\n'])

theorem endedLines_append (first second : List (List Char)) :
    endedLines (first ++ second) = endedLines first ++ endedLines second :=
  List.flatMap_append

theorem endedLines_singleton (line : List Char) : endedLines [line] = line ++ ['\n'] :=
  List.flatMap_singleton ..

/-- A text is a row of ended lines and the piece after the last newline. -/
theorem exists_lines_append_lastPiece (text : List Char) :
    ∃ lines : List (List Char), text = endedLines lines ++ lastPiece '\n' text ∧
      (∀ line ∈ lines, '\n' ∉ line) ∧ lines.length = text.count '\n' ∧
      '\n' ∉ lastPiece '\n' text := by
  induction text using List.reverseRecOn with
  | nil => exact ⟨[], rfl, List.forall_mem_nil _, rfl, List.not_mem_nil⟩
  | append_singleton text c ih =>
    obtain ⟨lines, eq, free, count, last⟩ := ih
    by_cases ended : c = '\n'
    · subst ended
      refine ⟨lines ++ [lastPiece '\n' text], ?_, ?_, ?_, ?_⟩
      · rw [lastPiece_concat_self, List.append_nil, endedLines_append, endedLines_singleton,
          ← List.append_assoc, ← eq]
      · intro line member
        rcases List.mem_append.1 member with member | member
        · exact free line member
        · exact List.mem_singleton.1 member ▸ last
      · rw [List.length_append, count, List.count_append]
        rfl
      · rw [lastPiece_concat_self]
        exact List.not_mem_nil
    · have other : '\n' ∉ [c] := fun member => ended (List.mem_singleton.1 member).symm
      refine ⟨lines, ?_, free, ?_, ?_⟩
      · rw [lastPiece_append_of_not_mem other, ← List.append_assoc, ← eq]
      · rw [count, List.count_append, List.count_eq_zero.2 other, Nat.add_zero]
      · rw [lastPiece_append_of_not_mem other, List.mem_append, not_or]
        exact ⟨last, other⟩

/-- Ended lines are the first pieces of the text that they begin. -/
theorem split_endedLines_append {lines : List (List Char)} (free : ∀ line ∈ lines, '\n' ∉ line)
    (rest : List Char) : split '\n' (endedLines lines ++ rest) = lines ++ split '\n' rest := by
  induction lines with
  | nil => rfl
  | cons line lines ih =>
    rw [← List.singleton_append, endedLines_append, endedLines_singleton, List.append_assoc,
      List.append_assoc, List.singleton_append, split_append_cons (free line List.mem_cons_self),
      ih fun other member => free other (List.mem_cons_of_mem line member)]
    rfl

/-! ## Positions just after a text -/

/-- A longer text ends at a later position. -/
theorem Position.after_lt_after_append (text : List Char) {more : List Char}
    (nonempty : more ≠ []) :
    toLex ((after text).line, (after text).column) <
      toLex ((after (text ++ more)).line, (after (text ++ more)).column) := by
  rw [Prod.Lex.toLex_lt_toLex]
  by_cases newline : '\n' ∈ more
  · have further : text.count '\n' < (text ++ more).count '\n' := by
      rw [List.count_append]
      exact Nat.lt_add_of_pos_right (List.count_pos_iff.2 newline)
    exact .inl (Nat.succ_lt_succ further)
  · have same : text.count '\n' = (text ++ more).count '\n' := by
      rw [List.count_append, List.count_eq_zero.2 newline, Nat.add_zero]
    have longer : (lastPiece '\n' text).length < (lastPiece '\n' (text ++ more)).length := by
      rw [lastPiece_append_of_not_mem newline, List.length_append]
      exact Nat.lt_add_of_pos_right (List.length_pos_iff.2 nonempty)
    exact .inr ⟨congrArg (· + 1) same, Nat.succ_lt_succ longer⟩

/-- The position just after the beginning of a text leads to the end of that beginning: behind the
ended lines before the position's line, and as far into this line as its column says. -/
theorem Position.after_leads_back (text rest : List Char) :
    ∃ line, (split '\n' (text ++ rest))[(after text).line - 1]? = some line ∧
      (after text).column - 1 ≤ line.length ∧
      text = endedLines ((split '\n' (text ++ rest)).take ((after text).line - 1)) ++
        line.take ((after text).column - 1) := by
  obtain ⟨lines, eq, free, count, last⟩ := exists_lines_append_lastPiece text
  obtain ⟨head, tail, pieces⟩ := List.exists_cons_of_ne_nil (split_ne_nil '\n' rest)
  have whole : split '\n' (text ++ rest) = lines ++ (lastPiece '\n' text ++ head) :: tail := by
    conv_lhs => rw [eq, List.append_assoc, split_endedLines_append free,
      split_append_of_not_mem last pieces]
  have before : (after text).line - 1 = lines.length := by rw [after, count, Nat.add_sub_cancel]
  have within : (after text).column - 1 = (lastPiece '\n' text).length :=
    Nat.add_sub_cancel ..
  rw [whole, before, within]
  refine ⟨lastPiece '\n' text ++ head, ?_, ?_, ?_⟩
  · rw [List.getElem?_append_right le_rfl, Nat.sub_self]
    rfl
  · rw [List.length_append]
    exact Nat.le_add_right ..
  · rw [List.take_left, List.take_left]
    exact eq

/-! ## Positions of offsets -/

theorem takeBytes_utf8Len_append (before after : List Char) :
    takeBytes (String.utf8Len before) (before ++ after) = some before := by
  induction before with
  | nil => cases after <;> rfl
  | cons c before ih =>
    have positive : 0 < c.utf8Size := c.utf8Size_pos
    rw [List.cons_append, takeBytes, String.utf8Len_cons, if_neg (by omega), if_pos (by omega),
      Nat.add_sub_cancel, ih]
    rfl

theorem takeBytes_of_utf8Len_le {text : List Char} {size : Nat}
    (short : String.utf8Len text ≤ size) : takeBytes size text = some text := by
  induction text generalizing size with
  | nil => rfl
  | cons c text ih =>
    have positive : 0 < c.utf8Size := c.utf8Size_pos
    rw [String.utf8Len_cons] at short
    rw [takeBytes, if_neg (by omega), if_pos (by omega), ih (by omega)]
    rfl

/-- An offset between two characters has the position just after what stands before it. -/
theorem Position.ofOffset_utf8Len {source : String} {before rest : List Char}
    (eq : before ++ rest = source.toList) :
    ofOffset source (String.utf8Len before) = after before := by
  rw [ofOffset, ← eq, takeBytes_utf8Len_append]
  rfl

/-- An offset between two characters is the size of what stands before it. -/
theorem exists_append_of_isValid {source : String} {offset : Nat}
    (valid : String.Pos.Raw.IsValid source ⟨offset⟩) :
    ∃ before rest, before ++ rest = source.toList ∧ offset = String.utf8Len before := by
  obtain ⟨first, second, rfl, place⟩ := String.Pos.Raw.isValid_iff_exists_append.1 valid
  refine ⟨first.toList, second.toList, (String.toList_append ..).symm, ?_⟩
  rw [String.utf8Len_toList]
  exact congrArg String.Pos.Raw.byteIdx place

/-- **Positions identify offsets.** Of two offsets between characters the smaller one has the
smaller position, compared by line and then by column. An offset between characters is the size of
the ended lines before the line of its position, together with the part of this line that its column
says; the line exists and is that long. Offsets past the end have the position of the end. -/
theorem Position.ofOffset_identifies (source : String) :
    (∀ a b : Nat, String.Pos.Raw.IsValid source ⟨a⟩ → String.Pos.Raw.IsValid source ⟨b⟩ → a < b →
      toLex ((ofOffset source a).line, (ofOffset source a).column) <
        toLex ((ofOffset source b).line, (ofOffset source b).column)) ∧
    (∀ offset : Nat, String.Pos.Raw.IsValid source ⟨offset⟩ →
      let position := ofOffset source offset
      1 ≤ position.line ∧ 1 ≤ position.column ∧
        ∃ line, (split '\n' source.toList)[position.line - 1]? = some line ∧
          position.column - 1 ≤ line.length ∧
          offset = String.utf8Len (endedLines ((split '\n' source.toList).take (position.line - 1)))
            + String.utf8Len (line.take (position.column - 1))) ∧
    ∀ offset : Nat, source.utf8ByteSize ≤ offset →
      ofOffset source offset = ofOffset source source.utf8ByteSize ∧
        ofOffset source offset = after source.toList := by
  refine ⟨?_, ?_, ?_⟩
  · intro a b validA validB less
    obtain ⟨beforeA, restA, eqA, rfl⟩ := exists_append_of_isValid validA
    obtain ⟨beforeB, restB, eqB, rfl⟩ := exists_append_of_isValid validB
    rw [ofOffset_utf8Len eqA, ofOffset_utf8Len eqB]
    rcases List.append_eq_append_iff.1 (eqA.trans eqB.symm) with ⟨more, rfl, -⟩ | ⟨more, rfl, -⟩
    · refine after_lt_after_append beforeA ?_
      rintro rfl
      rw [List.append_nil] at less
      exact absurd less (lt_irrefl _)
    · rw [String.utf8Len_append] at less
      omega
  · intro offset valid
    obtain ⟨before, rest, eq, rfl⟩ := exists_append_of_isValid valid
    obtain ⟨line, found, within, whole⟩ := after_leads_back before rest
    rw [eq] at found whole
    rw [ofOffset_utf8Len eq]
    refine ⟨Nat.succ_pos _, Nat.succ_pos _, line, found, within, ?_⟩
    rw [← String.utf8Len_append, ← whole]
  · have past : ∀ offset, source.utf8ByteSize ≤ offset →
        ofOffset source offset = after source.toList := by
      intro offset past
      rw [ofOffset, takeBytes_of_utf8Len_le (String.utf8Len_toList source ▸ past)]
      rfl
    exact fun offset beyond => ⟨(past offset beyond).trans (past _ le_rfl).symm, past offset beyond⟩

/-- In a text with a byte order mark, a letter of two bytes, an empty line and no newline at the
end, the letter ends at byte 5 and the text at byte 8. -/
theorem Position.ofOffset_identifies_marked :
    let source := "\uFEFFé\n\nx"
    ofOffset source 5 = ⟨1, 3⟩ ∧ ofOffset source 8 = ⟨3, 2⟩ ∧
      toLex ((ofOffset source 5).line, (ofOffset source 5).column) <
        toLex ((ofOffset source 8).line, (ofOffset source 8).column) ∧
      8 = String.utf8Len (endedLines ["\uFEFFé".toList, []]) + String.utf8Len ['x'] ∧
      ofOffset source 99 = ofOffset source source.utf8ByteSize := by
  intro source
  have inside : String.Pos.Raw.IsValid source ⟨5⟩ := by decide +kernel
  have atEnd : String.Pos.Raw.IsValid source ⟨8⟩ := by decide +kernel
  obtain ⟨ordered, recovered, past⟩ := Position.ofOffset_identifies source
  have five : ofOffset source 5 = ⟨1, 3⟩ := by decide +kernel
  have eight : ofOffset source 8 = ⟨3, 2⟩ := by decide +kernel
  have pieces : split '\n' source.toList = ["\uFEFFé".toList, [], ['x']] := by decide +kernel
  obtain ⟨-, -, line, found, -, size⟩ := recovered 8 atEnd
  rw [eight, pieces] at found size
  cases Option.some.inj found
  exact ⟨five, eight, ordered 5 8 inside atEnd (by decide), size, (past 99 (by decide +kernel)).1⟩

end ScriptToC.Text
