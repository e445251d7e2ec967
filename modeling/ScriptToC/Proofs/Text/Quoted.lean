import Mathlib.Algebra.Ring.Parity
import Mathlib.Data.List.Induction
import ScriptToC.Text.Quoted

/-!
# Reading string literals

C reads a string literal from its opening quote to the first quote that no backslash escapes
(`readLiteral?`). A literal with a bare line break in it, or with a backslash that begins no escape,
is none. Trigraphs are taken for what they are.

A quoted text is one literal, whatever follows it, and stands for the text (`readLiteral?_literal`).
Behind each quote in it stands an odd run of backslashes, and behind the one that closes it an even
run, as every backslash of the text is written twice (`literal_faithful`).
-/

set_option autoImplicit false

namespace ScriptToC.Text.Quoted

/-! ## Reading -/

/-- The character that a backslash stands for together with another character. -/
def simpleEscape? : Char → Option Char
  | '"' => some '"'
  | '\x27' => some '\x27'
  | '?' => some '?'
  | '\\' => some '\\'
  | 'a' => some '\x07'
  | 'b' => some '\x08'
  | 'f' => some '\x0c'
  | 'n' => some '\n'
  | 'r' => some '\r'
  | 't' => some '\t'
  | 'v' => some '\x0b'
  | _ => none

/-- What a literal stands for and what comes after it, read from behind its opening quote or from
behind a backslash in it. Escapes that give a character by its number are not read. -/
def readInside? : (escaped : Bool) → List Char → Option (List Char × List Char)
  | _, [] => none
  | true, l :: rest =>
    (simpleEscape? l).bind fun c => (readInside? false rest).map (Prod.map (c :: ·) id)
  | false, c :: rest =>
    if c = '"' then some ([], rest)
    else if c = '\\' then readInside? true rest
    else if c = '\n' ∨ c = '\r' then none
    else (readInside? false rest).map (Prod.map (c :: ·) id)

/-- What the literal at the head of a text stands for, and what comes after it. -/
def readLiteral? : List Char → Option (List Char × List Char)
  | '"' :: rest => readInside? false rest
  | _ => none

theorem simpleEscape?_of_letter {c l : Char} (written : letter c = some l) :
    simpleEscape? l = some c := by
  unfold letter at written
  split at written <;> cases written <;> rfl

theorem readInside?_encode (text rest : List Char) :
    readInside? false (encode text ++ '"' :: rest) = some (text, rest) := by
  induction text with
  | nil => rfl
  | cons c text ih =>
    rw [encode]
    split
    next l written =>
      change ((simpleEscape? l).bind fun c => (readInside? false (encode text ++ '"' :: rest)).map
        (Prod.map (c :: ·) id)) = _
      rw [simpleEscape?_of_letter written, ih]
      rfl
    next plain =>
      obtain ⟨noQuote, noBackslash, noBreak⟩ := plain_of_letter plain
      rw [List.cons_append, readInside?, if_neg noQuote, if_neg noBackslash, if_neg noBreak, ih]
      rfl

/-- A quoted text is read as the text, whatever follows it. -/
theorem readLiteral?_literal (text : String) (rest : List Char) :
    readLiteral? ((literal text).toList ++ rest) = some (text.toList, rest) := by
  rw [literal, String.toList_ofList, List.append_assoc]
  exact readInside?_encode text.toList rest

theorem literal_injective : Function.Injective literal := by
  intro text other same
  have read := readLiteral?_literal text []
  rw [same, readLiteral?_literal other [], Option.some.injEq, Prod.mk.injEq] at read
  exact String.toList_inj.1 read.1.symm

/-! ## Runs of backslashes -/

/-- The number of backslashes at the end of a text. -/
def backslashes (text : List Char) : Nat :=
  (text.reverse.takeWhile (· = '\\')).length

theorem backslashes_concat (text : List Char) (c : Char) :
    backslashes (text ++ [c]) = if c = '\\' then backslashes text + 1 else 0 := by
  rw [backslashes, List.reverse_append, List.reverse_singleton, List.singleton_append,
    List.takeWhile_cons]
  split <;> rename_i same <;> simp_all [backslashes]

/-- An encoded text ends with an even number of backslashes. -/
theorem even_backslashes_encode (text : List Char) : Even (backslashes (encode text)) := by
  induction text using List.reverseRecOn with
  | nil => exact Even.zero
  | append_singleton text c ih =>
    rw [encode_append, encode]
    split
    next l written =>
      rw [encode, List.append_cons, backslashes_concat]
      split
      · rw [backslashes_concat, if_pos rfl]
        exact ih.add (by decide : Even 2)
      · exact Even.zero
    next plain =>
      rw [encode, backslashes_concat, if_neg (plain_of_letter plain).2.1]
      exact Even.zero

/-- A quote in an encoded text stands behind the backslash that escapes it, which stands behind the
encoded text up to there. -/
theorem exists_encode_of_quote {text before after : List Char}
    (quote : encode text = before ++ '"' :: after) :
    ∃ first, before = encode first ++ ['\\'] := by
  induction text generalizing before with
  | nil => cases before <;> cases quote
  | cons c text ih =>
    rw [encode] at quote
    split at quote
    next l written =>
      rcases List.cons_eq_append_iff.1 quote with ⟨-, absurd⟩ | ⟨before, rfl, behind⟩
      · cases absurd
      · rcases List.cons_eq_append_iff.1 behind with ⟨rfl, -⟩ | ⟨before, rfl, later⟩
        · exact ⟨[], rfl⟩
        · obtain ⟨first, rfl⟩ := ih later
          refine ⟨c :: first, ?_⟩
          rw [encode, written]
          rfl
    next plain =>
      rcases List.cons_eq_append_iff.1 quote with ⟨-, same⟩ | ⟨before, rfl, later⟩
      · cases same
        cases plain
      · obtain ⟨first, rfl⟩ := ih later
        refine ⟨c :: first, ?_⟩
        rw [encode, plain]
        rfl

/-- In an encoded text no character is left that is written by a letter, but for quotes and
backslashes. -/
theorem letter_of_mem_encode {text : List Char} {c : Char} (member : c ∈ encode text) :
    letter c = none ∨ c = '"' ∨ c = '\\' := by
  have letters : ∀ {c l : Char}, letter c = some l → letter l = none ∨ l = '"' ∨ l = '\\' := by
    intro c l written
    unfold letter at written
    split at written <;> cases written <;> decide
  induction text with
  | nil => cases member
  | cons first rest ih =>
    rw [encode] at member
    split at member
    next l written =>
      rcases List.mem_cons.1 member with rfl | member
      · exact .inr (.inr rfl)
      · rcases List.mem_cons.1 member with rfl | member
        · exact letters written
        · exact ih member
    next plain =>
      rcases List.mem_cons.1 member with rfl | member
      · exact .inl plain
      · exact ih member

theorem newline_notMem_encode (text : List Char) : '\n' ∉ encode text :=
  fun member => absurd (letter_of_mem_encode member) (by decide)

/-- A literal stands on one line. -/
theorem newline_notMem_literal (text : String) : '\n' ∉ (literal text).toList := by
  simp [literal, newline_notMem_encode]

/-! ## Faithful encoding -/

/-- **A quoted text is a faithful literal.** It begins with a quote and ends with a quote. Between
them there is no line break; each quote stands behind an odd run of backslashes and the last one
behind an even run. Whatever follows it, C reads it as one literal that stands for the text, so that
different texts have different literals. -/
theorem literal_faithful :
    (∀ text : String, ∃ inside : List Char, (literal text).toList = '"' :: inside ++ ['"'] ∧
      '\n' ∉ inside ∧ '\r' ∉ inside ∧
      (∀ before after, inside = before ++ '"' :: after → Odd (backslashes before)) ∧
      Even (backslashes inside) ∧
      ∀ rest, readLiteral? ((literal text).toList ++ rest) = some (text.toList, rest)) ∧
    Function.Injective literal := by
  refine ⟨fun text => ⟨encode text.toList, ?_, ?_, ?_, ?_, ?_, ?_⟩, literal_injective⟩
  · rw [literal, String.toList_ofList]
  · exact newline_notMem_encode text.toList
  · intro member
    exact absurd (letter_of_mem_encode member) (by decide)
  · intro before after quote
    obtain ⟨first, rfl⟩ := exists_encode_of_quote quote
    rw [backslashes_concat, if_pos rfl]
    exact (even_backslashes_encode first).add_one
  · exact even_backslashes_encode text.toList
  · exact readLiteral?_literal text

/-- A backslash and a quote that follow one another, and a backslash at the end. -/
theorem literal_faithful_path :
    literal "C:\\\"x\\" = "\"C:\\\\\\\"x\\\\\"" ∧ Odd (backslashes "C:\\\\\\".toList) ∧
      readLiteral? ((literal "C:\\\"x\\").toList ++ "\"".toList) =
        some ("C:\\\"x\\".toList, "\"".toList) := by
  obtain ⟨inside, shape, -, -, odd, -, read⟩ := literal_faithful.1 "C:\\\"x\\"
  have same : inside = "C:\\\\\\".toList ++ '"' :: "x\\\\".toList := by
    have given : (literal "C:\\\"x\\").toList =
        '"' :: ("C:\\\\\\".toList ++ '"' :: "x\\\\".toList) ++ ['"'] := by decide +kernel
    rw [given] at shape
    exact (List.append_cancel_right (List.cons.inj shape).2).symm
  exact ⟨by decide +kernel, odd _ _ same, read _⟩

end ScriptToC.Text.Quoted
