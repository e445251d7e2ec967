import ScriptToC.Ir.Expr
import Mathlib.Data.List.Chain
import Mathlib.Data.List.Nodup

/-!
# The lexemes of C expressions

How C splits the text of an expression: white space is skipped, and at every other place the longest
piece is taken that is a word, a number, a string literal or a mark. Marks that no expression here
has are known too, with the two openings of comments among them, because they are taken where they
are longer. Only the dot is left out: what begins with it is a number.

A text is split in one way at most (`Lexes.unique`). Whether a lexeme stands at the head of a text
is decided by the lexeme and by what comes next (`Lexes.cons_iff`): a word ends where no more
letters or digits come, a number reaches over a sign after an exponent letter, and a mark must not
be the head of a longer one.
-/

set_option autoImplicit false

namespace ScriptToC

open Ir

/-! ## Marks -/

/-- An operator between two operands. -/
inductive InnerOp
  | strict (op : BinaryOp)
  | lazy (op : LogicalOp)
  deriving DecidableEq, Repr

/-- The C spelling of an operator between two operands. -/
def InnerOp.spelling : InnerOp → String
  | strict op => op.spelling
  | lazy op => op.spelling

/-- A mark of the text of C. -/
inductive Mark
  | openParen
  | closeParen
  | openBracket
  | closeBracket
  | comma
  | question
  | colon
  | arrow
  | not
  | bitNot
  | update (op : UpdateOp)
  | inner (op : InnerOp)
  /-- An assignment, with an operator if it is a compound one. -/
  | assign (op : Option BinaryOp)
  /-- A mark that no expression here has. -/
  | foreign (text : String)
  deriving DecidableEq, Repr

namespace Mark

/-- The C spelling of a mark. -/
def spelling : Mark → String
  | openParen => "("
  | closeParen => ")"
  | openBracket => "["
  | closeBracket => "]"
  | comma => ","
  | question => "?"
  | colon => ":"
  | arrow => "->"
  | not => "!"
  | bitNot => "~"
  | update op => op.spelling
  | inner op => op.spelling
  | assign op => op.elim "" BinaryOp.spelling ++ "="
  | foreign text => text

/-- The characters of a mark. -/
def chars (m : Mark) : List Char :=
  m.spelling.toList

/-- The marks of C. -/
def all : List Mark :=
  [openParen, closeParen, openBracket, closeBracket, comma, question, colon, arrow, not, bitNot,
    update .increment, update .decrement] ++
  [.add, .sub, .mul, .div, .rem, .lt, .le, .gt, .ge, .eq, .ne, .bitAnd, .bitOr, .bitXor, .shl,
    .shr].map (fun op => inner (.strict op)) ++
  [inner (.lazy .and), inner (.lazy .or), assign none] ++
  [.add, .sub, .mul, .div, .rem, .bitAnd, .bitOr, .bitXor, .shl, .shr].map
    (fun op => assign (some op)) ++
  ["\x7b", "\x7d", ";", "#", "##", "<:", ":>", "<%", "%>", "%:", "%:%:", "/*",
    "//"].map foreign

/-- What a longer mark can have right after this one. -/
def nexts (m : Mark) : List Char :=
  all.filterMap fun other => (m.chars.isPrefixOf? other.chars).bind List.head?

/-- The characters that marks begin with. -/
def firsts : List Char :=
  "[](),?:~!+-*/%<>=&^|;#\x7b\x7d".toList

/-- The marks begin as marks do. -/
theorem head?_mem_firsts : ∀ m ∈ all, ∃ c ∈ firsts, m.chars.head? = some c := by
  have begins : ∀ m ∈ all, m.chars.head?.any firsts.contains = true := by decide +kernel
  intro m known
  obtain ⟨c, first, among⟩ := (Option.any_eq_true _ _).1 (begins m known)
  exact ⟨c, List.contains_iff_mem.1 among, first⟩

/-- Different marks are spelled differently. -/
theorem nodup_chars : (all.map chars).Nodup := by
  decide +kernel

theorem chars_injective {m other : Mark} (known : m ∈ all) (otherKnown : other ∈ all)
    (same : m.chars = other.chars) : m = other :=
  List.inj_on_of_nodup_map nodup_chars known otherKnown same

theorem inner_mem_all (op : InnerOp) : inner op ∈ all := by
  rcases op with op | op <;> cases op <;> decide

/-- An assignment is a mark of C unless it carries a comparison. -/
theorem assign_mem_all_iff (op : Option BinaryOp) :
    assign op ∈ all ↔ ∀ carried ∈ op, carried.isComparison = false := by
  rcases op with _ | op
  · simpa using (by decide : assign none ∈ all)
  · cases op <;> decide

end Mark

/-! ## Words, numbers and literals -/

/-- A character that a word can begin with. -/
def beginsWord (c : Char) : Bool :=
  c.isAlpha || c = '_' || c = '$' || 128 ≤ c.toNat

/-- A character that a word can contain. -/
def isWordChar (c : Char) : Bool :=
  beginsWord c || c.isDigit

/-- The text is a word. -/
def isWord (text : String) : Bool :=
  text.toList.head?.any beginsWord && text.toList.all isWordChar

/-- A word goes on with characters of words. -/
theorem isWord_append {text more : String} (word : isWord text = true)
    (others : ∀ c ∈ more.toList, isWordChar c = true) : isWord (text ++ more) = true := by
  obtain ⟨begins, all⟩ := Bool.and_eq_true_iff.1 word
  obtain ⟨c, first, begins⟩ := (Option.any_eq_true ..).1 begins
  rw [isWord, String.toList_append, List.head?_append, first, Option.some_or, List.all_append, all,
    List.all_eq_true.2 others, Option.any_some, begins]
  rfl

/-- The character announces an exponent, which may have a sign. -/
def announcesExponent (c : Char) : Bool :=
  c = 'e' || c = 'E' || c = 'p' || c = 'P'

/-- A number goes on with the second character after the first one. -/
def continuesNumber (before c : Char) : Bool :=
  isWordChar c || c = '.' || ((c = '+' || c = '-') && announcesExponent before)

/-- The text begins as numbers do. -/
def beginsNumber : List Char → Bool
  | c :: rest => c.isDigit || (c = '.' && rest.head?.any Char.isDigit)
  | [] => false

theorem ne_nil_of_beginsNumber {text : List Char} (begins : beginsNumber text = true) :
    text ≠ [] := by
  rintro rfl
  cases begins

theorem beginsNumber_append {text : List Char} (begins : beginsNumber text = true)
    (more : List Char) : beginsNumber (text ++ more) = true := by
  rcases text with _ | ⟨c, rest⟩
  · cases begins
  · rw [beginsNumber, Bool.or_eq_true, Bool.and_eq_true, Option.any_eq_true] at begins
    rw [List.cons_append, beginsNumber, Bool.or_eq_true, Bool.and_eq_true, Option.any_eq_true]
    rcases begins with digit | ⟨point, next, first, digit⟩
    · exact .inl digit
    · exact .inr ⟨point, next, by simp [first], digit⟩

/-- The text is a number. Every number of C is one, and a few texts more, which C does not split
either. -/
def isNumber (text : String) : Prop :=
  beginsNumber text.toList = true ∧
    text.toList.IsChain fun before c => continuesNumber before c = true

/-- The text is what follows the opening quote of a literal, or a backslash in one. -/
def endsLiteral : (escaped : Bool) → List Char → Bool
  | _, [] => false
  | true, _ :: rest => endsLiteral false rest
  | false, c :: rest =>
    if c = '"' then rest.isEmpty
    else if c = '\\' then endsLiteral true rest
    else c ≠ '\n' && endsLiteral false rest

/-- The text is a string literal. -/
def isLiteral (text : String) : Bool :=
  text.toList.head? = some '"' && endsLiteral false text.toList.tail

/-- One literal is not the head of another. -/
theorem eq_nil_of_endsLiteral_append {text more : List Char} {escaped : Bool}
    (ends : endsLiteral escaped text = true) (longer : endsLiteral escaped (text ++ more) = true) :
    more = [] := by
  induction text generalizing escaped with
  | nil => cases escaped <;> cases ends
  | cons c rest ih =>
    cases escaped with
    | true => exact ih ends longer
    | false =>
      rw [endsLiteral] at ends
      rw [List.cons_append, endsLiteral] at longer
      split at ends
      next quote =>
        rw [if_pos quote, List.isEmpty_iff] at longer
        exact (List.append_eq_nil_iff.1 longer).2
      next plain =>
        rw [if_neg plain] at longer
        split at ends
        next backslash =>
          rw [if_pos backslash] at longer
          exact ih ends longer
        next other =>
          rw [Bool.and_eq_true] at ends
          rw [if_neg other, Bool.and_eq_true] at longer
          exact ih ends.2 longer.2

/-! ## Lexemes -/

/-- A piece of the text of C. -/
inductive Lexeme
  | word (text : String)
  | number (text : String)
  | literal (text : String)
  | mark (m : Mark)
  deriving DecidableEq, Repr

namespace Lexeme

/-- The characters of a lexeme. -/
def chars : Lexeme → List Char
  | word text | number text | literal text => text.toList
  | mark m => m.chars

/-- The lexeme is one of C. -/
def Valid : Lexeme → Prop
  | word text => isWord text = true
  | number text => isNumber text
  | literal text => isLiteral text = true
  | mark m => m ∈ Mark.all

/-- No longer lexeme begins where this one stands before the rest of a text. -/
def Longest (l : Lexeme) (rest : List Char) : Prop :=
  ∀ other : Lexeme, other.Valid → other.chars <+: l.chars ++ rest →
    other.chars.length ≤ l.chars.length

end Lexeme

/-! ### The kinds of lexemes

The first character of a lexeme tells its kind. -/

/-- The kinds of lexemes. -/
inductive LexemeKind
  | word
  | number
  | literal
  | mark
  deriving DecidableEq, Repr

/-- The kind of a lexeme. -/
def Lexeme.kind : Lexeme → LexemeKind
  | word _ => .word
  | number _ => .number
  | literal _ => .literal
  | mark _ => .mark

/-- The kind of what begins with a character. -/
def kindOf (c : Char) : Option LexemeKind :=
  if beginsWord c then some .word
  else if c.isDigit ∨ c = '.' then some .number
  else if c = '"' then some .literal
  else if c ∈ Mark.firsts then some .mark
  else none

theorem kindOf_digit {c : Char} (digit : c.isDigit = true) : kindOf c = some .number := by
  have noWord : beginsWord c = false := by
    by_contra word
    rw [Bool.not_eq_false] at word
    have letter : c.isAlpha = true ↔
        (65 ≤ c.val ∧ c.val ≤ 90) ∨ (97 ≤ c.val ∧ c.val ≤ 122) := by
      change (decide _ || (decide _ && decide _)) = true ↔ _
      simp only [Bool.or_eq_true, Bool.and_eq_true, decide_eq_true_eq]
      exact Iff.rfl
    simp only [beginsWord, letter, Char.isDigit, Bool.or_eq_true, Bool.and_eq_true,
      decide_eq_true_eq, ge_iff_le, UInt32.le_iff_toNat_le] at word digit
    rcases word with ((word | rfl) | rfl) | word
    · change _ ∧ c.toNat ≤ 57 at digit
      change 65 ≤ c.toNat ∧ _ ∨ 97 ≤ c.toNat ∧ _ at word
      omega
    · revert digit
      decide
    · revert digit
      decide
    · change _ ∧ c.toNat ≤ 57 at digit
      omega
  rw [kindOf, noWord, if_neg (by decide), if_pos (.inl digit)]

theorem kindOf_mark : ∀ c ∈ Mark.firsts, kindOf c = some .mark := by
  have kinds : (Mark.firsts.all fun c => kindOf c = some .mark) = true := by decide +kernel
  simpa only [List.all_eq_true, decide_eq_true_eq] using kinds

theorem kindOf_blank {c : Char} (blank : c.isWhitespace = true) : kindOf c = none := by
  simp only [Char.isWhitespace, Bool.or_eq_true, decide_eq_true_eq] at blank
  rcases blank with ((rfl | rfl) | rfl) | rfl <;> decide +kernel

namespace Lexeme

variable {l other : Lexeme} {c : Char} {rest : List Char}

/-- A lexeme has characters, and the first one tells its kind. -/
theorem Valid.first (valid : l.Valid) : ∃ c tail, l.chars = c :: tail ∧ kindOf c = some l.kind := by
  cases l with
  | word text =>
    simp only [Valid, isWord, Bool.and_eq_true, Option.any_eq_true] at valid
    obtain ⟨⟨c, first, begins⟩, -⟩ := valid
    obtain ⟨tail, eq⟩ := List.head?_eq_some_iff.1 first
    exact ⟨c, tail, eq, if_pos begins⟩
  | number text =>
    obtain ⟨begins, -⟩ := valid
    rcases eq : text.toList with _ | ⟨c, tail⟩
    · rw [eq] at begins
      cases begins
    · rw [eq, beginsNumber, Bool.or_eq_true, Bool.and_eq_true, decide_eq_true_eq] at begins
      rcases begins with digit | ⟨rfl, -⟩
      · exact ⟨c, tail, eq, kindOf_digit digit⟩
      · exact ⟨'.', tail, eq, rfl⟩
  | literal text =>
    simp only [Valid, isLiteral, Bool.and_eq_true, decide_eq_true_eq] at valid
    obtain ⟨tail, eq⟩ := List.head?_eq_some_iff.1 valid.1
    exact ⟨'"', tail, eq, rfl⟩
  | mark m =>
    obtain ⟨c, first, eq⟩ := m.head?_mem_firsts valid
    obtain ⟨tail, eq⟩ := List.head?_eq_some_iff.1 eq
    exact ⟨c, tail, eq, kindOf_mark c first⟩

/-- No lexeme begins with white space. -/
theorem Valid.first_not_blank (valid : l.Valid) {tail : List Char}
    (whole : l.chars ++ rest = c :: tail) : c.isWhitespace = false := by
  obtain ⟨d, others, eq, kind⟩ := valid.first
  rw [eq, List.cons_append, List.cons.injEq] at whole
  rw [← whole.1]
  by_contra blank
  rw [Bool.not_eq_false] at blank
  rw [kindOf_blank blank] at kind
  cases kind

/-- What can be taken instead of a lexeme is of the same kind. -/
theorem Valid.same_kind (valid : l.Valid) (otherValid : other.Valid)
    (head : other.chars <+: l.chars ++ rest) : other.kind = l.kind := by
  obtain ⟨c, tail, eq, kind⟩ := valid.first
  obtain ⟨d, otherTail, otherEq, otherKind⟩ := otherValid.first
  rw [eq, otherEq, List.cons_append, List.cons_prefix_cons] at head
  rw [head.1, kind] at otherKind
  exact (Option.some.inj otherKind).symm

/-- Lexemes with the same characters are the same. -/
theorem chars_injective (valid : l.Valid) (otherValid : other.Valid)
    (same : other.chars = l.chars) : other = l := by
  have kind : other.kind = l.kind :=
    valid.same_kind otherValid (by rw [same]; exact List.prefix_append l.chars [])
  cases l <;> cases other <;> cases kind
  case mark.mark => exact congrArg mark (Mark.chars_injective otherValid valid same)
  all_goals exact congrArg _ (String.toList_inj.1 same)

/-! ### The longest lexeme -/

/-- A lexeme is the longest one unless one of its kind goes on with the next character. -/
theorem Valid.longest (valid : l.Valid)
    (stops : ∀ (other : Lexeme) (c : Char) (more : List Char), other.Valid → other.kind = l.kind →
      other.chars = l.chars ++ c :: more → c ∉ rest.head?) : l.Longest rest := by
  intro other otherValid head
  by_contra longer
  rw [Nat.not_le] at longer
  obtain ⟨more, eq⟩ := List.prefix_of_prefix_length_le (List.prefix_append _ rest) head longer.le
  rcases more with _ | ⟨c, more⟩
  · rw [← eq, List.append_nil] at longer
    exact lt_irrefl _ longer
  · apply stops other c more otherValid (valid.same_kind otherValid head) eq.symm
    rw [← eq, List.prefix_append_right_inj] at head
    obtain ⟨tail, rfl⟩ := head
    rfl

/-- A word is the longest one if no letter or digit follows. -/
theorem longest_word {text : String} (valid : isWord text = true)
    (next : ∀ c ∈ rest.head?, isWordChar c = false) : (word text).Longest rest := by
  refine Valid.longest (l := word text) valid ?_
  intro other c more otherValid kind eq follows
  cases other <;> cases kind
  simp only [Valid, isWord, Bool.and_eq_true, List.all_eq_true] at otherValid
  simp only [chars] at eq
  have inside := otherValid.2 c (by simp [eq])
  rw [next c follows] at inside
  cases inside

/-- A number is the longest one exactly if what follows does not continue it. -/
theorem longest_number_iff {text : String} (valid : isNumber text) :
    (number text).Longest rest ↔
      ∀ c ∈ rest.head?, ∀ before ∈ text.toList.getLast?, continuesNumber before c = false := by
  obtain ⟨begins, chain⟩ := valid
  constructor
  · intro longest c follows before last
    by_contra continues
    rw [Bool.not_eq_false] at continues
    obtain ⟨tail, rfl⟩ := List.head?_eq_some_iff.1 follows
    have grown : (number (String.ofList (text.toList ++ [c]))).Valid := by
      rw [Valid, isNumber, String.toList_ofList, List.isChain_append]
      refine ⟨beginsNumber_append begins [c], chain, List.isChain_singleton c, ?_⟩
      simpa [Option.mem_def.1 last] using continues
    have bounded := longest _ grown (by simp [chars])
    simp only [chars, String.toList_ofList, List.length_append, List.length_singleton] at bounded
    exact Nat.not_succ_le_self _ bounded
  · intro next
    refine Valid.longest (l := number text) ⟨begins, chain⟩ ?_
    intro other c more otherValid kind eq follows
    cases other <;> cases kind
    obtain ⟨-, otherChain⟩ := otherValid
    simp only [chars] at eq
    rw [eq, List.isChain_append] at otherChain
    have last := List.getLast?_eq_getLast_of_ne_nil (ne_nil_of_beginsNumber begins)
    have continues := otherChain.2.2 _ last c rfl
    rw [next c follows _ last] at continues
    cases continues

theorem longest_literal {text : String} (valid : isLiteral text = true) :
    (literal text).Longest rest := by
  refine Valid.longest (l := literal text) valid ?_
  intro other c more otherValid kind eq follows
  cases other <;> cases kind
  simp only [Valid, isLiteral, Bool.and_eq_true, decide_eq_true_eq] at valid otherValid
  obtain ⟨tail, opens⟩ := List.head?_eq_some_iff.1 valid.1
  simp only [chars] at eq
  rw [opens] at valid
  rw [eq, opens] at otherValid
  exact List.cons_ne_nil c more (eq_nil_of_endsLiteral_append valid.2 otherValid.2)

/-- A mark is the longest one if no longer mark goes on with the next character. -/
theorem longest_mark {m : Mark} (known : m ∈ Mark.all) (next : ∀ c ∈ rest.head?, c ∉ m.nexts) :
    (mark m).Longest rest := by
  refine Valid.longest (l := mark m) known ?_
  intro other c more otherValid kind eq follows
  cases other with
  | mark other =>
    change other.chars = m.chars ++ c :: more at eq
    apply next c follows
    refine List.mem_filterMap.2 ⟨other, otherValid, ?_⟩
    rw [List.isPrefixOf?_eq_some_iff_append_eq.2 eq.symm]
    rfl
  | _ => cases kind

end Lexeme

/-! ## Texts -/

/-- A text consists of lexemes, of which each is the longest one at its place. -/
inductive Lexes : List Char → List Lexeme → Prop
  | done : Lexes [] []
  | blank {c : Char} {rest : List Char} {ls : List Lexeme} (white : c.isWhitespace = true)
      (others : Lexes rest ls) : Lexes (c :: rest) ls
  | lexeme {l : Lexeme} {rest : List Char} {ls : List Lexeme} (valid : l.Valid)
      (longest : l.Longest rest) (others : Lexes rest ls) : Lexes (l.chars ++ rest) (l :: ls)

namespace Lexes

variable {text : List Char} {l : Lexeme} {ls : List Lexeme}

theorem valid (lexes : Lexes text ls) : ∀ l ∈ ls, l.Valid := by
  induction lexes with
  | done => nofun
  | blank _ _ ih => exact ih
  | lexeme valid _ _ ih => exact List.forall_mem_cons.2 ⟨valid, ih⟩

/-- A lexeme stands at the head of a text exactly if it is the longest one there. -/
theorem cons_iff {rest : List Char} :
    Lexes (l.chars ++ rest) (l :: ls) ↔ l.Valid ∧ l.Longest rest ∧ Lexes rest ls := by
  constructor
  · intro lexes
    have valid := lexes.valid l List.mem_cons_self
    generalize whole : l.chars ++ rest = text at lexes
    cases lexes with
    | blank white others =>
      rw [valid.first_not_blank whole] at white
      cases white
    | lexeme _ longest others =>
      obtain rfl := List.append_cancel_left whole
      exact ⟨valid, longest, others⟩
  · rintro ⟨valid, longest, others⟩
    exact .lexeme valid longest others

/-- White space separates lexemes. -/
theorem blank_iff {c : Char} (white : c.isWhitespace = true) {rest : List Char} :
    Lexes (c :: rest) ls ↔ Lexes rest ls := by
  constructor
  · intro lexes
    generalize whole : c :: rest = text at lexes
    cases lexes with
    | done => cases whole
    | blank _ others =>
      cases whole
      exact others
    | lexeme valid _ _ =>
      rw [valid.first_not_blank whole.symm] at white
      cases white
  · exact .blank white

/-- A text is split in one way only. -/
theorem unique (lexes : Lexes text ls) {others : List Lexeme} (otherwise : Lexes text others) :
    others = ls := by
  induction lexes generalizing others with
  | done =>
    generalize whole : [] = text at otherwise
    cases otherwise with
    | done => rfl
    | blank => cases whole
    | lexeme valid =>
      obtain ⟨c, tail, eq, -⟩ := valid.first
      rw [eq] at whole
      cases whole
  | blank white _ ih => exact ih ((blank_iff white).1 otherwise)
  | @lexeme l rest ls valid longest _ ih =>
    generalize whole : l.chars ++ rest = text at otherwise
    cases otherwise with
    | done =>
      obtain ⟨c, tail, eq, -⟩ := valid.first
      rw [eq] at whole
      cases whole
    | blank white =>
      rw [valid.first_not_blank whole] at white
      cases white
    | @lexeme other otherRest _ otherValid otherLongest others =>
      have shorter := longest other otherValid (whole ▸ List.prefix_append _ _)
      have longer := otherLongest l valid (whole.symm ▸ List.prefix_append _ _)
      obtain ⟨same, rfl⟩ := List.append_inj whole (le_antisymm longer shorter)
      obtain rfl := Lexeme.chars_injective valid otherValid same.symm
      rw [ih others]

end Lexes

end ScriptToC
