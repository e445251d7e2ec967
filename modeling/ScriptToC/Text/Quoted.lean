/-!
# Quoted text

The form in which a text stands in C: between double quotes, with a backslash before each quote and
backslash, and newline, carriage return and tab written by their letters. Every other character
stands for itself.
-/

set_option autoImplicit false

namespace ScriptToC.Text.Quoted

/-- The characters that are written as a backslash and a letter, with their letters. -/
def letter : Char → Option Char
  | '"' => some '"'
  | '\\' => some '\\'
  | '\n' => some 'n'
  | '\r' => some 'r'
  | '\t' => some 't'
  | _ => none

/-- A character without a letter is one that a literal can contain. -/
theorem plain_of_letter {c : Char} (plain : letter c = none) :
    c ≠ '"' ∧ c ≠ '\\' ∧ ¬ (c = '\n' ∨ c = '\r') := by
  refine ⟨?_, ?_, ?_⟩
  · rintro rfl
    cases plain
  · rintro rfl
    cases plain
  · rintro (rfl | rfl) <;> cases plain

/-- The inside of a string literal. -/
def encode : List Char → List Char
  | [] => []
  | c :: rest =>
    match letter c with
    | some l => '\\' :: l :: encode rest
    | none => c :: encode rest

/-- The string literal for a text. -/
def literal (text : String) : String :=
  String.ofList ('"' :: encode text.toList ++ ['"'])

/-- Texts can be encoded in parts. -/
theorem encode_append (first second : List Char) :
    encode (first ++ second) = encode first ++ encode second := by
  induction first with
  | nil => rfl
  | cons c rest ih => cases h : letter c <;> simp [encode, h, ih]

example : literal "say \"hi\"\n" = "\"say \\\"hi\\\"\\n\"" := by decide +kernel

end ScriptToC.Text.Quoted
