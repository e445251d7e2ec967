import ScriptToC.Emit.Program
import ScriptToC.Proofs.Grouping.Expected

/-!
# What the spelling of a type mentions

Only a dynamic array is spelled with `ARRAY(`, only a dictionary with `DICT(`, and only what is
stored in integers of fixed width with `int16_t` or `uint8_t`, at every depth that is spelled: an
array in a container is spelled as an untyped pointer. So what a declaration or a signature mentions
comes from a type that needs the array macros, the dictionary macros or the integers
(`CType.usesArrays_of_mentions` and the like), or else from a name.
-/

set_option autoImplicit false

namespace ScriptToC

/-! ## Parts of texts -/

section Separators

variable {word before after : List Char} {separator : Char}

/-- A word that can only end in the separator stands in front of it, perhaps with it, or behind. -/
theorem infix_of_ending (apart : separator ∉ word.dropLast)
    (inside : word <:+: before ++ separator :: after) :
    word <:+: before ++ [separator] ∨ word <:+: after := by
  rw [List.append_cons, List.infix_append_iff] at inside
  rcases inside with first | second | ⟨front, back, rfl, suffix, isPrefix⟩
  · exact .inl first
  · exact .inr second
  · rcases List.suffix_concat_iff.1 suffix with rfl | ⟨rest, rfl, -⟩
    · exact .inr isPrefix.isInfix
    · cases back with
      | nil =>
        rw [List.append_nil]
        exact .inl suffix.isInfix
      | cons first others =>
        rw [List.dropLast_append_of_ne_nil (List.cons_ne_nil first others)] at apart
        exact absurd (by simp) apart

/-- A word without the characters of a gap stands in front of the gap or behind. -/
theorem infix_of_gap {gap : List Char} (isGap : gap ≠ []) (apart : ∀ c ∈ gap, c ∉ word)
    (inside : word <:+: before ++ (gap ++ after)) : word <:+: before ∨ word <:+: after := by
  induction gap generalizing before with
  | nil => exact absurd rfl isGap
  | cons c rest ih =>
    obtain ⟨noFirst, noOthers⟩ := List.forall_mem_cons.1 apart
    rcases infix_of_ending (mt (List.dropLast_subset word ·) noFirst) inside with first | second
    · rcases List.infix_concat_iff.1 first with suffix | first
      · rcases List.suffix_concat_iff.1 suffix with rfl | ⟨front, rfl, -⟩
        · exact .inl List.nil_infix
        · exact absurd (by simp) noFirst
      · exact .inl first
    · cases rest with
      | nil => exact .inr second
      | cons next others =>
        have parts : word <:+: [] ∨ word <:+: after :=
          ih (List.cons_ne_nil _ _) noOthers second
        exact parts.imp_left fun first => first.trans List.nil_infix

end Separators

/-! ## Spellings -/

/-- How types that need a macro or a header are spelled. -/
def typeSpellings : List String :=
  ["ARRAY(", "DICT(", "int16_t", "uint8_t"]

/-- A text mentions a spelling. -/
def Mentions (text spelling : String) : Prop :=
  spelling.toList <:+: text.toList

instance (text spelling : String) : Decidable (Mentions text spelling) :=
  inferInstanceAs (Decidable (spelling.toList <:+: text.toList))

/-- None of the names mentions a spelling. -/
def PlainNames (names : List String) : Prop :=
  ∀ name ∈ names, ∀ spelling ∈ typeSpellings, ¬ Mentions name spelling

instance (names : List String) : Decidable (PlainNames names) :=
  inferInstanceAs (Decidable (∀ name ∈ names, ∀ spelling ∈ typeSpellings, ¬ Mentions name spelling))

/-- What separates the parts of declarations and signatures. -/
def gaps : List String :=
  [" ", "*", " *", "[", "]", ", ", ")", ";"]

/-- What stands in declarations and signatures besides names, numbers and spellings. -/
def fillers : List String :=
  ["", "void", "void *", "const char *", "struct", "int main(void)"]

theorem apart_of_gap : ∀ spelling ∈ typeSpellings, ∀ gap ∈ gaps,
    gap.toList ≠ [] ∧ ∀ c ∈ gap.toList, c ∉ spelling.toList := by
  -- A bounded check: the characters are those of the texts, not all there are.
  have checked : ∀ spelling ∈ typeSpellings, ∀ gap ∈ gaps,
      gap.toList ≠ [] ∧ gap.toList.all (· ∉ spelling.toList) = true := by
    decide +kernel
  simpa only [List.all_eq_true, decide_eq_true_iff] using checked

section Texts

variable {spelling : String} (isSpelling : spelling ∈ typeSpellings)

include isSpelling

theorem not_mentions_filler {text : String} (isFiller : text ∈ fillers) :
    ¬ Mentions text spelling := by
  have all : ∀ spelling ∈ typeSpellings, ∀ text ∈ fillers, ¬ Mentions text spelling := by
    decide +kernel
  exact all spelling isSpelling text isFiller

/-- Some character of a spelling does not stand in any number. -/
theorem not_mentions_number (n : Nat) : ¬ Mentions (toString n) spelling := by
  have checked : ∀ spelling ∈ typeSpellings, spelling.toList.any (!·.isDigit) = true := by
    decide +kernel
  obtain ⟨c, stands, noDigit⟩ := List.any_eq_true.1 (checked spelling isSpelling)
  intro mentions
  rw [Emit.isDigit_of_mem_toString (mentions.subset stands)] at noDigit
  cases noDigit

/-- What a text with a gap mentions stands in front of the gap or behind. -/
theorem mentions_of_gap {before gap after : String} (isGap : gap ∈ gaps)
    (mentions : Mentions (before ++ gap ++ after) spelling) :
    Mentions before spelling ∨ Mentions after spelling := by
  obtain ⟨nonempty, apart⟩ := apart_of_gap spelling isSpelling gap isGap
  rw [Mentions, String.toList_append, String.toList_append, List.append_assoc] at mentions
  exact infix_of_gap nonempty apart mentions

theorem mentions_before_gap {text gap : String} (isGap : gap ∈ gaps)
    (mentions : Mentions (text ++ gap) spelling) : Mentions text spelling := by
  have ended : Mentions (text ++ gap ++ "") spelling := by rwa [String.append_empty]
  exact (mentions_of_gap isSpelling isGap ended).resolve_right
    (not_mentions_filler isSpelling (by decide))

/-- A declarator mentions what the type or the declared part mentions. -/
theorem mentions_joinDeclarator {typeName name : String}
    (mentions : Mentions (CType.joinDeclarator typeName name) spelling) :
    Mentions typeName spelling ∨ Mentions name spelling := by
  unfold CType.joinDeclarator at mentions
  split at mentions
  next star =>
    obtain ⟨front, eq⟩ := List.getLast?_eq_some_iff.1 star
    obtain rfl : typeName = String.ofList front ++ "*" := by
      apply String.toList_inj.1
      rw [eq, String.toList_append, String.toList_ofList]
      rfl
    refine (mentions_of_gap isSpelling (by decide) mentions).imp_left fun first => ?_
    rw [Mentions, String.toList_append]
    exact first.trans (List.prefix_append _ _).isInfix
  next => exact mentions_of_gap isSpelling (by decide) mentions

/-- An array in a container is spelled as a pointer. -/
theorem mentions_elementName {element : CType} (mentions : Mentions element.elementName spelling) :
    Mentions element.cName spelling := by
  have noPointer : ¬ Mentions "void *" spelling := not_mentions_filler isSpelling (by decide)
  cases element with
  | array => exact absurd mentions noPointer
  | _ => exact mentions

/-- A declaration mentions what the type or the declared name mentions. -/
theorem mentions_declare {type : CType} {name : String}
    (mentions : Mentions (type.declare name) spelling) :
    Mentions type.cName spelling ∨ Mentions name spelling := by
  unfold CType.declare at mentions
  split at mentions
  next element capacity =>
    have inside := mentions_before_gap isSpelling (by decide) mentions
    have before := (mentions_of_gap isSpelling (by decide) inside).resolve_right
      (not_mentions_number isSpelling capacity)
    refine (mentions_of_gap isSpelling (by decide) before).imp_left fun first => ?_
    rw [Mentions, CType.cName_fixedArray, String.toList_append]
    exact first.trans (List.prefix_append _ _).isInfix
  next => exact mentions_joinDeclarator isSpelling mentions

/-- A list mentions what one of its items mentions. -/
theorem mentions_intercalate : ∀ {texts : List String},
    Mentions (", ".intercalate texts) spelling → ∃ text ∈ texts, Mentions text spelling
  | [], mentions => absurd mentions (not_mentions_filler isSpelling (by decide))
  | [text], mentions => by
      rw [String.intercalate_singleton] at mentions
      exact ⟨text, List.mem_singleton_self _, mentions⟩
  | text :: next :: rest, mentions => by
      have split : ", ".intercalate (text :: next :: rest) =
          text ++ ", " ++ ", ".intercalate (next :: rest) := by
        apply String.toList_inj.1
        simp
      rw [split] at mentions
      rcases mentions_of_gap isSpelling (by decide) mentions with first | others
      · exact ⟨text, List.mem_cons_self, first⟩
      · obtain ⟨found, member, mentions⟩ := mentions_intercalate others
        exact ⟨found, List.mem_cons_of_mem _ member, mentions⟩

/-- A signature mentions what the type of the result, the name of the function, with the parenthesis
that follows it, or a parameter mentions. -/
theorem mentions_signature {name : String} {params : List Ir.Param} {returns : CType}
    (mentions : Mentions (Emit.signature name params returns) spelling) :
    Mentions returns.cName spelling ∨ Mentions (name ++ "(") spelling ∨
      ∃ param ∈ params, Mentions (param.type.declare param.name) spelling := by
  have apart : '(' ∉ spelling.toList.dropLast := by
    clear mentions
    revert spelling
    decide
  refine (mentions_joinDeclarator isSpelling mentions).imp_right fun rest => ?_
  have called := mentions_before_gap isSpelling (by decide) rest
  rw [Mentions, String.toList_append, String.toList_append, List.append_assoc] at called
  have noVoid : ¬ Mentions "void" spelling := not_mentions_filler isSpelling (by decide)
  rcases infix_of_ending apart called with first | list
  · left
    rw [Mentions, String.toList_append]
    exact first
  right
  split at list
  next => exact absurd list noVoid
  next =>
    obtain ⟨text, isText, mentions⟩ := mentions_intercalate isSpelling list
    obtain ⟨param, isParam, rfl⟩ := List.mem_map.1 isText
    exact ⟨param, isParam, mentions⟩

end Texts

/-! ## Types -/

namespace CType

/-- The names of structures that a type is built from. -/
def structs : CType → List String
  | array element _ _ | dict element => element.structs
  | struct name => [name]
  | _ => []

variable {type : CType} {spelling : String}

/-- A structure is spelled with its name. -/
theorem mentions_struct {name : String} (isSpelling : spelling ∈ typeSpellings)
    (mentions : Mentions (struct name).cName spelling) : Mentions name spelling := by
  have inside : Mentions ("struct" ++ " " ++ name) spelling :=
    mentions_before_gap isSpelling (by decide) mentions
  exact (mentions_of_gap isSpelling (by decide) inside).resolve_left
    (not_mentions_filler isSpelling (by decide))

/-- A fixed array mentions what its elements mention. -/
theorem mentions_fixedArray {element : CType} {capacity : Nat}
    (isSpelling : spelling ∈ typeSpellings)
    (mentions : Mentions (array element capacity false).cName spelling) :
    Mentions element.cName spelling := by
  rw [cName_fixedArray] at mentions
  exact mentions_elementName isSpelling (mentions_before_gap isSpelling (by decide) mentions)

/-- What is spelled with `ARRAY(` needs the array macros. -/
theorem usesArrays_of_mentions (plain : PlainNames type.structs)
    (mentions : Mentions type.cName "ARRAY(") : type.usesArrays = true := by
  induction type with
  | array element capacity dynamic ih =>
    cases dynamic with
    | true => rfl
    | false =>
      rw [usesArrays, Bool.false_or]
      exact ih plain (mentions_fixedArray (by decide) mentions)
  | dict => rfl
  | struct name =>
    exact absurd (mentions_struct (by decide) mentions)
      (plain name (List.mem_singleton_self _) _ (by decide))
  | number | boolean | string | void | unknown => exact absurd mentions (by decide +kernel)

/-- What is spelled with `DICT(` needs the dictionary macros. -/
theorem usesDicts_of_mentions (plain : PlainNames type.structs)
    (mentions : Mentions type.cName "DICT(") : type.usesDicts = true := by
  induction type with
  | array element capacity dynamic ih =>
    refine ih plain ?_
    cases dynamic with
    | true =>
      rw [cName_dynamicArray] at mentions
      have inside := mentions_before_gap (by decide) (by decide) mentions
      rw [Mentions, String.toList_append] at inside
      have parts : "DICT(".toList <:+: "ARRAY".toList ++ ['('] ∨
          Mentions element.elementName "DICT(" :=
        infix_of_ending (by decide) inside
      rcases parts with first | rest
      · exact absurd first (by decide)
      · exact mentions_elementName (by decide) rest
    | false => exact mentions_fixedArray (by decide) mentions
  | dict => rfl
  | struct name =>
    exact absurd (mentions_struct (by decide) mentions)
      (plain name (List.mem_singleton_self _) _ (by decide))
  | number | boolean | string | void | unknown => exact absurd mentions (by decide +kernel)

/-- What is spelled with an integer of fixed width needs these integers. -/
theorem needsIntegers_of_mentions (plain : PlainNames type.structs)
    (isSpelling : spelling ∈ typeSpellings) (mentions : Mentions type.cName spelling) :
    type.usesArrays = true ∨ Emit.isFixedWidth type = true := by
  cases type with
  | array => exact .inr (by simp [Emit.isFixedWidth, isArray])
  | dict => exact .inl rfl
  | number | boolean => exact .inr rfl
  | struct name =>
    exact absurd (mentions_struct isSpelling mentions)
      (plain name (List.mem_singleton_self _) _ isSpelling)
  | string | void | unknown =>
    exact absurd mentions (not_mentions_filler isSpelling (by decide))

end CType

end ScriptToC
