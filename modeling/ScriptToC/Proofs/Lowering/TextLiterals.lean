import ScriptToC.Proofs.Emission.Run
import ScriptToC.Proofs.Lowering.Parts
import ScriptToC.Proofs.Text.Quoted

/-!
# The values of text literals

A script has two kinds of text literals. A string literal is lowered to its value, a template
literal to its spelling. Both are then quoted, so C reads what was lowered (`emittedAs_spelling`),
and that is the value of the literal exactly if the literal is spelled as its value
(`textLiteral_faithful_iff`): every string literal is, and a template literal in which there is no
backslash.
-/

set_option autoImplicit false

namespace ScriptToC

namespace Source

/-- What a text literal stands for. A template literal that values are inserted in is none. -/
def Expr.textValue? : Expr → Option String
  | string _ value => some value
  | template _ chunks interpolated =>
    if interpolated then none else (chunks.mapM Chunk.cooked).map String.join
  | _ => none

/-- What lowering takes a text literal for. -/
def Expr.spelling? : Expr → Option String
  | string _ value => some value
  | template _ chunks interpolated =>
    if interpolated then none else some (String.join (chunks.map (·.raw)))
  | _ => none

/-- The chunks of a template literal. -/
def Expr.chunks : Expr → List Chunk
  | template _ chunks _ => chunks
  | _ => []

/-- The chunk is reported as a front end does it: it stands for its spelling if there is no escape
in it, and an escape has more characters than what it stands for. -/
structure Chunk.WellReported (chunk : Chunk) : Prop where
  plain : '\\' ∉ chunk.raw.toList → chunk.cooked = some chunk.raw
  escaped : '\\' ∈ chunk.raw.toList → ∃ text, chunk.cooked = some text ∧
    text.length < chunk.raw.length

namespace Chunk.WellReported

variable {chunk : Chunk} {text : String} (reported : chunk.WellReported)

include reported

theorem exists_cooked : ∃ text, chunk.cooked = some text := by
  by_cases escape : '\\' ∈ chunk.raw.toList
  · obtain ⟨text, cooked, -⟩ := reported.escaped escape
    exact ⟨text, cooked⟩
  · exact ⟨chunk.raw, reported.plain escape⟩

theorem eq_raw (cooked : chunk.cooked = some text) (free : '\\' ∉ chunk.raw.toList) :
    text = chunk.raw :=
  Option.some.inj (cooked.symm.trans (reported.plain free))

theorem length_lt (cooked : chunk.cooked = some text) (escape : '\\' ∈ chunk.raw.toList) :
    text.length < chunk.raw.length := by
  obtain ⟨other, same, shorter⟩ := reported.escaped escape
  rw [cooked, Option.some.injEq] at same
  rw [same]
  exact shorter

theorem length_le (cooked : chunk.cooked = some text) : text.length ≤ chunk.raw.length := by
  by_cases escape : '\\' ∈ chunk.raw.toList
  · exact Nat.le_of_lt (reported.length_lt cooked escape)
  · rw [reported.eq_raw cooked escape]

end Chunk.WellReported

/-! ## Chunks in a row -/

/-- The chunks stand for these texts. -/
abbrev Cooked : List Chunk → List String → Prop :=
  List.Forall₂ fun chunk text => chunk.cooked = some text

theorem exists_cooked {chunks : List Chunk} (reported : ∀ chunk ∈ chunks, chunk.WellReported) :
    ∃ texts, chunks.mapM Chunk.cooked = some texts ∧ Cooked chunks texts := by
  induction chunks with
  | nil => exact ⟨[], rfl, .nil⟩
  | cons chunk rest ih =>
    obtain ⟨here, others⟩ := List.forall_mem_cons.1 reported
    obtain ⟨text, first⟩ := here.exists_cooked
    obtain ⟨texts, all, cooked⟩ := ih others
    refine ⟨text :: texts, ?_, .cons first cooked⟩
    rw [List.mapM_cons, first, all]
    rfl

namespace Cooked

variable {chunks : List Chunk} {texts : List String}

/-- Together the texts are at most as long as what is written for them. -/
theorem length_le (cooked : Cooked chunks texts)
    (reported : ∀ chunk ∈ chunks, chunk.WellReported) :
    (String.join texts).length ≤ (String.join (chunks.map (·.raw))).length := by
  induction cooked with
  | nil => exact Nat.le_refl _
  | cons first _ ih =>
    obtain ⟨here, others⟩ := List.forall_mem_cons.1 reported
    rw [List.map_cons, String.join_cons, String.join_cons, String.length_append,
      String.length_append]
    exact Nat.add_le_add (here.length_le first) (ih others)

/-- They are as long only if there is no escape. -/
theorem plain_of_length_eq (cooked : Cooked chunks texts)
    (reported : ∀ chunk ∈ chunks, chunk.WellReported)
    (equal : (String.join texts).length = (String.join (chunks.map (·.raw))).length) :
    ∀ chunk ∈ chunks, '\\' ∉ chunk.raw.toList := by
  induction cooked with
  | nil => exact List.forall_mem_nil _
  | cons first rest ih =>
    obtain ⟨here, others⟩ := List.forall_mem_cons.1 reported
    rw [List.map_cons, String.join_cons, String.join_cons, String.length_append,
      String.length_append] at equal
    have le := here.length_le first
    have le' := Cooked.length_le rest others
    refine List.forall_mem_cons.2 ⟨fun escape => ?_, ih others (by omega)⟩
    have lt := here.length_lt first escape
    omega

theorem eq_raw (cooked : Cooked chunks texts) (reported : ∀ chunk ∈ chunks, chunk.WellReported)
    (free : ∀ chunk ∈ chunks, '\\' ∉ chunk.raw.toList) : texts = chunks.map (·.raw) := by
  induction cooked with
  | nil => rfl
  | cons first _ ih =>
    obtain ⟨here, others⟩ := List.forall_mem_cons.1 reported
    obtain ⟨plain, plains⟩ := List.forall_mem_cons.1 free
    rw [List.map_cons, here.eq_raw first plain, ih others plains]

end Cooked

/-- A text literal is spelled as its value exactly if there is no escape in its chunks. -/
theorem spelling?_eq_iff {literal : Expr} {value : String}
    (isText : literal.textValue? = some value)
    (reported : ∀ chunk ∈ literal.chunks, chunk.WellReported) :
    literal.spelling? = some value ↔ ∀ chunk ∈ literal.chunks, '\\' ∉ chunk.raw.toList := by
  cases literal with
  | string span text => exact ⟨fun _ => List.forall_mem_nil _, fun _ => isText⟩
  | template span chunks interpolated =>
    cases interpolated with
    | true => cases isText
    | false =>
      change ∀ chunk ∈ chunks, chunk.WellReported at reported
      obtain ⟨texts, all, cooked⟩ := exists_cooked reported
      rw [Expr.textValue?, if_neg Bool.false_ne_true, all] at isText
      cases isText
      rw [Expr.spelling?, if_neg Bool.false_ne_true, Option.some.injEq]
      constructor
      · intro equal
        exact cooked.plain_of_length_eq reported (congrArg String.length equal).symm
      · intro free
        rw [cooked.eq_raw reported free]
  | _ => cases isText

theorem Expr.exists_spelling_of_textValue {literal : Expr} {value : String}
    (isText : literal.textValue? = some value) : ∃ spelling, literal.spelling? = some spelling := by
  cases literal with
  | string span text => exact ⟨text, rfl⟩
  | template span chunks interpolated =>
    cases interpolated with
    | true => cases isText
    | false => exact ⟨_, rfl⟩
  | _ => cases isText

end Source

namespace Lowering

open Source
open Text (Quoted.literal Quoted.readLiteral? Quoted.readLiteral?_literal Quoted.literal_injective)

/-- Wherever a literal of a script stands, it is lowered, and emitted as a text. -/
def EmittedAs (literal : Source.Expr) (text : String) : Prop :=
  ∀ (declared : Declared) (before : State), ∃ e after,
    lowerExpr literal declared before = .ok (e, after) ∧
      ∀ types headers, Emit.exprText types e headers = (.ok text, headers)

theorem EmittedAs.unique {literal : Source.Expr} {text other : String}
    (first : EmittedAs literal text) (second : EmittedAs literal other) : text = other := by
  obtain ⟨e, after, run, emitted⟩ := first {} {}
  obtain ⟨_, _, run', emitted'⟩ := second {} {}
  cases run.symm.trans run'
  have same := (emitted (fun _ => none) {}).symm.trans (emitted' (fun _ => none) {})
  cases same
  rfl

/-- A text literal is emitted as its spelling in quotes. -/
theorem emittedAs_spelling {literal : Source.Expr} {spelling : String}
    (spelled : literal.spelling? = some spelling) :
    EmittedAs literal (Quoted.literal spelling) := by
  intro declared before
  have lowered (span : Span) : ∃ e after,
      typed span (fun node => Ir.Expr.string node spelling) declared before = .ok (e, after) ∧
        ∀ types headers, Emit.exprText types e headers = (.ok (Quoted.literal spelling), headers) :=
    ⟨_, _, typed_ok.2 ⟨rfl, rfl⟩, fun types headers => by rw [Emit.exprText]; rfl⟩
  cases literal with
  | string span value =>
    cases spelled
    exact lowered span
  | template span chunks interpolated =>
    cases interpolated with
    | true => cases spelled
    | false =>
      cases spelled
      exact lowered span
  | _ => cases spelled

/-- **Text literals keep their values exactly if they are spelled as their values.** A literal that
stands for a text is emitted, wherever it stands, as one literal of C. C reads the value of the
literal from it exactly if the literal is spelled as its value; exactly then a string literal with
this value is emitted in the same way. This is so exactly if no escape stands in its chunks, of
which a string literal has none. -/
theorem textLiteral_faithful_iff {literal : Source.Expr} {value : String}
    (isText : literal.textValue? = some value) :
    ∃ text, EmittedAs literal text ∧
      (∃ read, ∀ rest, Quoted.readLiteral? (text.toList ++ rest) = some (read, rest)) ∧
      ((∀ rest, Quoted.readLiteral? (text.toList ++ rest) = some (value.toList, rest)) ↔
        literal.spelling? = some value) ∧
      (∀ span, EmittedAs (.string span value) text ↔ literal.spelling? = some value) ∧
      ((∀ chunk ∈ literal.chunks, chunk.WellReported) →
        (literal.spelling? = some value ↔ ∀ chunk ∈ literal.chunks, '\\' ∉ chunk.raw.toList)) := by
  obtain ⟨spelling, spelled⟩ := Expr.exists_spelling_of_textValue isText
  refine ⟨Quoted.literal spelling, emittedAs_spelling spelled,
    ⟨spelling.toList, Quoted.readLiteral?_literal spelling⟩, ?_, ?_, spelling?_eq_iff isText⟩
  · rw [spelled, Option.some.injEq]
    constructor
    · intro reads
      have same := (Quoted.readLiteral?_literal spelling []).symm.trans (reads [])
      exact String.toList_inj.1 (Prod.mk.inj (Option.some.inj same)).1
    · rintro rfl
      exact Quoted.readLiteral?_literal spelling
  · intro span
    have own : EmittedAs (.string span value) (Quoted.literal value) := emittedAs_spelling rfl
    rw [spelled, Option.some.injEq]
    constructor
    · intro same
      exact Quoted.literal_injective (same.unique own)
    · rintro rfl
      exact own

/-- A template literal with a line break in it, and the string literal of the same value. -/
theorem textLiteral_faithful_iff_unescaped :
    let twoLines : Chunk := ⟨"a\nb", some "a\nb"⟩
    twoLines.WellReported ∧ EmittedAs (.template ⟨0, 5⟩ [twoLines] false) "\"a\\nb\"" ∧
      EmittedAs (.string ⟨0, 6⟩ "a\nb") "\"a\\nb\"" ∧
      Quoted.readLiteral? "\"a\\nb\"".toList = some ("a\nb".toList, []) := by
  intro twoLines
  have reported : twoLines.WellReported := ⟨fun _ => rfl, fun escape => absurd escape (by decide)⟩
  have isText : (Source.Expr.template ⟨0, 5⟩ [twoLines] false).textValue? = some "a\nb" := by
    decide +kernel
  obtain ⟨text, emitted, -, reads, same, plain⟩ := textLiteral_faithful_iff isText
  have spelled := (plain (List.forall_mem_singleton.2 reported)).2
    (List.forall_mem_singleton.2 (by decide))
  obtain rfl : text = "\"a\\nb\"" :=
    have own : EmittedAs (.template ⟨0, 5⟩ [twoLines] false) (Quoted.literal "a\nb") :=
      emittedAs_spelling (by decide +kernel)
    (emitted.unique own).trans (by decide +kernel)
  have read := reads.2 spelled []
  rw [List.append_nil] at read
  exact ⟨reported, emitted, (same _).2 spelled, read⟩

/-- A template literal with an escape is emitted as it is written, and C reads the escape as two
characters. -/
theorem escapedTemplate_emitted_as_spelled :
    let escaped : Source.Expr := .template ⟨12, 18⟩ [⟨"a\\nb", some "a\nb"⟩] false
    escaped.textValue? = some "a\nb" ∧ EmittedAs escaped "\"a\\\\nb\"" ∧
      Quoted.readLiteral? "\"a\\\\nb\"".toList = some ("a\\nb".toList, []) ∧
      ¬ ∃ text, EmittedAs escaped text ∧ EmittedAs (.string ⟨12, 18⟩ "a\nb") text := by
  intro escaped
  have emitted : EmittedAs escaped (Quoted.literal "a\\nb") :=
    emittedAs_spelling (by decide +kernel)
  have other : EmittedAs (.string ⟨12, 18⟩ "a\nb") (Quoted.literal "a\nb") :=
    emittedAs_spelling rfl
  have quoted : Quoted.literal "a\\nb" = "\"a\\\\nb\"" := by decide +kernel
  refine ⟨by decide +kernel, quoted ▸ emitted, by decide +kernel, ?_⟩
  rintro ⟨text, template, string⟩
  have same := (emitted.unique template).trans (string.unique other)
  exact absurd same (by decide +kernel)

end Lowering

end ScriptToC
