import ScriptToC.Proofs.Template.Contexts

/-!
# Placeholders in template sources

A source that is read as a template with a placeholder has the tag of the placeholder at a place of
its own, whatever stands around the placeholder in the template. With another text instead of the
tag, the source is read as the template with the part that stands in this text (`Reads.placed`).

The reader comes to the tag by the same tokens as before. What it takes for a character with a brace
further on, it takes for one whatever begins at this brace (`nextToken_char_brace`). The other
tokens before the tag end in braces of their own. So a choice that is opened in the text before the
tag has the end of its own tag there (`Untagged`).
-/

set_option autoImplicit false

namespace ScriptToC.Template

open Text

/-! ## What a token names -/

/-- A mark does not stand before the first place where it stands. -/
theorem not_infix_of_cut? {mark source before after : List Char} (some : mark ≠ [])
    (found : cut? mark source = .some (before, after)) : ¬ mark <:+: before := by
  induction source generalizing before with
  | nil =>
    rw [cut?, if_neg (by simpa using some)] at found
    cases found
  | cons c rest ih =>
    have whole := eq_of_cut? found
    rw [cut?] at found
    split at found
    next =>
      cases found
      exact fun inside => some (List.infix_nil.1 inside)
    next notHere =>
      obtain ⟨⟨front, back⟩, cut, same⟩ := Option.map_eq_some_iff.1 found
      cases same
      intro inside
      rcases List.infix_cons_iff.1 inside with here | inside
      · rw [List.isPrefixOf_iff_prefix, whole, List.append_assoc] at notHere
        exact notHere (here.trans (List.prefix_append _ _))
      · exact ih cut inside

theorem isName_of_spanName {source rest : List Char} {c : Char} {name : List Char}
    (spans : spanName source = (c :: name, rest)) : isName (c :: name) = true := by
  cases source with
  | nil => cases spans
  | cons d others =>
    rw [spanName] at spans
    split at spans
    next starts =>
      cases spans
      rw [isName, starts, Bool.true_and]
      exact List.all_takeWhile
    next => cases spans

/-- The field of a token has a name, and the arrow does not occur in its separator. -/
def Token.Named : Token → Prop
  | field name => isName name.toList = true
  | repeated name separator => isName name.toList = true ∧ ¬ arrow <:+: separator
  | _ => True

theorem named_of_braceToken {source left : List Char} {token : Token}
    (found : braceToken source = (token, left)) : token.Named := by
  unfold braceToken at found
  split at found
  · cases found
    trivial
  next name rest some spans =>
    obtain ⟨c, name, rfl⟩ := List.exists_cons_of_ne_nil some
    cases found
    rw [Token.Named, String.toList_ofList]
    exact isName_of_spanName spans
  next name rest some spans =>
    obtain ⟨c, name, rfl⟩ := List.exists_cons_of_ne_nil some
    split at found
    next =>
      cases found
      trivial
    next cut =>
      cases found
      rw [Token.Named, String.toList_ofList]
      exact ⟨isName_of_spanName spans, not_infix_of_cut? (by decide) cut⟩
  · cases found
    trivial

theorem named_of_nextToken {inItem : Bool} {source left : List Char} {token : Token}
    (found : nextToken inItem source = (token, left)) : token.Named := by
  unfold nextToken testToken at found
  simp only at found
  repeat' split at found
  all_goals first
    | exact named_of_braceToken found
    | (cases found; trivial)

/-! ## Characters before a brace -/

/-- What has no brace stands at the start of a text if it stands there before a brace. -/
theorem prefix_append_brace {chars before after : List Char} (free : '\x7b' ∉ chars) :
    chars <+: before ++ '\x7b' :: after ↔ chars <+: before := by
  constructor
  · intro here
    rcases List.prefix_or_prefix_of_prefix here (List.prefix_append before _) with inside | beyond
    · exact inside
    · obtain ⟨more, rfl⟩ := beyond
      cases more with
      | nil => exact (List.append_nil before).symm ▸ List.prefix_rfl
      | cons c more =>
        rw [List.prefix_append_right_inj] at here
        obtain ⟨rfl, -⟩ := List.cons_prefix_cons.1 here
        exact absurd (by simp) free
  · exact fun here => here.trans (List.prefix_append _ _)

theorem spanName_brace (before after : List Char) :
    spanName (before ++ '\x7b' :: after) =
      ((spanName before).1, (spanName before).2 ++ '\x7b' :: after) := by
  have ends : startsName '\x7b' = false ∧ continuesName '\x7b' = false := by decide
  cases before with
  | nil => simp [spanName, ends.1]
  | cons c before =>
    have span : ∀ front : List Char,
        (front ++ '\x7b' :: after).takeWhile continuesName = front.takeWhile continuesName ∧
          (front ++ '\x7b' :: after).dropWhile continuesName =
            front.dropWhile continuesName ++ '\x7b' :: after := by
      intro front
      induction front with
      | nil => simp [ends.2]
      | cons d front ih => by_cases continues : continuesName d <;> simp [continues, ih]
    by_cases starts : startsName c <;> simp [spanName, starts, span]

theorem braceToken_brace {c : Char} {before after left : List Char}
    (found : braceToken (before ++ '\x7b' :: after) = (.char c, left)) (other : List Char) :
    braceToken (before ++ '\x7b' :: other) = (.char '\x7b', before ++ '\x7b' :: other) := by
  unfold braceToken at found ⊢
  rw [spanName_brace] at found ⊢
  generalize spanName before = spans at found ⊢
  obtain ⟨name, rest⟩ := spans
  cases name with
  | nil => rfl
  | cons first name =>
    cases rest with
    | nil => rfl
    | cons d rest =>
      by_cases isField : d = '\x7d'
      · subst isField
        cases found
      by_cases isSpace : d = ' '
      · subst isSpace
        cases rest with
        | nil =>
          -- What begins as a repetition does is no character, whether its arrow comes or not.
          cases cut : cut? arrow after <;> simp [cut] at found
        | cons e rest =>
          by_cases isList : e = '\x7b'
          · subst isList
            cases cut : cut? arrow (rest ++ '\x7b' :: after) <;> simp [cut] at found
          · simp [isList]
      · simp [isField, isSpace]

theorem testToken_ne_char (source left : List Char) (c : Char) :
    testToken source ≠ (.char c, left) := by
  unfold testToken
  simp only
  repeat' split
  all_goals nofun

/-- What the reader takes for a character, with a brace further on, it takes for a character
whatever follows that brace. -/
theorem nextToken_char_brace {inItem : Bool} {c d : Char} {before after left : List Char}
    (found : nextToken inItem (c :: (before ++ '\x7b' :: after)) = (.char d, left))
    (other : List Char) :
    nextToken inItem (c :: (before ++ '\x7b' :: other)) = (.char c, before ++ '\x7b' :: other) := by
  by_cases closes : c = '\x7d' ∧ inItem
  · obtain ⟨rfl, rfl⟩ := closes
    cases found
  by_cases brace : c = '\x7b'
  · subst brace
    have mark (chars : List Char) (free : '\x7b' ∉ chars) (after : List Char) :
        List.isPrefixOf ('\x7b' :: chars) ('\x7b' :: (before ++ '\x7b' :: after)) =
          chars.isPrefixOf before := by
      rw [Bool.eq_iff_iff, List.isPrefixOf_iff_prefix, List.isPrefixOf_iff_prefix,
        List.prefix_cons_inj, prefix_append_brace free]
    have isElse := mark ['#', 'e', 'l', 's', 'e', '\x7d'] (by decide)
    have isEnd := mark ['/', 'i', 'f', '\x7d'] (by decide)
    have isOpen := mark ['#', 'i', 'f', ' '] (by decide)
    simp only [nextToken, elseTag_eq, endTag_eq, openTag_eq, isElse, isEnd, isOpen] at found ⊢
    rw [if_neg closes, if_neg (fun other => other rfl)] at found ⊢
    split at found
    next => cases found
    next notElse =>
      split at found
      next => cases found
      next notEnd =>
        split at found
        next => exact absurd found (testToken_ne_char _ _ _)
        next notOpen =>
          rw [if_neg notElse, if_neg notEnd, if_neg notOpen]
          exact braceToken_brace found other
  · simp [nextToken, closes, brace]

/-! ## Other parts at a place -/

/-- The text begins with a brace, and the reader makes the part of it whatever follows. -/
structure Stands (text : List Char) (part : Template) : Prop where
  opens : ∃ more, text = '\x7b' :: more
  apart : ∀ rest : Template, (part ++ rest).startsWithText = false
  reads : ∀ {inItem : Bool} {source after : List Char} {rest : Template} {stop : Stop},
    Reads inItem source rest stop after → Reads inItem (text ++ source) (part ++ rest) stop after

theorem Context.plug_ne_done {name : String} (context : Context) :
    context.plug (slot name) ≠ done := by
  cases context <;> nofun

/-- A character belongs to the text around the placeholder. -/
theorem exists_of_cons_eq_plug {c : Char} {rest : Template} {name : String} {context : Context}
    (same : cons c rest = context.plug (slot name)) :
    ∃ inner : Context, rest = inner.plug (slot name) ∧ ∀ {text : List Char} {part : Template},
      Stands text part → cons c (inner.plug part) = context.plug part := by
  have isText : (cons c rest).startsWithText = true := by cases rest <;> rfl
  rw [same] at isText
  cases context with
  | afterText chars inner =>
    cases rest with
    | text chars' rest =>
      cases same
      exact ⟨.afterText chars' inner, rfl, fun _ => rfl⟩
    | _ =>
      obtain ⟨rfl, eq⟩ : [c] = chars ∧ _ = inner.plug (slot name) := Template.text.inj same
      refine ⟨inner, eq, fun {text part} stands => ?_⟩
      cases inner with
      | here rest =>
        have noText := stands.apart rest
        simp only [Context.plug]
        cases whole : part ++ rest <;> simp_all [cons, startsWithText]
      | afterText => cases eq
      | _ => rfl
  | _ => cases isText

/-- Where a choice is opened in the text, its tag ends there. -/
def Untagged (text : List Char) : Prop :=
  ∀ before after, text = before ++ (openTag ++ after) → '\x7d' ∈ after

theorem untagged_nil : Untagged [] := by
  intro before after same
  have length := congrArg List.length same
  simp [openTag_eq] at length

theorem Untagged.cons {c : Char} {text : List Char} (untagged : Untagged text)
    (notHere : ¬ openTag <+: c :: text) : Untagged (c :: text) := by
  intro before after same
  cases before with
  | nil => exact absurd ⟨after, same.symm⟩ notHere
  | cons d before => exact untagged before after (List.cons.inj same).2

/-- A closing brace ends the tags before it. -/
theorem Untagged.after {text shown : List Char} (untagged : Untagged text)
    (ends : shown.getLast? = some '\x7d') : Untagged (shown ++ text) := by
  obtain ⟨shown, rfl⟩ := List.getLast?_eq_some_iff.1 ends
  intro before after same
  rw [List.append_assoc, List.singleton_append] at same
  rcases List.append_eq_append_iff.1 same with ⟨more, -, rest⟩ | ⟨more, -, rest⟩
  · cases more with
    | nil => cases rest
    | cons d more => exact untagged more after (List.cons.inj rest).2
  · -- The choice is opened before the brace, which is not a part of the opening.
    rcases List.append_eq_append_iff.1 rest with ⟨inside, -, rfl⟩ | ⟨tail, whole, rest⟩
    · exact List.mem_append_right inside List.mem_cons_self
    · cases tail with
      | nil =>
        rw [List.nil_append] at rest
        exact rest ▸ List.mem_cons_self
      | cons d tail =>
        obtain ⟨rfl, -⟩ := List.cons.inj rest
        have reached : '\x7d' ∈ openTag := whole ▸ List.mem_append_right more List.mem_cons_self
        exact absurd reached (by decide)

/-- The arrow of a repetition begins with a closing brace, and opens no choice after it. -/
theorem Untagged.after_listHead {text : List Char} (untagged : Untagged text) (name : String)
    (separator : List Char) : Untagged (listHead name separator ++ text) := by
  have arrowed : Untagged ('=' :: '>' :: ' ' :: text) := by
    refine ((untagged.cons ?_).cons ?_).cons ?_ <;> simp [openTag_eq]
  have shown : listHead name separator ++ text =
      ('\x7b' :: name.toList ++ [' ', '\x7b'] ++ separator ++ ['\x7d']) ++
        '=' :: '>' :: ' ' :: text := by
    rw [listHead, List.append_assoc, List.append_assoc _ ['\x7d']]
    rfl
  rw [shown]
  exact arrowed.after List.getLast?_concat

theorem Untagged.of_append {before text : List Char} (untagged : Untagged (before ++ text)) :
    Untagged text := by
  rintro front after rfl
  exact untagged (before ++ front) after (List.append_assoc ..).symm

/-- What is read up to a stop inside of the source ends in a closing brace, and is read like this
whatever follows. -/
theorem Reads.exists_shown {inItem : Bool} {source after : List Char} {template : Template}
    {stop : Stop} (reads : Reads inItem source template stop after) (notEnd : stop ≠ .endOfText) :
    ∃ shown, source = shown ++ after ∧ shown.getLast? = some '\x7d' ∧
      ∀ other, Reads inItem (shown ++ other) template stop other := by
  have ends : stop.mark.getLast? = some '\x7d' := by
    cases stop with
    | endOfText => exact absurd rfl notEnd
    | otherwise | endIf | closingBrace => rfl
  obtain ⟨shown, rfl⟩ := reads.suffix
  have last : (shown ++ stop.mark).getLast? = some '\x7d' := by
    rw [List.getLast?_append, ends, Option.some_or]
  have isSealed : Sealed (shown ++ stop.mark) := fun c isLast =>
    .inr (Option.some.inj (isLast.symm.trans last))
  have whole : Reads inItem (shown ++ stop.mark ++ after) template stop ([] ++ after) := by
    rwa [List.append_assoc]
  exact ⟨shown ++ stop.mark, (List.append_assoc ..).symm, last, whole.local isSealed notEnd⟩

/-- The source has the tag of the placeholder at the open place of the context. With another text
instead of the tag, it is read as the template with the part that stands in this text. -/
def Placed (name : String) (inItem : Bool) (source : List Char) (context : Context) (stop : Stop)
    (after : List Char) : Prop :=
  ∃ before behind, source = before ++ (fieldTag name ++ behind) ∧ Untagged before ∧
    ∀ {text : List Char} {part : Template}, Stands text part →
      Reads inItem (before ++ (text ++ behind)) (context.plug part) stop after

/-- What is read in front of the source does not change the place. -/
theorem Placed.after {name : String} {inItem inItem' : Bool} {source after after' : List Char}
    {context inner : Context} {stop stop' : Stop}
    (placed : Placed name inItem' source inner stop' after') {shown : List Char}
    (ends : ∀ {text}, Untagged text → Untagged (shown ++ text))
    (reads : ∀ {source part}, Reads inItem' source (inner.plug part) stop' after' →
      Reads inItem (shown ++ source) (context.plug part) stop after) :
    Placed name inItem (shown ++ source) context stop after := by
  obtain ⟨before, behind, rfl, untagged, exchanged⟩ := placed
  refine ⟨shown ++ before, behind, (List.append_assoc ..).symm, ends untagged, fun stands => ?_⟩
  rw [List.append_assoc]
  exact reads (exchanged stands)

/-- Where a source is read as a template with a placeholder, the placeholder has its place in the
source, and a name. -/
theorem Reads.placed {name : String} {inItem : Bool} {source after : List Char}
    {template : Template} {stop : Stop} (reads : Reads inItem source template stop after)
    {context : Context} (same : template = context.plug (slot name)) :
    isName name.toList = true ∧ Placed name inItem source context stop after := by
  induction reads generalizing context with
  | stop token => exact absurd same.symm context.plug_ne_done
  | @char inItem source left after rest stop c token others ih =>
    obtain ⟨inner, rfl, eq⟩ := exists_of_cons_eq_plug same
    obtain ⟨named, before, behind, rfl, untagged, reads⟩ := ih rfl
    obtain ⟨shown, rfl, rfl⟩ := nextToken_spelling token
    refine ⟨named, c :: before, behind, rfl, untagged.cons ?_, fun {text part} stands => ?_⟩
    · rintro ⟨back, opening⟩
      have test := nextToken_openTag inItem (back ++ (fieldTag name ++ behind))
      rw [← List.append_assoc, opening] at test
      exact testToken_ne_char _ _ _ (test.symm.trans token)
    · rw [← eq stands]
      have reads' := reads stands
      obtain ⟨more, rfl⟩ := stands.opens
      exact .char (nextToken_char_brace token _) reads'
  | @field inItem source left after rest stop name' token others ih =>
    obtain ⟨shown, rfl, rfl⟩ := nextToken_spelling token
    have named : isName name'.toList = true := named_of_nextToken token
    cases context with
    | here rest' =>
      cases same
      exact ⟨named, [], left, rfl, untagged_nil, fun stands => stands.reads others⟩
    | afterField _ inner =>
      cases same
      exact (ih rfl).imp_right (·.after (·.after List.getLast?_concat)
        (.field (nextToken_fieldTag _ named _)))
    | _ => cases same
  | @choose inItem negated source left middle following after yes no rest stop name' condition
      token first second others yesIh noIh ih =>
    obtain ⟨tag, rfl, spelling⟩ := nextToken_spelling token
    have ends := getLast?_of_isTag (TestSpelling.isTag spelling).1
    obtain ⟨one, rfl, endsOne, first'⟩ := first.exists_shown nofun
    obtain ⟨two, rfl, endsTwo, second'⟩ := second.exists_shown nofun
    cases context with
    | inYes _ _ inner _ _ =>
      cases same
      exact (yesIh rfl).imp_right (·.after (·.after ends)
        (.choose_of_spelling spelling · second others))
    | inNo _ _ _ inner _ =>
      cases same
      rw [← List.append_assoc tag]
      refine (noIh rfl).imp_right (·.after (·.after (by simp [endsOne])) fun reads => ?_)
      rw [List.append_assoc]
      exact .choose_of_spelling spelling (first' _) reads others
    | afterChoice _ _ _ _ inner =>
      cases same
      rw [← List.append_assoc one, ← List.append_assoc tag]
      refine (ih rfl).imp_right (·.after (·.after (by simp [endsTwo])) fun reads => ?_)
      rw [List.append_assoc, List.append_assoc]
      exact .choose_of_spelling spelling (first' _) (second' _) reads
    | _ => cases same
  | @chooseOne inItem negated source left following after yes rest stop name' condition token first
      others yesIh ih =>
    obtain ⟨tag, rfl, spelling⟩ := nextToken_spelling token
    have ends := getLast?_of_isTag (TestSpelling.isTag spelling).1
    obtain ⟨one, rfl, endsOne, first'⟩ := first.exists_shown nofun
    cases context with
    | inYes _ _ inner _ _ =>
      cases same
      exact (yesIh rfl).imp_right (·.after (·.after ends)
        (.chooseOne_of_spelling spelling · others))
    | inNo _ _ _ inner _ =>
      have isDone := (Template.choose.inj same).2.2.2.1
      exact absurd isDone.symm inner.plug_ne_done
    | afterChoice _ _ _ _ inner =>
      cases same
      rw [← List.append_assoc tag]
      refine (ih rfl).imp_right (·.after (·.after (by simp [endsOne])) fun reads => ?_)
      rw [List.append_assoc]
      exact .chooseOne_of_spelling spelling (first' _) reads
    | _ => cases same
  | @each inItem source left following after separator item rest stop name' token repeated others
      itemIh ih =>
    obtain ⟨tag, rfl, rfl⟩ := nextToken_spelling token
    obtain ⟨named, free⟩ : isName name'.toList = true ∧ ¬ arrow <:+: separator :=
      named_of_nextToken token
    obtain ⟨one, rfl, endsOne, repeated'⟩ := repeated.exists_shown nofun
    cases context with
    | inItem _ _ inner _ =>
      cases same
      exact (itemIh rfl).imp_right (·.after (·.after_listHead _ _) fun reads =>
        .each (nextToken_listHead _ named free _) reads others)
    | afterList _ _ _ inner =>
      cases same
      rw [← List.append_assoc]
      refine (ih rfl).imp_right (·.after (·.after (by simp [endsOne])) fun reads => ?_)
      rw [List.append_assoc]
      exact .each (nextToken_listHead _ named free _) (repeated' _) reads
    | _ => cases same

end ScriptToC.Template
