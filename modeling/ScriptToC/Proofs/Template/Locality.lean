import Mathlib.Data.List.TakeWhile
import ScriptToC.Proofs.Template.Readings

/-!
# What the reader looks at

Where a text ends in a newline or a closing brace, no token begins in it and ends after it, unless
the reader has to look beyond for the end of a tag or for an arrow. So a token that the reader takes
off such a text is taken off whatever comes after the text (`nextToken_local`), and the same holds
of a reading that ends in the text (`Reads.local`).

The reader does look beyond the end of other texts. With a brace, a name and a part of a tag it has
to see what comes next, which is why the last character of the text matters.
-/

set_option autoImplicit false

namespace ScriptToC.Template

open Text

/-! ## Sealed texts -/

/-- A character that no part of a mark but its end can be. -/
def Barrier (c : Char) : Prop :=
  c = '\n' ∨ c = '\x7d'

instance (c : Char) : Decidable (Barrier c) :=
  inferInstanceAs (Decidable (_ ∨ _))

/-- The text is empty, or ends in a newline or a closing brace. -/
def Sealed (text : List Char) : Prop :=
  ∀ c ∈ text.getLast?, Barrier c

theorem sealed_nil : Sealed [] :=
  nofun

theorem sealed_append_singleton {c : Char} (barrier : Barrier c) (text : List Char) :
    Sealed (text ++ [c]) := by
  intro d last
  rw [List.getLast?_concat, Option.mem_some_iff] at last
  exact last ▸ barrier

theorem Sealed.of_suffix {text left : List Char} (sealed : Sealed text) (suffix : left <:+ text) :
    Sealed left := by
  obtain ⟨shown, rfl⟩ := suffix
  intro c last
  apply sealed c
  rw [List.getLast?_append, last, Option.some_or]
  exact Option.mem_some_self c

theorem Sealed.append {text more : List Char} (sealed : Sealed text) (sealed' : Sealed more) :
    Sealed (text ++ more) := by
  intro c last
  rw [List.getLast?_append] at last
  cases ends : more.getLast? with
  | none =>
    rw [ends] at last
    exact sealed c last
  | some d =>
    rw [ends] at last
    exact sealed' c (ends.trans last)

/-- A text that goes on after a character that is no barrier. -/
theorem Sealed.tail_ne_nil {c : Char} {text : List Char} (sealed : Sealed (c :: text))
    (open' : ¬ Barrier c) : text ≠ [] := by
  rintro rfl
  exact open' (sealed c (Option.mem_some_self c))

/-- A mark whose barriers stand at its end alone, if it has any. -/
def IsMark (mark : List Char) : Prop :=
  ∀ c ∈ mark.dropLast, ¬ Barrier c

instance (mark : List Char) : Decidable (IsMark mark) :=
  List.decidableBAll (fun c => ¬ Barrier c) mark.dropLast

/-- A mark at the start of a sealed text and what follows it is inside the text. -/
theorem isPrefixOf_append {mark text : List Char} (isMark : IsMark mark) (sealed : Sealed text)
    (some : text ≠ []) (rest : List Char) :
    mark.isPrefixOf (text ++ rest) = mark.isPrefixOf text := by
  rw [Bool.eq_iff_iff, List.isPrefixOf_iff_prefix, List.isPrefixOf_iff_prefix]
  constructor
  · intro here
    rcases List.prefix_or_prefix_of_prefix here (List.prefix_append text rest) with inside | beyond
    · exact inside
    · obtain ⟨more, rfl⟩ := beyond
      cases more with
      | nil => exact (List.append_nil text).symm ▸ List.prefix_rfl
      | cons d more =>
        -- The last character of the text is a barrier in the middle of the mark.
        have last := List.getLast?_eq_some_getLast some
        have inside : text.getLast some ∈ (text ++ d :: more).dropLast := by
          rw [List.dropLast_append_of_ne_nil (List.cons_ne_nil d more)]
          exact List.mem_append_left _ (List.getLast_mem some)
        exact absurd (sealed _ last) (isMark _ inside)
  · exact fun here => here.trans (List.prefix_append text rest)

/-! ## Tokens -/

/-- What is found of a mark in a text does not depend on what follows the text. -/
theorem cut?_local {mark text before left rest : List Char} (some : mark ≠ [])
    (found : cut? mark (text ++ rest) = .some (before, left ++ rest)) (other : List Char) :
    cut? mark (text ++ other) = .some (before, left ++ other) := by
  induction text generalizing before with
  | nil =>
    have whole := congrArg List.length (eq_of_cut? found)
    have := List.length_pos_iff.2 some
    simp only [List.nil_append, List.length_append] at whole
    omega
  | cons c text ih =>
    have fits : mark.length ≤ (c :: text).length := by
      have whole := congrArg List.length (eq_of_cut? found)
      simp only [List.length_append] at whole
      omega
    have prefixes : ∀ after : List Char,
        mark.isPrefixOf (c :: text ++ after) = mark.isPrefixOf (c :: text) := by
      intro after
      rw [Bool.eq_iff_iff, List.isPrefixOf_iff_prefix, List.isPrefixOf_iff_prefix]
      exact ⟨fun here => List.prefix_of_prefix_length_le here (List.prefix_append _ _) fits,
        fun here => here.trans (List.prefix_append _ _)⟩
    have step : ∀ after : List Char, cut? mark (c :: text ++ after) =
        if mark.isPrefixOf (c :: text) then .some ([], (c :: text ++ after).drop mark.length)
        else (cut? mark (text ++ after)).map fun found => (c :: found.1, found.2) := by
      intro after
      rw [← prefixes after]
      rfl
    rw [step] at found ⊢
    split at found
    next here =>
      rw [if_pos here]
      rw [List.drop_append_of_le_length fits] at found ⊢
      obtain ⟨rfl, same⟩ := Prod.mk.inj (Option.some.inj found)
      rw [List.append_cancel_right same]
    next notHere =>
      rw [if_neg notHere]
      obtain ⟨⟨front, back⟩, cut, same⟩ := Option.map_eq_some_iff.1 found
      obtain ⟨rfl, rfl⟩ := Prod.mk.inj same
      rw [ih cut]
      rfl

/-- The token of an opened choice depends on what stands in its tag alone. -/
theorem testToken_eq {source source' inside after after' : List Char}
    (cut : cut? ['\x7d'] source = .some (inside, after))
    (cut' : cut? ['\x7d'] source' = .some (inside, after')) :
    testToken source = ((testToken source').1, after) := by
  simp only [testToken, cut, cut']
  split <;> split <;> rfl

theorem testToken_local {text left rest : List Char} {token : Token} (isPart : token.isPart = true)
    (found : testToken (text ++ rest) = (token, left ++ rest)) (other : List Char) :
    testToken (text ++ other) = (token, left ++ other) := by
  cases cut : cut? ['\x7d'] (text ++ rest) with
  | none =>
    simp only [testToken, cut] at found
    obtain ⟨rfl, -⟩ := Prod.mk.inj found
    cases isPart
  | some parts =>
    obtain ⟨inside, after⟩ := parts
    obtain rfl : after = left ++ rest :=
      congrArg Prod.snd ((testToken_eq cut cut).symm.trans found)
    have cut' := cut?_local (List.cons_ne_nil _ _) cut other
    rw [testToken_eq cut' cut, found]

/-- A name in a sealed text ends in the text. -/
theorem spanName_local {text : List Char} (sealed : Sealed text) (some : text ≠ []) :
    ∃ name after, after ≠ [] ∧ Sealed after ∧
      ∀ rest, spanName (text ++ rest) = (name, after ++ rest) := by
  cases text with
  | nil => exact absurd rfl some
  | cons c text =>
    by_cases starts : startsName c
    · have continues : ∀ d, Barrier d → continuesName d = false := by
        rintro d (rfl | rfl) <;> rfl
      have open' : ¬ Barrier c := by
        intro barrier
        have := continues c barrier
        rw [continuesName_of_startsName starts] at this
        cases this
      have someText := sealed.tail_ne_nil open'
      have sealedText := sealed.of_suffix (List.suffix_cons c text)
      have someAfter : text.dropWhile continuesName ≠ [] := by
        intro none
        have last := continues _ (sealedText _ (List.getLast?_eq_some_getLast someText))
        rw [List.dropWhile_eq_nil_iff.1 none _ (List.getLast_mem someText)] at last
        cases last
      refine ⟨c :: text.takeWhile continuesName, text.dropWhile continuesName, someAfter,
        sealedText.of_suffix (List.dropWhile_suffix _), ?_⟩
      intro rest
      have shorter : (text.takeWhile continuesName).length ≠ text.length := by
        intro whole
        have parts := congrArg List.length
          (List.takeWhile_append_dropWhile (p := continuesName) (l := text))
        rw [List.length_append] at parts
        have := List.length_pos_iff.2 someAfter
        omega
      rw [List.cons_append, spanName, if_pos starts, List.takeWhile_append, if_neg shorter,
        List.dropWhile_append, if_neg (by simpa using someAfter)]
    · refine ⟨[], c :: text, List.cons_ne_nil _ _, sealed, ?_⟩
      intro rest
      rw [List.cons_append, spanName, if_neg starts]

theorem braceToken_local {text left rest : List Char} {token : Token} (sealed : Sealed text)
    (some : text ≠ []) (isPart : token.isPart = true)
    (found : braceToken (text ++ rest) = (token, left ++ rest)) (other : List Char) :
    braceToken (text ++ other) = (token, left ++ other) := by
  obtain ⟨name, after, someAfter, sealedAfter, spans⟩ := spanName_local sealed some
  obtain ⟨d, after, rfl⟩ := List.exists_cons_of_ne_nil someAfter
  -- What follows the name decides, and it is inside the text.
  unfold braceToken at found ⊢
  rw [spans] at found ⊢
  simp only [List.cons_append] at found ⊢
  cases name with
  | nil => simpa using found
  | cons first name =>
    by_cases isField : d = '\x7d'
    · subst isField
      obtain ⟨rfl, same⟩ := Prod.mk.inj found
      obtain rfl := List.append_cancel_right same
      rfl
    by_cases isSpace : d = ' '
    · subst isSpace
      obtain ⟨e, after, rfl⟩ := List.exists_cons_of_ne_nil (sealedAfter.tail_ne_nil (by decide))
      by_cases isList : e = '\x7b'
      · subst isList
        simp only [List.cons_append] at found ⊢
        cases cut : cut? arrow (after ++ rest) with
        | none =>
          rw [cut] at found
          obtain ⟨rfl, -⟩ := Prod.mk.inj found
          cases isPart
        | some parts =>
          obtain ⟨separator, item⟩ := parts
          rw [cut] at found
          obtain ⟨rfl, rfl⟩ := Prod.mk.inj found
          rw [cut?_local (by decide) cut other]
      · simpa [isList] using found
    · simpa [isField, isSpace] using found

/-- A part of a source that is taken off inside a text makes the text start with something. -/
theorem ne_nil_of_nextToken {inItem : Bool} {text left rest : List Char} {token : Token}
    (found : nextToken inItem (text ++ rest) = (token, left ++ rest))
    (isPart : token.isPart = true) : text ≠ [] := by
  rintro rfl
  have shorter := length_lt_of_nextToken found isPart
  simp only [List.nil_append, List.length_append] at shorter
  omega

/-- **A token that lies in a sealed text is there whatever follows the text.** -/
theorem nextToken_local {inItem : Bool} {text left rest : List Char} {token : Token}
    (sealed : Sealed text) (isPart : token.isPart = true)
    (found : nextToken inItem (text ++ rest) = (token, left ++ rest)) (other : List Char) :
    nextToken inItem (text ++ other) = (token, left ++ other) := by
  have some := ne_nil_of_nextToken found isPart
  obtain ⟨c, text, rfl⟩ := List.exists_cons_of_ne_nil some
  have marks : ∀ mark after : List Char, IsMark mark →
      mark.isPrefixOf (c :: (text ++ after)) = mark.isPrefixOf (c :: text) :=
    fun mark after isMark => isPrefixOf_append isMark sealed some after
  have drops : ∀ mark after : List Char, mark.isPrefixOf (c :: text) = true →
      (c :: (text ++ after)).drop mark.length = (c :: text).drop mark.length ++ after := by
    intro mark after here
    exact List.drop_append_of_le_length (List.isPrefixOf_iff_prefix.1 here).length_le
  have isElse : IsMark elseTag := by decide
  have isEnd : IsMark endTag := by decide
  have isOpen : IsMark openTag := by decide
  simp only [List.cons_append, nextToken, marks _ _ isElse, marks _ _ isEnd, marks _ _ isOpen]
    at found ⊢
  split at found
  next closes =>
    rw [if_pos closes]
    simpa using found
  next notClose =>
    rw [if_neg notClose]
    split at found
    next plain =>
      rw [if_pos plain]
      simpa using found
    next brace =>
      rw [if_neg brace]
      obtain rfl : c = '\x7b' := Classical.not_not.1 brace
      split at found
      next here =>
        rw [if_pos here]
        rw [drops _ _ here] at found ⊢
        simpa using found
      next notElse =>
        rw [if_neg notElse]
        split at found
        next here =>
          rw [if_pos here]
          rw [drops _ _ here] at found ⊢
          simpa using found
        next notEnd =>
          rw [if_neg notEnd]
          split at found
          next here =>
            rw [if_pos here]
            rw [drops _ _ here] at found ⊢
            exact testToken_local isPart found other
          next notOpen =>
            rw [if_neg notOpen]
            have sealedText := sealed.of_suffix (List.suffix_cons _ text)
            exact braceToken_local sealedText (sealed.tail_ne_nil (by decide)) isPart found other

/-- A token of a sealed text alone. -/
theorem nextToken_append {inItem : Bool} {text left : List Char} {token : Token}
    (sealed : Sealed text) (isPart : token.isPart = true)
    (found : nextToken inItem text = (token, left)) (other : List Char) :
    nextToken inItem (text ++ other) = (token, left ++ other) := by
  rw [← List.append_nil text, ← List.append_nil left] at found
  exact nextToken_local sealed isPart found other

/-! ## Readings -/

/-- What lies between a text with something after it and a later part of both. -/
theorem exists_between {text left middle rest : List Char} (above : left ++ rest <:+ middle)
    (below : middle <:+ text ++ rest) : ∃ more, middle = more ++ rest ∧ more <:+ text := by
  obtain ⟨shown, rfl⟩ := above
  obtain ⟨front, whole⟩ := below
  refine ⟨shown ++ left, by rw [List.append_assoc], front, ?_⟩
  rw [← List.append_left_inj rest, ← whole, List.append_assoc, List.append_assoc]

/-- **A reading that ends in a sealed text is there whatever follows the text.** -/
theorem Reads.local {inItem : Bool} {text left rest : List Char} {template : Template} {stop : Stop}
    (reads : Reads inItem (text ++ rest) template stop (left ++ rest)) (sealed : Sealed text)
    (notEnd : stop ≠ .endOfText) (other : List Char) :
    Reads inItem (text ++ other) template stop (left ++ other) := by
  generalize whole : text ++ rest = source at reads
  generalize ends : left ++ rest = after at reads
  induction reads generalizing text left with
  | @stop _ _ _ kind token =>
    subst whole ends
    have isPart : (Token.stop kind).isPart = true := by
      cases kind with
      | endOfText => exact absurd rfl notEnd
      | otherwise | endIf | closingBrace => rfl
    exact .stop (nextToken_local sealed isPart token other)
  | char token others ih =>
    subst whole ends
    obtain ⟨more, rfl, inside⟩ := exists_between others.after_suffix (suffix_of_nextToken token)
    have rest := ih (sealed.of_suffix inside) notEnd rfl rfl
    exact .char (nextToken_local sealed rfl token other) rest
  | field token others ih =>
    subst whole ends
    obtain ⟨more, rfl, inside⟩ := exists_between others.after_suffix (suffix_of_nextToken token)
    exact .field (nextToken_local sealed rfl token other)
      (ih (sealed.of_suffix inside) notEnd rfl rfl)
  | choose token first second others yesIh noIh ih =>
    subst whole ends
    have afterNo := others.after_suffix
    have afterYes := afterNo.trans second.after_suffix
    obtain ⟨one, rfl, inOne⟩ :=
      exists_between (afterYes.trans first.after_suffix) (suffix_of_nextToken token)
    obtain ⟨two, rfl, inTwo⟩ := exists_between afterYes first.after_suffix
    obtain ⟨three, rfl, inThree⟩ := exists_between afterNo second.after_suffix
    have sealedOne := sealed.of_suffix inOne
    have sealedTwo := sealedOne.of_suffix inTwo
    exact .choose (nextToken_local sealed rfl token other) (yesIh sealedOne nofun rfl rfl)
      (noIh sealedTwo nofun rfl rfl) (ih (sealedTwo.of_suffix inThree) notEnd rfl rfl)
  | chooseOne token first others yesIh ih =>
    subst whole ends
    have afterYes := others.after_suffix
    obtain ⟨one, rfl, inOne⟩ :=
      exists_between (afterYes.trans first.after_suffix) (suffix_of_nextToken token)
    obtain ⟨two, rfl, inTwo⟩ := exists_between afterYes first.after_suffix
    have sealedOne := sealed.of_suffix inOne
    exact .chooseOne (nextToken_local sealed rfl token other) (yesIh sealedOne nofun rfl rfl)
      (ih (sealedOne.of_suffix inTwo) notEnd rfl rfl)
  | each token repeated others itemIh ih =>
    subst whole ends
    have afterItem := others.after_suffix
    obtain ⟨one, rfl, inOne⟩ :=
      exists_between (afterItem.trans repeated.after_suffix) (suffix_of_nextToken token)
    obtain ⟨two, rfl, inTwo⟩ := exists_between afterItem repeated.after_suffix
    have sealedOne := sealed.of_suffix inOne
    exact .each (nextToken_local sealed rfl token other) (itemIh sealedOne nofun rfl rfl)
      (ih (sealedOne.of_suffix inTwo) notEnd rfl rfl)

/-- A reading of a sealed text alone. -/
theorem Reads.append {inItem : Bool} {text left : List Char} {template : Template} {stop : Stop}
    (reads : Reads inItem text template stop left) (sealed : Sealed text)
    (notEnd : stop ≠ .endOfText) (other : List Char) :
    Reads inItem (text ++ other) template stop (left ++ other) := by
  rw [← List.append_nil text, ← List.append_nil left] at reads
  exact reads.local sealed notEnd other

end ScriptToC.Template
