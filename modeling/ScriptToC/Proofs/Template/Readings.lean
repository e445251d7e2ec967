import ScriptToC.Proofs.Template.Tokens

/-!
# Readings

What the reader makes of a source up to a stop, as a relation of the source, the template, the stop
and what follows it (`Reads`). It has one rule for each kind of token and no bound on their number.
The reader gives a template exactly where there is such a reading (`readUntil_eq_ok_iff`), so a
source has at most one reading (`Reads.unique`), and an induction over readings follows the tokens
of the source and not the bound.
-/

set_option autoImplicit false

namespace ScriptToC.Template

/-! ## Steps of the reader -/

/-- A run in two steps that succeeds has succeeded in both. -/
theorem ok_of_bind {α β : Type} {step : Except Failure α} {next : α → Except Failure β} {result : β}
    (ran : step >>= next = .ok result) : ∃ first, step = .ok first ∧ next first = .ok result := by
  cases step with
  | error => cases ran
  | ok first => exact ⟨first, rfl, ran⟩

/-- A run that gives something has succeeded. -/
theorem ok_of_toOption {ε α : Type} {run : Except ε α} {a : α} (found : run.toOption = some a) :
    run = .ok a := by
  cases run with
  | error => cases found
  | ok b => exact congrArg Except.ok (Option.some.inj found)

/-- Reads the second branch of a choice, if the first one stopped at the tag between them. -/
def readOther (fuel : Nat) (inItem : Bool) (stop : Stop) (source : List Char) :
    Except Failure (Template × Stop × List Char) :=
  if stop = .otherwise then readUntil fuel inItem source else .ok (done, stop, source)

/-- A choice is read branch by branch, and then what follows it. -/
theorem readUntil_test {fuel : Nat} {inItem negated : Bool} {source after : List Char}
    {name condition : String}
    (token : nextToken inItem source = (.test negated name condition, after)) :
    readUntil (fuel + 1) inItem source = (do
      let (yes, middle, after) ← readUntil fuel inItem after
      let (no, final, after) ← readOther fuel inItem middle after
      if final = .endIf then
        let (rest, stop, after) ← readUntil fuel inItem after
        return (choose negated name yes no rest, stop, after)
      else
        throw (.unclosedTest condition, after)) := by
  simp only [readUntil, token, readOther]
  refine bind_congr fun ⟨yes, middle, after⟩ => ?_
  by_cases isElse : middle = .otherwise <;> simp [isElse, bind, Except.bind, pure, Except.pure]

/-! ## Readings of sources -/

/-- The reader, inside a repeated template or outside, reads the source up to a stop as a template,
and something follows the stop. -/
inductive Reads : Bool → List Char → Template → Stop → List Char → Prop
  | stop {inItem : Bool} {source after : List Char} {kind : Stop}
      (token : nextToken inItem source = (.stop kind, after)) : Reads inItem source done kind after
  | char {inItem : Bool} {source left after : List Char} {rest : Template} {stop : Stop} {c : Char}
      (token : nextToken inItem source = (.char c, left))
      (others : Reads inItem left rest stop after) :
      Reads inItem source (cons c rest) stop after
  | field {inItem : Bool} {source left after : List Char} {rest : Template} {stop : Stop}
      {name : String} (token : nextToken inItem source = (.field name, left))
      (others : Reads inItem left rest stop after) :
      Reads inItem source (field name rest) stop after
  | choose {inItem negated : Bool} {source left middle following after : List Char}
      {yes no rest : Template} {stop : Stop} {name condition : String}
      (token : nextToken inItem source = (.test negated name condition, left))
      (first : Reads inItem left yes .otherwise middle)
      (second : Reads inItem middle no .endIf following)
      (others : Reads inItem following rest stop after) :
      Reads inItem source (choose negated name yes no rest) stop after
  | chooseOne {inItem negated : Bool} {source left following after : List Char}
      {yes rest : Template} {stop : Stop} {name condition : String}
      (token : nextToken inItem source = (.test negated name condition, left))
      (first : Reads inItem left yes .endIf following)
      (others : Reads inItem following rest stop after) :
      Reads inItem source (choose negated name yes done rest) stop after
  | each {inItem : Bool} {source left following after separator : List Char}
      {item rest : Template} {stop : Stop} {name : String}
      (token : nextToken inItem source = (.repeated name separator, left))
      (repeated : Reads true left item .closingBrace following)
      (others : Reads inItem following rest stop after) :
      Reads inItem source (each name separator item rest) stop after

/-- The token is a part of the source: neither its end nor a fault. -/
def Token.isPart : Token → Bool
  | stop .endOfText | fault _ => false
  | _ => true

theorem Token.Spelling.length_pos {token : Token} {shown : List Char}
    (spelled : token.Spelling shown)
    (isPart : token.isPart = true) : 0 < shown.length := by
  cases token with
  | char | field | repeated =>
    obtain rfl := spelled
    simp [fieldTag, listHead]
  | test => exact TestSpelling.length_pos spelled
  | stop kind =>
    obtain rfl := spelled
    cases kind with
    | endOfText => cases isPart
    | otherwise | endIf | closingBrace => decide
  | fault => cases isPart

/-- A part of the source takes a character at least. -/
theorem length_lt_of_nextToken {inItem : Bool} {source after : List Char} {token : Token}
    (found : nextToken inItem source = (token, after)) (isPart : token.isPart = true) :
    after.length < source.length := by
  obtain ⟨shown, rfl, spelled⟩ := nextToken_spelling found
  have := spelled.length_pos isPart
  rw [List.length_append]
  omega

theorem suffix_of_nextToken {inItem : Bool} {source after : List Char} {token : Token}
    (found : nextToken inItem source = (token, after)) : after <:+ source := by
  obtain ⟨shown, rfl, -⟩ := nextToken_spelling found
  exact List.suffix_append shown after

namespace Reads

variable {inItem : Bool} {source after : List Char} {template : Template} {stop : Stop}

/-- The stop stands in the source, with what follows it up to the end. -/
theorem suffix (reads : Reads inItem source template stop after) :
    stop.mark ++ after <:+ source := by
  induction reads with
  | stop token =>
    obtain ⟨shown, rfl, rfl⟩ := nextToken_spelling token
    exact List.suffix_rfl
  | char token _ ih | field token _ ih => exact ih.trans (suffix_of_nextToken token)
  | choose token _ _ _ yesIh noIh ih =>
    have second := noIh.trans ((List.suffix_append _ _).trans yesIh)
    have others := ih.trans ((List.suffix_append _ _).trans second)
    exact others.trans (suffix_of_nextToken token)
  | chooseOne token _ _ yesIh ih | each token _ _ yesIh ih =>
    have others := ih.trans ((List.suffix_append _ _).trans yesIh)
    exact others.trans (suffix_of_nextToken token)

theorem after_suffix (reads : Reads inItem source template stop after) : after <:+ source :=
  (List.suffix_append _ _).trans reads.suffix

theorem length_le (reads : Reads inItem source template stop after) :
    after.length ≤ source.length :=
  reads.after_suffix.length_le

/-- Nothing follows the end of the text. -/
theorem after_eq_nil (reads : Reads inItem source template .endOfText after) : after = [] := by
  generalize ends : Stop.endOfText = stop at reads
  induction reads with
  | stop token =>
    subst ends
    exact nextToken_endOfText token
  | char _ _ ih | field _ _ ih | choose _ _ _ _ _ _ ih | chooseOne _ _ _ _ ih | each _ _ _ _ ih =>
    exact ih ends

/-- What is read is normal. -/
theorem normal (reads : Reads inItem source template stop after) : template.Normal := by
  induction reads with
  | stop => trivial
  | char _ _ ih => exact ih.cons _
  | field _ _ ih => exact ih
  | choose _ _ _ _ yesIh noIh ih => exact ⟨yesIh, noIh, ih⟩
  | chooseOne _ _ _ yesIh ih => exact ⟨yesIh, trivial, ih⟩
  | each _ _ _ itemIh ih => exact ⟨itemIh, ih⟩

/-- A source that starts with an opened choice is read as a choice, branch by branch. -/
theorem of_test {left : List Char} {negated : Bool} {name condition : String}
    (reads : Reads inItem source template stop after)
    (token : nextToken inItem source = (.test negated name condition, left)) :
    ∃ yes no rest following, template = .choose negated name yes no rest ∧
      Reads inItem following rest stop after ∧
      ((∃ middle, Reads inItem left yes .otherwise middle ∧
          Reads inItem middle no .endIf following) ∨
        Reads inItem left yes .endIf following ∧ no = done) := by
  cases reads with
  | choose token' first second others =>
    rw [token] at token'
    cases token'
    exact ⟨_, _, _, _, rfl, others, .inl ⟨_, first, second⟩⟩
  | chooseOne token' first others =>
    rw [token] at token'
    cases token'
    exact ⟨_, _, _, _, rfl, others, .inr ⟨first, rfl⟩⟩
  | stop token' | char token' | field token' | each token' =>
    rw [token] at token'
    cases token'

/-- A choice with two branches is read behind any spelling of its tag. -/
theorem choose_of_spelling {negated : Bool} {name : String} {tag left middle following : List Char}
    {yes no rest : Template}
    (spelling : TestSpelling negated name tag) (first : Reads inItem left yes .otherwise middle)
    (second : Reads inItem middle no .endIf following)
    (others : Reads inItem following rest stop after) :
    Reads inItem (tag ++ left) (.choose negated name yes no rest) stop after := by
  obtain ⟨condition, token⟩ := nextToken_test inItem spelling left
  exact .choose token first second others

/-- A choice with one branch is read behind any spelling of its tag. -/
theorem chooseOne_of_spelling {negated : Bool} {name : String} {tag left following : List Char}
    {yes rest : Template}
    (spelling : TestSpelling negated name tag) (first : Reads inItem left yes .endIf following)
    (others : Reads inItem following rest stop after) :
    Reads inItem (tag ++ left) (.choose negated name yes .done rest) stop after := by
  obtain ⟨condition, token⟩ := nextToken_test inItem spelling left
  exact .chooseOne token first others

/-! ## The reader -/

/-- The reader finds what there is to read, if its bound is above the length of the source. -/
theorem readUntil_eq_ok (reads : Reads inItem source template stop after) (fuel : Nat)
    (enough : source.length < fuel) :
    readUntil fuel inItem source = .ok (template, stop, after) := by
  induction reads generalizing fuel with
  | stop token =>
    obtain ⟨fuel, rfl⟩ := Nat.exists_eq_add_one_of_ne_zero (Nat.ne_zero_of_lt enough)
    simp only [readUntil, token]
  | char token _ ih | field token _ ih =>
    obtain ⟨fuel, rfl⟩ := Nat.exists_eq_add_one_of_ne_zero (Nat.ne_zero_of_lt enough)
    have shorter := length_lt_of_nextToken token rfl
    simp only [readUntil, token, ih fuel (by omega)]
    rfl
  | choose token first second others yesIh noIh ih =>
    obtain ⟨fuel, rfl⟩ := Nat.exists_eq_add_one_of_ne_zero (Nat.ne_zero_of_lt enough)
    have shorter := length_lt_of_nextToken token rfl
    have := first.length_le
    have := second.length_le
    rw [readUntil_test token, yesIh fuel (by omega)]
    simp only [bind, Except.bind, readOther, if_true, noIh fuel (by omega),
      ih fuel (by omega)]
    rfl
  | chooseOne token first others yesIh ih =>
    obtain ⟨fuel, rfl⟩ := Nat.exists_eq_add_one_of_ne_zero (Nat.ne_zero_of_lt enough)
    have shorter := length_lt_of_nextToken token rfl
    have := first.length_le
    rw [readUntil_test token, yesIh fuel (by omega)]
    simp only [bind, Except.bind, readOther, reduceCtorEq, if_false, if_true,
      ih fuel (by omega)]
    rfl
  | each token repeated others itemIh ih =>
    obtain ⟨fuel, rfl⟩ := Nat.exists_eq_add_one_of_ne_zero (Nat.ne_zero_of_lt enough)
    have shorter := length_lt_of_nextToken token rfl
    have := repeated.length_le
    simp only [readUntil, token, itemIh fuel (by omega)]
    simp only [bind, Except.bind, if_true, ih fuel (by omega)]
    rfl

end Reads

variable {inItem : Bool} {source after : List Char} {template : Template} {stop : Stop}

/-- What the reader finds is a reading. -/
theorem reads_of_readUntil {fuel : Nat} (enough : source.length < fuel)
    (read : readUntil fuel inItem source = .ok (template, stop, after)) :
    Reads inItem source template stop after := by
  induction fuel generalizing inItem source after template stop with
  | zero => cases enough
  | succ fuel ih =>
    rcases found : nextToken inItem source with ⟨token, left⟩
    have shorter : token.isPart = true → left.length < fuel := fun isPart =>
      Nat.lt_of_lt_of_le (length_lt_of_nextToken found isPart) (Nat.le_of_lt_succ enough)
    cases token with
    | stop kind =>
      simp only [readUntil, found] at read
      cases read
      exact .stop found
    | fault =>
      simp only [readUntil, found] at read
      cases read
    | char c =>
      simp only [readUntil, found] at read
      obtain ⟨⟨rest, _, _⟩, readRest, made⟩ := ok_of_bind read
      cases made
      exact .char found (ih (shorter rfl) readRest)
    | field name =>
      simp only [readUntil, found] at read
      obtain ⟨⟨rest, _, _⟩, readRest, made⟩ := ok_of_bind read
      cases made
      exact .field found (ih (shorter rfl) readRest)
    | test negated name condition =>
      rw [readUntil_test found] at read
      obtain ⟨⟨yes, middle, afterYes⟩, readYes, branches⟩ := ok_of_bind read
      have first := ih (shorter rfl) readYes
      have shorterYes := Nat.lt_of_le_of_lt first.length_le (shorter rfl)
      obtain ⟨⟨no, final, afterNo⟩, readNo, closing⟩ := ok_of_bind branches
      simp only at closing
      split at closing
      · next isEnd =>
        subst isEnd
        obtain ⟨⟨rest, _, _⟩, readRest, made⟩ := ok_of_bind closing
        cases made
        simp only [readOther] at readNo
        split at readNo
        · next isElse =>
          subst isElse
          have second := ih shorterYes readNo
          have shorterNo := Nat.lt_of_le_of_lt second.length_le shorterYes
          exact .choose found first second (ih shorterNo readRest)
        · cases readNo
          exact .chooseOne found first (ih shorterYes readRest)
      · cases closing
    | repeated name separator =>
      simp only [readUntil, found] at read
      obtain ⟨⟨item, final, afterItem⟩, readItem, closing⟩ := ok_of_bind read
      have repeated := ih (shorter rfl) readItem
      simp only at closing
      split at closing
      · next isEnd =>
        subst isEnd
        obtain ⟨⟨rest, _, _⟩, readRest, made⟩ := ok_of_bind closing
        cases made
        have left := Nat.lt_of_le_of_lt repeated.length_le (shorter rfl)
        exact .each found repeated (ih left readRest)
      · cases closing

/-- **The reader and the relation agree.** -/
theorem readUntil_eq_ok_iff {fuel : Nat} (enough : source.length < fuel) :
    readUntil fuel inItem source = .ok (template, stop, after) ↔
      Reads inItem source template stop after :=
  ⟨reads_of_readUntil enough, fun reads => reads.readUntil_eq_ok fuel enough⟩

/-- A source has at most one reading. -/
theorem Reads.unique {template' : Template} {stop' : Stop} {after' : List Char}
    (reads : Reads inItem source template stop after)
    (reads' : Reads inItem source template' stop' after') :
    template = template' ∧ stop = stop' ∧ after = after' := by
  have same := reads.readUntil_eq_ok _ (Nat.lt_succ_self _)
  rw [reads'.readUntil_eq_ok _ (Nat.lt_succ_self _)] at same
  cases same
  exact ⟨rfl, rfl, rfl⟩

/-- A source reads as a template if its characters up to the end of the text do. -/
theorem readLaidOut_eq_ok {object : String} {source : List Char} {template : Template} :
    readLaidOut object source = .ok template ↔
      ∃ after, readUntil (source.length + 1) false source = .ok (template, .endOfText, after) := by
  simp only [readLaidOut]
  constructor
  · intro read
    split at read
    · next found _ after whole =>
      cases read
      exact ⟨after, whole⟩
    · cases read
    · cases read
  · rintro ⟨after, whole⟩
    rw [whole]

/-- A whole source is read up to the end of its text. -/
theorem readLaidOut_eq_ok_iff {object : String} :
    readLaidOut object source = .ok template ↔ Reads false source template .endOfText [] := by
  simp only [readLaidOut_eq_ok, readUntil_eq_ok_iff (Nat.lt_succ_self _)]
  constructor
  · rintro ⟨after, reads⟩
    rwa [reads.after_eq_nil] at reads
  · exact fun reads => ⟨[], reads⟩

end ScriptToC.Template
