import ScriptToC.Proofs.Template.Printing

/-!
# The tokens of template sources

What the reader takes off a source for a token is a spelling of that token (`nextToken_spelling`),
and where a spelling of a token stands it takes that token (`nextToken_char`, `nextToken_mark`,
`nextToken_fieldTag`, `nextToken_test`, `nextToken_listHead`). A mark is found at the first place
where it stands (`eq_of_cut?`, `cut?_append`). That is where it was put, because the closing brace
that an arrow and the end of a tag begin with does not come again in them.
-/

set_option autoImplicit false

namespace ScriptToC.Template

open Text

/-! ## The tags by their characters -/

theorem openTag_eq : openTag = ['\x7b', '#', 'i', 'f', ' '] := rfl

theorem elseTag_eq : elseTag = ['\x7b', '#', 'e', 'l', 's', 'e', '\x7d'] := rfl

theorem endTag_eq : endTag = ['\x7b', '/', 'i', 'f', '\x7d'] := rfl

/-! ## Cutting at a mark -/

/-- A text that is cut at a mark is what stands before, the mark, and what follows. -/
theorem eq_of_cut? {mark source before after : List Char}
    (found : cut? mark source = some (before, after)) : source = before ++ mark ++ after := by
  induction source generalizing before with
  | nil =>
    simp only [cut?, List.isEmpty_iff] at found
    split at found
    · next empty => simp_all
    · cases found
  | cons c rest ih =>
    simp only [cut?] at found
    split at found
    · next here =>
      obtain ⟨tail, whole⟩ := List.isPrefixOf_iff_prefix.mp here
      obtain ⟨rfl, rfl⟩ : [] = before ∧ _ = after := by simpa using found
      rw [← whole]
      simp
    · obtain ⟨⟨front, back⟩, cut, same⟩ := Option.map_eq_some_iff.mp found
      obtain ⟨rfl, rfl⟩ : c :: front = before ∧ back = after := by simpa using same
      rw [ih cut]
      rfl

/-- A mark whose first character does not come again in it is found where it is put, unless it
stands before. -/
theorem cut?_append {first : Char} {others : List Char} (once : first ∉ others)
    {before : List Char} (free : ¬ first :: others <:+: before) (after : List Char) :
    cut? (first :: others) (before ++ first :: others ++ after) = some (before, after) := by
  induction before with
  | nil => simp [cut?]
  | cons c before ih =>
    have notHere : ¬ first :: others <+: c :: (before ++ first :: others ++ after) := by
      rintro ⟨tail, whole⟩
      obtain ⟨rfl, same⟩ : first = c ∧ others ++ tail = before ++ (first :: others ++ after) := by
        simpa using whole
      rcases List.append_eq_append_iff.mp same with ⟨more, rfl, _⟩ | ⟨more, rfl, start⟩
      · exact free ⟨[], more, by simp⟩
      · cases more with
        | nil => exact free ⟨[], [], by simp⟩
        | cons d more =>
          obtain ⟨rfl, -⟩ : first = d ∧ _ := by simpa using start
          exact once (by simp)
    have notBefore : ¬ first :: others <:+: before := fun found => free (List.infix_cons found)
    rw [List.cons_append, List.cons_append, cut?, if_neg (by rwa [List.isPrefixOf_iff_prefix]),
      ih notBefore]
    rfl

/-! ## Names and the blanks around them -/

/-- No character of a name is a blank. -/
theorem isBlank_of_continuesName {c : Char} (continues : continuesName c = true) :
    isBlank c = false := by
  rw [Bool.eq_false_iff]
  intro blank
  have none : ∀ code ∈ blanks, continuesName (Char.ofNat code) = false := by decide
  have found := none c.toNat (List.contains_iff_mem.1 blank)
  rw [Char.ofNat_toNat, continues] at found
  cases found

/-- A character that may start a name may continue one. -/
theorem continuesName_of_startsName {c : Char} (starts : startsName c = true) :
    continuesName c = true := by
  simp only [startsName, continuesName, Char.isAlphanum, Bool.or_eq_true] at starts ⊢
  rcases starts with letter | line
  · exact .inl (.inl letter)
  · exact .inr line

/-- The characters of a name. -/
theorem continuesName_of_isName {name : List Char} (named : isName name = true) :
    ∀ c ∈ name, continuesName c = true := by
  cases name with
  | nil => cases named
  | cons first others =>
    obtain ⟨starts, continues⟩ : startsName first = true ∧ others.all continuesName = true := by
      simpa [isName] using named
    rintro c (_ | ⟨_, inside⟩)
    · exact continuesName_of_startsName starts
    · exact List.all_eq_true.mp continues c inside

/-- The character after a name ends it. -/
theorem spanName_append {name : List Char} (named : isName name = true) {c : Char}
    (ends : continuesName c = false) (rest : List Char) :
    spanName (name ++ c :: rest) = (name, c :: rest) := by
  cases name with
  | nil => cases named
  | cons first others =>
    obtain ⟨starts, continues⟩ : startsName first = true ∧ others.all continuesName = true := by
      simpa [isName] using named
    have front : ∀ c ∈ others, continuesName c = true := List.all_eq_true.mp continues
    simp [spanName, starts, List.takeWhile_append_of_pos front, List.dropWhile_append_of_pos front,
      ends]

/-- The name at the start of a text and what follows it make up the text. -/
theorem eq_of_spanName {source name rest : List Char} (spans : spanName source = (name, rest)) :
    source = name ++ rest := by
  cases source with
  | nil =>
    obtain ⟨rfl, rfl⟩ := Prod.mk.inj spans
    rfl
  | cons c others =>
    simp only [spanName] at spans
    split at spans <;> obtain ⟨rfl, rfl⟩ := Prod.mk.inj spans
    · simp [List.takeWhile_append_dropWhile]
    · rfl

/-- A text is what trimming leaves of it, between blanks. -/
theorem exists_blanks_trim (source : List Char) :
    ∃ before after : List Char, before.all isBlank = true ∧ after.all isBlank = true ∧
      source = before ++ trim source ++ after := by
  refine ⟨source.takeWhile isBlank, ((trimStart source).reverse.takeWhile isBlank).reverse,
    List.all_takeWhile, by simp [List.all_takeWhile], ?_⟩
  rw [trim, List.append_assoc, trimEnd_append_takeWhile, takeWhile_append_trimStart]

/-- Trimming takes off the blanks at the ends, up to characters that are none. -/
theorem trim_blanks {before core after : List Char} (front : before.all isBlank = true)
    (back : after.all isBlank = true) {first last : Char} (starts : core.head? = some first)
    (ends : core.getLast? = some last) (firstVisible : isBlank first = false)
    (lastVisible : isBlank last = false) : trim (before ++ core ++ after) = core := by
  have kept : ∀ {text : List Char} {c : Char}, text.head? = some c → isBlank c = false →
      text.dropWhile isBlank = text := by
    intro text c starts visible
    cases text with
    | nil => rfl
    | cons d rest =>
      obtain rfl : d = c := by simpa using starts
      simp [visible]
  have front : trimStart (before ++ core ++ after) = core ++ after := by
    rw [trimStart, List.append_assoc, List.dropWhile_append_of_pos (List.all_eq_true.mp front)]
    exact kept (by simp [starts]) firstVisible
  have back : ∀ c ∈ after.reverse, isBlank c = true := by
    simpa using back
  rw [trim, front, trimEnd, List.reverse_append, List.dropWhile_append_of_pos back,
    kept (by rw [List.head?_reverse, ends]) lastVisible, List.reverse_reverse]

/-! ## Tokens -/

/-- The text of a stop in a source. -/
def Stop.mark : Stop → List Char
  | endOfText => []
  | otherwise => elseTag
  | endIf => endTag
  | closingBrace => ['\x7d']

/-- The texts of a token in a source. A fault may be noticed anywhere. -/
def Token.Spelling : Token → List Char → Prop
  | char c, shown => shown = [c]
  | field name, shown => shown = fieldTag name
  | test negated name _, shown => TestSpelling negated name shown
  | repeated name separator, shown => shown = listHead name separator
  | stop kind, shown => shown = kind.mark
  | fault _, _ => True

/-- What is taken off for an opened choice spells it. -/
theorem testToken_spelling {source after : List Char} {token : Token}
    (found : testToken source = (token, after)) :
    ∃ shown, openTag ++ source = shown ++ after ∧ token.Spelling shown := by
  unfold testToken at found
  cases cut : cut? ['\x7d'] source with
  | none =>
    rw [cut] at found
    obtain ⟨rfl, rfl⟩ := Prod.mk.inj found
    exact ⟨openTag, rfl, trivial⟩
  | some parts =>
    obtain ⟨inside, rest⟩ := parts
    have whole := eq_of_cut? cut
    obtain ⟨before, trailing, front, back, padded⟩ := exists_blanks_trim inside
    have shownTag : openTag ++ source = openTag ++ inside ++ ['\x7d'] ++ rest := by simp [whole]
    simp only [cut] at found
    split at found
    · next name condition =>
      simp only at found
      split at found <;> obtain ⟨rfl, rfl⟩ := Prod.mk.inj found
      · next named =>
        obtain ⟨between, inner, front', back', padded'⟩ := exists_blanks_trim name
        refine ⟨_, shownTag, by rwa [String.toList_ofList], before, between, inner ++ trailing,
          front, front', ?_, ?_⟩
        · simp only [List.all_append, back, back', Bool.and_self]
        · rw [condition, padded'] at padded
          rw [padded]
          simp [String.toList_ofList]
      · exact ⟨_, shownTag, trivial⟩
    · simp only at found
      split at found <;> obtain ⟨rfl, rfl⟩ := Prod.mk.inj found
      · next named =>
        refine ⟨_, shownTag, by rwa [String.toList_ofList], before, [], trailing, front, rfl, back,
          ?_⟩
        simpa [String.toList_ofList] using congrArg (openTag ++ · ++ ['\x7d']) padded
      · exact ⟨_, shownTag, trivial⟩

/-- What is taken off from a brace on spells the token. -/
theorem braceToken_spelling {source after : List Char} {token : Token}
    (found : braceToken source = (token, after)) :
    ∃ shown, '\x7b' :: source = shown ++ after ∧ token.Spelling shown := by
  unfold braceToken at found
  split at found
  · obtain ⟨rfl, rfl⟩ := Prod.mk.inj found
    exact ⟨['\x7b'], rfl, rfl⟩
  · next name rest _ spans =>
    obtain ⟨rfl, rfl⟩ := Prod.mk.inj found
    exact ⟨_, by simp [eq_of_spanName spans, fieldTag], rfl⟩
  · next name rest _ spans =>
    have whole := eq_of_spanName spans
    split at found
    · obtain ⟨rfl, rfl⟩ := Prod.mk.inj found
      exact ⟨'\x7b' :: name ++ [' ', '\x7b'], by simp [whole], trivial⟩
    · next separator item cut =>
      obtain ⟨rfl, rfl⟩ := Prod.mk.inj found
      exact ⟨_, by simp [whole, eq_of_cut? cut, listHead], rfl⟩
  · obtain ⟨rfl, rfl⟩ := Prod.mk.inj found
    exact ⟨['\x7b'], rfl, rfl⟩

/-- **The reader loses nothing of a token.** What it takes off a source spells the token. -/
theorem nextToken_spelling {inItem : Bool} {source after : List Char} {token : Token}
    (found : nextToken inItem source = (token, after)) :
    ∃ shown, source = shown ++ after ∧ token.Spelling shown := by
  cases source with
  | nil =>
    obtain ⟨rfl, rfl⟩ := Prod.mk.inj found
    exact ⟨[], rfl, rfl⟩
  | cons c rest =>
    have taken {mark : List Char} (here : mark.isPrefixOf (c :: rest) = true) :
        c :: rest = mark ++ (c :: rest).drop mark.length :=
      (List.prefix_iff_eq_append.mp (List.isPrefixOf_iff_prefix.mp here)).symm
    simp only [nextToken] at found
    split at found
    · next closes =>
      obtain ⟨rfl, rfl⟩ := Prod.mk.inj found
      exact ⟨['\x7d'], by rw [closes.1]; rfl, rfl⟩
    split at found
    · obtain ⟨rfl, rfl⟩ := Prod.mk.inj found
      exact ⟨[c], rfl, rfl⟩
    · next brace =>
      obtain rfl : c = '\x7b' := Classical.not_not.mp brace
      split at found
      · next here =>
        obtain ⟨rfl, rfl⟩ := Prod.mk.inj found
        exact ⟨elseTag, taken here, rfl⟩
      split at found
      · next here =>
        obtain ⟨rfl, rfl⟩ := Prod.mk.inj found
        exact ⟨endTag, taken here, rfl⟩
      split at found
      · next here =>
        rw [taken here]
        exact testToken_spelling found
      · exact braceToken_spelling found

/-- A character that is no brace is a token. -/
theorem nextToken_char (inItem : Bool) {c : Char} (opens : c ≠ '\x7b') (closes : c ≠ '\x7d')
    (rest : List Char) : nextToken inItem (c :: rest) = (.char c, rest) := by
  simp [nextToken, opens, closes]

/-- A stop is found at its mark: the end of the text at the end, and a closing brace in a repeated
template. -/
theorem nextToken_mark {inItem : Bool} {kind : Stop} {rest : List Char}
    (ends : kind = .endOfText → rest = []) (closes : kind = .closingBrace → inItem = true) :
    nextToken inItem (kind.mark ++ rest) = (.stop kind, rest) := by
  cases kind with
  | endOfText =>
    obtain rfl := ends rfl
    rfl
  | closingBrace =>
    obtain rfl := closes rfl
    rfl
  | otherwise | endIf => simp [Stop.mark, elseTag_eq, endTag_eq, nextToken]

/-- A brace before a name opens a field or a repetition, if anything. -/
theorem nextToken_brace (inItem : Bool) {name : List Char} (named : isName name = true)
    (rest : List Char) :
    nextToken inItem ('\x7b' :: (name ++ rest)) = braceToken (name ++ rest) := by
  cases name with
  | nil => cases named
  | cons first others =>
    have starts : startsName first = true := by
      simp only [isName, Bool.and_eq_true] at named
      exact named.1
    have notHash : '#' ≠ first := by rintro rfl; revert starts; decide
    have notSlash : '/' ≠ first := by rintro rfl; revert starts; decide
    simp [nextToken, elseTag_eq, endTag_eq, openTag_eq, notHash, notSlash]

/-- A field is found at its tag. -/
theorem nextToken_fieldTag (inItem : Bool) {name : String} (named : isName name.toList = true)
    (rest : List Char) : nextToken inItem (fieldTag name ++ rest) = (.field name, rest) := by
  have start : fieldTag name ++ rest = '\x7b' :: (name.toList ++ '\x7d' :: rest) := by
    simp [fieldTag]
  have some : name.toList ≠ [] := by rintro none; rw [none] at named; cases named
  rw [start, nextToken_brace inItem named, braceToken, spanName_append named (by decide)]
  simp [String.ofList_toList]

/-- A repetition is found at its head, if the arrow does not occur in the separator. -/
theorem nextToken_listHead (inItem : Bool) {name : String} (named : isName name.toList = true)
    {separator : List Char} (free : ¬ arrow <:+: separator) (rest : List Char) :
    nextToken inItem (listHead name separator ++ rest) = (.repeated name separator, rest) := by
  have start : listHead name separator ++ rest =
      '\x7b' :: (name.toList ++ ' ' :: '\x7b' :: (separator ++ arrow ++ rest)) := by
    simp [listHead]
  have some : name.toList ≠ [] := by rintro none; rw [none] at named; cases named
  have cut : cut? arrow (separator ++ arrow ++ rest) = .some (separator, rest) :=
    cut?_append (by decide) free rest
  rw [start, nextToken_brace inItem named, braceToken, spanName_append named (by decide)]
  simp only [cut]
  simp [String.ofList_toList]

/-- A name has a first and a last character, and neither is a blank. -/
theorem exists_visible_ends {name : List Char} (named : isName name = true) :
    ∃ first last, name.head? = some first ∧ name.getLast? = some last ∧
      isBlank first = false ∧ isBlank last = false := by
  have visible := fun c inside => isBlank_of_continuesName (continuesName_of_isName named c inside)
  have some : name ≠ [] := by rintro rfl; cases named
  exact ⟨name.head some, name.getLast some, List.head?_eq_some_head some,
    List.getLast?_eq_some_getLast some, visible _ (List.head_mem some),
    visible _ (List.getLast_mem some)⟩

/-- No closing brace stands among blanks. -/
theorem not_mem_of_all_isBlank {gap : List Char} (blank : gap.all isBlank = true) :
    '\x7d' ∉ gap := fun inside => by
  have := List.all_eq_true.mp blank _ inside
  revert this
  decide

/-- A choice starts with its tag. -/
theorem nextToken_openTag (inItem : Bool) (source : List Char) :
    nextToken inItem (openTag ++ source) = testToken source := by
  simp [nextToken, openTag_eq, elseTag_eq, endTag_eq]

/-- The start of a choice is found at every spelling of its tag. -/
theorem nextToken_test (inItem : Bool) {negated : Bool} {name : String} {tag : List Char}
    (spelling : TestSpelling negated name tag) (rest : List Char) :
    ∃ condition, nextToken inItem (tag ++ rest) = (.test negated name condition, rest) := by
  obtain ⟨named, before, between, after, front, inner, back, rfl⟩ := spelling
  obtain ⟨first, last, starts, ends, firstVisible, lastVisible⟩ := exists_visible_ends named
  have noBraceName : '\x7d' ∉ name.toList := fun inside => by
    have := continuesName_of_isName named _ inside
    revert this
    decide
  have noBrace : '\x7d' ∉ before ++ (if negated then '!' :: between else []) ++ name.toList ++
      after := by
    have := not_mem_of_all_isBlank front
    have := not_mem_of_all_isBlank inner
    have := not_mem_of_all_isBlank back
    cases negated <;> simp_all
  have cut : cut? ['\x7d'] (before ++ (if negated then '!' :: between else []) ++ name.toList ++
      after ++ ['\x7d'] ++ rest) =
        some (before ++ (if negated then '!' :: between else []) ++ name.toList ++ after, rest) :=
    cut?_append List.not_mem_nil (fun found => noBrace (found.subset List.mem_cons_self)) rest
  simp only [List.append_assoc, nextToken_openTag, testToken] at cut ⊢
  rw [cut]
  cases negated with
  | false =>
    have bare : trim (before ++ (name.toList ++ after)) = name.toList := by
      simpa using trim_blanks front back starts ends firstVisible lastVisible
    have noBang : ∀ others, name.toList ≠ '!' :: others := by
      rintro others whole
      rw [whole, isName] at named
      revert named
      simp [startsName]
    exact ⟨name, by simp [bare, named, String.ofList_toList]⟩
  | true =>
    have bare : trim (before ++ ('!' :: between ++ (name.toList ++ after))) =
        '!' :: between ++ name.toList := by
      have ends' : ('!' :: between ++ name.toList).getLast? = some last := by
        rw [List.getLast?_append, ends]
        rfl
      have trimmed : trim (before ++ ('!' :: between ++ name.toList) ++ after) =
          '!' :: between ++ name.toList :=
        trim_blanks front back rfl ends' (by decide) lastVisible
      simpa using trimmed
    have named' : trim (between ++ name.toList) = name.toList := by
      have trimmed : trim (between ++ name.toList ++ []) = name.toList :=
        trim_blanks inner rfl starts ends firstVisible lastVisible
      simpa using trimmed
    refine ⟨String.ofList ('!' :: between ++ name.toList), ?_⟩
    simp only [List.cons_append] at bare
    simp [bare, named', named, String.ofList_toList]

/-- The end of the text is found at the end. -/
theorem nextToken_endOfText {inItem : Bool} {source after : List Char}
    (found : nextToken inItem source = (.stop .endOfText, after)) : after = [] := by
  cases source with
  | nil => exact (Prod.mk.inj found).2.symm
  | cons c rest =>
    unfold nextToken testToken braceToken at found
    simp only at found
    repeat' split at found
    all_goals cases found

/-- The tag of a choice has characters. -/
theorem TestSpelling.length_pos {negated : Bool} {name : String} {tag : List Char}
    (spelling : TestSpelling negated name tag) : 0 < tag.length := by
  obtain ⟨_, _, _, _, _, _, _, rfl⟩ := spelling
  simp [openTag_eq]

end ScriptToC.Template
