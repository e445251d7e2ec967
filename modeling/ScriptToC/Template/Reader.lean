import ScriptToC.Template.Basic
import ScriptToC.Template.Layout

/-!
# Reading templates

A template source is cut into tokens, one at a time: a tag of a choice, a field in braces, the head
of a repetition, or a single character. A brace that starts none of these is a character like any
other. Inside a repetition a closing brace ends the repeated template, outside it is text.

A choice runs to its end tag, with at most one tag between its branches. Reading stops at the first
fault, which is reported with the byte, in the source after the line rules, where it was noticed.
-/

set_option autoImplicit false

namespace ScriptToC.Template

open Text

/-! ## Tokens -/

/-- A character that may start a field name. -/
def startsName (c : Char) : Bool :=
  c.isAlpha || c == '_'

/-- A character that may continue a field name. -/
def continuesName (c : Char) : Bool :=
  c.isAlphanum || c == '_'

/-- The longest field name at the start of a text, and what follows it. -/
def spanName : List Char → List Char × List Char
  | [] => ([], [])
  | c :: rest => if startsName c then (c :: rest.takeWhile continuesName,
      rest.dropWhile continuesName) else ([], c :: rest)

/-- The whole text is a field name. -/
def isName : List Char → Bool
  | [] => false
  | c :: rest => startsName c && rest.all continuesName

/-- The text before the first place where `mark` stands, and the text after the mark. -/
def cut? (mark : List Char) : List Char → Option (List Char × List Char)
  | [] => if mark.isEmpty then some ([], []) else none
  | c :: rest =>
    if mark.isPrefixOf (c :: rest) then
      some ([], (c :: rest).drop mark.length)
    else
      (cut? mark rest).map fun (before, after) => (c :: before, after)

/-- The mark between the separator of a repetition and the repeated template. -/
def arrow : List Char := "\x7d=> ".toList

/-- What stands at one place of a template source. -/
inductive Token
  | char (c : Char)
  | field (name : String)
  | test (negated : Bool) (name condition : String)
  | repeated (name : String) (separator : List Char)
  | stop (kind : Stop)
  | fault (fault : Fault)
  deriving DecidableEq, Repr

/-- The token of an opened choice, from the text after the start of its tag. -/
def testToken (source : List Char) : Token × List Char :=
  match cut? ['\x7d'] source with
  | none => (.fault .unterminatedTest, source)
  | some (inside, after) =>
    let condition := trim inside
    let shown := String.ofList condition
    let (negated, name) := match condition with
      | '!' :: name => (true, trim name)
      | _ => (false, condition)
    if isName name then
      (.test negated (String.ofList name) shown, after)
    else
      (.fault (.badCondition shown), after)

/-- The token that starts with an opening brace, from the text after the brace. -/
def braceToken (source : List Char) : Token × List Char :=
  let literal := (Token.char '\x7b', source)
  match spanName source with
  | ([], _) => literal
  | (name, '\x7d' :: after) => (.field (String.ofList name), after)
  | (name, ' ' :: '\x7b' :: after) =>
    match cut? arrow after with
    | none => (.fault (.missingArrow (String.ofList name)), after)
    | some (separator, item) => (.repeated (String.ofList name) separator, item)
  | _ => literal

/-- The token at the start of a source, and what follows it. -/
def nextToken (inItem : Bool) : List Char → Token × List Char
  | [] => (.stop .endOfText, [])
  | c :: rest =>
    let source := c :: rest
    if c = '\x7d' ∧ inItem then (.stop .closingBrace, rest)
    else if c ≠ '\x7b' then (.char c, rest)
    else if elseTag.isPrefixOf source then (.stop .otherwise, source.drop elseTag.length)
    else if endTag.isPrefixOf source then (.stop .endIf, source.drop endTag.length)
    else if openTag.isPrefixOf source then testToken (source.drop openTag.length)
    else braceToken rest

/-! ## Templates -/

/-- A template with a character in front. Neighbouring characters form one text. -/
def cons (c : Char) : Template → Template
  | text chars rest => text (c :: chars) rest
  | other => text [c] other

/-- A fault and the source that was left when it was noticed. -/
abbrev Failure := Fault × List Char

/-- Reads up to a stop: the template, what stopped it, and what follows. The first argument bounds
the number of tokens. -/
def readUntil : Nat → Bool → List Char → Except Failure (Template × Stop × List Char)
  | 0, _, source => .ok (done, .endOfText, source)
  | fuel + 1, inItem, source =>
    match nextToken inItem source with
    | (.stop kind, after) => .ok (done, kind, after)
    | (.fault fault, after) => .error (fault, after)
    | (.char c, after) => do
      let (rest, stop, after) ← readUntil fuel inItem after
      return (cons c rest, stop, after)
    | (.field name, after) => do
      let (rest, stop, after) ← readUntil fuel inItem after
      return (field name rest, stop, after)
    | (.test negated name condition, after) => do
      let (yes, middle, after) ← readUntil fuel inItem after
      let (no, final, after) ←
        if middle = .otherwise then readUntil fuel inItem after
        else pure (done, middle, after)
      if final = .endIf then
        let (rest, stop, after) ← readUntil fuel inItem after
        return (choose negated name yes no rest, stop, after)
      else
        throw (.unclosedTest condition, after)
    | (.repeated name separator, after) => do
      let (item, final, after) ← readUntil fuel true after
      if final = .closingBrace then
        let (rest, stop, after) ← readUntil fuel inItem after
        return (each name separator item rest, stop, after)
      else
        throw (.unclosedList name, after)

/-- The number of bytes of a text. -/
def byteSize (source : List Char) : Nat :=
  source.foldl (fun size c => size + c.utf8Size) 0

/-- Reads a template source that the line rules have been applied to. -/
def readLaidOut (object : String) (source : List Char) : Except TemplateError Template :=
  let malformed (failure : Failure) : TemplateError :=
    .malformed object failure.1 (byteSize source - byteSize failure.2)
  match readUntil (source.length + 1) false source with
  | .ok (template, .endOfText, _) => .ok template
  | .ok (_, stop, after) => .error (malformed (.unexpected stop, after))
  | .error failure => .error (malformed failure)

/-- Reads a template source. -/
def read (object : String) (source : String) : Except TemplateError Template :=
  readLaidOut object (layout source.toList)

example : (read "Sample" "f(\x7bwords \x7b, \x7d=> <\x7bthis\x7d>\x7d);\n").toOption =
    some (lit "f(" ++ forEach "words" ", " (lit "<" ++ slot this ++ lit ">") ++ lit ");\n") := by
  decide +kernel

end ScriptToC.Template
