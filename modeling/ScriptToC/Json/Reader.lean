import ScriptToC.Json.Basic

/-!
# Reading JSON

A reader gives what it read and what is left of the text. A text is refused if it is not well-formed
or if anything but blanks follows its value. Characters outside the basic plane may be written as a
pair of escapes.
-/

set_option autoImplicit false

namespace ScriptToC.Json

/-- The text after its leading blanks. -/
def skipBlanks (source : List Char) : List Char :=
  source.dropWhile fun c => c = ' ' ∨ c = '\t' ∨ c = '\n' ∨ c = '\r'

/-- The text after a fixed word, if it starts with it. -/
def expect? (word : String) (source : List Char) : Option (List Char) :=
  if word.toList.isPrefixOf source then some (source.drop word.toList.length) else none

/-- The value of a hexadecimal digit. -/
def hexDigit? (c : Char) : Option Nat :=
  if c.isDigit then some (c.toNat - '0'.toNat)
  else if 'a' ≤ c ∧ c ≤ 'f' then some (c.toNat - 'a'.toNat + 10)
  else if 'A' ≤ c ∧ c ≤ 'F' then some (c.toNat - 'A'.toNat + 10)
  else none

/-- Four hexadecimal digits. -/
def hexUnit? : List Char → Option (Nat × List Char)
  | a :: b :: c :: d :: rest => do
    let value ← [a, b, c, d].foldlM (fun value c => return value * 16 + (← hexDigit? c)) 0
    return (value, rest)
  | _ => none

/-- A character that is written by its code. Two codes of a pair stand for one character. -/
def escapedCode? (source : List Char) : Option (Char × List Char) := do
  let (unit, rest) ← hexUnit? source
  if 0xd800 ≤ unit ∧ unit < 0xdc00 then
    let rest ← expect? "\\u" rest
    let (low, rest) ← hexUnit? rest
    if 0xdc00 ≤ low ∧ low < 0xe000 then
      return (Char.ofNat (0x10000 + (unit - 0xd800) * 0x400 + (low - 0xdc00)), rest)
    else
      none
  else if 0xdc00 ≤ unit ∧ unit < 0xe000 then
    none
  else
    return (Char.ofNat unit, rest)

/-- A character after a backslash. -/
def escaped? : List Char → Option (Char × List Char)
  | '"' :: rest => some ('"', rest)
  | '\\' :: rest => some ('\\', rest)
  | '/' :: rest => some ('/', rest)
  | 'b' :: rest => some ('\x08', rest)
  | 'f' :: rest => some ('\x0c', rest)
  | 'n' :: rest => some ('\n', rest)
  | 'r' :: rest => some ('\r', rest)
  | 't' :: rest => some ('\t', rest)
  | 'u' :: rest => escapedCode? rest
  | _ => none

/-- The rest of a string, after its opening quote; no character below the blank stands for itself
there. The first argument bounds its length. -/
def stringRest? : Nat → List Char → Option (List Char × List Char)
  | 0, _ => none
  | _, [] => none
  | _, '"' :: rest => some ([], rest)
  | fuel + 1, '\\' :: rest => do
    let (c, rest) ← escaped? rest
    let (chars, rest) ← stringRest? fuel rest
    return (c :: chars, rest)
  | fuel + 1, c :: rest => do
    if c < ' ' then none
    let (chars, rest) ← stringRest? fuel rest
    return (c :: chars, rest)

/-- The number that some digits stand for. -/
def digitsValue (digits : List Char) : Nat :=
  digits.foldl (fun value c => value * 10 + (c.toNat - '0'.toNat)) 0

/-- A number: its whole part has no zero in front, and digits follow a point. -/
def number? (source : List Char) : Option (Decimal × List Char) := do
  let (negative, source) := match source with
    | '-' :: rest => (true, rest)
    | _ => (false, source)
  let whole := source.takeWhile Char.isDigit
  if whole.isEmpty ∨ (whole.length > 1 ∧ whole.head? = some '0') then none
  let source := source.dropWhile Char.isDigit
  let (fraction, source) ← match source with
    | '.' :: rest =>
      let digits := rest.takeWhile Char.isDigit
      if digits.isEmpty then none
      pure (digits, rest.dropWhile Char.isDigit)
    | _ => pure ([], source)
  let (shift, source) ← match source with
    | e :: rest =>
      if e = 'e' ∨ e = 'E' then do
        let (down, rest) := match rest with
          | '-' :: rest => (true, rest)
          | '+' :: rest => (false, rest)
          | _ => (false, rest)
        let digits := rest.takeWhile Char.isDigit
        if digits.isEmpty then none
        let size : Int := digitsValue digits
        pure (if down then -size else size, rest.dropWhile Char.isDigit)
      else
        pure (0, source)
    | [] => pure (0, source)
  let magnitude : Int := digitsValue (whole ++ fraction)
  let mantissa := if negative then -magnitude else magnitude
  return (Decimal.shifted mantissa fraction.length shift, source)

mutual

/-- A value after blanks. The first argument bounds the length of the text. -/
def value? : Nat → List Char → Option (Json × List Char)
  | 0, _ => none
  | fuel + 1, source =>
    match skipBlanks source with
    | '"' :: rest => (stringRest? (rest.length + 1) rest).map fun (chars, rest) =>
        (text (String.ofList chars), rest)
    | '[' :: rest =>
      match skipBlanks rest with
      | ']' :: rest => some (list [], rest)
      | _ => (items? fuel rest).map fun (items, rest) => (list items, rest)
    | '\x7b' :: rest =>
      match skipBlanks rest with
      | '\x7d' :: rest => some (object [], rest)
      | _ => (members? fuel rest).map fun (members, rest) => (object members, rest)
    | 't' :: rest => (expect? "rue" rest).map (bool true, ·)
    | 'f' :: rest => (expect? "alse" rest).map (bool false, ·)
    | 'n' :: rest => (expect? "ull" rest).map (null, ·)
    | source => (number? source).map fun (value, rest) => (number value, rest)

/-- The elements of a list up to its end. -/
def items? : Nat → List Char → Option (List Json × List Char)
  | 0, _ => none
  | fuel + 1, source => do
    let (first, rest) ← value? fuel source
    match skipBlanks rest with
    | ']' :: rest => return ([first], rest)
    | ',' :: rest =>
      let (others, rest) ← items? fuel rest
      return (first :: others, rest)
    | _ => none

/-- The members of an object up to its end. -/
def members? : Nat → List Char → Option (List (String × Json) × List Char)
  | 0, _ => none
  | fuel + 1, source => do
    let rest ← expect? "\"" (skipBlanks source)
    let (name, rest) ← stringRest? (rest.length + 1) rest
    let rest ← expect? ":" (skipBlanks rest)
    let (value, rest) ← value? fuel rest
    let entry := (String.ofList name, value)
    match skipBlanks rest with
    | '\x7d' :: rest => return ([entry], rest)
    | ',' :: rest =>
      let (others, rest) ← members? fuel rest
      return (entry :: others, rest)
    | _ => none

end

/-- Reads a JSON text. -/
def read (source : String) : Option Json := do
  let (value, rest) ← value? (source.length + 1) source.toList
  if (skipBlanks rest).isEmpty then some value else none

example : ((read "[1, -2.50, 3e2]").map fun json => match json with
      | list items => items.map fun item => match item with
        | number value => value
        | _ => default
      | _ => []) =
    some [⟨1, 0⟩, ⟨-250, 2⟩, ⟨300, 0⟩] := by decide +kernel
example : ["01", "1.", "+1", "1e", "\"\n\"", "[1,]", "1 2"].all (read · |>.isNone) = true := by
  decide +kernel

end ScriptToC.Json
