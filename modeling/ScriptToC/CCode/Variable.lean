import ScriptToC.CType.Spelling
import ScriptToC.Template.Render

/-!
# Locals and their releases

A local of the C program is declared at the head of a block. If it owns heap memory, its release is
the list of calls that give the memory back: the parts first, the block itself last.
-/

set_option autoImplicit false

namespace ScriptToC

open Template

/-- A local that needs a declaration. -/
structure Variable where
  name : String
  type : CType
  deriving DecidableEq, Repr, Inhabited

/-- The calls that free what one local owns. -/
structure Release where
  name : String
  frees : List String
  deriving DecidableEq, Repr

namespace Variable

/-- The object that prints the declaration of a local. -/
def toValue (x : Variable) : Value :=
  .object "CVariable" (slot "declaration" ++ lit ";\n")
    [("declaration", .text (x.type.declare x.name))]

/-- The release of a local, unless it owns nothing. -/
def release? (x : Variable) : Option Release :=
  let free (part : String) : String := "free(" ++ x.name ++ part ++ ");"
  match x.type with
  | .array _ _ true => some ⟨x.name, [free "->data", free ""]⟩
  | .dict _ => some ⟨x.name, [free "->index->data", free "->index",
      free "->values->data", free "->values", free ""]⟩
  | .struct _ => some ⟨x.name, [free ""]⟩
  | _ => none

/-- Exactly the locals of an owned type have a release. -/
theorem isSome_release? (x : Variable) :
    x.release?.isSome = x.type.isHeapOwned := by
  obtain ⟨name, type⟩ := x
  cases type with
  | array element capacity dynamic => cases dynamic <;> rfl
  | _ => rfl

/-- A release names the local it belongs to. -/
theorem name_of_release? {x : Variable} {release : Release}
    (eq : x.release? = some release) : release.name = x.name := by
  obtain ⟨name, type⟩ := x
  cases type with
  | array element capacity dynamic =>
    cases dynamic <;> simp [release?] at eq
    subst eq; rfl
  | dict element => simp [release?] at eq; subst eq; rfl
  | struct name => simp [release?] at eq; subst eq; rfl
  | _ => simp [release?] at eq

end Variable

/-- The object that prints the calls of a release, one on a line. -/
def Release.toValue (release : Release) : Value :=
  .object "Release" (forEach "frees" "\n" (slot this) ++ lit "\n")
    [("frees", .texts release.frees)]

end ScriptToC
