import ScriptToC.Text.Split

/-!
# Paths

A path is a row of segments between slashes. Empty segments and single dots name nothing, so that
the file a path names is its last other segment; two dots name no file. A file's name ends in an
extension if it has a dot that is not its first character.
-/

set_option autoImplicit false

namespace ScriptToC.Path

/-- The segments of a path. -/
def segments (path : String) : List String :=
  (Text.split '/' path.toList).map String.ofList

/-- The path with the given segments. -/
def ofSegments (parts : List String) : String :=
  "/".intercalate parts

/-- The segment names nothing. -/
def isIdle (segment : String) : Bool :=
  segment = "" || segment = "."

/-- The path starts at the root of the disk. -/
def isAbsolute (path : String) : Bool :=
  path.toList.head? = some '/'

/-- The segment has more bytes than the name of a file can have. -/
def isLongSegment (segment : String) : Bool :=
  255 < segment.utf8ByteSize

/-- The path has more bytes than the system takes. -/
def isLong (path : String) : Bool :=
  4095 < path.utf8ByteSize

/-- A file's name without its extension. -/
def stem (name : String) : String :=
  let chars := name.toList
  let extension := chars.reverse.takeWhile (· ≠ '.')
  let before := chars.take (chars.length - extension.length - 1)
  if before.isEmpty then name else String.ofList before

/-- The path with another extension at the file it names. The old extension is taken off first. If
what is left names no file, no extension is put on: a path that names no file stays as it is, and
one that ends in `..x` ends in two dots, as the dot stays when the extension is taken off. -/
def withExtension (path extension : String) : String :=
  let reversed := (segments path).reverse
  match reversed.dropWhile isIdle with
  | [] => path
  | name :: outer =>
    if name = ".." then path
    else if stem name = "." ∧ reversed.head? = some name then ofSegments (outer.reverse ++ [".."])
    else ofSegments (outer.reverse ++ [stem name ++ "." ++ extension])

example : withExtension "dir/a.b.ts" "c" = "dir/a.b.c" := by decide +kernel
example : withExtension ".ts" "c" = ".ts.c" := by decide +kernel
example : withExtension "a//b.ts/" "c" = "a//b.c" := by decide +kernel
example : withExtension "dir/.." "c" = "dir/.." := by decide +kernel
example : withExtension "dir/..ts" "c" = "dir/.." := by decide +kernel
example : withExtension "dir/..ts/" "c" = "dir/..c" := by decide +kernel
example : withExtension "..a.ts" "c" = "..a.c" := by decide +kernel

end ScriptToC.Path
