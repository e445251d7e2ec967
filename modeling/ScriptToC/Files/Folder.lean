import ScriptToC.Files.Path

/-!
# Files

A folder with files and further folders in it, as a program sees it that works there. A path leads
through folders only, and a final slash asks for a folder too. Outside of the folder a path finds
other folders, the root of the disk among them, but nothing in them that could be read or written.

Reading and writing fail for the reasons, and in the words, of the system. A path that holds the
null character or is too long is refused as a whole; the segments of any other path are followed
one after another, and the first that leads nowhere decides.
-/

set_option autoImplicit false

namespace ScriptToC

/-- Why a file cannot be read or written. -/
inductive IoError
  | notFound
  | notFolder
  | isFolder
  | nameTooLong
  | nullCharacter
  | invalidText
  | other (message : String)
  deriving DecidableEq, Repr

/-- The wording of an error. -/
def IoError.message : IoError → String
  | notFound => "No such file or directory (os error 2)"
  | notFolder => "Not a directory (os error 20)"
  | isFolder => "Is a directory (os error 21)"
  | nameTooLong => "File name too long (os error 36)"
  | nullCharacter => "file name contained an unexpected NUL byte"
  | invalidText => "stream did not contain valid UTF-8"
  | other message => message

/-- What stands under a name. -/
inductive Entry
  | file (bytes : ByteArray)
  | folder

/-- A folder: everything in it, by the names that lead there. The entry put last comes first. -/
structure Folder where
  entries : List (List String × Entry) := []

namespace Folder

/-- What a row of names leads to. The empty row leads to the folder itself. -/
def entry? (folder : Folder) (names : List String) : Option Entry :=
  if names.isEmpty then some .folder else folder.entries.lookup names

/-- The folder with something put at a row of names. -/
def put (folder : Folder) (names : List String) (entry : Entry) : Folder :=
  ⟨(names, entry) :: folder.entries⟩

/-- The folder with folders at all names that lead to `names`. -/
def makeParents (folder : Folder) (names : List String) : Folder :=
  let step (folder : Folder) (count : Nat) : Folder :=
    let parent := names.take count
    if (folder.entry? parent).isSome then folder else folder.put parent .folder
  (List.range names.length).foldl step folder

/-- Where a path leads: into the folder, to the place that the names lead to, or out of it. -/
inductive Place
  | inside (names : List String)
  | outside
  deriving DecidableEq, Repr

/-- Follows segments from a place. -/
def follow (folder : Folder) : Place → List String → Except IoError Place
  | place, [] => .ok place
  | .outside, segment :: rest =>
    if Path.isIdle segment || segment = ".." then folder.follow .outside rest else .error .notFound
  | .inside names, segment :: rest =>
    match folder.entry? names with
    | some .folder =>
      if Path.isIdle segment then
        folder.follow (.inside names) rest
      else if segment = ".." then
        folder.follow (if names.isEmpty then .outside else .inside names.dropLast) rest
      else if Path.isLongSegment segment then
        .error .nameTooLong
      else
        let next := names ++ [segment]
        if (folder.entry? next).isSome then folder.follow (.inside next) rest else .error .notFound
    | _ => .error .notFolder

/-- The place where a path starts, unless the path is refused as a whole. -/
def start (path : String) : Except IoError Place :=
  if path.toList.contains '\x00' then .error .nullCharacter
  else if path.isEmpty then .error .notFound
  else if Path.isLong path then .error .nameTooLong
  else .ok (if Path.isAbsolute path then .outside else .inside [])

/-- What a path leads to. -/
def find (folder : Folder) (path : String) : Except IoError Entry := do
  match ← folder.follow (← start path) (Path.segments path) with
  | .inside names => return (folder.entry? names).getD .folder
  | .outside => return .folder

/-- The text of a file. -/
def readText (folder : Folder) (path : String) : Except IoError String := do
  match ← folder.find path with
  | .folder => throw .isFolder
  | .file bytes =>
    match String.fromUTF8? bytes with
    | some text => return text
    | none => throw .invalidText

/-- The folder after a text was written to a file, which may be new. -/
def writeText (folder : Folder) (path text : String) : Except IoError Folder := do
  let place ← start path
  let reversed := (Path.segments path).reverse
  match reversed.dropWhile (· = "") with
  | [] => throw .isFolder
  | name :: outer =>
    let isFolderName := name == "." || name == ".." || reversed.head? == some ""
    match ← folder.follow place outer.reverse with
    | .outside => throw (if isFolderName then .isFolder else .notFound)
    | .inside names =>
      match folder.entry? names with
      | some .folder =>
        if isFolderName then
          throw .isFolder
        else if Path.isLongSegment name then
          throw .nameTooLong
        else
          match folder.entry? (names ++ [name]) with
          | some .folder => throw .isFolder
          | _ => return folder.put (names ++ [name]) (.file text.toUTF8)
      | _ => throw .notFolder

end Folder

/-! ## Disks -/

/-- The operations on files that a program needs, in a monad of effects. -/
structure Disk (m : Type → Type) where
  isPresent : String → m Bool
  readText : String → m (Except IoError String)
  writeText : String → String → m (Except IoError Unit)

/-- A folder that is kept as a state. -/
def Disk.ofFolder : Disk (StateM Folder) where
  isPresent path := return (← get).find path matches .ok _
  readText path := return (← get).readText path
  writeText path text := do
    match (← get).writeText path text with
    | .ok folder => set folder; return .ok ()
    | .error cause => return .error cause

end ScriptToC
