import ScriptFacts.Command.Path

/-!
# Files

The files of a system, as a command in some working directory sees them. Every file has a path from
there: first as many `..` as it takes to get above it, and then names. The directories are the
beginnings of these paths, and those that lie between the root and the working directory.

The path of a command may begin at the root or in the working directory. Its components are followed
one by one; on the way down from above the working directory, its own name leads back to it.

* `Files.get?_put_self`: the content that was put is the content that is there.
-/
namespace ScriptFacts.Command

/-- Why a file cannot be read or written. -/
inductive FileError
  | missing
  | isDirectory
  | notDirectory
  | notText
  | other (reason : String)
deriving DecidableEq, Repr

/-- The wording of a reason. -/
def FileError.text : FileError → String
  | missing => "No such file or directory (os error 2)"
  | isDirectory => "Is a directory (os error 21)"
  | notDirectory => "Not a directory (os error 20)"
  | notText => "stream did not contain valid UTF-8"
  | other reason => reason

/-- The contents of files, by their paths from the working directory. That is at `base`, the names
that lead to it from the root. -/
structure Files (base : List String := ["work"]) where
  entries : List (List String × ByteArray)

/-- Where a path leads. -/
inductive Spot
  | directory (path : List String)
  | file (path : List String)
deriving DecidableEq, Repr

namespace Files

/-! ## Directories -/

/-- Whether a path leads nowhere but upwards, so that the working directory lies there or below. -/
def isAbove (path : List String) : Bool :=
  path.all (· = "..")

/-- The directory above that at a path. There is none above the root. -/
def above (base path : List String) : List String :=
  if isAbove path then
    if path.length < base.length then ".." :: path else path
  else path.dropLast

/-- The path of what bears a name in the directory at a path. -/
def below (base path : List String) (name : String) : List String :=
  if isAbove path ∧ base[base.length - path.length]? = some name then path.dropLast
  else path ++ [name]

variable {base : List String}

/-- The content of the file at a path, if there is one. -/
def get? (files : Files base) (path : List String) : Option ByteArray :=
  files.entries.lookup path

/-- Gives the file at a path a content. -/
def put (files : Files base) (path : List String) (content : ByteArray) : Files base :=
  ⟨(path, content) :: files.entries.filter fun entry => entry.1 ≠ path⟩

/-- Whether a path is that of a directory: one that lies above the working directory, this one
itself, or a proper beginning of a file's path. -/
def isDirectory (files : Files base) (path : List String) : Bool :=
  isAbove path || files.entries.any fun entry => path.isPrefixOf entry.1 && path != entry.1

/-! ## Following paths -/

/-- Where a component leads from a spot. -/
def enter (files : Files base) (name : String) : Spot → Except FileError Spot
  | .file _ => .error .notDirectory
  | .directory path =>
    if name = "" ∨ name = "." then .ok (.directory path)
    else if name = ".." then .ok (.directory (above base path))
    else
      let path := below base path name
      if (files.get? path).isSome then .ok (.file path)
      else if files.isDirectory path then .ok (.directory path)
      else .error .missing

/-- Where components lead from a spot, one after the other. -/
def walk (files : Files base) (spot : Spot) : List String → Except FileError Spot
  | [] => .ok spot
  | name :: names => do files.walk (← files.enter name spot) names

/-- The spot at which a path begins, and its components from there. -/
def begin (base : List String) (path : String) : Spot × List String :=
  match Path.components path with
  | "" :: names => (.directory (List.replicate base.length ".."), names)
  | names => (.directory [], names)

/-- The content of the file at a path. -/
def read (files : Files base) (path : String) : Except FileError ByteArray := do
  let (spot, names) := begin base path
  match ← files.walk spot names with
  | .file path =>
    match files.get? path with
    | some content => .ok content
    | none => .error .missing
  | .directory _ => .error .isDirectory

/-- The text of the file at a path. -/
def readText (files : Files base) (path : String) : Except FileError String := do
  match String.fromUTF8? (← files.read path) with
  | some text => .ok text
  | none => .error .notText

/-- The file that a path names for writing, whether or not it exists. A slash at the end asks for a
directory, and so does a last component that stands for one. -/
def target (files : Files base) (path : String) : Except FileError (List String) := do
  let (spot, names) := begin base path
  match names.reverse.dropWhile (· = "") with
  | [] => .error .isDirectory
  | name :: parents =>
    let asksDirectory := names.getLast? = some "" ∨ name = "." ∨ name = ".."
    match ← files.walk spot parents.reverse with
    | .file _ => .error .notDirectory
    | .directory parent =>
      let path := below base parent name
      if asksDirectory ∨ files.isDirectory path then .error .isDirectory else .ok path

/-- Writes a text into the file at a path, which is made or replaced. -/
def writeText (files : Files base) (path text : String) : Except FileError (Files base) := do
  .ok (files.put (← files.target path) text.toUTF8)

/-- The files below the working directory that are not as they were before. -/
def changesSince (files before : Files base) : List (List String × ByteArray) :=
  files.entries.filter fun entry =>
    entry.1.head? ≠ some ".." && match before.get? entry.1 with
      | none => true
      | some content => !decide (content.data = entry.2.data)

theorem get?_put_self (files : Files base) (path : List String) (content : ByteArray) :
    (files.put path content).get? path = some content := by
  simp [put, get?]

end Files

end ScriptFacts.Command
