/-!
# Paths

A path is a text of components between slashes. Its last component is the file name, unless that is
empty or stands for a directory; slashes at the end, and components of a single dot there, are
passed over. The extension of a file name is what follows its last dot, if something stands before
that dot.
-/
namespace ScriptFacts.Command.Path

/-- Splits a text at the last place where `stop` holds: the text before it, and the text after it
if there is such a place. -/
def splitLast (stop : Char → Bool) : List Char → List Char × Option (List Char)
  | [] => ([], none)
  | c :: text =>
    match splitLast stop text with
    | (before, some after) => (c :: before, some after)
    | (_, none) => if stop c then ([], some text) else (c :: text, none)

/-- The directory part of a path, its last slash included, and the last component. -/
def splitName (path : List Char) : List Char × List Char :=
  match splitLast (· == '/') path with
  | (name, none) => ([], name)
  | (before, some name) => (before ++ ['/'], name)

/-- A file name without its extension, and the extension if it has one. -/
def splitExtension (name : List Char) : List Char × Option (List Char) :=
  match splitLast (· == '.') name with
  | (before, some extension) => if before = [] then (name, none) else (before, some extension)
  | (_, none) => (name, none)

/-- Whether a last component is the name of a file. -/
def isFileName (name : List Char) : Bool :=
  name ≠ [] && name ≠ ['.'] && name ≠ ['.', '.']

/-- A path without the slashes at its end and without the components of a single dot there. -/
def trimEnd (path : List Char) : List Char :=
  (trim path.reverse).reverse
where
  /-- The same for a path that is written backwards. -/
  trim : List Char → List Char
    | '/' :: text => trim text
    | '.' :: '/' :: text => trim text
    | text => text

/-- Puts an extension after the stem of the file name, if the path has one, and lets all that
follows the stem go. -/
def setExtension (extension path : List Char) : List Char :=
  let (directory, name) := splitName (trimEnd path)
  if isFileName name then directory ++ (splitExtension name).1 ++ '.' :: extension else path

/-- Takes as many characters off the end of a path as its file name has in its extension. The dot
stays, and where slashes follow the name, so does a part of the extension. -/
def dropExtension (path : List Char) : List Char :=
  match (splitExtension (splitName (trimEnd path)).2).2 with
  | some extension => path.take (path.length - extension.length)
  | none => path

/-- The path with the extension of its file name replaced. A name that is left with nothing but two
dots when its extension is cut off stands for a directory, and stays so. -/
def withExtension (extension path : List Char) : List Char :=
  setExtension extension (dropExtension path)

/-- The components of a path. -/
def components (path : String) : List String :=
  go path.toList []
where
  /-- The components of `text`, the first of which has begun with the reverse of `begun`. -/
  go : List Char → List Char → List String
    | [], begun => [String.ofList begun.reverse]
    | c :: text, begun =>
      if c = '/' then String.ofList begun.reverse :: go text [] else go text (c :: begun)

end ScriptFacts.Command.Path
