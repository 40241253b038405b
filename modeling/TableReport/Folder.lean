/-!
Folders: the files that a program can see, and how paths lead to them. A path is
followed name by name from the folder itself.

It is assumed that the folder is all there is. The directories that it lies in have
no names that a path could use, they hold nothing that can be read, and nothing can be
made in them. So a path that leaves the folder, by a slash in front or by `..`, comes to
one of these directories or to nothing at all. Where there are other files a program
would read and write them; of such paths no more is said here than that they are
refused.
-/

namespace TableReport

inductive FileFault where
  | notFound
  | isDirectory
  /-- A path goes on behind something that is no directory. -/
  | notDirectory
  | nameTooLong
  /-- A path holds the character that ends names. -/
  | nulInPath
  /-- The bytes of a file are not the UTF-8 form of any text. -/
  | notText
  /-- A fault of the system that does not arise here. -/
  | other (text : String)
deriving DecidableEq, Repr

def FileFault.message : FileFault → String
  | .notFound => "No such file or directory (os error 2)"
  | .isDirectory => "Is a directory (os error 21)"
  | .notDirectory => "Not a directory (os error 20)"
  | .nameTooLong => "File name too long (os error 36)"
  | .nulInPath => "file name contained an unexpected NUL byte"
  | .notText => "stream did not contain valid UTF-8"
  | .other text => text

inductive Entry where
  | text (content : String)
  /-- A file that holds no text. -/
  | garbled
  | directory
deriving DecidableEq, Repr

def Entry.ofBytes (bytes : ByteArray) : Entry :=
  match String.fromUTF8? bytes with
  | some content => .text content
  | none => .garbled

def splitPath : List Char → List (List Char)
  | [] => [[]]
  | c :: rest =>
    if c = '/' then [] :: splitPath rest
    else
      match splitPath rest with
      | [] => [[c]]
      | name :: names => (c :: name) :: names

def pathNames (path : String) : List String := (splitPath path.toList).map String.ofList

/-- What is in a folder, each by its names from there. -/
structure Folder where
  entries : List (List String × Entry)

inductive Place where
  | inside (names : List String)
  /-- A directory that the folder lies in. -/
  | above
  /-- Something in such a directory. By assumption it is not there and cannot be made. -/
  | elsewhere
deriving DecidableEq

namespace Place

def child (place : Place) (name : String) : Place :=
  match place with
  | .inside names => .inside (names ++ [name])
  | _ => .elsewhere

def parent : Place → Place
  | .inside [] => .above
  | .inside names => .inside names.dropLast
  | place => place

def start (path : String) : Place := if path.toList.head? = some '/' then .above else .inside []

end Place

namespace Folder

/-- What is at a place. A directory is there, too, if something is in it. -/
def entry? (folder : Folder) : Place → Option Entry
  | .above | .inside [] => some .directory
  | .elsewhere => none
  | .inside names =>
    match folder.entries.lookup names with
    | some entry => some entry
    | none =>
      if folder.entries.any fun (other, _) => names.isPrefixOf other then some .directory else none

def checkDirectory (folder : Folder) (place : Place) : Except FileFault Unit :=
  match folder.entry? place with
  | none => .error .notFound
  | some .directory => .ok ()
  | some _ => .error .notDirectory

def follow (folder : Folder) (place : Place) (name : String) : Except FileFault Place := do
  folder.checkDirectory place
  if name = "" ∨ name = "." then .ok place
  else if name = ".." then .ok place.parent
  else if 255 < name.utf8ByteSize then .error .nameTooLong
  else .ok (place.child name)

def followAll (folder : Folder) (place : Place) (names : List String) : Except FileFault Place :=
  names.foldlM folder.follow place

/-- Refuses paths that no system call takes. -/
def checkPath (path : String) : Except FileFault Unit :=
  if '\x00' ∈ path.toList then .error .nulInPath
  else if path = "" then .error .notFound
  else if 4096 ≤ path.utf8ByteSize then .error .nameTooLong
  else .ok ()

def read (folder : Folder) (path : String) : Except FileFault String := do
  checkPath path
  let place ← folder.followAll (.start path) (pathNames path)
  match folder.entry? place with
  | none => .error .notFound
  | some .directory => .error .isDirectory
  | some .garbled => .error .notText
  | some (.text content) => .ok content

/-- The folder with another text in the file of the given names. -/
def put (folder : Folder) (names : List String) (content : String) : Folder :=
  { entries := (names, .text content) :: folder.entries.filter (·.1 ≠ names) }

/-- Writes a text to a file, which need not be there before, unless it would lie outside of
the folder. A path that ends in a slash names a directory, whatever is there and however
long its last name is. -/
def write (folder : Folder) (path content : String) : Except FileFault Folder := do
  checkPath path
  let (slashes, names) := (pathNames path).reverse.span (· == "")
  match names with
  | [] => .error .isDirectory
  | last :: outer =>
    let directory ← folder.followAll (.start path) outer.reverse
    folder.checkDirectory directory
    if slashes ≠ [] then .error .isDirectory
    else
      let place ← folder.follow directory last
      match folder.entry? place, place with
      | some .directory, _ => .error .isDirectory
      | _, .inside names => .ok (folder.put names content)
      | _, _ => .error .notFound

/-- The text files that lie in the folder itself, by name. -/
def texts (folder : Folder) : List (String × String) :=
  folder.entries.filterMap fun
    | ([name], .text content) => some (name, content)
    | _ => none

end Folder

end TableReport
