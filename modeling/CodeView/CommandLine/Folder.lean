import CodeView.CommandLine.Path

/-!
# Folders

Files and directories held in memory, seen from a working directory, and the answers that a system
gives when a path is read there, a directory is made or a file is written.

A spot in a folder is named by the names on the way to it. The way to a spot outside the working
directory begins with a `..` for each step up, or with `/` at the root. Of what lies outside only
the directories on the way are known, and what every system has.
-/

namespace CodeView.CommandLine

/-- Why a system refuses a path. -/
inductive SystemError
  | notFound
  | alreadyThere
  | notDirectory
  | isDirectory
  | nameTooLong
  /-- any other reason, in the words of the system -/
  | other (reason : String)
  deriving DecidableEq, Repr

/-- The sentence that reports it. -/
def SystemError.message : SystemError → String
  | notFound => "No such file or directory (os error 2)"
  | alreadyThere => "File exists (os error 17)"
  | notDirectory => "Not a directory (os error 20)"
  | isDirectory => "Is a directory (os error 21)"
  | nameTooLong => "File name too long (os error 36)"
  | other reason => reason

/-- The names on the way from the working directory to a file or a directory. -/
abbrev Spot := List String

namespace Spot

/-- The spot of the root. -/
def root : Spot := ["/"]

/-- The spot of the file that every system has, which is empty and stays so. -/
def nullDevice : Spot := root ++ ["dev", "null"]

/-- The spot of the directory around one. Nothing is around the root. -/
def up (spot : Spot) : Spot :=
  if spot = root then root
  else if spot.all (· == "..") then spot ++ [".."]
  else spot.dropLast

/-- Whether the spot is the working directory, the root, or a directory around the former. -/
def isGiven (spot : Spot) : Bool :=
  spot == root || spot.all (· == "..")

end Spot

/-- Files with their content, and directories that were made. -/
structure Folder where
  files : List (Spot × ByteArray)
  directories : List Spot

/-- What is at a spot. -/
inductive Place
  | directory (spot : Spot)
  | file (spot : Spot) (content : ByteArray)

namespace Folder

/-- The bytes of the longest name that a system takes. -/
def maxName : Nat := 255

/-- The bytes of the longest path that a system takes. -/
def maxPath : Nat := 4095

/-- The folder with files of the given paths, and with the empty file that every system has. -/
def ofFiles (files : List (String × ByteArray)) : Folder where
  files := files.map (fun (path, content) => ((Path.ofText path).names, content)) ++
    [(Spot.nullDevice, .empty)]
  directories := [Spot.root ++ ["tmp"]]

/-- What is at a spot, if anything is there. -/
def find? (f : Folder) (spot : Spot) : Option Place :=
  match f.files.lookup spot with
  | some content => some (.file spot content)
  | none =>
    if spot.isGiven || f.directories.contains spot ||
        f.files.any fun entry => spot.isPrefixOf entry.1 then
      some (.directory spot)
    else none

/-- Goes on from a place by one piece of a path. An idle piece stays in a directory. -/
def enter (f : Folder) (place : Place) (piece : String) : Except SystemError Place :=
  match place with
  | .file .. => .error .notDirectory
  | .directory spot =>
    if Path.isIdle piece then .ok place
    else if piece = ".." then .ok (.directory spot.up)
    else if maxName < piece.utf8ByteSize then .error .nameTooLong
    else
      match f.find? (spot ++ [piece]) with
      | some place => .ok place
      | none => .error .notFound

/-- The place that a path leads to. -/
def place (f : Folder) (path : Path) : Except SystemError Place :=
  if path.text.isEmpty then .error .notFound
  else if maxPath < path.text.utf8ByteSize then .error .nameTooLong
  else path.pieces.foldlM f.enter (.directory (if path.absolute then Spot.root else []))

/-- The content of the file at a path. -/
def read (f : Folder) (path : Path) : Except SystemError ByteArray :=
  match f.place path with
  | .ok (.file _ content) => .ok content
  | .ok (.directory _) => .error .isDirectory
  | .error e => .error e

/-- The spot of a new entry whose name is the last piece of a path. -/
def newSpot (f : Folder) (path : Path) : Except SystemError Spot :=
  match path.pieces.getLast? with
  | none => .error (if path.absolute then .alreadyThere else .notFound)
  | some name =>
    let start := Place.directory (if path.absolute then Spot.root else [])
    if maxPath < path.text.utf8ByteSize then .error .nameTooLong
    else do
      match ← path.pieces.dropLast.foldlM f.enter start with
      | .file .. => .error .notDirectory
      | .directory spot =>
        match f.enter (.directory spot) name with
        | .ok _ => .error .alreadyThere
        | .error .notFound => .ok (spot ++ [name])
        | .error e => .error e

/-- Makes a directory, unless it is there already; what it is made in has to be there. -/
def makeDirectory (f : Folder) (path : Path) : Except SystemError Folder :=
  match f.newSpot path with
  | .ok spot => .ok { f with directories := spot :: f.directories }
  | .error .alreadyThere =>
    match f.place path with
    | .ok (.directory _) => .ok f
    | _ => .error .alreadyThere
  | .error e => .error e

/-- Makes a directory and those around it that are missing. -/
def makeDirectories (f : Folder) (path : Path) : Except SystemError Folder :=
  if path.pieces.isEmpty && !path.absolute then .ok f
  else
    match f.makeDirectory path with
    | .error .notFound =>
      match h : path.parent? with
      | none => .error .notFound
      | some parent => do
        have := Path.length_pieces_of_parent? h
        let f ← f.makeDirectories parent
        f.makeDirectory path
    | result => result
termination_by path.pieces.length

/-- The folder with one more file, which is empty. -/
def create (f : Folder) (spot : Spot) : Folder :=
  { f with files := (spot, .empty) :: f.files }

/-- Opens a file of a directory to be written at its end, where it is made if it is missing. Gives
the spot of the file. -/
def openFile (f : Folder) (directory : Path) (name : String) :
    Except SystemError (Folder × Spot) := do
  match ← f.place directory with
  | .file .. => .error .notDirectory
  | .directory spot =>
    match f.enter (.directory spot) name with
    | .ok (.file spot _) => .ok (f, spot)
    | .ok (.directory _) => .error .isDirectory
    | .error .notFound => .ok (f.create (spot ++ [name]), spot ++ [name])
    | .error e => .error e

/-- The content of a file once bytes are written at the end of the file at a spot. The file that
every system has stays empty. -/
def grown (spot : Spot) (bytes : ByteArray) (file : Spot) (content : ByteArray) : ByteArray :=
  if file = spot ∧ spot ≠ Spot.nullDevice then content ++ bytes else content

/-- Writes bytes at the end of the file at a spot. -/
def append (f : Folder) (spot : Spot) (bytes : ByteArray) : Folder :=
  { f with files := f.files.map fun (file, content) => (file, grown spot bytes file content) }

end Folder

end CodeView.CommandLine
