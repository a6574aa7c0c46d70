import ApiEvolution.Annotation.Document
import ApiEvolution.Mapping.Report
import ApiEvolution.Snapshot.Document
import ApiEvolution.Usage.Basic

/-!
# Documents in files

A `Storage` is a tree of folders and files, seen from one folder. Paths are relative to that folder,
with slashes between their parts; the part `.` stays where it is and `..` goes up. The folders above
are there and otherwise unknown.

A file is read as text only if its bytes are UTF-8. Saving a ledger makes the folders that it needs,
saving a report does not.
-/

namespace ApiEvolution

/-- Folders and files by their parts. A part `..` is found only at the front. -/
structure Storage where
  folders : List (List String)
  files : List (List String × ByteArray)

namespace Storage

/-- A folder without anything in it. -/
def empty : Storage := ⟨[], []⟩

/-- Whether there is a folder. -/
def isFolder (s : Storage) (place : List String) : Bool :=
  place.all (· = "..") || s.folders.contains place

/-- The file at a place. -/
def file? (s : Storage) (place : List String) : Option ByteArray :=
  (s.files.find? fun f => f.1 = place).map (·.2)

/-- Whether a part of a path stays where it is. -/
def stays (part : String) : Bool :=
  part = "" || part = "."

/-- The place that a part leads to. -/
def follow (place : List String) (part : String) : List String :=
  if stays part then place
  else if part = ".." then
    if place.all (· = "..") then place ++ [".."] else place.dropLast
  else place ++ [part]

/-- The folder that parts lead to, through folders that are there. -/
def enter? (s : Storage) (place : List String) : List String → Option (List String)
  | [] => some place
  | part :: rest =>
    let next := follow place part
    if s.isFolder next then s.enter? next rest else none

/-- Whether a part of a path can be a name: it has no NUL and takes up to 255 bytes. -/
def isName (part : String) : Bool :=
  part.toList.all (fun c => c.toNat ≠ 0) && part.utf8ByteSize ≤ 255

/-- The parts of a path that stays among the known folders. A path takes up to 4095 bytes. -/
def parts? (path : String) : Option (List String) :=
  let parts := path.splitOn "/"
  if path = "" ∨ 4095 < path.utf8ByteSize ∨ parts.head? = some "" ∨ !parts.all isName then none
  else some parts

/-- The place of the file that a path names; its folder has to be there. -/
def locate? (s : Storage) (path : String) : Option (List String) := do
  let parts ← parts? path
  let name ← parts.getLast?
  if ["", ".", ".."].contains name then none
  else
    let folder ← s.enter? [] parts.dropLast
    some (folder ++ [name])

/-- The text of a file. -/
def read (s : Storage) (path : String) : Outcome String :=
  match ((s.locate? path).bind s.file?).bind String.fromUTF8? with
  | some text => .ok text
  | none => .error .inaccessible

/-- Put bytes into a file, in place of what it had. -/
def write (s : Storage) (path : String) (bytes : ByteArray) : Outcome Storage :=
  match s.locate? path with
  | some place =>
    if s.isFolder place then .error .inaccessible
    else .ok { s with files := (place, bytes) :: s.files.filter fun f => f.1 ≠ place }
  | none => .error .inaccessible

/-- Make the folders that parts lead to. -/
def makeFolders (s : Storage) (place : List String) : List String → Outcome Storage
  | [] => .ok s
  | part :: rest =>
    let next := follow place part
    if s.isFolder next then s.makeFolders next rest
    else if (s.file? next).isSome then .error .inaccessible
    else makeFolders { s with folders := next :: s.folders } next rest

/-- Make the folder that a path names and those above it. The empty path names no folder, so nothing
is made. A path with `.` at its end leads into a folder: those above that one are made, it has to be
there itself. -/
def makeFolder (s : Storage) (path : String) : Outcome Storage :=
  if path = "" then .ok s
  else
    match parts? path with
    | some parts =>
      let named := (parts.reverse.dropWhile stays).reverse
      if (parts.drop named.length).contains "." then do
        let made ← s.makeFolders [] named.dropLast
        if (made.enter? [] named).isSome then .ok made else .error .inaccessible
      else s.makeFolders [] named
    | none => .error .inaccessible

/-- Make the folder in which a path names a file. -/
def makeParent (s : Storage) (path : String) : Outcome Storage :=
  match parts? path with
  | some parts => s.makeFolders [] parts.dropLast
  | none => .error .inaccessible

end Storage

/-- Save the document of a ledger. -/
def Ledger.save (l : Ledger) (s : Storage) (path : String) : Outcome Storage := do
  (← s.makeParent path).write path l.write.toUTF8

/-- Save the document of a report. -/
def Report.save (r : Report) (s : Storage) (path : String) : Outcome Storage :=
  s.write path r.write.toUTF8

/-- The ledger in a file. -/
def Ledger.load (s : Storage) (path : String) : Outcome Ledger := do
  Ledger.read (← s.read path)

/-- The snapshot in a file. -/
def Snapshot.load (s : Storage) (path : String) : Outcome Snapshot := do
  Snapshot.read (← s.read path)

/-- The usage counts in a file. -/
def UsageCounts.load (s : Storage) (path : String) : Outcome UsageCounts := do
  UsageCounts.read (← s.read path)

end ApiEvolution
