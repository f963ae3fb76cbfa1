import LightBridge.Table
import LightBridge.Text.Pieces
import LightBridge.Text.Slashes

/-!
Disks.

A disk has files and folders, each at a place: the names of the folders that lead to it from the
root, and its own name. A path names a place step by step, from the root if it begins with a slash
and else from the folder that is worked in. Two dots lead to the folder above, one dot nowhere, and
every step but the last must lead to a folder that exists. Names and paths have a greatest length, in
bytes; nothing can be at a longer name, and a longer path leads nowhere, even if a shorter one leads
to the same place.
-/

namespace LightBridge

/-- What is at a place of a disk. -/
inductive DiskEntry where
  | file (content : String)
  /-- A file whose bytes are no text. -/
  | binary
  | folder
deriving DecidableEq, Repr

/-- The names that lead from the root to somewhere, each after a slash. -/
abbrev Place := String

/-- Files and folders by their places. The root is always there. -/
structure Disk where
  entries : Table Place DiskEntry
  /-- The folder that is worked in. -/
  working : Place

namespace Place

/-- The place of the root. -/
def root : Place := ""

/-- The place of the folder around a place; the root is around itself. -/
def above (place : Place) : Place :=
  String.ofList ((place.toList.reverse.dropWhile (· ≠ '/')).drop 1).reverse

/-- The place that a name leads to from a folder. -/
def enter (place : Place) (name : String) : Place :=
  if name = ".." then place.above else place ++ "/" ++ name

end Place

namespace Disk

/-- The most bytes that a name can have. -/
def maxNameSize : Nat := 255

/-- The most bytes that a path can have. -/
def maxPathSize : Nat := 4095

/-- A disk with nothing below its root, which is worked in. -/
def empty : Disk := ⟨Table.empty, Place.root⟩

/-- Where a path begins. -/
def origin (d : Disk) (path : String) : Place :=
  if Text.startsWithSlash path then Place.root else d.working

/-- The steps that a path takes. -/
def steps (path : String) : List String :=
  ((Text.pieces '/' path.toList).map String.ofList).filter fun name => name ≠ "" && name ≠ "."

/-- A name below the text of a path. -/
def join (path name : String) : String :=
  if path.isEmpty || Text.endsWith path "/" then path ++ name else path ++ "/" ++ name

/-- What is at a place. -/
def entry? (d : Disk) (place : Place) : Option DiskEntry :=
  if place = Place.root then some .folder else d.entries.get? place

/-- The disk with something at a place. -/
def set (d : Disk) (place : Place) (entry : DiskEntry) : Disk :=
  { d with entries := d.entries.set place entry }

/-- Whether a place is a folder. -/
def isFolder (d : Disk) (place : Place) : Bool := d.entry? place == some .folder

/-- The place that some steps from a folder lead to, unless they pass something that is no folder. -/
def follow? (d : Disk) (place : Place) : List String → Option Place
  | [] => some place
  | name :: rest => if d.isFolder place then d.follow? (place.enter name) rest else none

/-- What a path leads to. -/
def at? (d : Disk) (path : String) : Option DiskEntry :=
  if path.utf8ByteSize ≤ maxPathSize then
    (d.follow? (d.origin path) (steps path)).bind d.entry?
  else none

/-- Follows some steps from a folder and makes the folders that are missing on the way. It ends
where something is no folder or a name is too long; the folders made so far stay. -/
def makeFolders (d : Disk) (place : Place) : List String → Disk × Option Place
  | [] => (d, some place)
  | name :: rest =>
    match d.entry? (place.enter name) with
    | none =>
      if name.utf8ByteSize ≤ maxNameSize then
        makeFolders (d.set (place.enter name) .folder) (place.enter name) rest
      else (d, none)
    | some .folder => d.makeFolders (place.enter name) rest
    | some _ => (d, none)

/-- Puts something at the end of a path, in folders that are made where they are missing, and tells
whether that was possible. What was there before is replaced, but a folder is not. -/
def put (d : Disk) (path : String) (entry : DiskEntry) : Disk × Bool :=
  match (steps path).getLast? with
  | none => (d, false)
  | some name =>
    if maxPathSize < path.utf8ByteSize then (d, false)
    else
      match d.makeFolders (d.origin path) (steps path).dropLast with
      | (d, none) => (d, false)
      | (d, some folder) =>
        if d.isFolder (folder.enter name) || maxNameSize < name.utf8ByteSize then (d, false)
        else (d.set (folder.enter name) entry, true)

theorem entry?_root (d : Disk) : d.entry? Place.root = some .folder := rfl

theorem follow?_append (d : Disk) (place : Place) (before after : List String) :
    d.follow? place (before ++ after) =
      (d.follow? place before).bind fun place => d.follow? place after := by
  induction before generalizing place with
  | nil => rfl
  | cons name rest ih =>
    simp only [List.cons_append, follow?]
    split
    · exact ih _
    · rfl

end Disk

end LightBridge
