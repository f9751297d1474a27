import Std.Data.ExtTreeMap
import TriggerScript.Files.Path

/-!
# File trees

A directory with everything below it, as a finite map from the parts of paths to contents. Absolute
paths have to lead into it, others start at its working directory.
-/

namespace TriggerScript

inductive FileEntry where
  | text (content : String)
  /-- Content that is no text. -/
  | binary
  /-- A directory, which may be empty. -/
  | directory
deriving Inhabited

structure FileTree where
  /-- Absolute path of the root; empty for the root of all files. -/
  location : String
  /-- Where paths start that are not absolute. -/
  workingDirectory : List String := []
  /-- Entries by their parts below the root, in the order of listings. -/
  entries : Std.ExtTreeMap (List String) FileEntry := ∅

namespace FileTree

/-- The root, the listed directories, and everything above an entry are directories. -/
def isDirectory (t : FileTree) (parts : List String) : Bool :=
  parts.isEmpty || t.entries.toList.any fun (entry, content) =>
    match content with
    | .directory => parts.isPrefixOf entry
    | _ => parts.isPrefixOf entry && parts != entry

def file? (t : FileTree) (parts : List String) : Option FileEntry :=
  match t.entries[parts]? with
  | some .directory => none
  | content => content

/-- The place that further parts lead to from an existing place. -/
def walk (t : FileTree) (place : List String) : List String → Option (List String)
  | [] => some place
  | part :: parts =>
      if !t.isDirectory place then none
      else if part = "" ∨ part = "." then walk t place parts
      else if part = ".." then if place.isEmpty then none else walk t place.dropLast parts
      else if t.isDirectory (place ++ [part]) || (t.file? (place ++ [part])).isSome then
        walk t (place ++ [part]) parts
      else none

/-- The place of an existing file or directory. -/
def resolve? (t : FileTree) (path : String) : Option (List String) :=
  if path = "" then none
  else if path = t.location then some []
  else if path.startsWith (t.location ++ "/") then
    t.walk [] (Path.parts (path.drop (t.location.length + 1)).toString)
  else if path.startsWith "/" then none
  else t.walk t.workingDirectory (Path.parts path)

def directory? (t : FileTree) (path : String) : Option (List String) :=
  (t.resolve? path).filter t.isDirectory

def read? (t : FileTree) (path : String) : Option String :=
  match (t.resolve? path).bind t.file? with
  | some (.text content) => some content
  | _ => none

/-- The place that a path names, whether or not something is there. -/
def place (t : FileTree) (path : String) : List String :=
  if path.startsWith (t.location ++ "/") then
    Path.follow [] (Path.parts (path.drop (t.location.length + 1)).toString)
  else Path.follow t.workingDirectory (Path.parts path)

def insert (t : FileTree) (parts : List String) (entry : FileEntry) : FileTree :=
  { t with entries := t.entries.insert parts entry }

/-- Write the text of a file, with the directories above it. -/
def write (t : FileTree) (path content : String) : FileTree :=
  t.insert (t.place path) (.text content)

/-- Whether a file stands where a place needs a directory. -/
def isObstructed (t : FileTree) (parts : List String) : Bool :=
  t.entries.toList.any fun (entry, content) =>
    match content with
    | .directory => false
    | _ => entry.isPrefixOf parts && entry != parts

def write? (t : FileTree) (path content : String) : Option FileTree :=
  let place := t.place path
  if t.isDirectory place || t.isObstructed place then none else some (t.write path content)

/-- What is left of `parts` below `place`, unless it is `place` itself. -/
def below? (place parts : List String) : Option (List String) :=
  if place.isPrefixOf parts ∧ place ≠ parts then some (parts.drop place.length) else none

/-- The names of what stands in a directory. -/
def names (t : FileTree) (place : List String) : List String :=
  (t.entries.keys.filterMap fun parts => (below? place parts).bind List.head?).eraseDups

/-- The length of the longest path. -/
def depth (t : FileTree) : Nat := (t.entries.keys.map List.length).max?.getD 0

/-- An order in which the names in each directory are listed. -/
structure Listing (t : FileTree) where
  list : List String → List String
  perm : ∀ place, (list place).Perm (t.names place)

/-- The listing in the order of the names. -/
def listed (t : FileTree) : Listing t := ⟨t.names, fun _ => .refl _⟩

/-- The files with wanted names below a place, as a walk comes upon them that lists one directory
after another and goes down at most `depth` of them. -/
def collect (t : FileTree) (l : Listing t) (wanted : String → Bool) :
    (depth : Nat) → (place : List String) → List (List String)
  | 0, _ => []
  | depth + 1, place => (l.list place).flatMap fun name =>
      if t.isDirectory (place ++ [name]) then t.collect l wanted depth (place ++ [name])
      else if wanted name then [place ++ [name]]
      else []

end FileTree

end TriggerScript
