/-!
# Paths

Paths are texts with parts between slashes. Empty parts and single dots mean nothing, except that
what stands before them has to be a directory.
-/

namespace TriggerScript.Path

def parts (path : String) : List String := (path.toList.splitOn '/').map String.ofList

/-- Where parts lead from a place: two dots go up, which stops at the root. -/
def follow (place parts : List String) : List String :=
  parts.foldl (fun place part =>
    if part = "" ∨ part = "." then place
    else if part = ".." then place.dropLast
    else place ++ [part]) place

def join (dir name : String) : String :=
  if dir.isEmpty ∨ dir.endsWith "/" then dir ++ name else dir ++ "/" ++ name

def fileName? (path : String) : Option String :=
  ((parts path).filter fun part => part ≠ "" ∧ part ≠ ".").getLast?.filter (· ≠ "..")

/-- What follows the last dot of a file name. A dot in front makes no extension. -/
def extension? (name : String) : Option String :=
  match (name.toList.splitOn '.').reverse with
  | extension :: rest@(_ :: _) => if rest = [[]] then none else some (String.ofList extension)
  | _ => none

/-- Rule tables are the files with the extension `toml`. -/
def isTableName (name : String) : Bool := extension? name == some "toml"

def isRuleTable (path : String) : Bool := (fileName? path).any isTableName

end TriggerScript.Path
