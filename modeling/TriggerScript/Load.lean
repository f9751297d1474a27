import TriggerScript.Files
import TriggerScript.Sorting
import TriggerScript.Store.Build
import TriggerScript.Toml

/-!
# Loading rules

Reads rule tables from text, from one file, or from all tables below a directory. A file of a
directory that cannot be read or parsed is noted and skipped.
-/

namespace TriggerScript

inductive LoadError where
  | unreadableFile (path : String)
  | malformedToml (path : String)
  | unreadableDirectory (path : String)
deriving DecidableEq

def LoadError.message : LoadError → String
  | unreadableFile path => "failed to read " ++ path
  | malformedToml path => "failed to parse TOML in " ++ path
  | unreadableDirectory path => "failed to read directory " ++ path

structure LoadReport where
  store : Store := ∅
  diagnostics : List Diagnostic := []
  /-- Number of tables that went into the store. -/
  files : Nat := 0
  failed : List LoadError := []

namespace LoadReport

def errorCount (r : LoadReport) : Nat := r.diagnostics.countP (·.isError)

def warningCount (r : LoadReport) : Nat := r.diagnostics.length - r.errorCount

def ofTables (tables : List Table) (failed : List LoadError := []) : LoadReport :=
  let (store, diagnostics) := Store.build tables
  { store, diagnostics, files := tables.length, failed }

end LoadReport

/-- The table written in a text; `file` names it in findings. -/
def Table.parse (file text : String) : Except LoadError Table :=
  match (Toml.parse? text).bind Row.listOfData? with
  | some rows => .ok ⟨file, rows⟩
  | none => .error (.malformedToml file)

def Table.read (path : String) : FileEntry → Except LoadError Table
  | .text content => Table.parse path content
  | _ => .error (.unreadableFile path)

def loadText (file text : String) : Except LoadError LoadReport := do
  .ok (.ofTables [← Table.parse file text])

namespace FileTree

def loadFile (t : FileTree) (path : String) : Except LoadError LoadReport :=
  match (t.resolve? path).bind t.file? with
  | some content => do .ok (.ofTables [← Table.read path content])
  | none => .error (.unreadableFile path)

/-- The rule tables below a place with their contents, in the order of their parts. -/
def tablesBelow (t : FileTree) (l : Listing t) (place : List String) :
    List (List String × FileEntry) :=
  let found := t.collect l Path.isTableName t.depth place
  (sortStable (fun a b => (compare a b).isLT) found).filterMap fun parts =>
    (t.file? parts).map (parts, ·)

/-- The path of what stands below a place, given from `dir`, the path of the place. -/
def pathBelow (dir : String) (place parts : List String) : String :=
  (parts.drop place.length).foldl Path.join dir

def readBelow (dir : String) (place : List String) :
    List String × FileEntry → Except LoadError Table
  | (parts, content) => Table.read (pathBelow dir place parts) content

/-- Load all tables below a directory, whatever order they are listed in. A missing directory has
no tables. -/
def loadDirectory (t : FileTree) (dir : String) (l : Listing t := t.listed) :
    Except LoadError LoadReport :=
  match t.resolve? dir with
  | none => .ok {}
  | some place =>
      if t.isDirectory place then
        let results := (t.tablesBelow l place).map (readBelow dir place)
        .ok (.ofTables
          (results.filterMap fun
            | .ok table => some table
            | .error _ => none)
          (results.filterMap fun
            | .ok _ => none
            | .error failure => some failure))
      else .error (.unreadableDirectory dir)

end FileTree

end TriggerScript
