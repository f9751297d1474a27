import TriggerScript.Data

/-!
# TOML tables under construction

A table may be opened again in ways that depend on how it came about: a table defined by its own
header is final as a whole, one implied by the header of an inner table may still be defined, and
one made by dotted keys may be extended by further dotted keys of the same table. Values, inline
tables among them, are never extended.
-/

namespace TriggerScript.Toml

/-- How a table came about. -/
inductive Origin where
  | header
  | implied
  | dotted
deriving DecidableEq

inductive Node where
  | value (d : Data)
  | table (origin : Origin) (entries : List (String × Node))
  /-- Tables of one repeated header; only the last can still be extended. -/
  | tables (earlier : List Data) (last : List (String × Node))
deriving Inhabited

abbrev Entries := List (String × Node)

mutual

def Node.toData : Node → Data
  | .value d => d
  | .table _ entries => .table (entriesData entries)
  | .tables earlier last => .list (earlier ++ [.table (entriesData last)])

def entriesData : List (String × Node) → List (String × Data)
  | [] => []
  | (key, node) :: entries => (key, node.toData) :: entriesData entries

end

namespace Entries

/-- Give a key a node, in place of any former one. -/
def put (key : String) (node : Node) : Entries → Entries
  | [] => [(key, node)]
  | (k, n) :: entries => if k = key then (key, node) :: entries else (k, n) :: put key node entries

/-- Change the table at a path, which is created where it is missing. A dotted path does not enter
tables that have a header of their own. -/
def within (dotted : Bool) (change : Origin → Entries → Option Entries) :
    List String → Origin → Entries → Option Entries
  | [], origin, entries => change origin entries
  | key :: path, _, entries =>
      match entries.lookup key with
      | none => do
          let origin := if dotted then .dotted else .implied
          some (put key (.table origin (← within dotted change path origin [])) entries)
      | some (.table origin inner) =>
          if dotted ∧ origin = .header then none
          else do some (put key (.table origin (← within dotted change path origin inner)) entries)
      | some (.tables earlier last) => do
          some (put key (.tables earlier (← within dotted change path .header last)) entries)
      | some (.value _) => none

/-- Set a new key below a dotted path. A path has to end in a table made by dotted keys, and the
key of such a table has to be given by a path. -/
def assign (path : List String) (key : String) (value : Data) (origin : Origin)
    (entries : Entries) : Option Entries :=
  within true (fun origin entries =>
    if (origin == .dotted) == path.isEmpty then none
    else if (entries.lookup key).isSome then none
    else some (entries ++ [(key, .value value)])) path origin entries

def define (path : List String) (key : String) (entries : Entries) : Option Entries :=
  within false (fun _ entries =>
    match entries.lookup key with
    | none => some (put key (.table .header []) entries)
    | some (.table .implied inner) => some (put key (.table .header inner) entries)
    | _ => none) path .header entries

/-- Begin the next table of a repeated header. -/
def append (path : List String) (key : String) (entries : Entries) : Option Entries :=
  within false (fun _ entries =>
    match entries.lookup key with
    | none => some (put key (.tables [] []) entries)
    | some (.tables earlier last) =>
        some (put key (.tables (earlier ++ [.table (entriesData last)]) []) entries)
    | _ => none) path .header entries

end Entries

end TriggerScript.Toml
