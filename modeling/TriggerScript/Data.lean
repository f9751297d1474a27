/-!
# Structured data

What a configuration text says before its meaning is known, and readers for the columns of a
record. A record is a table of named columns; it may also be given as a list in the order of its
columns. Unknown columns are ignored as long as their numbers have values; surplus items of a list
may hold anything.
-/

namespace TriggerScript

inductive Data where
  | text (s : String)
  | integer (n : Int)
  | real (x : Float)
  | flag (b : Bool)
  /-- A date or a time; no record has a use for its value. -/
  | moment
  /-- A number without a value, since it is beyond 128 bits or beyond the floats. -/
  | outOfRange
  | list (items : List Data)
  | table (entries : List (String × Data))
deriving Inhabited

abbrev Columns := List (String × Data)

namespace Data

mutual

/-- Whether every number in it has a value. -/
def inRange : Data → Bool
  | outOfRange => false
  | list items => itemsInRange items
  | table entries => entriesInRange entries
  | _ => true

def itemsInRange : List Data → Bool
  | [] => true
  | item :: items => item.inRange && itemsInRange items

def entriesInRange : List (String × Data) → Bool
  | [] => true
  | (_, d) :: entries => d.inRange && entriesInRange entries

end

def text? : Data → Option String
  | text s => some s
  | _ => none

def flag? : Data → Option Bool
  | flag b => some b
  | _ => none

/-- An integer from `low` up to `bound`, which is left out. -/
def within? (low bound : Int) : Data → Option Int
  | integer n => if low ≤ n ∧ n < bound then some n else none
  | _ => none

def byte? (d : Data) : Option UInt8 := (d.within? 0 0x100).map fun n => .ofNat n.toNat

def word? (d : Data) : Option UInt32 := (d.within? 0 0x100000000).map fun n => .ofNat n.toNat

def long? (d : Data) : Option UInt64 :=
  (d.within? 0 0x10000000000000000).map fun n => .ofNat n.toNat

def signedWord? (d : Data) : Option Int32 := (d.within? (-0x80000000) 0x80000000).map Int32.ofInt

def signedLong? (d : Data) : Option Int64 :=
  (d.within? (-0x8000000000000000) 0x8000000000000000).map Int64.ofInt

/-- A single-precision number; integers of 64 bits are converted directly. -/
def single? : Data → Option Float32
  | real x => some x.toFloat32
  | d => (d.long?.map UInt64.toFloat32).or (d.signedLong?.map Int64.toFloat32)

def list? : Data → Option (List Data)
  | list items => some items
  | _ => none

/-- The columns of a record whose columns have these names. A date or time has none of them. -/
def columns? (names : List String) : Data → Option Columns
  | table entries =>
      if entries.all fun (name, d) => names.contains name || d.inRange then some entries else none
  | list items => some (names.zip items)
  | moment => some []
  | _ => none

end Data

namespace Columns

def required {α : Type} (cols : Columns) (name : String) (read : Data → Option α) : Option α :=
  (cols.lookup name).bind read

/-- A column that may be missing; a wrong value still fails. -/
def optional {α : Type} (cols : Columns) (name : String) (read : Data → Option α) :
    Option (Option α) :=
  match cols.lookup name with
  | none => some none
  | some d => (read d).map some

def withDefault {α : Type} (cols : Columns) (name : String) (default : α)
    (read : Data → Option α) : Option α :=
  (cols.optional name read).map (·.getD default)

end Columns

end TriggerScript
