import TriggerScript.Decimal

/-!
# Arguments

The words after the name of a request are options, which have a value each, and positional
arguments. An option is written `--name value`, `--name=value`, or with the first letter of its
name as `-n value`, `-nvalue` or `-n=value`. After `--` all words are positional.
-/

namespace TriggerScript.Console

inductive ArgumentError where
  | unknownRequest (word : String)
  | unknownOption (word : String)
  | unexpected (word : String)
  | repeated (option : String)
  | valueMissing (option : String)
  | argumentMissing (name : String)
  | invalidValue (name value : String)
deriving DecidableEq

def ArgumentError.message : ArgumentError → String
  | unknownRequest word => "error: unrecognized subcommand '" ++ word ++ "'"
  | unknownOption word | unexpected word => "error: unexpected argument '" ++ word ++ "' found"
  | repeated option => "error: the argument '--" ++ option ++ "' cannot be used multiple times"
  | valueMissing option =>
      "error: a value is required for '--" ++ option ++ "' but none was supplied"
  | argumentMissing name => "error: the required argument '" ++ name ++ "' was not provided"
  | invalidValue name value => "error: invalid value '" ++ value ++ "' for '" ++ name ++ "'"

/-- Words by their use, each part in the order of the line. -/
structure Arguments where
  options : List (String × String) := []
  positional : List String := []
deriving DecidableEq

/-- Words that cannot stand as a value or a positional argument; a lone dash can. -/
def isMarked (word : String) : Bool :=
  match word.toList with
  | '-' :: _ :: _ => true
  | _ => false

/-- The option that a marked word names, and the value attached to it. -/
def option? (names : List String) (word : String) : Option (String × Option String) :=
  match word.toList with
  | '-' :: '-' :: cs =>
      let value := cs.dropWhile (· ≠ '=')
      (names.find? (· == .ofList (cs.takeWhile (· ≠ '=')))).map
        (·, if value.isEmpty then none else some (.ofList value.tail))
  | '-' :: letter :: cs =>
      let value := if cs.head? = some '=' then cs.tail else cs
      (names.find? (·.toList.head? == some letter)).map
        (·, if cs.isEmpty then none else some (.ofList value))
  | _ => none

namespace Arguments

/-- Put an option before the others, unless it is among them. -/
def withOption (a : Arguments) (name value : String) : Except ArgumentError Arguments :=
  if (a.options.lookup name).isSome then .error (.repeated name)
  else .ok { a with options := (name, value) :: a.options }

/-- Sort the words of a request whose options have these names. -/
def sort (names : List String) : List String → Except ArgumentError Arguments
  | [] => .ok {}
  | word :: words =>
      if word = "--" then .ok { positional := words }
      else if isMarked word then
        match option? names word, words with
        | none, _ => .error (.unknownOption word)
        | some (name, some value), words => do (← sort names words).withOption name value
        | some (name, none), value :: words =>
            if isMarked value then .error (.valueMissing name)
            else do (← sort names words).withOption name value
        | some (name, none), [] => .error (.valueMissing name)
      else do
        let a ← sort names words
        .ok { a with positional := word :: a.positional }

def readValue {α : Type} (name : String) (read : String → Option α) (value : String) :
    Except ArgumentError α :=
  match read value with
  | some a => .ok a
  | none => .error (.invalidValue name value)

def option {α : Type} (a : Arguments) (name : String) (read : String → Option α) :
    Except ArgumentError (Option α) :=
  match a.options.lookup name with
  | none => .ok none
  | some value => (readValue name read value).map some

def optionD {α : Type} (a : Arguments) (name : String) (default : α) (read : String → Option α) :
    Except ArgumentError α :=
  (a.option name read).map (·.getD default)

def positional? {α : Type} (a : Arguments) (index : Nat) (name : String)
    (read : String → Option α) : Except ArgumentError (Option α) :=
  match a.positional[index]? with
  | none => .ok none
  | some value => (readValue name read value).map some

def positionalD {α : Type} (a : Arguments) (index : Nat) (name : String) (default : α)
    (read : String → Option α) : Except ArgumentError α :=
  (a.positional? index name read).map (·.getD default)

def required {α : Type} (a : Arguments) (index : Nat) (name : String) (read : String → Option α) :
    Except ArgumentError α := do
  match ← a.positional? index name read with
  | some value => .ok value
  | none => .error (.argumentMissing name)

end Arguments

def digits? (cs : List Char) : Option Nat :=
  if !cs.isEmpty && cs.all Char.isDigit then some (digitsValue cs) else none

def integer? (s : String) : Option Int :=
  match s.toList with
  | '-' :: cs => (digits? cs).map fun n => -(n : Int)
  | '+' :: cs => (digits? cs).map Int.ofNat
  | cs => (digits? cs).map Int.ofNat

def word? (s : String) : Option UInt32 := do
  let n ← integer? s
  if 0 ≤ n ∧ n < 0x100000000 then some (.ofNat n.toNat) else none

def signedLong? (s : String) : Option Int64 := do
  let n ← integer? s
  if -0x8000000000000000 ≤ n ∧ n < 0x8000000000000000 then some (.ofInt n) else none

/-- Numbers of the full width have no minus, not even before a zero. -/
def long? (s : String) : Option UInt64 := do
  let cs := s.toList
  let n ← digits? (if cs.head? = some '+' then cs.tail else cs)
  if n < 0x10000000000000000 then some (.ofNat n) else none

/-- The exponent of a number with its mark; 0 without one. -/
def exponent? : List Char → Option Int
  | [] => some 0
  | mark :: cs => if mark = 'e' ∨ mark = 'E' then integer? (.ofList cs) else none

/-- A decimal without a sign. Digits may be missing on one side of the point. -/
def decimal? (cs : List Char) : Option Decimal := do
  let whole := cs.takeWhile Char.isDigit
  let rest := cs.dropWhile Char.isDigit
  let (fraction, rest) :=
    if rest.head? = some '.' then
      (rest.tail.takeWhile Char.isDigit, rest.tail.dropWhile Char.isDigit)
    else ([], rest)
  if whole.isEmpty ∧ fraction.isEmpty then none
  else some (.ofParts whole fraction (← exponent? rest))

/-- The size of a number: a decimal, or one of the words for what is no finite number. -/
def size? (cs : List Char) : Option Float32 :=
  let lower := cs.map Char.toLower
  if lower = ['i', 'n', 'f'] ∨ lower = ['i', 'n', 'f', 'i', 'n', 'i', 't', 'y'] then
    some (1.0 / 0.0)
  else if lower = ['n', 'a', 'n'] then some (0.0 / 0.0)
  else (decimal? cs).map Decimal.toFloat32

def single? (s : String) : Option Float32 :=
  match s.toList with
  | '-' :: cs => (size? cs).map (-·)
  | '+' :: cs => size? cs
  | cs => size? cs

end TriggerScript.Console
