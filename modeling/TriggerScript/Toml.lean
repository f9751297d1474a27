import TriggerScript.Toml.Node
import TriggerScript.Toml.Scalar

/-!
# TOML documents

Reads a whole document into its root table. The grammar is that of TOML 1.0, with a bound on the
keys of a path and on the brackets inside one another.
-/

namespace TriggerScript.Toml

def elements (value : List Char → Option (Data × List Char)) (fuel : Nat) (items : List Data)
    (cs : List Char) : Option (List Data × List Char) :=
  match fuel with
  | 0 => none
  | fuel + 1 => do
      match ← skipBlank false cs with
      | ']' :: rest => some (items, rest)
      | cs => do
          let (item, rest) ← value cs
          match ← skipBlank false rest with
          | ',' :: rest => elements value fuel (items ++ [item]) rest
          | ']' :: rest => some (items ++ [item], rest)
          | _ => none

/-- A path of keys, an equals sign and a value. -/
def assignment? (value : List Char → Option (Data × List Char)) (cs : List Char) :
    Option (List String × String × Data × List Char) := do
  let (path, key, rest) ← path? cs
  match rest with
  | '=' :: rest => do
      let (d, rest) ← value (skipSpace rest)
      some (path, key, d, rest)
  | _ => none

/-- Entries of an inline table, of which there is at least one, and its closing brace. -/
def inlineEntries (value : List Char → Option (Data × List Char)) (fuel : Nat) (entries : Entries)
    (cs : List Char) : Option (Entries × List Char) :=
  match fuel with
  | 0 => none
  | fuel + 1 => do
      let (path, key, d, rest) ← assignment? value (skipSpace cs)
      let entries ← entries.assign path key d .header
      match skipSpace rest with
      | ',' :: rest => inlineEntries value fuel entries rest
      | '}' :: rest => some (entries, rest)
      | _ => none

/-- A value that opens at most `depth` brackets inside one another. -/
def value (depth : Nat) (cs : List Char) : Option (Data × List Char) :=
  match depth, cs with
  | _, '"' :: _ | _, '\'' :: _ => (string? cs).map fun (s, rest) => (.text s, rest)
  | depth + 1, '[' :: cs => do
      let (items, rest) ← elements (value depth) (cs.length + 1) [] cs
      some (.list items, rest)
  | depth + 1, '{' :: cs =>
      match skipSpace cs with
      | '}' :: rest => some (.table [], rest)
      | cs => do
          let (entries, rest) ← inlineEntries (value depth) (cs.length + 1) [] cs
          some (.table (entriesData entries), rest)
  | _, cs => scalar? cs

/-- The root table so far, and the header under which keys are set. -/
structure Document where
  root : Entries := []
  header : List String := []

namespace Document

def assign (doc : Document) (path : List String) (key : String) (value : Data) :
    Option Document := do
  let root ← doc.root.within false (Entries.assign path key value) doc.header .header
  some { doc with root }

def define (doc : Document) (path : List String) (key : String) : Option Document := do
  some { root := ← doc.root.define path key, header := path ++ [key] }

def append (doc : Document) (path : List String) (key : String) : Option Document := do
  some { root := ← doc.root.append path key, header := path ++ [key] }

/-- Take in one header or assignment, up to the end of its line. -/
def statement? (doc : Document) : List Char → Option (Document × List Char)
  | '[' :: '[' :: cs => do
      match ← path? (skipSpace cs) with
      | (path, key, ']' :: ']' :: rest) => do some (← doc.append path key, ← lineEnd? rest)
      | _ => none
  | '[' :: cs => do
      match ← path? (skipSpace cs) with
      | (path, key, ']' :: rest) => do some (← doc.define path key, ← lineEnd? rest)
      | _ => none
  | cs => do
      let (path, key, d, rest) ← assignment? (value maxDepth) cs
      some (← doc.assign path key d, ← lineEnd? rest)

/-- Take in all statements; each takes at least one character. -/
def statements? (fuel : Nat) (doc : Document) (cs : List Char) : Option Document :=
  match fuel with
  | 0 => none
  | fuel + 1 => do
      match ← skipBlank false cs with
      | [] => some doc
      | cs => do
          let (doc, rest) ← doc.statement? cs
          statements? fuel doc rest

end Document

/-- The root table of a document. A byte-order mark in front is skipped. -/
def parse? (text : String) : Option Data := do
  let cs := match text.toList with
    | '\uFEFF' :: cs => cs
    | cs => cs
  let doc ← Document.statements? (cs.length + 1) {} cs
  some (.table (entriesData doc.root))

end TriggerScript.Toml
