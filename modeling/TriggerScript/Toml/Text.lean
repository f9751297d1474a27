/-!
# TOML text

Blanks, comments, quoted strings and keys. Every reader takes the text from its place on and gives
back what follows, or nothing when the text is malformed.
-/

namespace TriggerScript.Toml

/-- Characters allowed in comments and on the lines of strings: all but control characters, with
the exception of the tab. -/
def isPlain (c : Char) : Bool := c = '\t' || (c.toNat ≥ 0x20 && c.toNat ≠ 0x7F)

def isSpace (c : Char) : Bool := c = ' ' || c = '\t'

def skipSpace (cs : List Char) : List Char := cs.dropWhile isSpace

def newline? : List Char → Option (List Char)
  | '\n' :: cs => some cs
  | '\r' :: '\n' :: cs => some cs
  | _ => none

/-- Skip spaces, newlines and comments; fails on a control character in a comment. -/
def skipBlank (inComment : Bool) : List Char → Option (List Char)
  | [] => some []
  | '\n' :: cs => skipBlank false cs
  | '\r' :: '\n' :: cs => skipBlank false cs
  | c :: cs =>
      if inComment then if isPlain c then skipBlank true cs else none
      else if isSpace c then skipBlank false cs
      else if c = '#' then skipBlank true cs
      else some (c :: cs)

/-- What follows the end of a line on which only a comment may be left. -/
def lineEnd? (cs : List Char) : Option (List Char) :=
  match skipSpace cs with
  | [] => some []
  | '#' :: cs => skipBlank true cs
  | cs => newline? cs

def hexDigit? (c : Char) : Option Nat :=
  if c.isDigit then some (c.toNat - '0'.toNat)
  else if 'a' ≤ c ∧ c ≤ 'f' then some (c.toNat - 'a'.toNat + 10)
  else if 'A' ≤ c ∧ c ≤ 'F' then some (c.toNat - 'A'.toNat + 10)
  else none

/-- The character with this hexadecimal number, surrogates excluded. -/
def hexChar? (digits : List Char) : Option Char := do
  let n ← digits.foldlM (fun n c => (hexDigit? c).map (n * 16 + ·)) 0
  if n.isValidChar then some (.ofNat n) else none

def escaped? : Char → Option Char
  | 'b' => some '\x08'
  | 't' => some '\t'
  | 'n' => some '\n'
  | 'f' => some '\x0c'
  | 'r' => some '\r'
  | '"' => some '"'
  | '\\' => some '\\'
  | _ => none

/-- The rest of a string on one line that knows escapes; `acc` holds what was read, reversed. -/
def basic (acc : List Char) : List Char → Option (String × List Char)
  | [] => none
  | '"' :: cs => some (.ofList acc.reverse, cs)
  | '\\' :: 'u' :: a :: b :: c :: d :: cs => do basic ((← hexChar? [a, b, c, d]) :: acc) cs
  | '\\' :: 'U' :: a :: b :: c :: d :: e :: f :: g :: h :: cs => do
      basic ((← hexChar? [a, b, c, d, e, f, g, h]) :: acc) cs
  | '\\' :: c :: cs => do basic ((← escaped? c) :: acc) cs
  | c :: cs => if isPlain c then basic (c :: acc) cs else none

/-- The rest of a string on one line without escapes. -/
def literal (acc : List Char) : List Char → Option (String × List Char)
  | [] => none
  | c :: cs =>
      if c = '\'' then some (.ofList acc.reverse, cs)
      else if isPlain c then literal (c :: acc) cs
      else none

/-- The rest of a string over several lines that knows escapes. Up to two quotes may stand before
the closing three. After a backslash at the end of a line `trim` holds until the next character
that is no blank. -/
def multilineBasic (trim : Bool) (acc : List Char) : List Char → Option (String × List Char)
  | [] => none
  | '"' :: '"' :: '"' :: '"' :: '"' :: cs => some (.ofList ('"' :: '"' :: acc).reverse, cs)
  | '"' :: '"' :: '"' :: '"' :: cs => some (.ofList ('"' :: acc).reverse, cs)
  | '"' :: '"' :: '"' :: cs => some (.ofList acc.reverse, cs)
  | '\\' :: 'u' :: a :: b :: c :: d :: cs => do
      multilineBasic false ((← hexChar? [a, b, c, d]) :: acc) cs
  | '\\' :: 'U' :: a :: b :: c :: d :: e :: f :: g :: h :: cs => do
      multilineBasic false ((← hexChar? [a, b, c, d, e, f, g, h]) :: acc) cs
  | '\\' :: c :: cs =>
      match escaped? c with
      | some e => multilineBasic false (e :: acc) cs
      | none => if (newline? (skipSpace (c :: cs))).isSome then multilineBasic true acc cs else none
  | '\r' :: '\n' :: cs => multilineBasic trim (if trim then acc else '\n' :: '\r' :: acc) cs
  | c :: cs =>
      if trim && (isSpace c || c = '\n') then multilineBasic true acc cs
      else if c = '\n' || isPlain c then multilineBasic false (c :: acc) cs
      else none

/-- The rest of a string over several lines without escapes. -/
def multilineLiteral (acc : List Char) : List Char → Option (String × List Char)
  | [] => none
  | '\'' :: '\'' :: '\'' :: '\'' :: '\'' :: cs => some (.ofList ('\'' :: '\'' :: acc).reverse, cs)
  | '\'' :: '\'' :: '\'' :: '\'' :: cs => some (.ofList ('\'' :: acc).reverse, cs)
  | '\'' :: '\'' :: '\'' :: cs => some (.ofList acc.reverse, cs)
  | '\r' :: '\n' :: cs => multilineLiteral ('\n' :: '\r' :: acc) cs
  | c :: cs => if c = '\n' || isPlain c then multilineLiteral (c :: acc) cs else none

/-- A string over several lines drops a newline right after its opening. -/
def afterOpening (cs : List Char) : List Char := (newline? cs).getD cs

def string? : List Char → Option (String × List Char)
  | '"' :: '"' :: '"' :: cs => multilineBasic false [] (afterOpening cs)
  | '"' :: cs => basic [] cs
  | '\'' :: '\'' :: '\'' :: cs => multilineLiteral [] (afterOpening cs)
  | '\'' :: cs => literal [] cs
  | _ => none

def isBareKey (c : Char) : Bool := c.isAlphanum || c = '_' || c = '-'

def key? : List Char → Option (String × List Char)
  | '"' :: cs => basic [] cs
  | '\'' :: cs => literal [] cs
  | cs =>
      match cs.takeWhile isBareKey with
      | [] => none
      | key => some (.ofList key, cs.dropWhile isBareKey)

/-- At most so many keys joined by dots: the path, its last key, and the text after it and its
spaces. -/
def keys? (limit : Nat) (path : List String) (cs : List Char) :
    Option (List String × String × List Char) :=
  match limit with
  | 0 => none
  | limit + 1 => do
      let (key, rest) ← key? cs
      match skipSpace rest with
      | '.' :: rest => keys? limit (path ++ [key]) (skipSpace rest)
      | rest => some (path, key, rest)

/-- Greatest nesting of what a document says at one place. -/
def maxDepth : Nat := 80

def path? (cs : List Char) : Option (List String × String × List Char) := keys? maxDepth [] cs

end TriggerScript.Toml
