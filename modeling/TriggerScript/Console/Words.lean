/-!
# Words of a line

A line is split into words at blanks. Quotes and backslashes keep characters from being read as
anything but themselves, and a hash in front of a word starts a comment.
-/

namespace TriggerScript.Console

def isBlank (c : Char) : Bool :=
  let n := c.toNat
  (0x09 ≤ n && n ≤ 0x0D) || n == 0x20 || n == 0x85 || n == 0xA0 || n == 0x1680 ||
    (0x2000 ≤ n && n ≤ 0x200A) || n == 0x2028 || n == 0x2029 || n == 0x202F || n == 0x205F ||
    n == 0x3000

def trim (line : List Char) : List Char :=
  ((line.dropWhile isBlank).reverse.dropWhile isBlank).reverse

/-- How characters are read at a place of a line. -/
inductive Quoting where
  | bare
  | single
  | double
  | comment
deriving DecidableEq

def isSeparator (c : Char) : Bool := c = ' ' || c = '\t' || c = '\n'

/-- Characters that lose their meaning between double quotes after a backslash. -/
def isEscapable (c : Char) : Bool := c = '$' || c = '\x60' || c = '"' || c = '\\'

def wordOf (current : List Char) : String := .ofList current.reverse

/-- The words from a place on. `current` holds the characters read of the word at the place, in
reverse, and nothing between words. Fails at an open quote and at a backslash without a character
after it. -/
def wordsFrom (quoting : Quoting) (current : Option (List Char)) : List Char → Option (List String)
  | [] =>
      match quoting with
      | .bare | .comment => some (current.toList.map wordOf)
      | .single | .double => none
  | ['\\'] => if quoting = .comment then some [] else none
  | '\\' :: c :: cs =>
      let word := current.getD []
      match quoting with
      | .bare => wordsFrom .bare (some (if c = '\n' then word else c :: word)) cs
      | .single => wordsFrom .single (some ('\\' :: word)) (c :: cs)
      | .double =>
          wordsFrom .double
            (some (if c = '\n' then word
              else if isEscapable c then c :: word
              else c :: '\\' :: word)) cs
      | .comment => wordsFrom .comment none (c :: cs)
  | c :: cs =>
      let word := current.getD []
      match quoting with
      | .bare =>
          if isSeparator c then (wordsFrom .bare none cs).map (current.toList.map wordOf ++ ·)
          else if c = '#' ∧ current = none then wordsFrom .comment none cs
          else if c = '\'' then wordsFrom .single (some word) cs
          else if c = '"' then wordsFrom .double (some word) cs
          else wordsFrom .bare (some (c :: word)) cs
      | .single =>
          if c = '\'' then wordsFrom .bare current cs else wordsFrom .single (some (c :: word)) cs
      | .double =>
          if c = '"' then wordsFrom .bare current cs else wordsFrom .double (some (c :: word)) cs
      | .comment => wordsFrom (if c = '\n' then .bare else .comment) none cs

/-- The words of a line, unless a quote is left open. -/
def words? (line : List Char) : Option (List String) := wordsFrom .bare none line

end TriggerScript.Console
