import TriggerScript.Decimal.Text
import TriggerScript.Form

/-!
# Listing texts of forms

Listings show a form as its title with the fields between braces.
-/

namespace TriggerScript

/-- A letter of the basic alphabet in upper case, where a word begins. -/
def capitalize : List Char → List Char
  | [] => []
  | c :: cs => c.toUpper :: cs

/-- A name of words joined by underscores as one word: `area_trigger` becomes `AreaTrigger`. -/
def titleOf (name : String) : String :=
  .ofList ((name.splitOn "_").flatMap fun word => capitalize word.toList)

/-- Named texts between braces. -/
def braced (fields : List (String × String)) : String :=
  "\x7b " ++ ", ".intercalate (fields.map fun (name, value) => name ++ ": " ++ value) ++ " \x7d"

/-- A title before its fields; without fields the title alone. -/
def titled (title : String) (fields : List (String × String)) : String :=
  if fields.isEmpty then title else title ++ " " ++ braced fields

def Handle.listing (h : Handle) : String := "EntityHandle(" ++ toString h.toNat ++ ")"

def Position.listing (p : Position) : String :=
  titled "Position"
    [("x", Single.text p.x), ("y", Single.text p.y), ("z", Single.text p.z), ("o", Single.text p.o)]

namespace Form

mutual

def text : Form → String
  | number n => toString n
  | flag b => if b then "true" else "false"
  | real x => Single.text x
  | handle h => Handle.listing h
  | option none => "None"
  | option (some value) => "Some(" ++ text value ++ ")"
  | list items => "[" ++ ", ".intercalate (texts items) ++ "]"
  | position p => p.listing
  | choice name => titleOf name
  | record fields => braced (fieldTexts fields)
  | tagged tag fields => titled (titleOf tag) (fieldTexts fields)
  | nested tag fields => titled (titleOf tag) (fieldTexts fields)

def texts : List Form → List String
  | [] => []
  | item :: items => text item :: texts items

def fieldTexts : List (String × Form) → List (String × String)
  | [] => []
  | (name, value) :: fields => (name, text value) :: fieldTexts fields

end

end Form

end TriggerScript
