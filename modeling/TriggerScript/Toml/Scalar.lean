import TriggerScript.Data
import TriggerScript.Decimal
import TriggerScript.Toml.Text

/-!
# TOML scalars

Booleans, integers, floats, dates and times.
-/

namespace TriggerScript.Toml

/-- Digits without the underscores between them. -/
def digits? (isDigit : Char → Bool) : List Char → Option (List Char)
  | [] => none
  | [c] => if isDigit c then some [c] else none
  | c :: '_' :: cs => if isDigit c then (digits? isDigit cs).map (c :: ·) else none
  | c :: cs => if isDigit c then (digits? isDigit cs).map (c :: ·) else none

/-- Whole digits of a decimal number, which start with a zero only when they are one. -/
def wholeDigits? (cs : List Char) : Option (List Char) := do
  let digits ← digits? Char.isDigit cs
  if digits.head? = some '0' ∧ digits.length > 1 then none else some digits

/-- An integer; beyond 128 bits, signed or unsigned, it has no value. -/
def integer (n : Int) : Data :=
  if -0x80000000000000000000000000000000 ≤ n ∧ n < 0x100000000000000000000000000000000 then
    .integer n
  else .outOfRange

/-- An unsigned integer in one of the bases with a mark. -/
def based? (base : Nat) (cs : List Char) : Option Data := do
  let digits ← digits? (fun c => (hexDigit? c).any (· < base)) cs
  some (integer (digits.foldl (fun n c => n * base + (hexDigit? c).getD 0) 0 : Nat))

def exponent? : List Char → Option Int
  | '+' :: cs => (digits? Char.isDigit cs).map fun ds => digitsValue ds
  | '-' :: cs => (digits? Char.isDigit cs).map fun ds => -digitsValue ds
  | cs => (digits? Char.isDigit cs).map fun ds => digitsValue ds

def isExponentMark (c : Char) : Bool := c = 'e' || c = 'E'

/-- A decimal number without its sign. A float needs a fraction or an exponent; one that would be
rounded to infinity has no value. -/
def decimal? (negative : Bool) (cs : List Char) : Option Data := do
  let coefficient := cs.takeWhile (!isExponentMark ·)
  let exponentText := cs.dropWhile (!isExponentMark ·)
  let whole ← wholeDigits? (coefficient.takeWhile (· ≠ '.'))
  let fractionText := coefficient.dropWhile (· ≠ '.')
  if exponentText.isEmpty ∧ fractionText.isEmpty then
    some (integer (if negative then -digitsValue whole else digitsValue whole))
  else do
    let fraction ← if fractionText.isEmpty then some [] else digits? Char.isDigit fractionText.tail
    let exponent ← if exponentText.isEmpty then some 0 else exponent? exponentText.tail
    let x := (Decimal.ofParts whole fraction exponent).toFloat
    some (if x.isInf then .outOfRange else .real (if negative then -x else x))

def infinity : Float := 1.0 / 0.0

def notANumber : Float := 0.0 / 0.0

def number? : List Char → Option Data
  | '+' :: cs => signed false cs
  | '-' :: cs => signed true cs
  | '0' :: 'x' :: cs => based? 16 cs
  | '0' :: 'o' :: cs => based? 8 cs
  | '0' :: 'b' :: cs => based? 2 cs
  | cs => signed false cs
where
  signed (negative : Bool) (cs : List Char) : Option Data :=
    if cs = ['i', 'n', 'f'] then some (.real (if negative then -infinity else infinity))
    else if cs = ['n', 'a', 'n'] then some (.real notANumber)
    else decimal? negative cs

def twoDigits? (a b : Char) : Option Nat :=
  if a.isDigit ∧ b.isDigit then some (digitsValue [a, b]) else none

def isLeapYear (year : Nat) : Bool := year % 4 = 0 && (year % 100 ≠ 0 || year % 400 = 0)

def daysOfMonth (year month : Nat) : Nat :=
  if month = 2 then if isLeapYear year then 29 else 28
  else if month = 4 ∨ month = 6 ∨ month = 9 ∨ month = 11 then 30
  else 31

/-- What follows a date. -/
def date? : List Char → Option (List Char)
  | y₁ :: y₂ :: y₃ :: y₄ :: '-' :: m₁ :: m₂ :: '-' :: d₁ :: d₂ :: cs => do
      let century ← twoDigits? y₁ y₂
      let year := century * 100 + (← twoDigits? y₃ y₄)
      let month ← twoDigits? m₁ m₂
      let day ← twoDigits? d₁ d₂
      if 1 ≤ month ∧ month ≤ 12 ∧ 1 ≤ day ∧ day ≤ daysOfMonth year month then some cs else none
  | _ => none

/-- What follows a time of day, with any fraction of its seconds. -/
def time? : List Char → Option (List Char)
  | h₁ :: h₂ :: ':' :: m₁ :: m₂ :: ':' :: s₁ :: s₂ :: cs => do
      let hour ← twoDigits? h₁ h₂
      let minute ← twoDigits? m₁ m₂
      let second ← twoDigits? s₁ s₂
      if hour ≤ 23 ∧ minute ≤ 59 ∧ second ≤ 60 then
        match cs with
        | '.' :: cs =>
            if (cs.takeWhile Char.isDigit).isEmpty then none else some (cs.dropWhile Char.isDigit)
        | cs => some cs
      else none
  | _ => none

/-- Whether the text is a distance from universal time of less than a day, or empty. -/
def isOffset : List Char → Bool
  | [] | ['Z'] | ['z'] => true
  | [sign, h₁, h₂, ':', m₁, m₂] =>
      (sign = '+' || sign = '-') &&
        match twoDigits? h₁ h₂, twoDigits? m₁ m₂ with
        | some hours, some minutes => hours ≤ 23 && minutes ≤ 59
        | _, _ => false
  | _ => false

/-- Whether the text is a time of day with at most an offset. -/
def isOffsetTime (cs : List Char) : Bool := (time? cs).any isOffset

/-- Whether the text is a date, a time, or both joined by a letter. -/
def isMoment (cs : List Char) : Bool :=
  match date? cs with
  | some [] => true
  | some (c :: cs) => (c = 'T' || c = 't') && isOffsetTime cs
  | none => time? cs = some []

def endsScalar (c : Char) : Bool :=
  isSpace c || c = '\n' || c = '\r' || c = ',' || c = ']' || c = '}' || c = '#'

/-- A scalar that is no string. A date may be followed by a space and its time. -/
def scalar? (cs : List Char) : Option (Data × List Char) :=
  let word := cs.takeWhile (!endsScalar ·)
  let rest := cs.dropWhile (!endsScalar ·)
  if word = ['t', 'r', 'u', 'e'] then some (.flag true, rest)
  else if word = ['f', 'a', 'l', 's', 'e'] then some (.flag false, rest)
  else if date? word = some [] then
    match rest with
    | ' ' :: c :: cs =>
        if c.isDigit then
          if isOffsetTime ((c :: cs).takeWhile (!endsScalar ·)) then
            some (.moment, cs.dropWhile (!endsScalar ·))
          else none
        else some (.moment, rest)
    | rest => some (.moment, rest)
  else if isMoment word then some (.moment, rest)
  else (number? word).map (·, rest)

end TriggerScript.Toml
