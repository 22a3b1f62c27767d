import PacketRelay.Decimal.Binary64
import PacketRelay.Text.Find
import PacketRelay.Toml.Text
import PacketRelay.Toml.Value

/-!
# TOML scalars

Truth values, numbers, dates and times of day.  None of them holds a blank, but for the one that may
stand between a date and a time.
-/

namespace PacketRelay.Toml

/-- Digits in groups with single underscores between them, without the underscores. -/
def ungroup? (isDigit : Char → Bool) (cs : List Char) : Option (List Char) :=
  let groups := Text.split '_' cs
  if groups.all fun g => !g.isEmpty && g.all isDigit then some groups.flatten else none

/-- The digits of a decimal number, which has no leading zeros. -/
def wholeDigits? (cs : List Char) : Option (List Char) := do
  let ds ← ungroup? Decimal.isDigit cs
  match ds with
  | '0' :: _ :: _ => none
  | _ => some ds

/-- Whether a text begins with a minus sign, and the text without its sign. -/
def signed : List Char → Bool × List Char
  | '-' :: rest => (true, rest)
  | '+' :: rest => (false, rest)
  | cs => (false, cs)

/-- An integer that fits in 64 bits with sign. -/
def fitting (n : Int) : Option Value :=
  if -0x8000000000000000 ≤ n ∧ n < 0x8000000000000000 then some (.integer n) else none

/-- The number with these digits in a base up to sixteen. -/
def inBase (base : Nat) (cs : List Char) : Option Value := do
  let isDigit (c : Char) : Bool := match hexValue? c with
    | some d => d < base
    | none => false
  let ds ← ungroup? isDigit cs
  fitting (ds.foldl (fun n c => n * base + (hexValue? c).getD 0) 0 : Nat)

def integer? : List Char → Option Value
  | '0' :: 'x' :: ds => inBase 16 ds
  | '0' :: 'o' :: ds => inBase 8 ds
  | '0' :: 'b' :: ds => inBase 2 ds
  | cs => do
    let (negative, body) := signed cs
    let n : Int := Decimal.valueOf (← wholeDigits? body)
    fitting (if negative then -n else n)

/-- An exponent without the letter before it. -/
def exponent? (cs : List Char) : Option Int := do
  let (negative, body) := signed cs
  let n : Int := Decimal.valueOf (← ungroup? Decimal.isDigit body)
  return if negative then -n else n

/-- The exponent at the end of a number, which may be absent. -/
def exponentPart? : List Char → Option Int
  | [] => some 0
  | 'e' :: rest => exponent? rest
  | 'E' :: rest => exponent? rest
  | _ => none

/-- A number with a fraction, an exponent or both.  One that is too large is refused. -/
def decimal? (negative : Bool) (cs : List Char) : Option Value := do
  let isWhole (c : Char) : Bool := Decimal.isDigit c || c = '_'
  let whole ← wholeDigits? (cs.takeWhile isWhole)
  let (fraction, rest) ← match cs.dropWhile isWhole with
    | '.' :: more => do
      pure (← ungroup? Decimal.isDigit (more.takeWhile isWhole), more.dropWhile isWhole)
    | rest => some ([], rest)
  if fraction.isEmpty && rest.isEmpty then none
  else
    let e ← exponentPart? rest
    let x := Decimal.Binary64.ofScientific negative (Decimal.valueOf (whole ++ fraction))
      (e - fraction.length)
    if x.isInf && 0 < x then none else some (.float x)

def float? (cs : List Char) : Option Value :=
  let (negative, body) := signed cs
  if body = "inf".toList then some (.float (Decimal.Binary64.infinity negative))
  else if body = "nan".toList then some (.float Decimal.Binary64.notANumber)
  else decimal? negative body

/-- Reads a number of exactly `width` digits within bounds. -/
def readField (width least greatest : Nat) (cs : List Char) : Option (Nat × List Char) :=
  let ds := cs.take width
  let n := Decimal.valueOf ds
  if ds.length = width && ds.all Decimal.isDigit && least ≤ n && n ≤ greatest then
    some (n, cs.drop width)
  else none

def isLeapYear (year : Nat) : Bool := year % 4 = 0 && (year % 100 ≠ 0 || year % 400 = 0)

def daysIn (year month : Nat) : Nat :=
  if month = 2 then if isLeapYear year then 29 else 28
  else if [4, 6, 9, 11].contains month then 30
  else 31

/-- A text after one character, which is dropped. -/
def after (c : Char) : List Char → Option (List Char)
  | [] => none
  | d :: rest => if d = c then some rest else none

/-- Reads a date; what has been read is a text of ten characters. -/
def readDate (cs : List Char) : Option (List Char × List Char) := do
  let (year, rest) ← readField 4 0 9999 cs
  let (month, rest) ← readField 2 1 12 (← after '-' rest)
  let (_, rest) ← readField 2 1 (daysIn year month) (← after '-' rest)
  return (cs.take 10, rest)

/-- Reads a time of day.  Of a fraction of a second, nine digits without trailing zeros count. -/
def readTime (cs : List Char) : Option (List Char × List Char) := do
  let (_, rest) ← readField 2 0 23 cs
  let (_, rest) ← readField 2 0 59 (← after ':' rest)
  let (_, rest) ← readField 2 0 60 (← after ':' rest)
  match rest with
  | '.' :: more =>
    let ds := more.takeWhile Decimal.isDigit
    if ds.isEmpty then none
    else
      let kept := ((ds.take 9).reverse.dropWhile (· = '0')).reverse
      some (cs.take 8 ++ (if kept.isEmpty then [] else '.' :: kept), more.dropWhile Decimal.isDigit)
  | rest => some (cs.take 8, rest)

/-- The distance of a time zone, which may be absent.  A distance of zero has a plus sign. -/
def zone? : List Char → Option (List Char)
  | [] => some []
  | ['Z'] => some ['Z']
  | ['z'] => some ['Z']
  | sign :: rest => do
    if sign ≠ '+' ∧ sign ≠ '-' then none
    let (hours, rest') ← readField 2 0 23 rest
    let (minutes, rest') ← readField 2 0 59 (← after ':' rest')
    if !rest'.isEmpty then none
    else if hours = 0 ∧ minutes = 0 then some ('+' :: rest)
    else some (sign :: rest)

/-- A date, a time of day, or both with or without a time zone. -/
def moment? (cs : List Char) : Option Value := do
  match readDate cs with
  | none =>
    let (time, rest) ← readTime cs
    if rest.isEmpty then some (.moment (String.ofList time)) else none
  | some (date, []) => some (.moment (String.ofList date))
  | some (date, separator :: rest) =>
    if ['T', 't', ' '].contains separator then
      let (time, rest) ← readTime rest
      some (.moment (String.ofList (date ++ 'T' :: time ++ (← zone? rest))))
    else none

def scalar? (cs : List Char) : Option Value :=
  if cs = "true".toList then some (.bool true)
  else if cs = "false".toList then some (.bool false)
  else integer? cs <|> float? cs <|> moment? cs

def isWordChar (c : Char) : Bool := c.isAlphanum || ['+', '-', '_', '.', ':'].contains c

/-- Reads a truth value, a number, a date or a time of day. -/
def readScalar (cs : List Char) : Option (Value × List Char) := do
  let word := cs.takeWhile isWordChar
  let rest := cs.dropWhile isWordChar
  match readDate word, rest with
  | some (_, []), ' ' :: c :: more =>
    if Decimal.isDigit c then
      let time := (c :: more).takeWhile isWordChar
      return (← scalar? (word ++ ' ' :: time), (c :: more).dropWhile isWordChar)
    else return (← scalar? word, rest)
  | _, _ => return (← scalar? word, rest)

end PacketRelay.Toml
