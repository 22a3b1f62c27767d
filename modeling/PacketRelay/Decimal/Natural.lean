/-!
# Decimal numerals

The numeral of a natural number, and the reading of unsigned numerals below a bound.  The reader
allows one leading plus sign and leading zeros, and reports the first position at which the text
stops being a numeral below the bound.
-/

namespace PacketRelay.Decimal

def digitChar (d : Nat) : Char := Char.ofNat (48 + d)

/-- The value of a decimal digit. -/
def digitValue? (c : Char) : Option Nat :=
  if '0' ≤ c ∧ c ≤ '9' then some (c.toNat - 48) else none

def isDigit (c : Char) : Bool := (digitValue? c).isSome

/-- The numeral of `n` without leading zeros. -/
def digits (n : Nat) : List Char :=
  if n < 10 then [digitChar n] else digits (n / 10) ++ [digitChar (n % 10)]

def text (n : Nat) : String := String.ofList (digits n)

/-- The numeral of an integer, with a minus sign when it is negative. -/
def integerText : Int → String
  | .ofNat n => text n
  | .negSucc n => "-" ++ text (n + 1)

/-- Why a text is no unsigned numeral below the bound. -/
inductive NumeralFault where
  | empty
  | notADigit
  | tooLarge
  deriving DecidableEq, Repr

def NumeralFault.message : NumeralFault → String
  | .empty => "cannot parse integer from empty string"
  | .notADigit => "invalid digit found in string"
  | .tooLarge => "number too large to fit in target type"

/-- Reads the remaining digits after those that denote `acc`. -/
def readDigits (bound : Nat) : (acc : Nat) → List Char → Except NumeralFault Nat
  | acc, [] => .ok acc
  | acc, c :: cs =>
    match digitValue? c with
    | none => .error .notADigit
    | some d =>
      if acc * 10 + d < bound then readDigits bound (acc * 10 + d) cs else .error .tooLarge

/-- Reads an unsigned numeral below `bound`. -/
def read (bound : Nat) : List Char → Except NumeralFault Nat
  | [] => .error .empty
  | ['+'] => .error .notADigit
  | '+' :: cs => readDigits bound 0 cs
  | cs => readDigits bound 0 cs

def readUInt64 (cs : List Char) : Except NumeralFault UInt64 :=
  (read (1 <<< 64) cs).map UInt64.ofNat

/-- Reads a whole number of 64 bits with sign. -/
def readInt64 : List Char → Option Int
  | '-' :: '+' :: _ => none
  | '-' :: ds => (read (1 <<< 63 + 1) ds).toOption.map fun n => -(n : Int)
  | ds => (read (1 <<< 63) ds).toOption.map fun n => (n : Int)

/-- The maximal runs of digits in a text, from left to right. -/
def runs (cs : List Char) : List (List Char) :=
  go [] cs
where
  /-- `run` holds the digits of the run being read, the last one first. -/
  go (run : List Char) : List Char → List (List Char)
    | [] => if run.isEmpty then [] else [run.reverse]
    | c :: cs =>
      if isDigit c then go (c :: run) cs
      else if run.isEmpty then go [] cs
      else run.reverse :: go [] cs

end PacketRelay.Decimal
