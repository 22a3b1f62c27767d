import PacketRelay.Decimal.Natural

/-!
# Binary floating-point numbers of 64 bits

A nonnegative number is a significand times a power of two.  A ratio of natural numbers goes to
the nearest such number, a tie to the even significand, and what is too large goes to infinity;
all of it is computed on natural numbers.
-/

namespace PacketRelay.Decimal

namespace Binary64

/-- The bits of the largest finite number's successor. -/
def infinityBits : Nat := 0x7FF <<< 52

/-- `num / den` divided by `2 ^ e`, as a fraction. -/
def scaled (num den : Nat) (e : Int) : Nat × Nat :=
  match e with
  | .ofNat k => (num, den <<< k)
  | .negSucc k => (num <<< (k + 1), den)

/-- The natural number nearest to `num / den`, a tie going to the even one. -/
def roundHalfEven (num den : Nat) : Nat :=
  let q := num / den
  let r := num % den
  if 2 * r < den then q
  else if den < 2 * r then q + 1
  else if q % 2 = 0 then q else q + 1

/-- The exponent at which the significand of `num / den` has 53 bits, or the least exponent. -/
def exponent (num den : Nat) : Int :=
  let guess : Int := (num.log2 : Int) - den.log2 - 52
  let (n, d) := scaled num den guess
  max (-1074) (if n / d < 1 <<< 52 then guess - 1 else guess)

/-- The bits of the number nearest to `num / den`, for a positive `den`. -/
def ofRatioBits (num den : Nat) : Nat :=
  if num = 0 then 0
  else
    let e := exponent num den
    let (n, d) := scaled num den e
    let significand := roundHalfEven n d
    if significand < 1 <<< 52 then significand
    else min infinityBits ((e + 1075).toNat <<< 52 + (significand - 1 <<< 52))

/-- The number nearest to `num / den`, with its sign. -/
def ofRatio (negative : Bool) (num den : Nat) : Float :=
  let bits := ofRatioBits num den
  Float.ofBits (UInt64.ofNat (if negative then 1 <<< 63 + bits else bits))

def ofNat (n : Nat) : Float := ofRatio false n 1

def infinity (negative : Bool) : Float :=
  Float.ofBits (UInt64.ofNat (if negative then 1 <<< 63 + infinityBits else infinityBits))

def notANumber : Float := Float.ofBits 0x7FF8000000000000

/-- The number nearest to `m * 10 ^ e`.  Exponents beyond every finite number are cut off first. -/
def ofScientific (negative : Bool) (m : Nat) (e : Int) : Float :=
  if m = 0 then ofRatio negative 0 1
  else
    let size : Int := (digits m).length + e
    if 400 < size then infinity negative
    else if size < -400 then ofRatio negative 0 1
    else match e with
      | .ofNat k => ofRatio negative (m * Nat.pow 10 k) 1
      | .negSucc k => ofRatio negative m (Nat.pow 10 (k + 1))

/-- Significand and exponent of the magnitude of a finite number. -/
def significandExponent (x : Float) : Nat × Int :=
  let bits := x.toBits.toNat % 1 <<< 63
  let biased : Nat := bits >>> 52
  let fraction : Nat := bits % 1 <<< 52
  if biased = 0 then (fraction, -1074) else (1 <<< 52 + fraction, (biased : Int) - 1075)

def isNegative (x : Float) : Bool := 1 <<< 63 ≤ x.toBits.toNat

/-- The integral part, kept within `0` and `limit`; what is no number counts as zero. -/
def truncate (limit : Nat) (x : Float) : Nat :=
  if x.isNaN || isNegative x then 0
  else if x.isInf then limit
  else
    let (m, q) := significandExponent x
    min limit (match q with
      | .ofNat k => m <<< k
      | .negSucc k => m >>> (k + 1))

end Binary64

/-- Why a text is no floating-point literal. -/
inductive LiteralFault where
  | empty
  | malformed
  deriving DecidableEq, Repr

def LiteralFault.message : LiteralFault → String
  | .empty => "cannot parse float from empty string"
  | .malformed => "invalid float literal"

def valueOf (ds : List Char) : Nat := ds.foldl (fun n c => n * 10 + (digitValue? c).getD 0) 0

/-- An exponent: an optional sign and at least one digit. -/
def readExponent : List Char → Option Int
  | '-' :: ds => if !ds.isEmpty && ds.all isDigit then some (-(valueOf ds : Int)) else none
  | '+' :: ds => if !ds.isEmpty && ds.all isDigit then some (valueOf ds : Int) else none
  | ds => if !ds.isEmpty && ds.all isDigit then some (valueOf ds : Int) else none

/-- Digits, an optional point with more digits, and an optional exponent, with a digit on at least
one side of the point. -/
def readUnsignedFloat (negative : Bool) (cs : List Char) : Option Float :=
  let whole := cs.takeWhile isDigit
  let rest := cs.dropWhile isDigit
  let (fraction, rest) := match rest with
    | '.' :: more => (more.takeWhile isDigit, more.dropWhile isDigit)
    | _ => ([], rest)
  let exponent? := match rest with
    | [] => some 0
    | 'e' :: more => readExponent more
    | 'E' :: more => readExponent more
    | _ => none
  if whole.isEmpty && fraction.isEmpty then none
  else exponent?.map fun e =>
    Binary64.ofScientific negative (valueOf (whole ++ fraction)) (e - fraction.length)

/-- A signed literal, which may also be one of the names of infinity and of no number in any
letter case. -/
def readFloat (cs : List Char) : Except LiteralFault Float :=
  let signed (negative : Bool) (body : List Char) : Except LiteralFault Float :=
    let lower := body.map Char.toLower
    if lower = "inf".toList ∨ lower = "infinity".toList then .ok (Binary64.infinity negative)
    else if lower = "nan".toList then .ok Binary64.notANumber
    else match readUnsignedFloat negative body with
      | some x => .ok x
      | none => .error .malformed
  match cs with
  | [] => .error .empty
  | '-' :: body => signed true body
  | '+' :: body => signed false body
  | body => signed false body

end PacketRelay.Decimal
