import PacketRelay.Bytes

/-!
# TOML strings

The four kinds of strings: on one line or on several, with escapes or taken literally.
-/

namespace PacketRelay.Toml

/-- Whether a character may stand for itself in strings and comments: all but control characters,
among which the tab is allowed. -/
def isPlainChar (c : Char) : Bool := c = '\t' || (0x20 ≤ c.toNat && c.toNat ≠ 0x7F)

/-- The character with a number, unless it is a surrogate or too large. -/
def charOf? (n : Nat) : Option Char :=
  if h : n.isValidChar then some (Char.ofNatAux n h) else none

def hexValue? (c : Char) : Option Nat :=
  let n := c.toNat
  if 48 ≤ n ∧ n ≤ 57 then some (n - 48)
  else if 97 ≤ n ∧ n ≤ 102 then some (n - 87)
  else if 65 ≤ n ∧ n ≤ 70 then some (n - 55)
  else none

def charOfHex? (ds : List Char) : Option Char := do
  charOf? ((← ds.mapM hexValue?).foldl (fun n d => n * 16 + d) 0)

/-- The character that a letter after a backslash stands for. -/
def escaped? : Char → Option Char
  | 'b' => some '\x08'
  | 't' => some '\t'
  | 'n' => some '\n'
  | 'f' => some '\x0c'
  | 'r' => some '\r'
  | '"' => some '"'
  | '\\' => some '\\'
  | _ => none

/-- Puts a character before what has been read. -/
def before (c : Option Char) (r : Option (List Char × List Char)) :
    Option (List Char × List Char) := do
  let (text, rest) ← r
  return ((← c) :: text, rest)

/-- Reads a string with escapes on one line, after its opening quote. -/
def readBasic : List Char → Option (List Char × List Char)
  | [] => none
  | '"' :: rest => some ([], rest)
  | '\\' :: 'u' :: a :: b :: c :: d :: rest => before (charOfHex? [a, b, c, d]) (readBasic rest)
  | '\\' :: 'U' :: a :: b :: c :: d :: e :: f :: g :: h :: rest =>
    before (charOfHex? [a, b, c, d, e, f, g, h]) (readBasic rest)
  | '\\' :: c :: rest => before (escaped? c) (readBasic rest)
  | c :: rest => if isPlainChar c && c ≠ '\\' then before c (readBasic rest) else none

/-- Reads a literal string on one line, after its opening quote. -/
def readLiteral : List Char → Option (List Char × List Char)
  | [] => none
  | '\'' :: rest => some ([], rest)
  | c :: rest => if isPlainChar c then before c (readLiteral rest) else none

/-- What remains after the closing quotes of a string on several lines: up to two more quotes belong
to the text. -/
def closing (quote : Char) (rest : List Char) : List Char × List Char :=
  let extra := (rest.takeWhile (· = quote)).take 2
  (extra, rest.drop extra.length)

/-- A text without a line break at its beginning. -/
def dropLineBreak : List Char → List Char
  | '\n' :: rest => rest
  | '\r' :: '\n' :: rest => rest
  | cs => cs

/-- Whether only blanks stand before the end of the line. -/
def endsLine : List Char → Bool
  | '\n' :: _ => true
  | '\r' :: '\n' :: _ => true
  | ' ' :: rest => endsLine rest
  | '\t' :: rest => endsLine rest
  | _ => false

/-- Reads a string with escapes on several lines, after its opening quotes.  A backslash at the end
of a line joins it to the next text; `joining` says that this is going on. -/
def readLongBasic : (joining : Bool) → List Char → Option (List Char × List Char)
  | _, [] => none
  | joining, '\r' :: '\n' :: rest =>
    if joining then readLongBasic true rest else before '\n' (readLongBasic false rest)
  | joining, '\n' :: rest =>
    if joining then readLongBasic true rest else before '\n' (readLongBasic false rest)
  | _, '"' :: '"' :: '"' :: rest => some (closing '"' rest)
  | _, '\\' :: 'u' :: a :: b :: c :: d :: rest =>
    before (charOfHex? [a, b, c, d]) (readLongBasic false rest)
  | _, '\\' :: 'U' :: a :: b :: c :: d :: e :: f :: g :: h :: rest =>
    before (charOfHex? [a, b, c, d, e, f, g, h]) (readLongBasic false rest)
  | _, '\\' :: c :: rest =>
    if endsLine (c :: rest) then readLongBasic true (c :: rest)
    else before (escaped? c) (readLongBasic false rest)
  | joining, c :: rest =>
    if joining && (c = ' ' || c = '\t') then readLongBasic true rest
    else if isPlainChar c && c ≠ '\\' then before c (readLongBasic false rest) else none

/-- Reads a literal string on several lines, after its opening quotes. -/
def readLongLiteral : List Char → Option (List Char × List Char)
  | [] => none
  | '\'' :: '\'' :: '\'' :: rest => some (closing '\'' rest)
  | '\r' :: '\n' :: rest => before '\n' (readLongLiteral rest)
  | c :: rest => if isPlainChar c || c = '\n' then before c (readLongLiteral rest) else none

def readText : List Char → Option (String × List Char)
  | '"' :: '"' :: '"' :: rest => asText (readLongBasic false (dropLineBreak rest))
  | '\'' :: '\'' :: '\'' :: rest => asText (readLongLiteral (dropLineBreak rest))
  | cs => readShortText cs
where
  asText (r : Option (List Char × List Char)) : Option (String × List Char) :=
    r.map fun (text, rest) => (String.ofList text, rest)
  readShortText : List Char → Option (String × List Char)
    | '"' :: rest => asText (readBasic rest)
    | '\'' :: rest => asText (readLiteral rest)
    | _ => none

end PacketRelay.Toml
