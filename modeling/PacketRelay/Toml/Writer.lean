import PacketRelay.Decimal.Shortest
import PacketRelay.Text.Quoted
import PacketRelay.Toml.Value

/-!
# Writing TOML

Texts are written on one line with escapes if that needs no backslash, else literally, else on
several lines; numbers in positional notation.
-/

namespace PacketRelay.Toml

/-- The length of the longest run of a character. -/
def longestRun (c : Char) : (current : Nat) → List Char → Nat
  | current, [] => current
  | current, d :: rest =>
    if d = c then longestRun c (current + 1) rest else max current (longestRun c 0 rest)

/-- Whether a character can be written only by its number or by a letter after a backslash. -/
def isControl (c : Char) : Bool :=
  c ≠ '\t' && c ≠ '\n' && (c.toNat < 0x20 || c.toNat = 0x7F)

inductive Form where
  | basic
  | literal
  | longBasic
  | longLiteral
  deriving DecidableEq, Repr

namespace Form

/-- The first form in which a text needs no escapes, the tab apart. -/
def ofText (cs : List Char) : Form :=
  let controls := cs.any isControl
  let backslash := cs.contains '\\'
  let lines := cs.contains '\n'
  let doubles := longestRun '"' 0 cs
  let singles := longestRun '\'' 0 cs
  if !controls && !backslash && doubles = 0 && !lines then .basic
  else if !controls && singles = 0 && !lines then .literal
  else if !controls && !backslash && doubles ≤ 2 then .longBasic
  else if !controls && singles ≤ 2 then .longLiteral
  else if lines then .longBasic
  else .basic

def delimiter : Form → List Char
  | .basic => ['"']
  | .literal => ['\'']
  | .longBasic => ['"', '"', '"']
  | .longLiteral => ['\'', '\'', '\'']

def isLong : Form → Bool
  | .basic => false
  | .literal => false
  | .longBasic => true
  | .longLiteral => true

end Form

/-- The number of a character in four upper-case hexadecimal digits. -/
def codePoint (n : Nat) : List Char :=
  let ds := (Text.hexDigits n).map Char.toUpper
  List.replicate (4 - ds.length) '0' ++ ds

/-- A character in a text with escapes, other than a double quote. -/
def escape (long : Bool) (c : Char) : List Char :=
  if c = '\x08' then ['\\', 'b']
  else if c = '\t' then ['\\', 't']
  else if c = '\n' then if long then ['\n'] else ['\\', 'n']
  else if c = '\x0c' then ['\\', 'f']
  else if c = '\r' then ['\\', 'r']
  else if c = '\\' then ['\\', '\\']
  else if isControl c then ['\\', 'u'] ++ codePoint c.toNat
  else [c]

/-- A text with escapes.  No more than `allowed` double quotes stand in a row without a backslash;
`run` have gone before. -/
def escapeAll (long : Bool) (allowed : Nat) : (run : Nat) → List Char → List Char
  | _, [] => []
  | run, '"' :: rest =>
    if run < allowed then '"' :: escapeAll long allowed (run + 1) rest
    else '\\' :: '"' :: escapeAll long allowed 0 rest
  | _, c :: rest => escape long c ++ escapeAll long allowed 0 rest

/-- A text in one of the forms.  A long form with line breaks begins on a line of its own. -/
def writeForm (form : Form) (cs : List Char) : List Char :=
  let body := match form with
    | .basic => escapeAll false 0 0 cs
    | .longBasic => escapeAll true 2 0 cs
    | _ => cs
  let lead := if form.isLong && cs.contains '\n' then ['\n'] else []
  form.delimiter ++ lead ++ body ++ form.delimiter

def writeText (s : String) : String := String.ofList (writeForm (Form.ofText s.toList) s.toList)

/-- A key, without quotes if it holds only letters, digits, hyphens and underscores. -/
def writeKey (s : String) : String :=
  let cs := s.toList
  if !cs.isEmpty && cs.all (fun c => c.isAlphanum || c = '_' || c = '-') then s
  else
    let controls := cs.any fun c => isControl c || c = '\n'
    let form : Form :=
      if !controls && !cs.contains '\\' && !cs.contains '"' then .basic
      else if !controls && !cs.contains '\'' then .literal
      else .basic
    String.ofList (writeForm form cs)

/-- An integer that fits in 64 bits with sign. -/
def writeInteger? (n : Nat) : Option String := if n < 1 <<< 63 then some (Decimal.text n) else none

/-- A number with at least one decimal. -/
def writeFloat (x : Float) : String :=
  let text := Decimal.floatText x
  if x.isNaN then "nan"
  else if x.isInf || text.toList.contains '.' then text
  else text ++ ".0"

def writeBool (b : Bool) : String := if b then "true" else "false"

/-- A table with the parts of its name and its entries, which are written already. -/
def writeTable (path : List String) (entries : List (String × String)) : String :=
  "[" ++ String.intercalate "." (path.map writeKey) ++ "]\n"
    ++ String.join (entries.map fun (key, v) => writeKey key ++ " = " ++ v ++ "\n")

end PacketRelay.Toml
