import PacketRelay.Decimal.Natural
import PacketRelay.Text.Lowercase
import PacketRelay.Toml.Value

/-!
# Paths of settings

A path leads from a table to a part of a value in it, by keys after points and by positions in
brackets, as in `chains.gaia.key_name` or `metrics[2]`.  A value can be put under a path; what is
missing on the way is made.  The case of letters in keys does not matter: they are kept in lower
case.
-/

namespace PacketRelay

open Toml (Value Table)

/-- A step from a value to one of its parts. -/
inductive PathStep where
  | key (name : String)
  /-- A position in an array; a negative one counts from the end. -/
  | position (n : Int)
  deriving DecidableEq, Repr

/-- The steps from a table to a value. -/
abbrev SettingPath := List PathStep

namespace SettingPath

/-- Whether a character can stand in a key. -/
def isKeyChar (c : Char) : Bool := c.isAlphanum || c = ' ' || c = '_' || c = '-'

def readKey (cs : List Char) : Option (PathStep × List Char) :=
  let key := cs.takeWhile isKeyChar
  if key.isEmpty then none else some (.key (String.ofList key), cs.dropWhile isKeyChar)

def isSpace (c : Char) : Bool := c = ' ' || c = '\t'

/-- Reads a position after its bracket, and the closing bracket. -/
def readPosition (cs : List Char) : Option (PathStep × List Char) := do
  let cs := cs.dropWhile isSpace
  let isPart (c : Char) : Bool := c = '-' || Decimal.isDigit c
  let n ← Decimal.readInt64 (cs.takeWhile isPart)
  match (cs.dropWhile isPart).dropWhile isSpace with
  | ']' :: rest => return (.position n, rest)
  | _ => none

/-- Reads the steps after the first one; each takes a character, so `fuel` of them are enough for a
text of that length. -/
def readSteps : (fuel : Nat) → List Char → Option SettingPath
  | _, [] => some []
  | 0, _ => none
  | fuel + 1, '.' :: cs => do
    let (step, rest) ← readKey cs
    return step :: (← readSteps fuel rest)
  | fuel + 1, '[' :: cs => do
    let (step, rest) ← readPosition cs
    return step :: (← readSteps fuel rest)
  | _, _ => none

/-- The path that a text denotes; a text that denotes none is a key as a whole. -/
def ofText (s : String) : SettingPath :=
  let path : Option SettingPath := do
    let (step, rest) ← readKey s.toList
    return step :: (← readSteps rest.length rest)
  path.getD [.key s]

end SettingPath

namespace Toml

/-- The entries of a value; one that is no table has none. -/
def Value.entries : Value → Table
  | .table t => t
  | _ => []

/-- The items of a value; one that is no array has none. -/
def Value.items : Value → List Value
  | .array items => items
  | _ => []

/-- What stands where nothing has been put. -/
def Value.blank : Value := .array []

/-- What stands under a key. -/
def Table.at (t : Table) (key : String) : Value := (t.lookup key).getD .blank

mutual

/-- Puts a value under a key.  The entries of a table are put into what is there one by one. -/
def Table.merge (t : Table) (key : String) : Value → Table
  | .table entries =>
    t.put (Text.lower key) (((t.lookup (Text.lower key)).getD (.table [])).mergeAll entries)
  | v => t.put (Text.lower key) v

/-- Puts entries into a value.  Only if there are any, a value that is no table gives way to one. -/
def Value.mergeAll (v : Value) : List (String × Value) → Value
  | [] => v
  | (key, new) :: rest => Value.mergeAll (.table (Table.merge v.entries key new)) rest

end

/-- Changes the item at a position, which is made if it is not there. -/
def changeItem (f : Value → Value) (n : Int) (items : List Value) : List Value :=
  let index := if 0 ≤ n then n.toNat else items.length - n.natAbs
  let items := items ++ List.replicate (index + 1 - items.length) .blank
  items.modify index f

/-- Puts a value under a path.  A value on the way that has no such parts gives way to one that
has. -/
def Value.assign (new : Value) : SettingPath → Value → Value
  | [], _ => new
  | [.key name], v => .table (Table.merge v.entries name new)
  | .key name :: rest, v =>
    .table (v.entries.put (Text.lower name) (new.assign rest (v.entries.at (Text.lower name))))
  | .position n :: rest, v => .array (changeItem (new.assign rest) n v.items)

end Toml

end PacketRelay
