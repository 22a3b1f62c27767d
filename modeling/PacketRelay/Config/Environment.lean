import PacketRelay.Config.Path
import PacketRelay.Config.Reader

/-!
# Configuration from the environment

Variables of the environment override what the file says.  The name of a variable is the path of a
setting, and its text is a number or a truth value if it reads as one.  As texts are all that the
environment has, values are converted freely, and letters may be in either case.
-/

namespace PacketRelay

open Toml (Value Table)

namespace Reading

/-- Words for a truth value. -/
def truthWord? (s : String) : Option Bool :=
  if ["true", "on", "yes"].contains (Text.lower s) then some true
  else if ["false", "off", "no"].contains (Text.lower s) then some false
  else none

/-- The natural number nearest to a number, a half going up, kept within 64 bits. -/
def rounded (x : Float) : Nat := Decimal.Binary64.truncate (1 <<< 64 - 1) x.round

/-- Values are converted to what a setting calls for. -/
def lenient : Reading where
  text
    | .text s => some s
    | .moment s => some s
    | .bool b => some (if b then "true" else "false")
    | .integer n => some (Decimal.integerText n)
    | .float x => some (Decimal.floatText x)
    | _ => none
  number bound v := (natural v).filter (· < bound)
  float
    | .float x => some x
    | .integer n => some (Decimal.Binary64.ofRatio (n < 0) n.natAbs 1)
    | .bool b => some (if b then 1 else 0)
    | .text s => match truthWord? s with
      | some b => some (if b then 1 else 0)
      | none => (Decimal.readFloat s.toList).toOption
    | _ => none
  bool
    | .bool b => some b
    | .integer n => some (n ≠ 0)
    | .float x => some (x != 0)
    | .text s => if s = "1" then some true else if s = "0" then some false else truthWord? s
    | _ => none
  signMode
    | .text s => SignMode.ofName? (Text.lower s)
    | .table [(name, _)] => SignMode.ofName? (Text.lower name)
    | _ => none
where
  natural : Value → Option Nat
    | .integer n => if 0 ≤ n then some n.toNat else none
    | .bool b => some b.toNat
    | .float x => some (rounded x)
    | .text s => match truthWord? s with
      | some b => some b.toNat
      | none => (Decimal.read (1 <<< 64) s.toList).toOption
    | _ => none

end Reading

namespace Environment

/-- With what the names of variables begin, in lower case. -/
def namePrefix : String := "relayer__"

/-- What the text of a variable reads as. -/
def valueOf (s : String) : Value :=
  if Text.lower s = "true" then .bool true
  else if Text.lower s = "false" then .bool false
  else match Decimal.readInt64 s.toList with
    | some n => .integer n
    | none => match Decimal.readFloat s.toList with
      | .ok x => .float x
      | .error _ => .text s

/-- A text in which points stand for double underscores. -/
def pointed : List Char → List Char
  | [] => []
  | '_' :: '_' :: rest => '.' :: pointed rest
  | c :: rest => c :: pointed rest

/-- The path of the setting that a variable overrides, if it is one for settings. -/
def path? (name : String) : Option SettingPath :=
  let lower := (Text.lower name).toList
  if namePrefix.toList.isPrefixOf lower then
    some (.ofText (String.ofList (pointed (lower.drop namePrefix.length))))
  else none

/-- Settings overridden by the variables of an environment. -/
def apply (environment : List (String × String)) (settings : Value) : Value :=
  environment.foldl (fun settings (name, text) =>
    match path? name with
    | none => settings
    | some path => (valueOf text).assign path settings) settings

end Environment

namespace Toml

/-- The key of a table that stands for a date or time, which is the text under it. -/
def momentKey : String := "$__toml_private_datetime"

mutual

/-- A value in which the tables that stand for dates are replaced by the dates. -/
def Value.withMoments? : Value → Option Value
  | .table ((key, v) :: rest) =>
    if key = momentKey then
      match v with
      | .text s => moment? s.toList
      | _ => none
    else do
      let v ← v.withMoments?
      return .table ((key, v) :: (← Value.entriesWithMoments? rest))
  | .array items => do return .array (← Value.itemsWithMoments? items)
  | v => some v

def Value.entriesWithMoments? : List (String × Value) → Option Table
  | [] => some []
  | (key, v) :: rest => do return (key, ← v.withMoments?) :: (← Value.entriesWithMoments? rest)

def Value.itemsWithMoments? : List Value → Option (List Value)
  | [] => some []
  | v :: rest => do return (← v.withMoments?) :: (← Value.itemsWithMoments? rest)

end

/-- The settings in a document, which must not stand for a date as a whole.  The keys at its top
level are paths. -/
def settings? (content : String) : Option Value := do
  let .table entries ← (Value.table (← parse? content)).withMoments? | none
  let add (settings : Value) : String × Value → Value
    | (key, v) => v.assign (.ofText key) settings
  return entries.foldl add (.table [])

end Toml

/-- The configuration in a file with this content, overridden by an environment. -/
def RelayerConfig.loadWith (environment : List (String × String)) :
    (content : Option String) → Except ConfigFault RelayerConfig
  | none => .error .unsuitable
  | some content => checked .unsuitable do
    Reading.lenient.config (Environment.apply environment (← Toml.settings? content)).entries

end PacketRelay
