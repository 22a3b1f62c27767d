import PacketRelay.Schema.Message
import PacketRelay.Text.Find
import PacketRelay.Text.Quoted

/-!
# Heights

A height is a revision number and a height within that revision, ordered by the revision first.
Its text is the two numerals with a hyphen between them.
-/

namespace PacketRelay

open Schema (Message)

structure Height where
  revisionNumber : UInt64
  revisionHeight : UInt64
  deriving DecidableEq, Repr, Inhabited

namespace Height

def zero : Height := ⟨0, 0⟩

def isZero (h : Height) : Bool := h.revisionNumber = 0 && h.revisionHeight = 0

instance : LT Height where
  lt a b := a.revisionNumber < b.revisionNumber
    ∨ a.revisionNumber = b.revisionNumber ∧ a.revisionHeight < b.revisionHeight

instance : LE Height where
  le a b := a.revisionNumber < b.revisionNumber
    ∨ a.revisionNumber = b.revisionNumber ∧ a.revisionHeight ≤ b.revisionHeight

instance (a b : Height) : Decidable (a < b) :=
  inferInstanceAs (Decidable (_ ∨ _ ∧ _))

instance (a b : Height) : Decidable (a ≤ b) :=
  inferInstanceAs (Decidable (_ ∨ _ ∧ _))

def chars (h : Height) : List Char :=
  Decimal.digits h.revisionNumber.toNat ++ '-' :: Decimal.digits h.revisionHeight.toNat

def text (h : Height) : String := String.ofList h.chars

/-- How a height is shown in logs. -/
def summary (h : Height) : String :=
  "Height \x7b revision_number: " ++ Decimal.text h.revisionNumber.toNat ++ ", revision_height: "
    ++ Decimal.text h.revisionHeight.toNat ++ " \x7d"

inductive ParseFault where
  | noHyphen (text : String)
  | badNumber (fault : Decimal.NumeralFault)
  | badHeight (fault : Decimal.NumeralFault)
  deriving DecidableEq, Repr

def ParseFault.message : ParseFault → String
  | .noHyphen text => "expected <revision>-<height>, got " ++ Text.quoted text
  | .badNumber fault => "invalid revision number: " ++ fault.message
  | .badHeight fault => "invalid revision height: " ++ fault.message

/-- Reads a height whose two numerals are separated by the first hyphen. -/
def parse (s : String) : Except ParseFault Height :=
  match Text.cutFirst? '-' s.toList with
  | none => .error (.noHyphen s)
  | some (number, height) =>
    match Decimal.readUInt64 number with
    | .error fault => .error (.badNumber fault)
    | .ok n =>
      match Decimal.readUInt64 height with
      | .error fault => .error (.badHeight fault)
      | .ok h => .ok ⟨n, h⟩

def toMessage (h : Height) : Message :=
  Message.ofNumber 1 h.revisionNumber ++ Message.ofNumber 2 h.revisionHeight

def ofMessage (m : Message) : Height := ⟨m.number 1, m.number 2⟩

/-- An absent height reads as zero. -/
def ofMessage? (m : Option Message) : Height := (m.map ofMessage).getD zero

end Height

end PacketRelay
