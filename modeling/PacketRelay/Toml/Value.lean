/-!
# TOML values

What a TOML document denotes: a table of values under keys.
-/

namespace PacketRelay.Toml

inductive Value where
  | text (s : String)
  /-- A number of 64 bits with sign. -/
  | integer (n : Int)
  | float (x : Float)
  | bool (b : Bool)
  /-- A date, a time of day or both, as text. -/
  | moment (s : String)
  | array (items : List Value)
  | table (entries : List (String × Value))
  deriving Repr, Inhabited

/-- Values under distinct keys. -/
abbrev Table := List (String × Value)

/-- Puts a value under a key, in place of the one that was there, or at the end. -/
def Table.put (key : String) (v : Value) : Table → Table
  | [] => [(key, v)]
  | (k, old) :: rest => if k = key then (key, v) :: rest else (k, old) :: Table.put key v rest

theorem Table.lookup_put (t : Table) (key : String) (v : Value) :
    (t.put key v).lookup key = some v := by
  induction t with
  | nil => exact List.lookup_cons_self
  | cons e t ih =>
    by_cases he : e.1 = key
    · rw [put, if_pos he]
      exact List.lookup_cons_self
    · rw [put, if_neg he, List.lookup_cons, beq_eq_false_iff_ne.mpr (Ne.symm he)]
      exact ih

end PacketRelay.Toml
