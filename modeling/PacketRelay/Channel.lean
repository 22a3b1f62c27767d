/-!
# Channels

The order in which a channel delivers packets, and whether it was found open or closed.
-/

namespace PacketRelay

inductive ChannelOrder where
  | unordered
  | ordered
  deriving DecidableEq, Repr

namespace ChannelOrder

/-- The number of an order in messages. -/
def code : ChannelOrder → UInt64
  | .unordered => 1
  | .ordered => 2

/-- The order with a number; zero stands for no order. -/
def ofCode? (n : UInt64) : Option ChannelOrder :=
  if n = 1 then some .unordered else if n = 2 then some .ordered else none

@[simp] theorem ofCode?_code (o : ChannelOrder) : ofCode? o.code = some o := by
  cases o <;> rfl

/-- The name of an order. -/
def name : ChannelOrder → String
  | .unordered => "unordered"
  | .ordered => "ordered"

end ChannelOrder

inductive ChannelState where
  | opened
  | closed
  deriving DecidableEq, Repr

end PacketRelay
