import Mathlib

/-! # Messages between the bridge and the phone

The value types shared by the accessory's queues, its service table and the
wire: C `short`s, ports and multiplexed messages.
-/

namespace AapBridge.Accessory

/-- A C `short` of the target, 16 bits; its value is `toInt`. -/
abbrev Short := BitVec 16

def maxPorts : Nat := 400

/-- Entries are received or sent whole; `data` holds the `size` bytes that were copied. -/
structure MultiplexedMessage where
  port : Short
  size : Short
  data : List UInt8
deriving DecidableEq

end AapBridge.Accessory
