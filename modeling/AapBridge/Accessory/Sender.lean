import AapBridge.Accessory.Service

/-! # Frames of the accessory's sender thread

The header `sender` builds in four `char`s, and the payload behind it.
-/

namespace AapBridge.Accessory

def senderHeader (msg : MultiplexedMessage) : List UInt8 :=
  [lowByte msg.port.toInt, highByte msg.port.toInt, lowByte msg.size.toInt,
    highByte msg.size.toInt]

def senderBytes (msg : MultiplexedMessage) : List UInt8 := senderHeader msg ++ msg.data

@[simp] theorem senderHeader_length (msg : MultiplexedMessage) : (senderHeader msg).length = 4 := rfl

/-- The two `char`s of a `short` hold all of it. -/
theorem short_of_bytes (v : Short) :
    (lowByte v.toInt).toNat + 256 * (highByte v.toInt).toNat = v.toNat := by
  have hlt := v.isLt
  have hint := BitVec.toInt_eq_toNat_cond v
  have hlow : (lowByte v.toInt).toNat = (v.toInt % 256).toNat := by
    simp [lowByte]
    omega
  have hhigh : (highByte v.toInt).toNat = (v.toInt / 256 % 256).toNat := by
    simp [highByte]
    omega
  rw [hlow, hhigh]
  split at hint <;> omega

end AapBridge.Accessory
