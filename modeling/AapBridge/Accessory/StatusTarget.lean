import AapBridge.Accessory.SlotHistory
import AapBridge.Android.Port

/-! # Which slot a status message hits

`PortStatusOnBytesReceived` puts the port together from two `int8_t`s. The sign
of the low byte spreads over the high one, so a port whose low byte is 128 or
more becomes negative and the entry read lies in front of `services[]`.
-/

namespace AapBridge.Accessory

open AapBridge.Lib AapBridge.Android

namespace BridgeConnection

/-- The port number the accessory rebuilds from the bytes of the phone. -/
theorem statusPort_shortBytes (p : Slot) :
    statusPort (UInt8.ofNat p) (UInt8.ofNat (p / 256)) =
      if p.val % 256 < 128 then (p : Int) else p.val % 256 - 256 := by
  revert p
  decide +kernel

theorem message_bytes (p : Slot) (status : UInt8) :
    PortStatus.message (BitVec.ofNat 16 p) status =
      [UInt8.ofNat p, UInt8.ofNat (p / 256), status, 0] := by
  have hp : p.val % 65536 = p.val := Nat.mod_eq_of_lt (p.isLt.trans (by decide))
  simp [PortStatus.message, shortBytes, ByteOrder.put, ByteOrder.arrange, bytesOf, List.range_succ, hp]

theorem statusTarget_message (p : Slot) (status : UInt8) :
    statusTarget (PortStatus.message (BitVec.ofNat 16 p) status) =
      if p.val % 256 < 128 then some p else none := by
  have htarget : statusTarget (PortStatus.message (BitVec.ofNat 16 p) status) =
      slot? (statusPort (UInt8.ofNat p) (UInt8.ofNat (p / 256))) := by
    rw [message_bytes]
    rfl
  rw [htarget, statusPort_shortBytes]
  by_cases hlow : p.val % 256 < 128
  · rw [if_pos hlow, if_pos hlow]
    simp [slot?]
  · rw [if_neg hlow, if_neg hlow, slot?, dif_neg]
    omega

/-- The message updates entry `p`, the way the switch does, and no other. -/
def Hits (b : BridgeConnection) (p : Slot) (buffer : List UInt8) : Prop :=
  statusTarget buffer = some p ∧
    b.portStatusOnBytesReceived buffer = b.portStatusSwitch p buffer ∧
    ∀ b', b.portStatusOnBytesReceived buffer = some b' → b.Frame p b'

theorem hits_message_iff (b : BridgeConnection) (p : Slot) (hopen : (b.services p).port ≠ -1)
    (status : UInt8) :
    b.Hits p (PortStatus.message (BitVec.ofNat 16 p) status) ↔ p.val % 256 < 128 := by
  constructor
  · rintro ⟨htarget, -, -⟩
    rw [statusTarget_message] at htarget
    by_contra hlow
    rw [if_neg hlow] at htarget
    cases htarget
  · intro hlow
    have htarget := statusTarget_message p status
    rw [if_pos hlow] at htarget
    have hswitch : b.portStatusOnBytesReceived (PortStatus.message (BitVec.ofNat 16 p) status) =
        b.portStatusSwitch p (PortStatus.message (BitVec.ofNat 16 p) status) := by
      simp [portStatusOnBytesReceived, htarget, hopen]
    refine ⟨htarget, hswitch, fun b' hb' => ?_⟩
    exact frame_portStatusSwitch (hswitch.symm.trans hb')

end BridgeConnection

/-- In every table, the EOF and the CLOSE of the phone for an open port `p` hit
`services[p]` and leave the other entries alone exactly when the low byte of the
port is below 128; for the other ports no entry of the table is reached. -/
theorem portStatus_hits_iff (b : BridgeConnection) (p : Slot) (hopen : (b.services p).port ≠ -1)
    (buffer : List UInt8)
    (hbuffer : buffer = PortStatus.eofMessage (BitVec.ofNat 16 p) ∨
      buffer = PortStatus.closeMessage (BitVec.ofNat 16 p)) :
    (b.Hits p buffer ↔ p.val % 256 < 128) ∧
      (¬p.val % 256 < 128 → b.portStatusOnBytesReceived buffer = none) := by
  have hmessage : ∃ status, buffer = PortStatus.message (BitVec.ofNat 16 p) status := by
    rcases hbuffer with h | h
    · exact ⟨3, h⟩
    · exact ⟨4, h⟩
  obtain ⟨status, rfl⟩ := hmessage
  refine ⟨b.hits_message_iff p hopen status, fun hlow => ?_⟩
  rw [BridgeConnection.portStatusOnBytesReceived, BridgeConnection.statusTarget_message,
    if_neg hlow]
  rfl

theorem portStatus_hits_iff_keepalive :
    initServer.Hits ⟨2, by decide⟩ (PortStatus.eofMessage 2) ∧ 2 % 256 < 128 := by
  have h := (portStatus_hits_iff initServer ⟨2, by decide⟩ (by decide) (PortStatus.eofMessage 2)
    (.inl rfl)).1
  exact ⟨h.mpr (by decide), by decide⟩

/-- A method service on port 128, and the phone's EOF for it. -/
theorem portStatus_misses_port_128 :
    ¬∀ (b : BridgeConnection) (p : Slot), (b.services p).port ≠ -1 →
      b.Hits p (PortStatus.eofMessage (BitVec.ofNat 16 p)) ∧
        b.Hits p (PortStatus.closeMessage (BitVec.ofNat 16 p)) := by
  intro h
  have hits := (h ((initServer.allocate ⟨128, by decide⟩).install ⟨128, by decide⟩ .method)
    ⟨128, by decide⟩ (by decide)).1.1
  exact absurd hits (by decide)

end AapBridge.Accessory
