import AapBridge.Accessory.StatusEffect
import AapBridge.Android.PortStatus

/-! # The frames of one port in a queue

A queue holds the frames of every port. What it carries for one port is the data of
the frames on that port, in order; a status travels on port 0 and carries nothing.
-/

namespace AapBridge.Wire

open AapBridge.Lib AapBridge.Accessory
open AapBridge.Android hiding Short

def onPort (p : Slot) (msg : MultiplexedMessage) : Bool := slot? msg.port.toInt = some p

def framesOf (p : Slot) (frames : List MultiplexedMessage) : List MultiplexedMessage :=
  frames.filter (onPort p)

def dataOf (p : Slot) (frames : List MultiplexedMessage) : List UInt8 :=
  (framesOf p frames).flatMap (·.data)

theorem framesOf_append (p : Slot) (as bs : List MultiplexedMessage) :
    framesOf p (as ++ bs) = framesOf p as ++ framesOf p bs := List.filter_append ..

theorem dataOf_append (p : Slot) (as bs : List MultiplexedMessage) :
    dataOf p (as ++ bs) = dataOf p as ++ dataOf p bs := by
  rw [dataOf, framesOf_append, List.flatMap_append]
  rfl

theorem framesOf_singleton_off {p : Slot} {msg : MultiplexedMessage} (h : onPort p msg = false) :
    framesOf p [msg] = [] := by
  simp [framesOf, h]

theorem framesOf_cons_off {p : Slot} {msg : MultiplexedMessage} {rest : List MultiplexedMessage}
    (h : onPort p msg = false) : framesOf p (msg :: rest) = framesOf p rest := by
  simp [framesOf, h]

theorem dataOf_cons_on {p : Slot} {msg : MultiplexedMessage} {rest : List MultiplexedMessage}
    (h : onPort p msg = true) : dataOf p (msg :: rest) = msg.data ++ dataOf p rest := by
  simp [dataOf, framesOf, h]

theorem statusFrame_off {p : Slot} (hp : p ≠ portStatusService) (data : List UInt8) :
    onPort p ⟨0, 4, data⟩ = false := by
  apply decide_eq_false
  intro hslot
  have hzero : slot? (0 : BitVec 16).toInt = some portStatusService := by decide
  rw [hzero] at hslot
  exact hp (Option.some.inj hslot).symm

theorem dataFrame_on (p : Slot) (size : BitVec 16) (buffer : List UInt8) :
    onPort p ⟨BitVec.ofNat 16 p, size, buffer⟩ = true :=
  decide_eq_true ((slot_of_short p _).mpr rfl)

end AapBridge.Wire
