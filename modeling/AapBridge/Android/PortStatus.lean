import AapBridge.Lib.HalfClose
import AapBridge.Accessory.Service
import AapBridge.Android.Port

/-! # The phone's port status service

`Port.close`, `Port.eof` and `PortStatus.onDataReady`, each as one step on the
ports and the entries of `activeServices`.
-/

namespace AapBridge.Android

open AapBridge.Lib
open AapBridge.Accessory (Slot slot?)

/-- `getShort` on a little-endian buffer. -/
def getShort (low high : UInt8) : Short := BitVec.ofNat 16 (ByteOrder.littleEndian.get [low, high])

theorem getShort_shortBytes (v : Short) :
    ∃ low high, shortBytes v = [low, high] ∧ getShort low high = v := by
  have hlen := shortBytes_length v
  match hbytes : shortBytes v, hlen with
  | [low, high], _ =>
      refine ⟨low, high, rfl, ?_⟩
      have hword := ByteOrder.word_put .littleEndian (n := 2) (by decide) v
      rw [getShort, ← hbytes]
      exact hword

theorem slot?_eq_some {port : Int} {i : Slot} : slot? port = some i ↔ port = i.val := by
  have hi := i.isLt
  unfold slot?
  constructor
  · intro h
    split at h
    · cases h
      show port = (port.toNat : Int)
      omega
    · cases h
  · intro h
    rw [dif_pos (by omega), Option.some.injEq, Fin.ext_iff]
    show port.toNat = i.val
    omega

/-- A `short` in range is the number of its entry. -/
theorem slot_of_short (p : Slot) (port : Short) :
    slot? port.toInt = some p ↔ port = BitVec.ofNat 16 p := by
  have hp := p.isLt
  have hmax : Accessory.maxPorts = 400 := rfl
  have hint : (BitVec.ofNat 16 p.val).toInt = p.val := by
    have hmod : p.val % 65536 = p.val := Nat.mod_eq_of_lt (by omega)
    rw [BitVec.toInt_eq_toNat_cond, BitVec.toNat_ofNat]
    simp only [Nat.reducePow, hmod]
    rw [if_pos (by omega)]
  rw [slot?_eq_some, ← hint, BitVec.toInt_inj]

/-- `activeServices i` tells whether the entry is not null; the service there is
the one whose port is `ports i`. -/
structure Phone where
  ports : Slot → Port
  activeServices : Slot → Bool

namespace Phone

def modify (ph : Phone) (p : Slot) (f : Port → Port) : Phone :=
  { ph with ports := Function.update ph.ports p (f (ph.ports p)) }

def cleanup (ph : Phone) (p : Slot) : Phone :=
  if PortStatus.cleanupTest (ph.ports p) then
    { ph with activeServices := Function.update ph.activeServices p false }
  else ph

/-- `Port.close`, and the payload it writes to port 0; it throws on a closed input. -/
def close (ph : Phone) (p : Slot) : Option (Phone × List UInt8) :=
  if (ph.ports p).inputOpen then
    some ((ph.modify p fun port => { port with inputOpen := false }).cleanup p,
      PortStatus.closeMessage (ph.ports p).portNr)
  else none

/-- `Port.eof`. -/
def eof (ph : Phone) (p : Slot) : Option (Phone × List UInt8) :=
  if (ph.ports p).outputOpen then
    some ((ph.modify p fun port => { port with outputOpen := false }).cleanup p,
      PortStatus.eofMessage (ph.ports p).portNr)
  else none

/-- The `switch` of `onDataReady` and the test behind it. -/
def statusSwitch (ph : Phone) (port : Slot) (status : UInt8) : Phone :=
  (if status = 3 then ph.modify port fun port => { port with inputOpen := false }
    else if status = 4 then ph.modify port fun port => { port with outputOpen := false }
    else ph).cleanup port

/-- `onDataReady` on a payload; one that is not 4 bytes long is an `Error`, and a
port outside `activeServices` an exception, which the receiver catches. -/
def onDataReady (ph : Phone) : List UInt8 → Option Phone
  | [low, high, status, _] =>
      match slot? (getShort low high).toInt with
      | none => some ph
      | some port => some (if ph.activeServices port then ph.statusSwitch port status else ph)
  | _ => none

/-! ## Flags and entries -/

def endOf (ph : Phone) (p : Slot) : HalfClose.End where
  input := (ph.ports p).inputOpen
  output := (ph.ports p).outputOpen

/-- What every step here does to port `p`: change its flags, then test. -/
theorem modify_cleanup (ph : Phone) (p : Slot) (f : Port → Port) :
    ((ph.modify p f).cleanup p).ports = Function.update ph.ports p (f (ph.ports p)) ∧
      ((ph.modify p f).cleanup p).activeServices =
        Function.update ph.activeServices p (ph.activeServices p && (f (ph.ports p)).inputOpen) := by
  have htest : PortStatus.cleanupTest ((ph.modify p f).ports p) = !(f (ph.ports p)).inputOpen := by
    simp [PortStatus.cleanupTest, modify]
  unfold cleanup
  rw [htest]
  cases hin : (f (ph.ports p)).inputOpen with
  | true => simp [modify, Function.update_eq_self]
  | false => simp [modify]

/-- A registered port: its number, an entry as long as a direction is open, and
an output that was closed no later than the input. -/
structure Tidy (ph : Phone) (p : Slot) : Prop where
  portNr : (ph.ports p).portNr = BitVec.ofNat 16 p
  entry : ph.activeServices p = ((ph.ports p).inputOpen || (ph.ports p).outputOpen)
  order : (ph.ports p).outputOpen = true → (ph.ports p).inputOpen = true

/-- Closing a direction keeps a port tidy if it does not close the input first. -/
theorem Tidy.modify_cleanup {ph : Phone} {p : Slot} (h : ph.Tidy p) {f : Port → Port}
    (hnr : (f (ph.ports p)).portNr = (ph.ports p).portNr)
    (hin : (f (ph.ports p)).inputOpen = true → (ph.ports p).inputOpen = true)
    (horder : (f (ph.ports p)).outputOpen = true → (f (ph.ports p)).inputOpen = true) :
    ((ph.modify p f).cleanup p).Tidy p := by
  obtain ⟨hports, hactive⟩ := ph.modify_cleanup p f
  constructor
  · rw [hports, Function.update_self, hnr, h.portNr]
  · rw [hports, hactive, Function.update_self, Function.update_self, h.entry]
    cases hi : (f (ph.ports p)).inputOpen with
    | true => simp [hin hi]
    | false =>
        cases ho : (f (ph.ports p)).outputOpen with
        | true => rw [horder ho] at hi; cases hi
        | false => simp
  · rw [hports, Function.update_self]
    exact horder

theorem Tidy.other {ph : Phone} {p q : Slot} (h : ph.Tidy q) (hq : q ≠ p) (f : Port → Port) :
    ((ph.modify p f).cleanup p).Tidy q := by
  obtain ⟨hports, hactive⟩ := ph.modify_cleanup p f
  constructor
  · rw [hports, Function.update_of_ne hq]
    exact h.portNr
  · rw [hports, hactive, Function.update_of_ne hq, Function.update_of_ne hq]
    exact h.entry
  · rw [hports, Function.update_of_ne hq]
    exact h.order

theorem endOf_modify_cleanup (ph : Phone) (p : Slot) (f : Port → Port) :
    ((ph.modify p f).cleanup p).endOf p =
      ⟨(f (ph.ports p)).inputOpen, (f (ph.ports p)).outputOpen⟩ := by
  simp [endOf, (ph.modify_cleanup p f).1]

theorem endOf_other (ph : Phone) {p q : Slot} (hq : q ≠ p) (f : Port → Port) :
    ((ph.modify p f).cleanup p).endOf q = ph.endOf q := by
  simp [endOf, (ph.modify_cleanup p f).1, hq]

/-! ## The four ways a direction closes -/

/-- One of the two flags of a port is cleared, by its owner or on a signal. -/
def clear (g : HalfClose.Signal) (own : Bool) (port : Port) : Port :=
  match g, own with
  | .eof, true | .close, false => { port with outputOpen := false }
  | .eof, false | .close, true => { port with inputOpen := false }

theorem Tidy.clear {ph : Phone} {p : Slot} (h : ph.Tidy p) {g : HalfClose.Signal} {own : Bool}
    (hfirst : (Phone.clear g own (ph.ports p)).inputOpen = false → (ph.ports p).inputOpen = true →
      (ph.ports p).outputOpen = false) :
    ((ph.modify p (Phone.clear g own)).cleanup p).Tidy p := by
  apply h.modify_cleanup
  · cases g <;> cases own <;> rfl
  · cases g <;> cases own <;> simp [Phone.clear]
  · have horder := h.order
    revert hfirst
    cases g <;> cases own <;> simp [Phone.clear]
    · cases ho : (ph.ports p).outputOpen <;> simp_all
    · cases ho : (ph.ports p).outputOpen <;> simp_all

theorem endOf_clear (ph : Phone) (p : Slot) (g : HalfClose.Signal) :
    ((ph.modify p (Phone.clear g true)).cleanup p).endOf p = (ph.endOf p).sends g ∧
      ((ph.modify p (Phone.clear g false)).cleanup p).endOf p = (ph.endOf p).receives g := by
  rw [endOf_modify_cleanup, endOf_modify_cleanup]
  cases g <;> exact ⟨rfl, rfl⟩

end Phone

end AapBridge.Android
