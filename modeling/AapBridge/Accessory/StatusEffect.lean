import AapBridge.Lib.HalfClose
import AapBridge.Accessory.Lifecycle
import AapBridge.Accessory.StatusTarget

/-! # What status operations do to one end of a port

An entry of the table as an end of a connection: a direction is open when the
entry is in use and its flag is set, so the cleanup, which resets the flags,
closes nothing and opens nothing.
-/

namespace AapBridge.Accessory

open AapBridge.Lib AapBridge.Lib.HalfClose AapBridge.Android

namespace BridgeConnection

def endOf (b : BridgeConnection) (p : Slot) : End where
  input := decide ((b.services p).port ≠ -1) && (b.services p).inputOpen
  output := decide ((b.services p).port ≠ -1) && (b.services p).outputOpen

theorem endOf_congr {b c : BridgeConnection} {p : Slot} (h : c.services p = b.services p) :
    c.endOf p = b.endOf p := by
  simp [endOf, h]

theorem Frame.endOf {b c : BridgeConnection} {p q : Slot} (h : b.Frame p c) (hq : q ≠ p) :
    c.endOf q = b.endOf q := endOf_congr (h q hq).1

theorem endOf_closeOutput (b : BridgeConnection) (p : Slot) :
    (b.closeOutput p).endOf p = (b.endOf p).sends .eof := by
  simp [endOf, closeOutput, End.sends]

theorem endOf_closeInput (b : BridgeConnection) (p : Slot) :
    (b.closeInput p).endOf p = (b.endOf p).sends .close := by
  simp [endOf, closeInput, End.sends]

/-- A cleanup does not show: both directions were closed, and stay so. -/
theorem endOf_cleanupIfClosed (b : BridgeConnection) (p : Slot) :
    (b.cleanupIfClosed p).endOf p = b.endOf p := by
  unfold cleanupIfClosed
  by_cases hclosed : (!(b.services p).inputOpen && !(b.services p).outputOpen) = true
  · rw [if_pos hclosed]
    have hflags : (b.services p).inputOpen = false ∧ (b.services p).outputOpen = false := by
      simpa using hclosed
    have hunused : (b.cleanupService p).services p = .unused := by
      simp [cleanupService]
    simp [endOf, hunused, hflags, BridgeService.unused]
  · rw [if_neg hclosed]

theorem sent_cleanupIfClosed (b : BridgeConnection) (p : Slot) :
    (b.cleanupIfClosed p).sent = b.sent := by
  unfold cleanupIfClosed cleanupService
  split
  · cases (b.services p).onCleanupService <;> rfl
  · rfl

/-- The message in which the accessory names port `p`. -/
def statusFrame (b : BridgeConnection) (p : Slot) (status : UInt8) : MultiplexedMessage :=
  ⟨BitVec.ofInt 16 (b.services portStatusService).port, 4,
    PortStatus.message (BitVec.ofNat 16 p) status⟩

/-- Both sides write the same four bytes. -/
theorem statusBuffer_eq (p : Slot) (status : UInt8) :
    [lowByte (p : Int), highByte (p : Int), status, 0] =
      PortStatus.message (BitVec.ofNat 16 p) status := by
  have hlow : lowByte (p : Int) = UInt8.ofNat p := by
    have hmod : ((p : Int) % 256).toNat = p.val % 256 := by omega
    rw [lowByte, hmod]
    exact UInt8.toNat_inj.mp (by simp)
  have hhigh : highByte (p : Int) = UInt8.ofNat (p / 256) := by
    have hmod : ((p : Int) / 256 % 256).toNat = p.val / 256 % 256 := by omega
    rw [highByte, hmod]
    exact UInt8.toNat_inj.mp (by simp)
  rw [message_bytes, hlow, hhigh]

theorem sendEof_effect {b : BridgeConnection} {p : Slot} (hport : (b.services p).port = p) :
    (b.sendEof p).endOf p = (b.endOf p).sends .eof ∧
      (b.sendEof p).sent = b.sent ++ [b.statusFrame p streamEof] := by
  have hstatus : ((b.closeOutput p).services portStatusService).port =
      (b.services portStatusService).port := by
    by_cases hp : portStatusService = p
    · subst hp
      simp [closeOutput]
    · simp [closeOutput, modify_services_ne _ hp]
  unfold sendEof sendStatus
  rw [endOf_cleanupIfClosed, sent_cleanupIfClosed]
  refine ⟨endOf_closeOutput b p, ?_⟩
  simp only [writeAllPort, hstatus, hport, statusBuffer_eq, statusFrame]
  rfl

theorem sendClose_effect {b : BridgeConnection} {p : Slot} (hport : (b.services p).port = p) :
    (b.sendClose p).endOf p = (b.endOf p).sends .close ∧
      (b.sendClose p).sent = b.sent ++ [b.statusFrame p streamClose] := by
  have hstatus : ((b.closeInput p).services portStatusService).port =
      (b.services portStatusService).port := by
    by_cases hp : portStatusService = p
    · subst hp
      simp [closeInput]
    · simp [closeInput, modify_services_ne _ hp]
  unfold sendClose sendStatus
  rw [endOf_cleanupIfClosed, sent_cleanupIfClosed]
  refine ⟨endOf_closeInput b p, ?_⟩
  simp only [writeAllPort, hstatus, hport, statusBuffer_eq, statusFrame]
  rfl

/-- The callback of a method service answers an EOF with its own; the others send nothing. -/
theorem callOnEof_effect {b c : BridgeConnection} {p : Slot} (hport : (b.services p).port = p)
    (h : b.callOnEof p = some c) :
    if (b.services p).onEof = some .methodOnEof then
      c.endOf p = (b.endOf p).sends .eof ∧ c.sent = b.sent ++ [b.statusFrame p streamEof]
    else c.endOf p = b.endOf p ∧ c.sent = b.sent := by
  unfold callOnEof at h
  cases hf : (b.services p).onEof with
  | none => simp [hf] at h
  | some f =>
      simp only [hf] at h
      cases f with
      | methodOnEof =>
          cases h
          rw [if_pos rfl]
          exact sendEof_effect (b := b.log p (.onEof .methodOnEof)) hport
      | bulkOnEof =>
          simp only [runOnEof, bulkOnEof] at h
          split at h
          · cases h
            rw [if_neg (by simp)]
            exact ⟨by simp [endOf], rfl⟩
          · cases h
      | _ =>
          cases h
          rw [if_neg (by simp)]
          exact ⟨rfl, rfl⟩

/-- The EOF and the CLOSE of the phone. -/
theorem portStatusSwitch_effect {b c : BridgeConnection} {p : Slot} {g : Signal}
    (hport : (b.services p).port = p)
    (h : b.portStatusSwitch p (PortStatus.message (BitVec.ofNat 16 p)
      (match g with | .eof => streamEof | .close => streamClose)) = some c) :
    if g = .eof ∧ (b.services p).onEof = some .methodOnEof then
      c.endOf p = ((b.endOf p).receives g).sends .eof ∧
        c.sent = b.sent ++ [b.statusFrame p streamEof]
    else c.endOf p = (b.endOf p).receives g ∧ c.sent = b.sent := by
  obtain ⟨status, d, hstatus, hd, rfl⟩ := portStatusSwitch_eq_some.mp h
  rw [message_bytes] at hstatus hd
  rw [endOf_cleanupIfClosed, sent_cleanupIfClosed]
  cases g with
  | close =>
      cases hstatus
      cases hd
      rw [if_neg (by simp)]
      exact ⟨endOf_closeOutput b p, rfl⟩
  | eof =>
      cases hstatus
      have hcall := callOnEof_effect (b := b.closeInput p) (c := d) (by simp [closeInput, hport]) hd
      have hsame : ((b.closeInput p).services p).onEof = (b.services p).onEof := by
        simp [closeInput]
      have hframe : (b.closeInput p).statusFrame p streamEof = b.statusFrame p streamEof := by
        by_cases hp : portStatusService = p
        · subst hp
          simp [statusFrame, closeInput]
        · simp [statusFrame, closeInput, modify_services_ne _ hp]
      rw [hsame, hframe, endOf_closeInput] at hcall
      simp only [true_and]
      exact hcall

/-! ## Which operations close an input -/

theorem accept_services {b c : BridgeConnection} {i : Slot} {f : OnBytesReceived}
    (h : b.accept i f = some c) : c.services = b.services := by
  unfold accept at h
  split at h
  · cases h
    rfl
  · cases h

/-- The payload has gone: `BulkOnBytesReceived` ends in `sendClose`. -/
def bulkWriteFails (b : BridgeConnection) (i : Slot) (buffer : List UInt8) (outcomes : List Int) :
    Bool :=
  match (b.services i).onBytesReceived, (b.services i).serviceData with
  | some .bulkOnBytesReceived, some (.bulk fd) =>
      ((bulkWrites fd buffer buffer.length outcomes).map Prod.snd).getD false
  | _, _ => false

end BridgeConnection

/-- The operation closes the input of slot `i`. -/
def Operation.ClosesInput (b : BridgeConnection) (i : Slot) : Operation → Prop
  | .sendClose j => j = i
  | .status target code => target = i ∧ code = streamEof
  | .data j buffer outcomes _ => j = i ∧ b.bulkWriteFails j buffer outcomes = true
  | .spawn _ _ | .sendEof _ => False

namespace BridgeConnection

theorem endOf_input_status {b b' : BridgeConnection} {i target : Slot} {code : UInt8}
    (h : perform b (.status target code) = some b') (hno : ¬(target = i ∧ code = streamEof)) :
    (b'.endOf i).input = (b.endOf i).input := by
  simp only [perform, Option.bind_eq_some_iff] at h
  obtain ⟨c, hc, h⟩ := h
  have hsame : ∀ j, c.endOf j = b.endOf j := fun j =>
    endOf_congr (congrFun (accept_services hc) j)
  split at h
  · cases h
    rw [hsame]
  · by_cases hi : i = target
    · subst hi
      obtain ⟨status, d, hstatus, hd, rfl⟩ := portStatusSwitch_eq_some.mp h
      cases hstatus
      rw [endOf_cleanupIfClosed, ← hsame]
      unfold portStatusCase at hd
      split at hd
      · next heof => exact absurd ⟨rfl, heof⟩ hno
      · split at hd
        · cases hd
          rw [endOf_closeOutput]
          rfl
        · obtain ⟨-, -, rfl⟩ := Option.map_eq_some_iff.mp hd
          rfl
    · rw [(frame_portStatusSwitch h).endOf hi, hsame]

theorem endOf_input_data {b b' : BridgeConnection} {i j : Slot} {buffer : List UInt8}
    {outcomes : List Int} {reply : List UInt8}
    (h : perform b (.data j buffer outcomes reply) = some b')
    (hno : ¬(j = i ∧ b.bulkWriteFails j buffer outcomes = true)) :
    (b'.endOf i).input = (b.endOf i).input := by
  have hsame : ∀ {c : BridgeConnection}, c.services = b.services → c.endOf i = b.endOf i :=
    fun hc => endOf_congr (congrFun hc i)
  simp only [perform] at h
  split at h
  · obtain ⟨c, hc, rfl⟩ := Option.map_eq_some_iff.mp h
    show (c.endOf i).input = _
    rw [hsame (accept_services hc)]
  · next hbulk =>
    obtain ⟨c, hc, h⟩ := Option.bind_eq_some_iff.mp h
    have hservices := accept_services hc
    rw [← hsame hservices]
    by_cases hi : i = j
    · subst hi
      unfold bulkOnBytesReceived at h
      split at h
      · next fd hfd =>
        obtain ⟨r, hr, rfl⟩ := Option.map_eq_some_iff.mp h
        rw [hservices] at hfd
        have hgoes : r.2 = false := by
          cases hr2 : r.2 with
          | false => rfl
          | true => exact absurd ⟨rfl, by simp [bulkWriteFails, hbulk, hfd, hr, hr2]⟩ hno
        rw [hgoes]
        rfl
      · cases h
    · rw [(frame_bulkOnBytesReceived h).endOf hi]
  · obtain ⟨c, hc, rfl⟩ := Option.map_eq_some_iff.mp h
    show (c.endOf i).input = _
    rw [hsame (accept_services hc)]
  · exact congrArg End.input (hsame (accept_services h))
  · cases h

/-- When the payload has gone, the slot's input is closed as by `sendClose`. -/
theorem endOf_bulkWriteFails {b b' : BridgeConnection} {i : Slot} {buffer : List UInt8}
    {outcomes : List Int} {reply : List UInt8} (hport : (b.services i).port = i)
    (h : perform b (.data i buffer outcomes reply) = some b')
    (hfails : b.bulkWriteFails i buffer outcomes = true) :
    b'.endOf i = (b.endOf i).sends .close := by
  unfold bulkWriteFails at hfails
  split at hfails
  · next fd hbulk hfd =>
    simp only [perform, hbulk] at h
    obtain ⟨c, hc, h⟩ := Option.bind_eq_some_iff.mp h
    have hservices := accept_services hc
    rw [← hservices] at hfd hport
    simp only [bulkOnBytesReceived, hfd] at h
    obtain ⟨r, hr, rfl⟩ := Option.map_eq_some_iff.mp h
    rw [hr] at hfails
    have hfailed : r.2 = true := hfails
    rw [if_pos hfailed, (sendClose_effect hport).1, endOf_congr (congrFun hservices i)]
  · cases hfails

/-- An input is closed by the operations that close it, and by no other. -/
theorem perform_endOf_input {b b' : BridgeConnection} (ht : Table b) {op : Operation} {i : Slot}
    (h : perform b op = some b') (hspawn : ∀ protocol, op ≠ .spawn i protocol)
    (hno : ¬op.ClosesInput b i) : (b'.endOf i).input = (b.endOf i).input := by
  cases op with
  | spawn j protocol =>
      have hij : i ≠ j := by
        rintro rfl
        exact hspawn protocol rfl
      simp only [perform, Option.bind_eq_some_iff] at h
      obtain ⟨c, hc, h⟩ := h
      split at h
      · cases h
        have hsame : ((c.allocate j).install j protocol).services i = c.services i := by
          simp [install, allocate, BridgeConnection.modify, hij]
        rw [accept_services hc] at hsame
        exact congrArg End.input (endOf_congr hsame)
      · cases h
  | status target code => exact endOf_input_status h hno
  | data j buffer outcomes reply => exact endOf_input_data h hno
  | sendEof j =>
      simp only [perform] at h
      split at h
      · cases h
      · next hocc =>
        cases h
        by_cases hij : i = j
        · subst hij
          rw [(sendEof_effect (ht.inUse hocc).port).1]
          rfl
        · rw [(frame_sendEof b j).endOf hij]
  | sendClose j =>
      simp only [perform] at h
      split at h
      · cases h
      · cases h
        have hij : i ≠ j := by
          rintro rfl
          exact hno rfl
        rw [(frame_sendClose b j).endOf hij]

end BridgeConnection

end AapBridge.Accessory
