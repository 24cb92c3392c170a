import AapBridge.Accessory.Incarnation
import AapBridge.Accessory.StatusEffect
import AapBridge.Android.PortStatus

/-! # Agreement of the two ends of a port

Phone and accessory closing the directions of any number of ports, and the
status messages between them. `Tested` is the condition under which the phone's
cleanup test, which reads the input flag twice, does what it is meant to, and
under which the accessory finds the port a message names. Where every step
meets it, each port follows the half-close protocol, so the ends agree whenever
no status message about the port is in flight.
-/

namespace AapBridge.Wire

open AapBridge.Lib AapBridge.Lib.HalfClose AapBridge.Accessory AapBridge.Android

/-- `bridge.sent` is on its way to the phone. -/
structure AgreementState where
  phone : Phone
  bridge : BridgeConnection
  toAccessory : List (List UInt8)

inductive AgreementLabel where
  /-- `Port.close` and `Port.eof` of the phone. -/
  | close (p : Slot)
  | eof (p : Slot)
  /-- The accessory's service on `p`. -/
  | sendEof (p : Slot)
  | sendClose (p : Slot)
  /-- The oldest message in this direction is handled. -/
  | toAccessory
  | toPhone

/-- A frame for port 0 reaches `PortStatusOnBytesReceived`. -/
def receiveStatus (b : BridgeConnection) (bytes : List UInt8) : Option BridgeConnection :=
  (b.accept portStatusService .portStatusOnBytesReceived).bind fun b =>
    b.portStatusOnBytesReceived bytes

/-- The table before an operation, whose events are its own. -/
def AgreementState.quiet (s : AgreementState) : BridgeConnection := { s.bridge with events := [] }

/-- `opened` are the ports that were opened on both sides. -/
def agreementStep (opened : Slot → Bool) (s : AgreementState) :
    AgreementLabel → Option AgreementState
  | .close p =>
      if opened p then
        (s.phone.close p).map fun r => { s with phone := r.1, toAccessory := s.toAccessory ++ [r.2] }
      else none
  | .eof p =>
      if opened p then
        (s.phone.eof p).map fun r => { s with phone := r.1, toAccessory := s.toAccessory ++ [r.2] }
      else none
  | .sendEof p =>
      if opened p then (perform s.quiet (.sendEof p)).map fun bridge => { s with bridge } else none
  | .sendClose p =>
      if opened p then (perform s.quiet (.sendClose p)).map fun bridge => { s with bridge } else none
  | .toAccessory =>
      match s.toAccessory with
      | [] => none
      | bytes :: rest =>
          (receiveStatus s.quiet bytes).map fun bridge => { s with bridge, toAccessory := rest }
  | .toPhone =>
      match s.bridge.sent with
      | [] => none
      | msg :: rest =>
          let bridge := { s.bridge with sent := rest }
          if msg.port = 0 then (s.phone.onDataReady msg.data).map fun phone => { s with phone, bridge }
          else some { s with bridge }

/-- Both directions of an opened port are open on both sides. -/
structure AgreementInit (opened : Slot → Bool) (s : AgreementState) : Prop where
  portNr : ∀ p, opened p = true → (s.phone.ports p).portNr = BitVec.ofNat 16 p
  phone : ∀ p, opened p = true → s.phone.endOf p = ⟨true, true⟩
  entry : ∀ p, opened p = true → s.phone.activeServices p = true
  table : Table s.bridge
  bridge : ∀ p, opened p = true → s.bridge.endOf p = ⟨true, true⟩
  statusPort : opened portStatusService = false
  status : (s.bridge.services portStatusService).port = 0
  sent : s.bridge.sent = []
  toAccessory : s.toAccessory = []

def agreement (opened : Slot → Bool) : Machine AgreementState AgreementLabel where
  init := AgreementInit opened
  step := agreementStep opened

/-! ## Status messages in flight -/

/-- The port and the signal of a status message. -/
def signalOf? : List UInt8 → Option (Slot × Signal)
  | [low, high, status, _] =>
      (slot? (getShort low high).toInt).bind fun p =>
        if status = 3 then some (p, .eof) else if status = 4 then some (p, .close) else none
  | _ => none

def signalsFor (p : Slot) (messages : List (List UInt8)) : List Signal :=
  keyed p (messages.filterMap signalOf?)

/-- No status message about `p` is in flight, in either direction. -/
def AgreementState.Quiet (s : AgreementState) (p : Slot) : Prop :=
  signalsFor p (s.bridge.sent.map (·.data)) = [] ∧ signalsFor p s.toAccessory = []

/-- Each direction of `p` is open on both sides or on neither, and the phone has
dropped its service exactly when the accessory has cleaned up the entry. -/
def AgreementState.Agrees (s : AgreementState) (p : Slot) : Prop :=
  (s.phone.ports p).inputOpen = (s.bridge.endOf p).output ∧
    (s.phone.ports p).outputOpen = (s.bridge.endOf p).input ∧
    (s.phone.activeServices p = false ↔ (s.bridge.services p).port = -1)

/-- The input of a port closes on the phone only when its output is closed, and
the low byte of a port the accessory reads is below 128. -/
def Tested (s : AgreementState) : AgreementLabel → Bool
  | .close p => !(s.phone.ports p).outputOpen
  | .toPhone =>
      match s.bridge.sent.head?.bind fun msg => signalOf? msg.data with
      | some (p, .eof) => !s.phone.activeServices p || !(s.phone.ports p).outputOpen
      | _ => true
  | .toAccessory =>
      match s.toAccessory.head?.bind signalOf? with
      | some (p, _) => decide (p.val % 256 < 128)
      | none => true
  | .eof _ | .sendEof _ | .sendClose _ => true

/-! ## Messages -/

def statusOf : Signal → UInt8
  | .eof => 3
  | .close => 4

/-- The message with which either side names `p`. -/
def signalMessage (p : Slot) (g : Signal) : List UInt8 :=
  PortStatus.message (BitVec.ofNat 16 p) (statusOf g)

theorem signalMessage_bytes (p : Slot) (g : Signal) :
    ∃ low high, signalMessage p g = [low, high, statusOf g, 0] ∧
      slot? (getShort low high).toInt = some p := by
  obtain ⟨low, high, hbytes, hshort⟩ := getShort_shortBytes (BitVec.ofNat 16 p)
  refine ⟨low, high, ?_, ?_⟩
  · simp [signalMessage, PortStatus.message, hbytes]
  · exact (slot_of_short p _).mpr hshort

theorem signalOf_message (p : Slot) (g : Signal) : signalOf? (signalMessage p g) = some (p, g) := by
  obtain ⟨low, high, hbytes, hslot⟩ := signalMessage_bytes p g
  rw [hbytes, signalOf?, hslot]
  cases g <;> rfl

theorem signalsFor_append (p : Slot) (as bs : List (List UInt8)) :
    signalsFor p (as ++ bs) = signalsFor p as ++ signalsFor p bs := by
  simp [signalsFor]

theorem signalsFor_message_self (p : Slot) (g : Signal) :
    signalsFor p [signalMessage p g] = [g] := by
  simp [signalsFor, signalOf_message]

theorem signalsFor_message_ne {p q : Slot} (h : q ≠ p) (g : Signal) :
    signalsFor p [signalMessage q g] = [] := by
  simp [signalsFor, signalOf_message, keyed_singleton_of_ne h]

theorem signalsFor_cons_self (p : Slot) (g : Signal) (rest : List (List UInt8)) :
    signalsFor p (signalMessage p g :: rest) = g :: signalsFor p rest := by
  rw [← List.singleton_append, signalsFor_append, signalsFor_message_self, List.singleton_append]

theorem signalsFor_cons_ne {p q : Slot} (h : q ≠ p) (g : Signal) (rest : List (List UInt8)) :
    signalsFor p (signalMessage q g :: rest) = signalsFor p rest := by
  rw [← List.singleton_append, signalsFor_append, signalsFor_message_ne h, List.nil_append]

/-! ## The invariant -/

structure AgreementInv (opened : Slot → Bool) (s : AgreementState) : Prop where
  phone : ∀ p, opened p = true → s.phone.Tidy p
  table : Table s.bridge
  statusPort : opened portStatusService = false
  status : (s.bridge.services portStatusService).port = 0
  toAccessory : ∀ bytes ∈ s.toAccessory, ∃ p g, opened p = true ∧ bytes = signalMessage p g
  toPhone : ∀ msg ∈ s.bridge.sent, msg.port = 0 ∧ ∃ p g, opened p = true ∧
    msg.data = signalMessage p g

/-- One port as a connection; the phone is its left end. -/
def connection (p : Slot) (s : AgreementState) : Connection where
  left := s.phone.endOf p
  right := s.bridge.endOf p
  toLeft := signalsFor p (s.bridge.sent.map (·.data))
  toRight := signalsFor p s.toAccessory


theorem connection_ext {p : Slot} {s : AgreementState} {c : Connection}
    (hleft : s.phone.endOf p = c.left) (hright : s.bridge.endOf p = c.right)
    (htoLeft : signalsFor p (s.bridge.sent.map (·.data)) = c.toLeft)
    (htoRight : signalsFor p s.toAccessory = c.toRight) : connection p s = c := by
  cases c
  simp_all [connection]

section Steps

variable {opened : Slot → Bool} {s : AgreementState}

theorem AgreementInv.inUse (h : AgreementInv opened s) {p : Slot}
    (hp : (s.bridge.services p).port ≠ -1) : (s.bridge.services p).port = p :=
  (h.table.inUse hp).port

/-- The phone closes a direction of `p` and tells the accessory. -/
theorem AgreementInv.phoneSends (h : AgreementInv opened s) {p : Slot} (hp : opened p = true)
    {g : Signal} (hfirst : (Phone.clear g true (s.phone.ports p)).inputOpen = false →
      (s.phone.ports p).inputOpen = true → (s.phone.ports p).outputOpen = false) :
    let t : AgreementState := { s with
      phone := (s.phone.modify p (Phone.clear g true)).cleanup p
      toAccessory := s.toAccessory ++ [signalMessage p g] }
    AgreementInv opened t ∧
      ∀ q, ∃ ls, halfClose.run (connection q s) ls = some (connection q t) := by
  intro t
  refine ⟨⟨?_, h.table, h.statusPort, h.status, ?_, h.toPhone⟩, ?_⟩
  · intro q hq
    by_cases hqp : q = p
    · subst hqp
      exact (h.phone q hq).clear hfirst
    · exact (h.phone q hq).other hqp _
  · intro bytes hbytes
    rcases List.mem_append.mp hbytes with hold | hnew
    · exact h.toAccessory bytes hold
    · exact ⟨p, g, hp, List.mem_singleton.mp hnew⟩
  · intro q
    by_cases hqp : q = p
    · subst hqp
      refine ⟨[.leftSends g], congrArg some (Eq.symm (connection_ext ?_ rfl rfl ?_))⟩
      · exact (s.phone.endOf_clear q g).1
      · show signalsFor q (s.toAccessory ++ [signalMessage q g]) = _
        rw [signalsFor_append, signalsFor_message_self]
        rfl
    · refine ⟨[], congrArg some (Eq.symm (connection_ext ?_ rfl rfl ?_))⟩
      · exact s.phone.endOf_other hqp _
      · show signalsFor q (s.toAccessory ++ [signalMessage p g]) = _
        rw [signalsFor_append, signalsFor_message_ne (Ne.symm hqp), List.append_nil]
        rfl

/-- The accessory's service on `p` closes a direction and tells the phone. -/
theorem AgreementInv.accessorySends (h : AgreementInv opened s) {p : Slot} (hp : opened p = true)
    {g : Signal} {b : BridgeConnection} (htable : Table b)
    (hframe : ∀ q, q ≠ p → b.services q = s.bridge.services q)
    (hend : b.endOf p = (s.bridge.endOf p).sends g)
    (hsent : b.sent = s.bridge.sent ++ [s.bridge.statusFrame p (statusOf g)]) :
    AgreementInv opened { s with bridge := b } ∧
      ∀ q, ∃ ls, halfClose.run (connection q s) ls = some (connection q { s with bridge := b }) := by
  have hne : portStatusService ≠ p := fun heq => by
    have hclosed := h.statusPort
    rw [heq, hp] at hclosed
    cases hclosed
  have hdata : (s.bridge.statusFrame p (statusOf g)).data = signalMessage p g := rfl
  refine ⟨⟨h.phone, htable, h.statusPort, ?_, h.toAccessory, ?_⟩, ?_⟩
  · show (b.services portStatusService).port = 0
    rw [hframe _ hne]
    exact h.status
  · intro msg hmsg
    rw [show ({ s with bridge := b } : AgreementState).bridge.sent = b.sent from rfl, hsent] at hmsg
    rcases List.mem_append.mp hmsg with hold | hnew
    · exact h.toPhone msg hold
    · rw [List.mem_singleton.mp hnew]
      refine ⟨?_, p, g, hp, hdata⟩
      simp [BridgeConnection.statusFrame, h.status]
  · intro q
    by_cases hqp : q = p
    · subst hqp
      refine ⟨[.rightSends g], congrArg some (Eq.symm (connection_ext rfl hend ?_ rfl))⟩
      show signalsFor q (b.sent.map _) = _
      rw [hsent, List.map_append, signalsFor_append, List.map_singleton, hdata,
        signalsFor_message_self]
      rfl
    · refine ⟨[], congrArg some (Eq.symm (connection_ext rfl ?_ ?_ rfl))⟩
      · exact BridgeConnection.endOf_congr (hframe q hqp)
      · show signalsFor q (b.sent.map _) = _
        rw [hsent, List.map_append, signalsFor_append, List.map_singleton, hdata,
          signalsFor_message_ne (Ne.symm hqp), List.append_nil]
        rfl

theorem End.receives_closed {e : End} (g : Signal) (hin : e.input = false)
    (hout : e.output = false) : e.receives g = e := by
  cases e
  cases g <;> simp_all [End.receives]

/-- The oldest message to the accessory, from the phone's port `p`. -/
theorem AgreementInv.accessoryReceives (h : AgreementInv opened s) {p : Slot} {g : Signal}
    {rest : List (List UInt8)} (hqueue : s.toAccessory = signalMessage p g :: rest)
    (hp : opened p = true) (hlow : p.val % 256 < 128) {b : BridgeConnection}
    (hb : receiveStatus s.quiet (signalMessage p g) = some b) :
    let t : AgreementState := { s with bridge := b, toAccessory := rest }
    AgreementInv opened t ∧
      ∀ q, ∃ ls, halfClose.run (connection q s) ls = some (connection q t) := by
  intro t
  have htarget : BridgeConnection.statusTarget (signalMessage p g) = some p := by
    rw [signalMessage, BridgeConnection.statusTarget_message, if_pos hlow]
  have hperform : perform s.quiet (.status p (statusOf g)) = some b := by
    have hsame : ∀ c : BridgeConnection, c.portStatusOnBytesReceived (signalMessage p g) =
        if (c.services p).port = -1 then some c
        else c.portStatusSwitch p [lowByte (p : Int), highByte (p : Int), statusOf g, 0] := by
      intro c
      rw [BridgeConnection.portStatusOnBytesReceived, htarget, signalMessage,
        ← BridgeConnection.statusBuffer_eq]
      rfl
    simp only [← hb, receiveStatus, perform, hsame]
  have hspec := perform_spec (b := s.quiet) h.table rfl hperform
  obtain ⟨c, hc, hcb⟩ := Option.bind_eq_some_iff.mp hb
  have haccept : c.services = s.bridge.services ∧ c.sent = s.bridge.sent := by
    unfold BridgeConnection.accept at hc
    split at hc
    · cases hc
      exact ⟨rfl, rfl⟩
    · cases hc
  simp only [BridgeConnection.portStatusOnBytesReceived, htarget, Option.bind_eq_bind,
    Option.bind_some] at hcb
  have hendc : ∀ q, c.endOf q = s.bridge.endOf q := fun q =>
    BridgeConnection.endOf_congr (by rw [haccept.1])
  have hne : portStatusService ≠ p := fun heq => by
    have hclosed := h.statusPort
    rw [heq, hp] at hclosed
    cases hclosed
  -- what the operation does, for a slot in use and for one already cleaned up
  have heffect : c.Frame p b ∧
      ((b.endOf p = (s.bridge.endOf p).receives g ∧ b.sent = s.bridge.sent) ∨
        (b.endOf p = ((s.bridge.endOf p).receives g).sends .eof ∧
          b.sent = s.bridge.sent ++ [s.bridge.statusFrame p streamEof])) := by
    rw [haccept.1] at hcb
    split at hcb
    · next hfree =>
      cases hcb
      refine ⟨.refl p _, .inl ⟨?_, haccept.2⟩⟩
      rw [hendc, End.receives_closed]
      · simp [BridgeConnection.endOf, hfree]
      · simp [BridgeConnection.endOf, hfree]
    · next hocc =>
      refine ⟨BridgeConnection.frame_portStatusSwitch hcb, ?_⟩
      have hport : (c.services p).port = p := by
        rw [haccept.1]
        exact h.inUse hocc
      have hswitch := BridgeConnection.portStatusSwitch_effect (g := g) hport
        (by cases g <;> exact hcb)
      have hframe : c.statusFrame p streamEof = s.bridge.statusFrame p streamEof := by
        simp [BridgeConnection.statusFrame, haccept.1]
      rw [hendc, haccept.2, hframe] at hswitch
      split at hswitch
      · exact .inr hswitch
      · exact .inl hswitch
  obtain ⟨hframe, hcourse⟩ := heffect
  refine ⟨⟨h.phone, hspec.table, h.statusPort, ?_, ?_, ?_⟩, ?_⟩
  · show (b.services portStatusService).port = 0
    rw [(hframe _ hne).1, haccept.1]
    exact h.status
  · intro bytes hbytes
    exact h.toAccessory bytes (by rw [hqueue]; exact List.mem_cons_of_mem _ hbytes)
  · intro msg hmsg
    rcases hcourse with ⟨-, hsent⟩ | ⟨-, hsent⟩
    · exact h.toPhone msg (hsent ▸ hmsg)
    · have hmsg' : msg ∈ s.bridge.sent ++ [s.bridge.statusFrame p streamEof] := hsent ▸ hmsg
      rcases List.mem_append.mp hmsg' with hold | hnew
      · exact h.toPhone msg hold
      · rw [List.mem_singleton.mp hnew]
        exact ⟨by simp [BridgeConnection.statusFrame, h.status], p, .eof, hp, rfl⟩
  · intro q
    by_cases hqp : q = p
    · subst hqp
      have hright : signalsFor q s.toAccessory = g :: signalsFor q rest := by
        rw [hqueue, signalsFor_cons_self]
      have hstep : HalfClose.step (connection q s) .rightReceives = some { connection q s with
          right := (s.bridge.endOf q).receives g, toRight := signalsFor q rest } := by
        simp [HalfClose.step, connection, hright]
      rcases hcourse with ⟨hend, hsent⟩ | ⟨hend, hsent⟩
      · refine ⟨[.rightReceives], ?_⟩
        rw [Machine.run_cons, show halfClose.step = HalfClose.step from rfl, hstep]
        refine congrArg some (Eq.symm (connection_ext rfl hend ?_ rfl))
        show signalsFor q (b.sent.map _) = _
        rw [hsent]
        rfl
      · refine ⟨[.rightReceives, .rightSends .eof], ?_⟩
        rw [Machine.run_cons, show halfClose.step = HalfClose.step from rfl, hstep]
        refine congrArg some (Eq.symm (connection_ext rfl hend ?_ rfl))
        show signalsFor q (b.sent.map _) = _
        rw [hsent, List.map_append, signalsFor_append, List.map_singleton]
        exact congrArg _ (signalsFor_message_self q .eof)
    · refine ⟨[], congrArg some (Eq.symm (connection_ext rfl ?_ ?_ ?_))⟩
      · show b.endOf q = _
        rw [hframe.endOf hqp, hendc]
        rfl
      · show signalsFor q (b.sent.map _) = _
        rcases hcourse with ⟨-, hsent⟩ | ⟨-, hsent⟩
        · rw [hsent]
          rfl
        · have hnil : signalsFor q [(s.bridge.statusFrame p streamEof).data] = [] :=
            signalsFor_message_ne (Ne.symm hqp) .eof
          rw [hsent, List.map_append, signalsFor_append, List.map_singleton, hnil, List.append_nil]
          rfl
      · show signalsFor q rest = signalsFor q s.toAccessory
        rw [hqueue, signalsFor_cons_ne (Ne.symm hqp)]

/-- The oldest message to the phone, about its port `p`. -/
theorem AgreementInv.phoneReceives (h : AgreementInv opened s) {p : Slot} {g : Signal}
    {msg : MultiplexedMessage} {rest : List MultiplexedMessage}
    (hqueue : s.bridge.sent = msg :: rest) (hdata : msg.data = signalMessage p g)
    (hp : opened p = true)
    (htested : g = .eof → s.phone.activeServices p = true → (s.phone.ports p).outputOpen = false)
    {phone : Phone} (hphone : s.phone.onDataReady msg.data = some phone) :
    let t : AgreementState := { s with phone, bridge := { s.bridge with sent := rest } }
    AgreementInv opened t ∧
      ∀ q, ∃ ls, halfClose.run (connection q s) ls = some (connection q t) := by
  intro t
  have hresult : phone = if s.phone.activeServices p then
      (s.phone.modify p (Phone.clear g false)).cleanup p else s.phone := by
    obtain ⟨low, high, hbytes, hslot⟩ := signalMessage_bytes p g
    rw [hdata, hbytes, Phone.onDataReady, hslot] at hphone
    cases hphone
    cases g <;> rfl
  have hend : phone.endOf p = (s.phone.endOf p).receives g := by
    rw [hresult]
    split
    · exact (s.phone.endOf_clear p g).2
    · next hinactive =>
      have hentry := (h.phone p hp).entry
      rw [Bool.not_eq_true] at hinactive
      rw [hinactive, eq_comm, Bool.or_eq_false_iff] at hentry
      exact (End.receives_closed g hentry.1 hentry.2).symm
  have hother : ∀ q, q ≠ p → phone.endOf q = s.phone.endOf q := by
    intro q hqp
    rw [hresult]
    split
    · exact s.phone.endOf_other hqp _
    · rfl
  refine ⟨⟨?_, h.table, h.statusPort, h.status, h.toAccessory, ?_⟩, ?_⟩
  · intro q hq
    show phone.Tidy q
    rw [hresult]
    split
    · next hactive =>
      by_cases hqp : q = p
      · subst hqp
        apply (h.phone q hq).clear
        intro hclosed hopen
        cases g with
        | eof => exact htested rfl hactive
        | close =>
            have hsame : (s.phone.ports q).inputOpen = false := hclosed
            rw [hsame] at hopen
            cases hopen
      · exact (h.phone q hq).other hqp _
    · exact h.phone q hq
  · intro m hm
    exact h.toPhone m (by rw [hqueue]; exact List.mem_cons_of_mem _ hm)
  · intro q
    by_cases hqp : q = p
    · subst hqp
      refine ⟨[.leftReceives], ?_⟩
      have hleft : signalsFor q (s.bridge.sent.map (·.data)) =
          g :: signalsFor q (rest.map (·.data)) := by
        rw [hqueue, List.map_cons, hdata, signalsFor_cons_self]
      have hstep : HalfClose.step (connection q s) .leftReceives = some { connection q s with
          left := (s.phone.endOf q).receives g, toLeft := signalsFor q (rest.map (·.data)) } := by
        simp [HalfClose.step, connection, hleft]
      rw [Machine.run_cons, show halfClose.step = HalfClose.step from rfl, hstep]
      exact congrArg some (Eq.symm (connection_ext hend rfl rfl rfl))
    · refine ⟨[], congrArg some (Eq.symm (connection_ext (hother q hqp) rfl ?_ rfl))⟩
      show signalsFor q (rest.map _) = signalsFor q (s.bridge.sent.map _)
      rw [hqueue, List.map_cons, hdata, signalsFor_cons_ne (Ne.symm hqp)]

/-- The runs in which every step meets the condition. -/
def tested (opened : Slot → Bool) : Machine AgreementState AgreementLabel :=
  (agreement opened).guard fun s a => Tested s a = true

theorem AgreementInv.initial (h : AgreementInit opened s) : AgreementInv opened s := by
  refine ⟨fun p hp => ?_, h.table, h.statusPort, h.status, ?_, ?_⟩
  · have hflags := h.phone p hp
    simp only [Phone.endOf, End.mk.injEq] at hflags
    refine ⟨h.portNr p hp, ?_, fun _ => hflags.1⟩
    rw [h.entry p hp, hflags.1]
    rfl
  · simp [h.toAccessory]
  · simp [h.sent]

theorem AgreementInv.step (h : AgreementInv opened s) {a : AgreementLabel} {t : AgreementState}
    (hstep : (tested opened).step s a = some t) :
    AgreementInv opened t ∧
      ∀ q, ∃ ls, halfClose.run (connection q s) ls = some (connection q t) := by
  obtain ⟨htested, hstep⟩ := Machine.guard_step.mp hstep
  cases a with
  | close p =>
      simp only [agreement, agreementStep] at hstep
      split at hstep
      · next hp =>
        obtain ⟨r, hr, rfl⟩ := Option.map_eq_some_iff.mp hstep
        unfold Phone.close at hr
        split at hr
        · cases hr
          rw [(h.phone p hp).portNr]
          apply h.phoneSends hp (g := .close)
          intro _ _
          simpa [Tested] using htested
        · cases hr
      · cases hstep
  | eof p =>
      simp only [agreement, agreementStep] at hstep
      split at hstep
      · next hp =>
        obtain ⟨r, hr, rfl⟩ := Option.map_eq_some_iff.mp hstep
        unfold Phone.eof at hr
        split at hr
        · cases hr
          rw [(h.phone p hp).portNr]
          apply h.phoneSends hp (g := .eof)
          intro hclosed hopen
          have hsame : (s.phone.ports p).inputOpen = false := hclosed
          rw [hsame] at hopen
          cases hopen
        · cases hr
      · cases hstep
  | sendEof p =>
      simp only [agreement, agreementStep] at hstep
      split at hstep
      · next hp =>
        obtain ⟨b, hb, rfl⟩ := Option.map_eq_some_iff.mp hstep
        have hspec := perform_spec (b := s.quiet) h.table rfl hb
        simp only [perform] at hb
        split at hb
        · cases hb
        · next hocc =>
          cases hb
          obtain ⟨hend, hsent⟩ := BridgeConnection.sendEof_effect (b := s.quiet) (h.inUse hocc)
          exact h.accessorySends hp (g := .eof) hspec.table
            (fun q hq => (BridgeConnection.frame_sendEof s.quiet p q hq).1) hend hsent
      · cases hstep
  | sendClose p =>
      simp only [agreement, agreementStep] at hstep
      split at hstep
      · next hp =>
        obtain ⟨b, hb, rfl⟩ := Option.map_eq_some_iff.mp hstep
        have hspec := perform_spec (b := s.quiet) h.table rfl hb
        simp only [perform] at hb
        split at hb
        · cases hb
        · next hocc =>
          cases hb
          obtain ⟨hend, hsent⟩ := BridgeConnection.sendClose_effect (b := s.quiet) (h.inUse hocc)
          exact h.accessorySends hp (g := .close) hspec.table
            (fun q hq => (BridgeConnection.frame_sendClose s.quiet p q hq).1) hend hsent
      · cases hstep
  | toAccessory =>
      simp only [agreement, agreementStep] at hstep
      cases hqueue : s.toAccessory with
      | nil => simp [hqueue] at hstep
      | cons bytes rest =>
          simp only [hqueue] at hstep
          obtain ⟨b, hb, rfl⟩ := Option.map_eq_some_iff.mp hstep
          obtain ⟨p, g, hp, rfl⟩ := h.toAccessory bytes (by rw [hqueue]; exact List.mem_cons_self)
          have hlow : p.val % 256 < 128 := by
            simpa [Tested, hqueue, signalOf_message] using htested
          exact h.accessoryReceives hqueue hp hlow hb
  | toPhone =>
      simp only [agreement, agreementStep] at hstep
      cases hqueue : s.bridge.sent with
      | nil => simp [hqueue] at hstep
      | cons msg rest =>
          obtain ⟨hport, p, g, hp, hdata⟩ :=
            h.toPhone msg (by rw [hqueue]; exact List.mem_cons_self)
          simp only [hqueue, hport, if_true] at hstep
          obtain ⟨phone, hphone, rfl⟩ := Option.map_eq_some_iff.mp hstep
          apply h.phoneReceives hqueue hdata hp _ hphone
          rintro rfl hactive
          simpa [Tested, hqueue, hdata, signalOf_message, hactive] using htested

theorem AgreementInv.reachable (h : (tested opened).Reachable s) : AgreementInv opened s := by
  apply h.invariant
  · intro t ht
    exact .initial ht
  · intro t a u ht hstep
    exact (ht.step hstep).1

/-- Every opened port follows the half-close protocol. -/
def followsHalfClose (opened : Slot → Bool) (p : Slot) (hp : opened p = true) :
    (tested opened).Simulation halfClose where
  map := connection p
  init t ht := connection_ext (ht.phone p hp) (ht.bridge p hp) (by rw [ht.sent]; rfl)
    (by rw [ht.toAccessory]; rfl)
  step _ _ _ ht hstep := ((AgreementInv.reachable ht).step hstep).2 p

theorem Table.cleaned_iff {b : BridgeConnection} (h : Table b) (p : Slot) :
    (b.services p).port = -1 ↔ b.endOf p = ⟨false, false⟩ := by
  constructor
  · intro hfree
    simp [BridgeConnection.endOf, hfree]
  · intro hclosed
    by_contra hocc
    have hopen := (h.inUse hocc).open_
    simp only [BridgeConnection.endOf, End.mk.injEq, Bool.and_eq_false_iff] at hclosed
    rcases hopen with ho | ho <;> simp [ho, hocc] at hclosed

end Steps

/-- In every run whose steps all meet the condition, with any number of ports
opened on both sides: when no status message about a port is in flight, its
directions are open on both sides or on neither, and the phone has dropped the
service exactly when the accessory has cleaned it up. -/
theorem ends_agree (opened : Slot → Bool) (s : AgreementState) (h : (tested opened).Reachable s)
    (p : Slot) (hp : opened p = true) (hquiet : s.Quiet p) : s.Agrees p := by
  have hinv := AgreementInv.reachable h
  obtain ⟨hin, hout⟩ := quiet_agree ((followsHalfClose opened p hp).reachable h) hquiet.1 hquiet.2
  have hin' : (s.phone.ports p).inputOpen = (s.bridge.endOf p).output := hin
  have hout' : (s.phone.ports p).outputOpen = (s.bridge.endOf p).input := hout
  refine ⟨hin', hout', ?_⟩
  rw [(hinv.phone p hp).entry, hin', hout', Table.cleaned_iff hinv.table]
  cases s.bridge.endOf p with
  | mk input output => cases input <;> cases output <;> simp

private def onlyThree (p : Slot) : Bool := p == ⟨3, three_inside⟩

private def openedThree : AgreementState where
  phone :=
    { ports := fun p => ⟨BitVec.ofNat 16 p, ByteBuffer.allocate 4, true, true⟩
      activeServices := onlyThree }
  bridge := (initServer.allocate ⟨3, three_inside⟩).install ⟨3, three_inside⟩ .bulk
  toAccessory := []

private theorem openedThree_init : (agreement onlyThree).init openedThree := by
  have honly : ∀ p, onlyThree p = true → p = ⟨3, by decide⟩ := fun p hp => by
    simpa [onlyThree] using hp
  constructor
  · intro p _
    rfl
  · intro p _
    rfl
  · intro p hp
    exact hp
  · exact Table.install LifecycleState.initial_table (by decide) .bulk
  · intro p hp
    rw [honly p hp]
    decide
  · decide
  · decide
  · rfl
  · rfl

private def outputFirst : List AgreementLabel :=
  [.eof ⟨3, three_inside⟩, .toAccessory, .sendEof ⟨3, three_inside⟩, .toPhone]

private theorem outputFirst_isSome : ((tested onlyThree).run openedThree outputFirst).isSome := by
  decide +kernel

/-- The output first, then the input: both ends are cleaned up. -/
theorem ends_agree_output_first :
    ∃ s : AgreementState, s.phone.activeServices ⟨3, by decide⟩ = false ∧
      s.Agrees ⟨3, by decide⟩ := by
  have hreach : (tested onlyThree).Reachable
      (((tested onlyThree).run openedThree outputFirst).get outputFirst_isSome) :=
    Machine.Reachable.of_run (M := tested onlyThree) openedThree_init outputFirst_isSome
  exact ⟨_, by decide +kernel, ends_agree onlyThree _ hreach ⟨3, by decide⟩ (by decide)
    ⟨by decide +kernel, by decide +kernel⟩⟩

private def inputFirst : List AgreementLabel := [.close ⟨3, three_inside⟩, .toAccessory]

private theorem inputFirst_isSome : ((agreement onlyThree).run openedThree inputFirst).isSome := by
  decide +kernel

/-- The phone's `close` alone drops the service, while the accessory's is in use. -/
theorem ends_disagree_input_first :
    ¬∀ (opened : Slot → Bool) (s : AgreementState), (agreement opened).Reachable s →
      ∀ p, opened p = true → s.Quiet p → s.Agrees p := by
  intro h
  have hreach : (agreement onlyThree).Reachable
      (((agreement onlyThree).run openedThree inputFirst).get inputFirst_isSome) :=
    .of_run openedThree_init inputFirst_isSome
  have hagrees := h onlyThree _ hreach ⟨3, by decide⟩ (by decide)
    ⟨by decide +kernel, by decide +kernel⟩
  have hdropped : (((agreement onlyThree).run openedThree inputFirst).get
      inputFirst_isSome).phone.activeServices ⟨3, by decide⟩ = false := by decide +kernel
  exact absurd (hagrees.2.2.mp hdropped) (by decide +kernel)

end AapBridge.Wire
