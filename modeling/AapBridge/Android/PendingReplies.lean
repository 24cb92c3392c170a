import AapBridge.Android.DbusMessage
import AapBridge.Android.LostConnection
import AapBridge.Android.Registration

/-! # Replies that are outstanding when an object is closed

Calls on one `DbusMethods` object, the frames that come back for them, and
`close`, among all that happens to the receiver thread and to other services. The
input is cleared and the entry dropped at once, whatever has not come yet. If the
input is cleared only when every reply has been passed to the handler, and no
reply is sent after that, none is lost.
-/

namespace AapBridge.Android

open AapBridge.Lib
open AapBridge.Accessory (Slot slot? MultiplexedMessage)

/-- A `DbusMethods` object, its port and the number of that port. -/
structure MethodsObject (Sid P : Type*) where
  service : Sid
  port : P
  portNr : Slot

/-- `calls` counts the method calls, `replies` are the frames sent for them and
`passed` the messages for the handler. -/
structure ClosingState (Tid Sid P : Type*) where
  base : ReceivingState Tid Sid P
  calls : Nat
  replies : List MultiplexedMessage
  passed : List DbusMessage

inductive ClosingLabel (Tid Sid P : Type*) where
  | call
  /-- The accessory sends a frame for one of the calls. -/
  | reply (msg : MultiplexedMessage)
  | base (label : ReceivingLabel Tid Sid P)

variable {Tid Sid P : Type*}

section

variable [DecidableEq Tid] [DecidableEq Sid] [DecidableEq P]

namespace ClosingState

variable (object : MethodsObject Sid P) (s : ClosingState Tid Sid P)

/-- While the input is open nothing but replies comes on the port, and no other
service is given its number. -/
def Apart : ReceivingLabel Tid Sid P → Prop
  | .arrive msg => slot? msg.port.toInt = some object.portNr →
      (s.base.ports object.port).inputOpen = false
  | .register i _ => i = object.portNr → (s.base.ports object.port).inputOpen = false
  | _ => True

def apart : ReceivingLabel Tid Sid P → Bool
  | .arrive msg => slot? msg.port.toInt ≠ some object.portNr || !(s.base.ports object.port).inputOpen
  | .register i _ => i ≠ object.portNr || !(s.base.ports object.port).inputOpen
  | _ => true

omit [DecidableEq Tid] [DecidableEq Sid] [DecidableEq P] in
theorem apart_iff (label : ReceivingLabel Tid Sid P) : s.apart object label = true ↔ s.Apart object label := by
  cases label <;> simp [apart, Apart, imp_iff_not_or]

instance (label : ReceivingLabel Tid Sid P) : Decidable (s.Apart object label) :=
  decidable_of_iff _ (apart_iff object s label)

/-- A step of the receiver; the decoder is given `n` steps. -/
def receive (n : Nat) : Option (ClosingState Tid Sid P) :=
  (s.base.receive n).bind fun base =>
    match s.base.receiver with
    | .handle service bytes =>
        if service = object.service then
          match DbusMessage.new bytes n with
          | .returns dbusMessage _ => some { s with base, passed := s.passed ++ [dbusMessage] }
          | .throws _ | .error _ => some { s with base }
          | .runs => none
        else some { s with base }
    | _ => some { s with base }

def step : ClosingLabel Tid Sid P → Option (ClosingState Tid Sid P)
  | .call =>
      if (s.base.ports object.port).outputOpen then some { s with calls := s.calls + 1 } else none
  | .reply msg =>
      if s.replies.length < s.calls ∧ slot? msg.port.toInt = some object.portNr then
        (s.base.step (.arrive msg)).map fun base => { s with base, replies := s.replies ++ [msg] }
      else none
  | .base (.receive n) => s.receive object n
  | .base label =>
      if s.Apart object label then (s.base.step label).map fun base => { s with base } else none

end ClosingState

/-- The constructor has just returned. -/
structure ClosingInit (object : MethodsObject Sid P) (s : ClosingState Tid Sid P) : Prop where
  base : tested.Reachable s.base
  running : s.base.receiver ≠ .stopped
  kind : s.base.kind object.service = .dbusMethods
  port : s.base.port object.service = some object.port
  inputOpen : (s.base.ports object.port).inputOpen = true
  entry : ∀ i, s.base.activeServices i = some object.service ↔ i = object.portNr
  serving : s.base.receiver.serving ≠ some object.service
  coming : ∀ msg ∈ s.base.coming, slot? msg.port.toInt ≠ some object.portNr
  calls : s.calls = 0
  replies : s.replies = []
  passed : s.passed = []

def closing (object : MethodsObject Sid P) :
    Machine (ClosingState Tid Sid P) (ClosingLabel Tid Sid P) where
  init := ClosingInit object
  step := ClosingState.step object

/-- The frame that `onDataReady` makes this message of. -/
def DecodesTo (msg : MultiplexedMessage) (dbusMessage : DbusMessage) : Prop :=
  ∃ fuel p, DbusMessage.new msg.data fuel = .returns dbusMessage p

/-- The constructor throws on the payload. -/
def DbusMessage.thrown (bytes : List UInt8) (fuel : Nat) : Bool :=
  match new bytes fuel with
  | .throws _ | .error _ => true
  | _ => false

namespace ReceivingState

variable (s : ReceivingState Tid Sid P)

/-- The step clears the input of port `x`, in `Port.close` or on an EOF. -/
def clearsInput (x : P) : ReceivingLabel Tid Sid P → Bool
  | .run t =>
      match s.app t with
      | .closeClear y => y = x
      | _ => false
  | .receive _ =>
      match s.receiver with
      | .statusSwitch i status => status = 3 ∧ s.portAt i = some x
      | _ => false
  | _ => false

/-- The service whose flag is looked at has a port, a d-bus service has read what
begins as a d-bus message does, and an entry is dropped only by the service it is of. -/
def Orderly : ReceivingLabel Tid Sid P → Prop
  | .receive _ =>
      match s.receiver with
      | .test service _ => (s.port service).isSome
      | .handle service bytes =>
          (s.kind service).decodes = true → DbusMessage.invalidEndian bytes = false
      | _ => True
  | .run t => s.DropsOwn t
  | _ => True

def orderly : ReceivingLabel Tid Sid P → Bool
  | .receive _ =>
      match s.receiver with
      | .test service _ => (s.port service).isSome
      | .handle service bytes => !(s.kind service).decodes || !DbusMessage.invalidEndian bytes
      | _ => true
  | .run t => decide (s.DropsOwn t)
  | _ => true

omit [DecidableEq Tid] in
theorem orderly_iff (label : ReceivingLabel Tid Sid P) : s.orderly label = true ↔ s.Orderly label := by
  cases label with
  | receive n =>
      unfold orderly Orderly
      dsimp only
      cases s.receiver <;> simp [imp_iff_not_or]
  | run t => exact decide_eq_true_iff
  | _ => exact iff_of_true rfl trivial

instance (label : ReceivingLabel Tid Sid P) : Decidable (s.Orderly label) :=
  decidable_of_iff _ (orderly_iff s label)

end ReceivingState

namespace ClosingState

variable (object : MethodsObject Sid P) (s : ClosingState Tid Sid P)

/-- A reply that has been read is decoded without an exception. -/
def Decodes : ReceivingLabel Tid Sid P → Prop
  | .receive n =>
      match s.base.receiver with
      | .handle service bytes => service = object.service → DbusMessage.thrown bytes n = false
      | _ => True
  | _ => True

def decodes : ReceivingLabel Tid Sid P → Bool
  | .receive n =>
      match s.base.receiver with
      | .handle service bytes => service ≠ object.service || !DbusMessage.thrown bytes n
      | _ => true
  | _ => true

omit [DecidableEq Tid] [DecidableEq P] in
theorem decodes_iff (label : ReceivingLabel Tid Sid P) :
    s.decodes object label = true ↔ s.Decodes object label := by
  cases label with
  | receive n =>
      unfold decodes Decodes
      dsimp only
      cases s.base.receiver <;> simp [imp_iff_not_or]
  | _ => exact iff_of_true rfl trivial

instance (label : ReceivingLabel Tid Sid P) : Decidable (s.Decodes object label) :=
  decidable_of_iff _ (decodes_iff object s label)

/-- The condition: the input of the object is cleared only when all replies have been
passed on, and none is sent after that. Replies can be decoded, and the other
services do not get in the way. -/
def Waits : ClosingLabel Tid Sid P → Prop
  | .call => True
  | .reply _ => (s.base.ports object.port).inputOpen = true
  | .base label =>
      (s.base.clearsInput object.port label = true → s.passed.length = s.replies.length) ∧
        s.Decodes object label ∧ s.base.InputTested label ∧ s.base.Orderly label

instance (label : ClosingLabel Tid Sid P) : Decidable (s.Waits object label) := by
  unfold Waits
  split <;> infer_instance

end ClosingState

end

/-! ## Where a payload goes -/

/-- The service that takes the payload at hand. -/
def ReceiverThreadPc.reading : ReceiverThreadPc Sid → Option Sid
  | .readAll service _ _ | .handle service _ => some service
  | _ => none

namespace ReceivingState

variable {s t : ReceivingState Tid Sid P}

theorem Orderly.marshalled [DecidableEq Sid] [DecidableEq P] {n : Nat}
    (h : s.Orderly (.receive n)) : s.Marshalled (.receive n) := by
  unfold Orderly at h
  unfold Marshalled
  cases hpc : s.receiver with
  | handle service bytes =>
      simp only [hpc] at h
      exact h
  | _ => trivial

theorem onDataReady_reading {service service' : Sid} {length : Short}
    (h : (s.onDataReady service length).receiver.reading = some service') : service' = service := by
  unfold onDataReady at h
  cases hkind : s.kind service with
  | portStatus =>
      simp only [hkind] at h
      split at h
      · cases h
      · exact (Option.some.inj h).symm
  | serviceSpawner =>
      simp only [hkind] at h
      exact (Option.some.inj h).symm
  | keepalive =>
      simp only [hkind] at h
      cases h
  | dbusMethods | dbusSignals | bulkTransfer =>
      simp only [hkind] at h
      split at h
      · cases h
      · exact (Option.some.inj h).symm

theorem handle_reading (s : ReceivingState Tid Sid P) (service : Sid) (bytes : List UInt8) :
    (s.handle service bytes).receiver.reading = none := by
  unfold ReceivingState.handle
  cases s.kind service with
  | portStatus =>
      dsimp only
      split
      · split <;> rfl
      · rfl
  | serviceSpawner =>
      dsimp only [spawnerResponse]
      split
      · split <;> rfl
      · rfl
  | dbusMethods | dbusSignals =>
      dsimp only
      split <;> rfl
  | keepalive | bulkTransfer => rfl

/-- A service starts to take a payload only while its input is open. -/
theorem receive_reading [DecidableEq P] {n : Nat} {service : Sid} (h : s.receive n = some t)
    (hreading : t.receiver.reading = some service) :
    s.receiver.reading = some service ∨
      ∃ x, s.port service = some x ∧ (s.ports x).inputOpen = true := by
  unfold ReceivingState.receive at h
  cases hpc : s.receiver with
  | header bytes =>
      simp only [hpc] at h
      obtain ⟨r, -, rfl⟩ := Option.map_eq_some_iff.mp h
      split at hreading <;> cases hreading
  | lookup port dataLength =>
      simp only [hpc] at h
      split at h
      · cases h
        cases hreading
      · split at h <;> cases h <;> cases hreading
  | skip mustSkip =>
      simp only [hpc] at h
      split at h
      · obtain ⟨r, -, rfl⟩ := Option.map_eq_some_iff.mp h
        cases hreading
      · cases h
        cases hreading
  | test service' dataLength =>
      simp only [hpc] at h
      split at h
      · cases h
        cases hreading
      · next x hx =>
        split at h
        · next hopen =>
          cases h
          obtain rfl := onDataReady_reading hreading
          exact .inr ⟨x, hx, hopen⟩
        · cases h
          cases hreading
  | readAll service' bytes remaining =>
      simp only [hpc] at h
      split at h
      · cases h
        exact .inl hreading
      · split at h
        · cases h
          cases hreading
        · split at h
          · obtain ⟨r, -, rfl⟩ := Option.map_eq_some_iff.mp h
            exact .inl hreading
          · cases h
            unfold readThrows at hreading
            split at hreading
            · exact .inl hreading
            · cases hreading
  | skipRead i =>
      simp only [hpc] at h
      split at h
      · obtain ⟨r, -, rfl⟩ := Option.map_eq_some_iff.mp h
        cases hreading
      · cases h
        cases hreading
  | handle service' bytes =>
      simp only [hpc] at h
      cases h
      rw [handle_reading] at hreading
      cases hreading
  | statusTest port status =>
      simp only [hpc] at h
      split at h <;> cases h <;> cases hreading
  | statusSwitch port status =>
      simp only [hpc] at h
      split at h
      · split at h <;> cases h <;> cases hreading
      · cases h
        cases hreading
  | statusCleanup port =>
      simp only [hpc] at h
      split at h
      · cases h
        cases hreading
      · split at h <;> cases h <;> cases hreading
  | awaitDone =>
      simp only [hpc] at h
      split at h <;> cases h
      cases hreading
  | stopped =>
      simp only [hpc] at h
      cases h

/-! ## The frame at hand -/

variable {owner : Option Sid → Short → Prop}

theorem AtHand.of_header {bytes : List UInt8} (h : s.receiver = .header bytes) : s.AtHand owner := by
  unfold AtHand
  rw [h]
  trivial

/-- What a thread other than the receiver's does leaves the frame at hand. -/
theorem AtHand.aside [DecidableEq Tid] [DecidableEq Sid] [DecidableEq P]
    {label : ReceivingLabel Tid Sid P} (h : s.AtHand owner)
    (hle : s.iterations ≤ s.sent.length) (hreceive : ∀ n, label ≠ .receive n)
    (hs : s.step label = some t) : t.AtHand owner := by
  by_cases harrive : ∃ msg, label = .arrive msg
  · obtain ⟨msg, rfl⟩ := harrive
    obtain ⟨-, hs⟩ := Option.ite_none_right_eq_some.mp hs
    cases hs
    exact h.arrive hle
  · by_cases htake : label = .takeResponse
    · subst htake
      obtain ⟨-, hs⟩ := Option.ite_none_right_eq_some.mp hs
      cases hs
      exact h.frame rfl rfl rfl rfl
    · have haside := aside_step hreceive (fun msg hmsg => harrive ⟨msg, hmsg⟩) htake hs
      exact h.frame haside.receiver haside.kind haside.unread haside.coming

/-- In aligned runs there is always a frame at hand. -/
theorem tested_atHand [DecidableEq Tid] [DecidableEq Sid] [DecidableEq P] (h : tested.Reachable s) : s.Alignment ∧ s.AtHand fun _ _ => True := by
  apply h.invariant (P := fun u => u.Alignment ∧ u.AtHand fun _ _ => True)
  · intro u hu
    exact ⟨.initial hu, .of_header hu.receiver⟩
  · rintro u label v ⟨halign, hatHand⟩ hstep
    obtain ⟨hc, hs⟩ := Machine.guard_step.mp hstep
    refine ⟨halign.step hc hs, ?_⟩
    by_cases hreceive : ∃ n, label = .receive n
    · obtain ⟨n, rfl⟩ := hreceive
      cases hatHand.receive halign hc (fun _ _ _ _ _ => trivial) hs with
      | stays _ hplace _ _ => exact hplace
      | ends _ hheader _ _ => exact .of_header hheader
    · exact hatHand.aside halign.iterations (fun n hn => hreceive ⟨n, hn⟩) hs

/-- With no frame for a port at hand, it has that port or not. -/
theorem AtHand.agrees {service : Sid} {i : Slot} (h : s.AtHand fun _ _ => True)
    (hkind : s.kind service = .dbusMethods) (hserving : s.receiver.serving ≠ some service)
    (hcoming : ∀ msg ∈ s.coming, slot? msg.port.toInt ≠ some i) :
    s.AtHand fun k port => k = some service ↔ slot? port.toInt = some i := by
  have howned : ∀ {k : Option Sid} {msg : MultiplexedMessage}, k ≠ some service →
      s.Owned (fun _ _ => True) k msg →
        s.Owned (fun k port => k = some service ↔ slot? port.toInt = some i) k msg := by
    intro k msg hk hmsg
    exact ⟨hmsg.current, iff_of_false hk (hcoming msg (List.mem_of_head? hmsg.current))⟩
  have hother : ∀ {k : Sid}, s.kind k ≠ .dbusMethods → some k ≠ some service := by
    rintro k hk heq
    cases heq
    exact hk hkind
  unfold AtHand at h ⊢
  cases hpc : s.receiver with
  | header _ | lookup _ _ | stopped => trivial
  | skip mustSkip =>
      simp only [hpc] at h
      exact h.imp fun msg hmsg => howned nofun hmsg
  | test k dataLength =>
      simp only [hpc] at h hserving
      exact h.imp fun msg hmsg => howned hserving hmsg
  | readAll k bytes remaining =>
      simp only [hpc] at h hserving
      exact h.imp fun msg hmsg => ⟨howned hserving hmsg.1, hmsg.2⟩
  | handle k bytes =>
      simp only [hpc] at h hserving
      exact h.imp fun msg hmsg => ⟨howned hserving hmsg.1, hmsg.2⟩
  | skipRead i =>
      simp only [hpc] at h
      obtain ⟨k, msg, hk, hmsg⟩ := h
      exact ⟨k, msg, hk, howned (hother (by rw [hk]; nofun)) hmsg⟩
  | statusTest port status | statusSwitch port status | statusCleanup port =>
      simp only [hpc] at h
      obtain ⟨k, msg, hk, hmsg⟩ := h
      exact ⟨k, msg, hk, howned (hother (by rw [hk]; nofun)) hmsg⟩
  | awaitDone =>
      simp only [hpc] at h
      obtain ⟨k, msg, hk, hmsg⟩ := h
      exact ⟨k, msg, hk, howned (hother (by rw [hk]; nofun)) hmsg⟩

/-! ## The entry and the flag of an object -/

variable {object : MethodsObject Sid P}

/-- The object is the service on its port number, and nowhere else. -/
structure Registered (s : ReceivingState Tid Sid P) (object : MethodsObject Sid P) : Prop where
  port : s.port object.service = some object.port
  entry : ∀ i, s.activeServices i = some object.service ↔ i = object.portNr

theorem Registered.fade (h : s.Registered object) (hopen : (s.ports object.port).inputOpen = true)
    (hfades : Fades s t) : t.Registered object := by
  refine ⟨by rw [hfades.port]; exact h.port, ?_⟩
  intro i
  obtain hsame | ⟨hnone, x, hx, hclosed⟩ := hfades.entries i
  · rw [hsame]
    exact h.entry i
  · rw [hnone]
    apply iff_of_false nofun
    rintro rfl
    -- the entry that was dropped had a closed input
    rw [portAt, (h.entry _).mpr rfl, Option.bind_some, h.port] at hx
    cases hx
    rw [hopen] at hclosed
    cases hclosed

section

variable [DecidableEq Tid] [DecidableEq Sid] [DecidableEq P] {label : ReceivingLabel Tid Sid P}

theorem step_fades (horderly : s.Orderly label) (hregister : ∀ i service, label ≠ .register i service)
    (hassign : ∀ service x, label ≠ .assignPort service x) (hs : s.step label = some t) :
    Fades s t := by
  cases label with
  | arrive msg =>
      obtain ⟨-, hs⟩ := Option.ite_none_right_eq_some.mp hs
      cases hs
      exact .same rfl rfl rfl rfl
  | receive n => exact fades_receive hs
  | startClose tid x | startEof tid x =>
      simp only [ReceivingState.step] at hs
      split at hs
      · obtain ⟨-, hs⟩ := Option.ite_none_right_eq_some.mp hs
        cases hs
        exact .same rfl rfl rfl rfl
      · cases hs
  | run tid => exact (fades_runApp horderly hs).1
  | takeResponse =>
      obtain ⟨-, hs⟩ := Option.ite_none_right_eq_some.mp hs
      cases hs
      exact .same rfl rfl rfl rfl
  | register i service => exact absurd rfl (hregister i service)
  | assignPort service x => exact absurd rfl (hassign service x)

/-- A service that has a port keeps it. -/
theorem step_port {service : Sid} {x : P} (horderly : s.Orderly label) (hs : s.step label = some t)
    (h : s.port service = some x) : t.port service = some x := by
  cases label with
  | register i k =>
      obtain ⟨-, hs⟩ := Option.ite_none_right_eq_some.mp hs
      cases hs
      exact h
  | assignPort k y =>
      obtain ⟨hnew, hs⟩ := Option.ite_none_right_eq_some.mp hs
      cases hs
      have hne : service ≠ k := by
        rintro rfl
        rw [h] at hnew
        cases hnew
      show Function.update s.port k (some y) service = _
      rw [Function.update_of_ne hne]
      exact h
  | _ =>
      rw [(step_fades horderly nofun nofun hs).port]
      exact h

theorem step_kind (horderly : s.Orderly label) (hs : s.step label = some t) : t.kind = s.kind := by
  cases label with
  | register i k =>
      obtain ⟨-, hs⟩ := Option.ite_none_right_eq_some.mp hs
      cases hs
      rfl
  | assignPort k y =>
      obtain ⟨-, hs⟩ := Option.ite_none_right_eq_some.mp hs
      cases hs
      rfl
  | _ => exact (step_fades horderly nofun nofun hs).kind

theorem Registered.step (h : s.Registered object) (hopen : (s.ports object.port).inputOpen = true)
    (horderly : s.Orderly label) (hregister : ∀ service, label ≠ .register object.portNr service)
    (hs : s.step label = some t) : t.Registered object := by
  cases label with
  | register i service =>
      obtain ⟨hnew, hs⟩ := Option.ite_none_right_eq_some.mp hs
      cases hs
      refine ⟨h.port, ?_⟩
      intro j
      show Function.update s.activeServices i (some service) j = _ ↔ _
      by_cases hji : j = i
      · subst hji
        rw [Function.update_self]
        apply iff_of_false
        · rintro heq
          cases heq
          rw [h.port] at hnew
          cases hnew.2
        · rintro rfl
          exact hregister service rfl
      · rw [Function.update_of_ne hji]
        exact h.entry j
  | assignPort service x =>
      have hport := step_port horderly hs h.port
      obtain ⟨-, hs⟩ := Option.ite_none_right_eq_some.mp hs
      cases hs
      exact ⟨hport, h.entry⟩
  | _ => exact h.fade hopen (step_fades horderly nofun nofun hs)

/-- A port that is closed stays closed. -/
theorem step_inputClosed {x : P} (horderly : s.Orderly label) (hs : s.step label = some t)
    (hclosed : (s.ports x).inputOpen = false) : (t.ports x).inputOpen = false := by
  cases label with
  | register i service =>
      obtain ⟨-, hs⟩ := Option.ite_none_right_eq_some.mp hs
      cases hs
      exact hclosed
  | assignPort service y =>
      obtain ⟨-, hs⟩ := Option.ite_none_right_eq_some.mp hs
      cases hs
      exact hclosed
  | _ =>
      rw [← Bool.not_eq_true] at hclosed ⊢
      intro hopen
      exact hclosed ((step_fades horderly nofun nofun hs).ports x hopen)

/-- The flag is cleared between two frames or beside the receiver. -/
theorem step_cleared {x : P} (hclears : s.clearsInput x label = true) (hs : s.step label = some t) :
    (t.ports x).inputOpen = false ∧ (t.receiver.reading = none ∨ t.receiver = s.receiver) := by
  cases label with
  | receive n =>
      cases hpc : s.receiver with
      | statusSwitch i status =>
          simp only [clearsInput, hpc, decide_eq_true_eq] at hclears
          obtain ⟨rfl, hx⟩ := hclears
          change s.receive n = some t at hs
          unfold ReceivingState.receive at hs
          simp only [hpc, hx, true_or, if_true] at hs
          cases hs
          refine ⟨?_, .inl rfl⟩
          show (Function.update s.ports x _ x).inputOpen = false
          rw [Function.update_self]
          rfl
      | _ => simp [clearsInput, hpc] at hclears
  | run tid =>
      cases happ : s.app tid with
      | closeClear y =>
          simp only [clearsInput, happ, decide_eq_true_eq] at hclears
          subst hclears
          change s.runApp tid = some t at hs
          unfold ReceivingState.runApp at hs
          simp only [happ] at hs
          cases hs
          refine ⟨?_, .inr rfl⟩
          show (Function.update s.ports y _ y).inputOpen = false
          rw [Function.update_self]
          rfl
      | _ => simp [clearsInput, happ] at hclears
  | _ => cases hclears

/-- Frames come on the stream only by arriving. -/
theorem step_coming (hreceive : ∀ n, label ≠ .receive n) (harrive : ∀ msg, label ≠ .arrive msg)
    (hs : s.step label = some t) : t.coming = s.coming ∧ t.receiver = s.receiver := by
  by_cases htake : label = .takeResponse
  · subst htake
    obtain ⟨-, hs⟩ := Option.ite_none_right_eq_some.mp hs
    cases hs
    exact ⟨rfl, rfl⟩
  · have haside := aside_step hreceive harrive htake hs
    exact ⟨haside.coming, haside.receiver⟩

/-- It stays open in every step that does not clear it. -/
theorem step_inputOpen {x : P} (hclears : s.clearsInput x label = false) (hs : s.step label = some t)
    (hopen : (s.ports x).inputOpen = true) : (t.ports x).inputOpen = true := by
  have hother : ∀ {y : P} {f : Port → Port}, (y = x → (f (s.ports x)).inputOpen = true) →
      ((s.modifyPort y f).ports x).inputOpen = true := by
    intro y f hf
    show (Function.update s.ports y (f (s.ports y)) x).inputOpen = true
    by_cases hyx : y = x
    · subst hyx
      rw [Function.update_self]
      exact hf rfl
    · rw [Function.update_of_ne (Ne.symm hyx)]
      exact hopen
  cases label with
  | arrive msg =>
      obtain ⟨-, hs⟩ := Option.ite_none_right_eq_some.mp hs
      cases hs
      exact hopen
  | receive n =>
      cases receive_tables hs with
      | same _ _ hports _ _ => rwa [hports]
      | @clear i status y hpc hy =>
          simp only [clearsInput, hpc, decide_eq_false_iff_not, not_and] at hclears
          apply hother
          rintro rfl
          by_cases hstatus : status = 3
          · exact absurd hy (hclears hstatus)
          · rw [if_neg hstatus]
            exact hopen
      | drop _ _ _ => exact hopen
  | startClose tid y | startEof tid y =>
      simp only [ReceivingState.step] at hs
      split at hs
      · obtain ⟨-, hs⟩ := Option.ite_none_right_eq_some.mp hs
        cases hs
        exact hopen
      · cases hs
  | run tid =>
      change s.runApp tid = some t at hs
      unfold ReceivingState.runApp at hs
      cases happ : s.app tid with
      | idle =>
          simp only [happ] at hs
          cases hs
      | closeClear y =>
          simp only [happ] at hs
          cases hs
          simp only [clearsInput, happ, decide_eq_false_iff_not] at hclears
          exact hother fun hy => absurd hy hclears
      | eofClear y =>
          simp only [happ] at hs
          cases hs
          exact hother fun _ => hopen
      | closeWrite y | eofWrite y =>
          simp only [happ] at hs
          cases hs
          unfold writeStatus
          split <;> exact hopen
      | closeCleanup y | eofCleanup y =>
          simp only [happ] at hs
          cases hs
          unfold dropService
          split
          · exact hopen
          · split <;> exact hopen
  | takeResponse =>
      obtain ⟨-, hs⟩ := Option.ite_none_right_eq_some.mp hs
      cases hs
      exact hopen
  | register i service =>
      obtain ⟨-, hs⟩ := Option.ite_none_right_eq_some.mp hs
      cases hs
      exact hopen
  | assignPort service y =>
      obtain ⟨-, hs⟩ := Option.ite_none_right_eq_some.mp hs
      cases hs
      exact hopen

end

end ReceivingState

namespace ClosingState

variable {object : MethodsObject Sid P} {s t : ClosingState Tid Sid P}

/-! ## Before and after the input is cleared -/

/-- The object takes what is on its port, and nothing else. -/
def Owns (object : MethodsObject Sid P) (service : Option Sid) (port : Short) : Prop :=
  service = some object.service ↔ slot? port.toInt = some object.portNr

/-- The frame is on the port of the object. -/
def onPort (object : MethodsObject Sid P) (msg : MultiplexedMessage) : Bool :=
  slot? msg.port.toInt = some object.portNr

theorem onPort_iff {msg : MultiplexedMessage} :
    onPort object msg = true ↔ slot? msg.port.toInt = some object.portNr := decide_eq_true_iff

/-- The frames to come on the port are the replies that have not been passed on. -/
structure Listening (object : MethodsObject Sid P) (s : ClosingState Tid Sid P) : Prop where
  registered : s.base.Registered object
  inputOpen : (s.base.ports object.port).inputOpen = true
  coming : s.base.coming.filter (onPort object) = s.replies.drop s.passed.length
  atHand : s.base.AtHand (Owns object)

/-- Every reply has been passed on, and nothing more is taken. -/
structure Silent (object : MethodsObject Sid P) (s : ClosingState Tid Sid P) : Prop where
  inputClosed : (s.base.ports object.port).inputOpen = false
  reading : s.base.receiver.reading ≠ some object.service
  passed : s.passed.length = s.replies.length

structure Kept (object : MethodsObject Sid P) (s : ClosingState Tid Sid P) : Prop where
  alignment : s.base.Alignment
  running : s.base.receiver ≠ .stopped
  kind : s.base.kind object.service = .dbusMethods
  port : s.base.port object.service = some object.port
  decoded : List.Forall₂ DecodesTo (s.replies.take s.passed.length) s.passed
  phase : s.Listening object ∨ s.Silent object

theorem Kept.passed_le (h : s.Kept object) : s.passed.length ≤ s.replies.length := by
  have hlength := h.decoded.length_eq
  rw [List.length_take] at hlength
  omega

/-- No payload is taken when every reply has been passed on. -/
theorem Listening.idle (h : s.Listening object) (hpassed : s.passed.length = s.replies.length) :
    s.base.receiver.reading ≠ some object.service := by
  intro hreading
  have hatHand := h.atHand
  have hnone : ∀ msg, ¬s.base.Owned (Owns object) (some object.service) msg := by
    intro msg hmsg
    have hcoming := h.coming
    rw [hpassed, List.drop_length, List.filter_eq_nil_iff] at hcoming
    exact hcoming msg (List.mem_of_head? hmsg.current) (onPort_iff.mpr (hmsg.owner.mp rfl))
  unfold ReceivingState.AtHand at hatHand
  cases hpc : s.base.receiver with
  | readAll service bytes remaining =>
      rw [hpc] at hatHand hreading
      cases hreading
      obtain ⟨msg, hmsg, -⟩ := hatHand
      exact hnone msg hmsg
  | handle service bytes =>
      rw [hpc] at hatHand hreading
      cases hreading
      obtain ⟨msg, hmsg, -⟩ := hatHand
      exact hnone msg hmsg
  | _ =>
      rw [hpc] at hreading
      cases hreading

theorem Kept.initial [DecidableEq Tid] [DecidableEq Sid] [DecidableEq P] (h : ClosingInit object s) :
    s.Kept object := by
  obtain ⟨halign, hatHand⟩ := ReceivingState.tested_atHand h.base
  refine ⟨halign, h.running, h.kind, h.port, ?_, .inl ⟨⟨h.port, h.entry⟩, h.inputOpen, ?_, ?_⟩⟩
  · rw [h.passed, h.replies]
    exact .nil
  · rw [h.passed, h.replies, List.drop_nil, List.filter_eq_nil_iff]
    intro msg hmsg
    rw [onPort_iff]
    exact h.coming msg hmsg
  · exact hatHand.agrees h.kind h.serving h.coming

/-! ## Replies that are passed on -/

/-- A reply that has been read is decoded and passed on; other steps pass nothing on. -/
theorem receive_cases [DecidableEq Sid] [DecidableEq P] {n : Nat} (hs : s.receive object n = some t) :
    ∃ base, s.base.receive n = some base ∧
      ((∃ bytes dbusMessage p, s.base.receiver = .handle object.service bytes ∧
          DbusMessage.new bytes n = .returns dbusMessage p ∧
          t = { s with base, passed := s.passed ++ [dbusMessage] }) ∨
        (t = { s with base } ∧ ∀ bytes, s.base.receiver = .handle object.service bytes →
          DbusMessage.thrown bytes n = true)) := by
  unfold receive at hs
  obtain ⟨base, hbase, hs⟩ := Option.bind_eq_some_iff.mp hs
  refine ⟨base, hbase, ?_⟩
  cases hpc : s.base.receiver with
  | handle service bytes =>
      simp only [hpc] at hs
      by_cases hservice : service = object.service
      · subst hservice
        rw [if_pos rfl] at hs
        cases hnew : DbusMessage.new bytes n with
        | returns dbusMessage p =>
            simp only [hnew] at hs
            cases hs
            exact .inl ⟨bytes, dbusMessage, p, rfl, hnew, rfl⟩
        | throws p | error p =>
            simp only [hnew] at hs
            cases hs
            refine .inr ⟨rfl, ?_⟩
            intro bytes' heq
            cases heq
            rw [DbusMessage.thrown, hnew]
        | runs =>
            simp only [hnew] at hs
            cases hs
      · rw [if_neg hservice] at hs
        cases hs
        refine .inr ⟨rfl, ?_⟩
        intro bytes' heq
        cases heq
        exact absurd rfl hservice
  | _ =>
      simp only [hpc] at hs
      cases hs
      exact .inr ⟨rfl, nofun⟩

theorem drop_cons {α : Type*} {l rest : List α} {n : Nat} {a : α} (h : l.drop n = a :: rest) :
    l.take (n + 1) = l.take n ++ [a] ∧ l.drop (n + 1) = rest := by
  constructor
  · rw [List.take_add, h]
    rfl
  · rw [← List.drop_drop, h]
    rfl

/-- The reply is passed on, and the receiver comes to the next frame. -/
theorem Listening.pass [DecidableEq P] {bytes : List UInt8} {n : Nat} {base : ReceivingState Tid Sid P}
    (h : s.Listening object) (hkind : s.base.kind object.service = .dbusMethods)
    (hpc : s.base.receiver = .handle object.service bytes)
    (hvalid : DbusMessage.invalidEndian bytes = false) (hs : s.base.receive n = some base) :
    base = s.base.next ∧ ∃ msg, msg.data = bytes ∧
      s.replies.drop s.passed.length = msg :: base.coming.filter (onPort object) := by
  have hatHand := h.atHand
  unfold ReceivingState.AtHand at hatHand
  simp only [hpc] at hatHand
  obtain ⟨msg, hmsg, hdata⟩ := hatHand
  obtain ⟨rest, hrest⟩ := List.head?_eq_some_iff.mp hmsg.current
  have hnext : base = s.base.next := by
    unfold ReceivingState.receive at hs
    simp only [hpc] at hs
    cases hs
    simp only [ReceivingState.handle, hkind, hvalid, Bool.false_eq_true, if_false]
  refine ⟨hnext, msg, hdata, ?_⟩
  rw [hnext, ReceivingState.next_coming hrest, ← h.coming, hrest,
    List.filter_cons_of_pos (onPort_iff.mpr (hmsg.owner.mp rfl))]

/-- Other steps leave the frames on the port where they are. -/
theorem Listening.progress [DecidableEq P] {n : Nat} {base : ReceivingState Tid Sid P} (h : s.Listening object)
    (hkind : s.base.kind object.service = .dbusMethods) (halign : s.base.Alignment)
    (htested : s.base.InputTested (.receive n))
    (hother : ∀ bytes, s.base.receiver ≠ .handle object.service bytes)
    (hs : s.base.receive n = some base) :
    base.coming.filter (onPort object) = s.replies.drop s.passed.length ∧
      base.AtHand (Owns object) := by
  have hlookup : ∀ port dataLength i, s.base.receiver = .lookup port dataLength →
      slot? port.toInt = some i → Owns object (s.base.activeServices i) port := by
    intro port dataLength i _ hi
    unfold Owns
    rw [hi, Option.some.injEq]
    exact h.registered.entry i
  have hsent := ReceivingState.receive_sent hs
  cases h.atHand.receive halign htested hlookup hs with
  | stays hiterations hplace _ _ =>
      refine ⟨?_, hplace⟩
      rw [ReceivingState.coming, hsent, hiterations]
      exact h.coming
  | @ends service msg hiterations hheader howned hfinishing =>
      refine ⟨?_, .of_header hheader⟩
      have hothers : service ≠ some object.service := by
        rintro rfl
        cases hfinishing with
        | empty hpc _ =>
            -- the flag is set, and the payload is looked at
            unfold ReceivingState.receive at hs
            simp only [hpc, h.registered.port, h.inputOpen, if_true] at hs
            cases hs
            unfold ReceivingState.onDataReady at hheader
            simp only [hkind] at hheader
            cases hheader
        | handled hpc _ => exact hother _ hpc
        | status hstatus =>
            rw [hkind] at hstatus
            cases hstatus
        | ping hping =>
            rw [hkind] at hping
            cases hping
        | answered _ hspawner =>
            rw [hkind] at hspawner
            cases hspawner
      have hapart : ¬onPort object msg = true := by
        have howner : service = some object.service ↔ slot? msg.port.toInt = some object.portNr :=
          howned.owner
        rw [onPort_iff, ← howner]
        exact hothers
      obtain ⟨rest, hrest⟩ := List.head?_eq_some_iff.mp howned.current
      have hnext : base.coming = rest := by
        rw [ReceivingState.coming, hsent, hiterations]
        exact ReceivingState.next_coming hrest
      rw [hnext, ← h.coming, hrest, List.filter_cons_of_neg hapart]

section

variable [DecidableEq Tid] [DecidableEq Sid] [DecidableEq P]

/-! ## Steps beside the receiver -/

theorem Kept.reply {msg : MultiplexedMessage} {base : ReceivingState Tid Sid P} (h : s.Kept object)
    (hopen : (s.base.ports object.port).inputOpen = true)
    (hport : slot? msg.port.toInt = some object.portNr) (hs : s.base.step (.arrive msg) = some base) :
    ({ s with base, replies := s.replies ++ [msg] } : ClosingState Tid Sid P).Kept object := by
  have htested : s.base.InputTested (.arrive msg) := trivial
  have halign := h.alignment.step htested hs
  have hle := h.passed_le
  obtain hlistening | hsilent := h.phase
  · obtain ⟨hport', hentry⟩ := hlistening.registered
    obtain ⟨-, hs⟩ := Option.ite_none_right_eq_some.mp hs
    cases hs
    have hatHand : (s.base.arrive msg).AtHand (Owns object) :=
      hlistening.atHand.arrive h.alignment.iterations
    refine ⟨halign, h.running, h.kind, h.port, ?_, .inl ⟨⟨hport', hentry⟩, hopen, ?_, hatHand⟩⟩
    · rw [List.take_append_of_le_length hle]
      exact h.decoded
    · have hcoming : (s.base.arrive msg).coming = s.base.coming ++ [msg] :=
        List.drop_append_of_le_length h.alignment.iterations
      rw [hcoming, List.filter_append, hlistening.coming, List.drop_append_of_le_length hle,
        List.filter_cons_of_pos (onPort_iff.mpr hport)]
      rfl
  · rw [hsilent.inputClosed] at hopen
    cases hopen

/-- Nothing comes on the port while the input is open. -/
theorem Listening.coming_aside {label : ReceivingLabel Tid Sid P} {base : ReceivingState Tid Sid P}
    (h : s.Listening object) (halign : s.base.Alignment) (hreceive : ∀ n, label ≠ .receive n)
    (hapart : s.Apart object label) (hs : s.base.step label = some base) :
    base.coming.filter (onPort object) = s.replies.drop s.passed.length := by
  by_cases harrive : ∃ msg, label = .arrive msg
  · obtain ⟨msg, rfl⟩ := harrive
    have hother : ¬onPort object msg = true := by
      rw [onPort_iff]
      intro hport
      have hclosed := hapart hport
      rw [h.inputOpen] at hclosed
      cases hclosed
    obtain ⟨-, hs⟩ := Option.ite_none_right_eq_some.mp hs
    cases hs
    have hcoming : (s.base.arrive msg).coming = s.base.coming ++ [msg] :=
      List.drop_append_of_le_length halign.iterations
    rw [hcoming, List.filter_append, h.coming, List.filter_cons_of_neg hother]
    exact List.append_nil _
  · rw [(ReceivingState.step_coming hreceive (fun msg hmsg => harrive ⟨msg, hmsg⟩) hs).1]
    exact h.coming

theorem step_receiver {label : ReceivingLabel Tid Sid P} {base : ReceivingState Tid Sid P}
    (hreceive : ∀ n, label ≠ .receive n) (hs : s.base.step label = some base) :
    base.receiver = s.base.receiver := by
  by_cases harrive : ∃ msg, label = .arrive msg
  · obtain ⟨msg, rfl⟩ := harrive
    obtain ⟨-, hs⟩ := Option.ite_none_right_eq_some.mp hs
    cases hs
    rfl
  · exact (ReceivingState.step_coming hreceive (fun msg hmsg => harrive ⟨msg, hmsg⟩) hs).2

theorem Kept.aside {label : ReceivingLabel Tid Sid P} {base : ReceivingState Tid Sid P}
    (h : s.Kept object) (hreceive : ∀ n, label ≠ .receive n) (hapart : s.Apart object label)
    (hwaits : s.Waits object (.base label)) (hs : s.base.step label = some base) :
    ({ s with base } : ClosingState Tid Sid P).Kept object := by
  obtain ⟨hpassed, -, htested, horderly⟩ := hwaits
  have hreceiver := step_receiver hreceive hs
  refine ⟨h.alignment.step htested hs, ?_, ?_, ReceivingState.step_port horderly hs h.port, h.decoded, ?_⟩
  · show base.receiver ≠ .stopped
    rw [hreceiver]
    exact h.running
  · show base.kind object.service = .dbusMethods
    rw [ReceivingState.step_kind horderly hs]
    exact h.kind
  obtain hlistening | hsilent := h.phase
  · by_cases hclears : s.base.clearsInput object.port label = true
    · right
      refine ⟨(ReceivingState.step_cleared hclears hs).1, ?_, hpassed hclears⟩
      show base.receiver.reading ≠ some object.service
      rw [hreceiver]
      exact hlistening.idle (hpassed hclears)
    · left
      rw [Bool.not_eq_true] at hclears
      have hregister : ∀ service, label ≠ .register object.portNr service := by
        rintro service rfl
        have hclosed := hapart rfl
        rw [hlistening.inputOpen] at hclosed
        cases hclosed
      exact ⟨hlistening.registered.step hlistening.inputOpen horderly hregister hs,
        ReceivingState.step_inputOpen hclears hs hlistening.inputOpen,
        hlistening.coming_aside h.alignment hreceive hapart hs,
        hlistening.atHand.aside h.alignment.iterations hreceive hs⟩
  · right
    refine ⟨ReceivingState.step_inputClosed horderly hs hsilent.inputClosed, ?_, hsilent.passed⟩
    show base.receiver.reading ≠ some object.service
    rw [hreceiver]
    exact hsilent.reading

/-! ## Steps of the receiver -/

theorem Kept.receive {n : Nat} (h : s.Kept object) (hwaits : s.Waits object (.base (.receive n)))
    (hs : s.receive object n = some t) : t.Kept object := by
  obtain ⟨hpassed, hdecodes, htested, horderly⟩ := hwaits
  obtain ⟨base, hbase, hcases⟩ := receive_cases hs
  have hstep : s.base.step (.receive n) = some base := hbase
  have halign := h.alignment.receive htested hbase
  have hport := ReceivingState.step_port horderly hstep h.port
  have hkind := (ReceivingState.step_kind horderly hstep ▸ h.kind : base.kind object.service = .dbusMethods)
  have hrunning : base.receiver ≠ .stopped := by
    apply h.alignment.running hbase
    · intro service dataLength hpc
      unfold ReceivingState.Orderly at horderly
      simp only [hpc] at horderly
      exact horderly
    · exact horderly.marshalled
  obtain ⟨bytes, dbusMessage, p, hpc, hnew, rfl⟩ | ⟨rfl, hthrown⟩ := hcases
  · obtain hlistening | hsilent := h.phase
    · have hvalid : DbusMessage.invalidEndian bytes = false := by
        have hmarshalled := horderly.marshalled
        unfold ReceivingState.Marshalled at hmarshalled
        simp only [hpc, h.kind] at hmarshalled
        exact hmarshalled rfl
      obtain ⟨hnext, msg, hdata, hdrop⟩ := hlistening.pass h.kind hpc hvalid hbase
      obtain ⟨htake, hdrop'⟩ := drop_cons hdrop
      have hlength : (s.passed ++ [dbusMessage]).length = s.passed.length + 1 := List.length_append
      refine ⟨halign, hrunning, hkind, hport, ?_, .inl ?_⟩
      · rw [hlength, htake]
        exact List.rel_append h.decoded (.cons ⟨n, p, hdata ▸ hnew⟩ .nil)
      · subst hnext
        refine ⟨⟨hport, hlistening.registered.entry⟩, hlistening.inputOpen, ?_, .of_header rfl⟩
        rw [hlength]
        exact hdrop'.symm
    · exact absurd (by rw [hpc]; rfl) hsilent.reading
  · have hother : ∀ bytes, s.base.receiver ≠ .handle object.service bytes := by
      intro bytes hpc
      unfold Decodes at hdecodes
      simp only [hpc, forall_const] at hdecodes
      rw [hthrown bytes hpc] at hdecodes
      cases hdecodes
    refine ⟨halign, hrunning, hkind, hport, h.decoded, ?_⟩
    obtain hlistening | hsilent := h.phase
    · by_cases hclears : s.base.clearsInput object.port (.receive n) = true
      · right
        obtain ⟨hclosed, hreading⟩ := ReceivingState.step_cleared hclears hstep
        refine ⟨hclosed, ?_, hpassed hclears⟩
        show base.receiver.reading ≠ some object.service
        obtain hnone | hsame := hreading
        · rw [hnone]
          exact nofun
        · rw [hsame]
          exact hlistening.idle (hpassed hclears)
      · left
        rw [Bool.not_eq_true] at hclears
        obtain ⟨hcoming, hatHand⟩ := hlistening.progress h.kind h.alignment htested hother hbase
        exact ⟨hlistening.registered.step hlistening.inputOpen horderly nofun hstep,
          ReceivingState.step_inputOpen hclears hstep hlistening.inputOpen, hcoming, hatHand⟩
    · right
      refine ⟨ReceivingState.step_inputClosed horderly hstep hsilent.inputClosed, ?_, hsilent.passed⟩
      intro hreading
      obtain hbefore | ⟨x, hx, hopen⟩ := ReceivingState.receive_reading hbase hreading
      · exact hsilent.reading hbefore
      · rw [h.port] at hx
        cases hx
        rw [hsilent.inputClosed] at hopen
        cases hopen

theorem Kept.step {label : ClosingLabel Tid Sid P} (h : s.Kept object)
    (hwaits : s.Waits object label) (hs : s.step object label = some t) : t.Kept object := by
  cases label with
  | call =>
      obtain ⟨-, hs⟩ := Option.ite_none_right_eq_some.mp hs
      cases hs
      refine ⟨h.alignment, h.running, h.kind, h.port, h.decoded, ?_⟩
      obtain hlistening | hsilent := h.phase
      · left
        exact ⟨hlistening.registered, hlistening.inputOpen, hlistening.coming, hlistening.atHand⟩
      · right
        exact ⟨hsilent.inputClosed, hsilent.reading, hsilent.passed⟩
  | reply msg =>
      obtain ⟨⟨-, hport⟩, hs⟩ := Option.ite_none_right_eq_some.mp hs
      obtain ⟨base, hbase, rfl⟩ := Option.map_eq_some_iff.mp hs
      exact h.reply hwaits hport hbase
  | base label =>
      by_cases hreceive : ∃ n, label = .receive n
      · obtain ⟨n, rfl⟩ := hreceive
        exact h.receive hwaits hs
      · have hs' : (if s.Apart object label then
            (s.base.step label).map fun base => { s with base } else none) = some t := by
          cases label with
          | receive n => exact absurd ⟨n, rfl⟩ hreceive
          | _ => exact hs
        obtain ⟨hapart, hs'⟩ := Option.ite_none_right_eq_some.mp hs'
        obtain ⟨base, hbase, rfl⟩ := Option.map_eq_some_iff.mp hs'
        exact h.aside (fun n hn => hreceive ⟨n, hn⟩) hapart hwaits hbase

end

end ClosingState

section

variable [DecidableEq Tid] [DecidableEq Sid] [DecidableEq P]

end

attribute [local instance] one_neZero four_neZero

private def slot3 : Slot := ⟨3, Accessory.three_inside⟩

/-- A service is requested and registered on port 3. -/
private def opened : List (ReceivingLabel (Fin 1) (Fin 4) (Fin 4)) :=
  [.arrive ⟨1, 8, [0x73, 3, 0, 1, 0, 0, 0, 0]⟩, .receive 4, .receive 0, .receive 0, .receive 8,
    .receive 0, .receive 0, .takeResponse, .receive 0, .register slot3 3, .assignPort 3 3]

private def methods : MethodsObject (Fin 4) (Fin 4) := ⟨3, 3, slot3⟩

end AapBridge.Android
