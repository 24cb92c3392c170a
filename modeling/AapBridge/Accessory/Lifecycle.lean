import AapBridge.Lib.Machine
import AapBridge.Accessory.SlotHistory

/-! # Service incarnations and their cleanup

The operations on the table as a machine: a frame dispatched to a service, a
status about a slot, a request that opens a slot, `sendEof` and `sendClose`
called by a service. An incarnation is one use of a slot, from the request that
opened it on; the first three are those `initServer` opens. The history keeps
the events of every incarnation. Its invariant: an incarnation that holds a slot
has not been cleaned up, and any other has, as the last thing that happened to it.
-/

namespace AapBridge.Accessory

open AapBridge.Lib

namespace BridgeConnection

/-- The test and the call of `sendToCorrectService`, for the callback `f`. -/
def accept (b : BridgeConnection) (i : Slot) (f : OnBytesReceived) : Option BridgeConnection :=
  if (b.services i).port ≠ -1 ∧ (b.services i).onBytesReceived = some f then
    some (b.log i (.onBytesReceived f))
  else none

end BridgeConnection

/-- `spawner` points at `services[1]`. -/
def spawnerService : Slot := ⟨1, by decide⟩

/-- The STREAM_OPEN response naming `port`. -/
def openResponse (port : Int) : List UInt8 :=
  [0x73, lowByte port, highByte port, 0x01, 0, 0, 0, 0]

inductive Operation where
  /-- `openNewPort` returned `services[i]` and the callbacks were installed. -/
  | spawn (i : Slot) (protocol : BridgeConnection.Protocol)
  /-- A status about `services[target]`, EOF, CLOSE or an unknown one. -/
  | status (target : Slot) (code : UInt8)
  /-- Data for a bulk, method, signals or keepalive service, what the calls of
  `write` return and what the bus replies. -/
  | data (i : Slot) (buffer : List UInt8) (outcomes : List Int) (reply : List UInt8)
  | sendEof (i : Slot)
  | sendClose (i : Slot)

/-- `openNewPort` may return any free slot, so the slot is part of the label. -/
def perform (b : BridgeConnection) : Operation → Option BridgeConnection
  | .spawn i protocol =>
      (b.accept spawnerService .serviceSpawnerOnBytesReceived).bind fun b =>
        if (b.services i).port = -1 then
          some (((b.allocate i).install i protocol).writeAllPort spawnerService (openResponse i))
        else none
  | .status target code =>
      (b.accept portStatusService .portStatusOnBytesReceived).bind fun b =>
        if (b.services target).port = -1 then some b
        else b.portStatusSwitch target [lowByte target, highByte target, code, 0]
  | .data i buffer outcomes reply =>
      match (b.services i).onBytesReceived with
      | some .keepaliveOnBytesReceived =>
          (b.accept i .keepaliveOnBytesReceived).map fun b => b.keepaliveOnBytesReceived i
      | some .bulkOnBytesReceived =>
          (b.accept i .bulkOnBytesReceived).bind fun b => b.bulkOnBytesReceived i buffer outcomes
      | some .methodOnBytesReceived =>
          (b.accept i .methodOnBytesReceived).map fun b => b.writeAllPort i reply
      | some .signalsOnBytesReceived => b.accept i .signalsOnBytesReceived
      | _ => none
  | .sendEof i => if (b.services i).port = -1 then none else some (b.sendEof i)
  | .sendClose i => if (b.services i).port = -1 then none else some (b.sendClose i)

/-- The slot of `spawn` is free when `openNewPort` returns it. -/
theorem openNewPort_free {b b' : BridgeConnection} {i : Slot}
    (h : b.openNewPort = some (some (i, b'))) :
    (b.services i).port = -1 ∧ b' = b.allocate i := by
  obtain ⟨j, -, hj⟩ := Option.map_eq_some_iff.mp h
  split at hj
  · next hfree =>
    cases hj
    exact ⟨hfree, rfl⟩
  · cases hj

structure LifecycleState where
  bridge : BridgeConnection
  incarnation : Slot → Nat
  started : Nat
  history : List (Nat × Event)

namespace LifecycleState

def Occupied (m : LifecycleState) (i : Slot) : Prop := (m.bridge.services i).port ≠ -1

def eventsOf (m : LifecycleState) (k : Nat) : List Event := keyed k m.history

/-- The state after an operation that ended in `b`, whose events are the operation's. -/
def record (m : LifecycleState) (op : Operation) (b : BridgeConnection) : LifecycleState where
  bridge := b
  incarnation := match op with
    | .spawn i _ => Function.update m.incarnation i m.started
    | _ => m.incarnation
  started := match op with
    | .spawn _ _ => m.started + 1
    | _ => m.started
  history := m.history ++ b.events.map fun e => (m.incarnation e.1, e.2)

/-- `initServer` opens incarnations 0, 1 and 2 on the slots of the same number. -/
def initial : LifecycleState where
  bridge := initServer
  incarnation := fun i => i
  started := 3
  history := []

end LifecycleState

def lifecycle : Machine LifecycleState Operation where
  init m := m = .initial
  step m op := (perform { m.bridge with events := [] } op).map (m.record op)

/-! ## One operation, slot by slot -/

structure InUse (i : Slot) (service : BridgeService) : Prop where
  port : service.port = i
  open_ : service.inputOpen = true ∨ service.outputOpen = true
  started : service.Started

/-- Every entry is unused, or in use with a direction open. -/
def Table (b : BridgeConnection) : Prop := ∀ i, b.services i = .unused ∨ InUse i (b.services i)

theorem InUse.occupied {i : Slot} {service : BridgeService} (h : InUse i service) :
    service.port ≠ -1 := by
  rw [h.port]
  omega

theorem Table.inUse {b : BridgeConnection} (h : Table b) {i : Slot}
    (ho : (b.services i).port ≠ -1) : InUse i (b.services i) := by
  rcases h i with hu | hi
  · rw [hu] at ho
    exact absurd rfl ho
  · exact hi

theorem Table.unused {b : BridgeConnection} (h : Table b) {i : Slot}
    (ho : (b.services i).port = -1) : b.services i = .unused :=
  (h i).resolve_right fun hi => hi.occupied ho

theorem InUse.live {i : Slot} {b : BridgeConnection} (h : InUse i (b.services i))
    (hev : b.eventsOf i = []) : Live i (b.services i) b := by
  refine ⟨h.port, ?_, ?_, h.started, ?_⟩
  · simp [hev]
  · simp [hev]
  · simp [hev, NoCleanup]

theorem Live.inUse {i : Slot} {start : BridgeService} {b : BridgeConnection}
    (h : Live i start b) (ho : (b.services i).inputOpen = true ∨ (b.services i).outputOpen = true) :
    InUse i (b.services i) := ⟨h.port, ho, h.started⟩

/-- What an operation does to every slot. -/
structure OperationSpec (b : BridgeConnection) (op : Operation) (b' : BridgeConnection) : Prop where
  occupied : ∀ i, (b.services i).port ≠ -1 →
    Settled i (b.services i) b' ∧ ∀ protocol, op ≠ .spawn i protocol
  free : ∀ i, (b.services i).port = -1 → b'.eventsOf i = [] ∧
    ((b'.services i = .unused ∧ ∀ protocol, op ≠ .spawn i protocol) ∨
      ((∃ protocol, op = .spawn i protocol) ∧ InUse i (b'.services i)))

theorem OperationSpec.table {b b' : BridgeConnection} {op : Operation}
    (h : OperationSpec b op b') : Table b' := by
  intro i
  by_cases hocc : (b.services i).port = -1
  · exact (h.free i hocc).2.imp And.left And.right
  · rcases (h.occupied i hocc).1 with ⟨hlive, hopen⟩ | hend
    · exact .inr (hlive.inUse hopen)
    · exact .inl hend.unused

/-- The state in which the callback of a dispatched frame starts to run. -/
structure Entered (b c : BridgeConnection) : Prop where
  services : c.services = b.services
  live : ∀ i, (b.services i).port ≠ -1 → Live i (b.services i) c
  quiet : ∀ i, (b.services i).port = -1 → c.eventsOf i = []

theorem Table.entered {b : BridgeConnection} (h : Table b) (hev : b.events = []) : Entered b b := by
  have hnil : ∀ i, b.eventsOf i = [] := fun i => by simp [BridgeConnection.eventsOf, hev]
  exact ⟨rfl, fun i ho => (h.inUse ho).live (hnil i), fun i _ => hnil i⟩

theorem Table.accepted {b c : BridgeConnection} (h : Table b) (hev : b.events = []) {i : Slot}
    {f : OnBytesReceived} (hc : b.accept i f = some c) :
    Entered b c ∧ (b.services i).port ≠ -1 := by
  have hb := h.entered hev
  unfold BridgeConnection.accept at hc
  split at hc
  · next hocc =>
    cases hc
    refine ⟨⟨rfl, ?_, ?_⟩, hocc.1⟩
    · intro j hj
      by_cases hji : j = i
      · subst hji
        exact (hb.live j hj).log_onBytesReceived f
      · exact (hb.live j hj).frame hji (BridgeConnection.frame_log b i _)
    · intro j hj
      have hji : j ≠ i := fun heq => hocc.1 (heq ▸ hj)
      rw [BridgeConnection.log_eventsOf_ne b hji]
      exact hb.quiet j hj
  · cases hc

/-- An operation confined to the occupied slot `j` that leaves it settled. -/
theorem Entered.operation {b c b' : BridgeConnection} (h : Entered b c) (ht : Table b)
    {op : Operation} (hop : ∀ i protocol, op ≠ .spawn i protocol) {j : Slot}
    (hj : (b.services j).port ≠ -1) (hframe : c.Frame j b')
    (hself : Live j (b.services j) c → Settled j (b.services j) b') : OperationSpec b op b' := by
  constructor
  · intro i hi
    refine ⟨?_, hop i⟩
    by_cases hij : i = j
    · subst hij
      exact hself (h.live i hi)
    · have hsettled : Settled i (b.services i) c := by
        refine .inl ⟨h.live i hi, ?_⟩
        rw [h.services]
        exact (ht.inUse hi).open_
      exact hsettled.frame hij hframe
  · intro i hi
    have hij : i ≠ j := fun heq => hj (heq ▸ hi)
    obtain ⟨hs, he⟩ := hframe i hij
    refine ⟨he.trans (h.quiet i hi), .inl ⟨?_, hop i⟩⟩
    rw [hs, h.services]
    exact ht.unused hi

/-- A callback that changes no entry and closes nothing. -/
theorem Entered.idle {b c b' : BridgeConnection} (h : Entered b c) (ht : Table b)
    {op : Operation} (hop : ∀ i protocol, op ≠ .spawn i protocol) {j : Slot}
    (hj : (b.services j).port ≠ -1) (hs : b'.services = c.services) (he : b'.events = c.events) :
    OperationSpec b op b' := by
  have hframe : c.Frame j b' := fun i _ => ⟨by rw [hs], by simp [BridgeConnection.eventsOf, he]⟩
  refine h.operation ht hop hj hframe fun hl => .inl ⟨⟨?_, ?_, ?_, ?_, ?_⟩, ?_⟩
  · rw [hs]; exact hl.port
  · rw [hs, BridgeConnection.eventsOf, he]; exact hl.input
  · rw [hs, BridgeConnection.eventsOf, he]; exact hl.output
  · rw [hs]; exact hl.started
  · rw [BridgeConnection.eventsOf, he]; exact hl.noCleanup
  · rw [hs, h.services]; exact (ht.inUse hj).open_

theorem install_inUse (b : BridgeConnection) (i : Slot) (protocol : BridgeConnection.Protocol)
    (hu : b.services i = .unused) :
    InUse i (((b.allocate i).install i protocol).services i) := by
  have hport : (b.allocate i).services i = { BridgeService.unused with port := i } := by
    simp [BridgeConnection.allocate, BridgeConnection.modify, hu]
  unfold BridgeConnection.install
  rw [BridgeConnection.modify_services_self, hport]
  cases protocol <;> exact ⟨rfl, .inl rfl, rfl, rfl, rfl, by simp, by simp⟩

/-- Opening a free slot keeps the table in order. -/
theorem Table.install {b : BridgeConnection} (h : Table b) {i : Slot}
    (hfree : (b.services i).port = -1) (protocol : BridgeConnection.Protocol) :
    Table ((b.allocate i).install i protocol) := by
  intro j
  by_cases hji : j = i
  · subst hji
    exact .inr (install_inUse b j protocol (h.unused hfree))
  · have hsame : ((b.allocate i).install i protocol).services j = b.services j := by
      simp [BridgeConnection.install, BridgeConnection.allocate, BridgeConnection.modify, hji]
    rw [hsame]
    exact h j

theorem perform_spawn {b b' : BridgeConnection} (ht : Table b) (hev : b.events = []) {i : Slot}
    {protocol : BridgeConnection.Protocol} (h : perform b (.spawn i protocol) = some b') :
    OperationSpec b (.spawn i protocol) b' := by
  simp only [perform, Option.bind_eq_some_iff] at h
  obtain ⟨c, hc, h⟩ := h
  obtain ⟨hent, hspawner⟩ := ht.accepted hev hc
  rw [hent.services] at h
  split at h
  · next hfree =>
    cases h
    have hmodify : ∀ j, j ≠ i → ((c.allocate i).install i protocol).services j = c.services j := by
      intro j hj
      simp [BridgeConnection.install, BridgeConnection.allocate, BridgeConnection.modify, hj]
    constructor
    · intro j hj
      have hji : j ≠ i := fun heq => hj (heq ▸ hfree)
      have hlive := hent.live j hj
      refine ⟨.inl ⟨⟨?_, ?_, ?_, ?_, hlive.noCleanup⟩, ?_⟩, ?_⟩
      · rw [BridgeConnection.writeAllPort_services, hmodify j hji]; exact hlive.port
      · rw [BridgeConnection.writeAllPort_services, hmodify j hji]; exact hlive.input
      · rw [BridgeConnection.writeAllPort_services, hmodify j hji]; exact hlive.output
      · rw [BridgeConnection.writeAllPort_services, hmodify j hji]; exact hlive.started
      · rw [BridgeConnection.writeAllPort_services, hmodify j hji, hent.services]
        exact (ht.inUse hj).open_
      · intro p heq
        cases heq
        exact hji rfl
    · intro j hj
      refine ⟨hent.quiet j hj, ?_⟩
      by_cases hji : j = i
      · subst hji
        refine .inr ⟨⟨protocol, rfl⟩, ?_⟩
        exact install_inUse c j protocol (by rw [hent.services]; exact ht.unused hj)
      · refine .inl ⟨?_, ?_⟩
        · rw [BridgeConnection.writeAllPort_services, hmodify j hji, hent.services]
          exact ht.unused hj
        · intro p heq
          cases heq
          exact hji rfl
  · cases h

theorem perform_status {b b' : BridgeConnection} (ht : Table b) (hev : b.events = [])
    {target : Slot} {code : UInt8} (h : perform b (.status target code) = some b') :
    OperationSpec b (.status target code) b' := by
  simp only [perform, Option.bind_eq_some_iff] at h
  obtain ⟨c, hc, h⟩ := h
  obtain ⟨hent, hstatus⟩ := ht.accepted hev hc
  rw [hent.services] at h
  split at h
  · cases h
    exact hent.idle ht (fun _ _ => nofun) hstatus rfl rfl
  · next hocc =>
    exact hent.operation ht (fun _ _ => nofun) hocc (BridgeConnection.frame_portStatusSwitch h)
      fun hl => hl.portStatusSwitch h

theorem perform_data {b b' : BridgeConnection} (ht : Table b) (hev : b.events = []) {i : Slot}
    {buffer : List UInt8} {outcomes : List Int} {reply : List UInt8}
    (h : perform b (.data i buffer outcomes reply) = some b') :
    OperationSpec b (.data i buffer outcomes reply) b' := by
  simp only [perform] at h
  split at h
  · obtain ⟨c, hc, rfl⟩ := Option.map_eq_some_iff.mp h
    obtain ⟨hent, hocc⟩ := ht.accepted hev hc
    exact hent.idle ht (fun _ _ => nofun) hocc rfl rfl
  · obtain ⟨c, hc, h⟩ := Option.bind_eq_some_iff.mp h
    obtain ⟨hent, hocc⟩ := ht.accepted hev hc
    refine hent.operation ht (fun _ _ => nofun) hocc
      (BridgeConnection.frame_bulkOnBytesReceived h) fun hl => ?_
    unfold BridgeConnection.bulkOnBytesReceived at h
    split at h
    · obtain ⟨r, -, rfl⟩ := Option.map_eq_some_iff.mp h
      split
      · exact hl.sendClose
      · refine .inl ⟨hl, ?_⟩
        rw [hent.services]
        exact (ht.inUse hocc).open_
    · cases h
  · obtain ⟨c, hc, rfl⟩ := Option.map_eq_some_iff.mp h
    obtain ⟨hent, hocc⟩ := ht.accepted hev hc
    exact hent.idle ht (fun _ _ => nofun) hocc rfl rfl
  · obtain ⟨hent, hocc⟩ := ht.accepted hev h
    exact hent.idle ht (fun _ _ => nofun) hocc rfl rfl
  · cases h

theorem perform_spec {b b' : BridgeConnection} (ht : Table b) (hev : b.events = [])
    {op : Operation} (h : perform b op = some b') : OperationSpec b op b' := by
  cases op with
  | spawn i protocol => exact perform_spawn ht hev h
  | status target code => exact perform_status ht hev h
  | data i buffer outcomes reply => exact perform_data ht hev h
  | sendEof i =>
      simp only [perform] at h
      split at h
      · cases h
      · next hocc =>
        cases h
        exact (ht.entered hev).operation ht (fun _ _ => nofun) hocc
          (BridgeConnection.frame_sendEof b i) fun hl => hl.sendEof
  | sendClose i =>
      simp only [perform] at h
      split at h
      · cases h
      · next hocc =>
        cases h
        exact (ht.entered hev).operation ht (fun _ _ => nofun) hocc
          (BridgeConnection.frame_sendClose b i) fun hl => hl.sendClose

end AapBridge.Accessory
