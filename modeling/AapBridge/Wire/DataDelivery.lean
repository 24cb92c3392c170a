import AapBridge.Wire.TwoEnds

/-! # Data reaches the service it was written for

`sendToCorrectService` only tests whether the slot is in use, so what it hands
over is up to the frames on the way. Where no frame of a `Port` crosses the
close of its input or the reuse of its slot, every frame on the way belongs to
the incarnation that holds the slot, and finds its input open. A run goes as far as
main stays inside its table: up to a status of the phone for a port whose low byte is
128 or more.
-/

namespace AapBridge.Wire

open AapBridge.Lib AapBridge.Lib.HalfClose AapBridge.Accessory
open AapBridge.Android hiding Short

namespace PortFrame

def On (i : Slot) (frame : PortFrame) : Prop := slot? frame.port.toInt = some i

/-- The accessory takes the frame for an EOF of slot `i`. -/
def IsEofOf (i : Slot) (frame : PortFrame) : Prop :=
  frame.On portStatusService ∧ BridgeConnection.statusTarget frame.data = some i ∧
    frame.data[2]? = some streamEof

instance (i : Slot) (frame : PortFrame) : Decidable (frame.On i) :=
  inferInstanceAs (Decidable (_ = _))

instance (i : Slot) (frame : PortFrame) : Decidable (frame.IsEofOf i) :=
  inferInstanceAs (Decidable (_ ∧ _))

end PortFrame

namespace EndsState

variable {s t : EndsState}

/-- The port is still that of `k`, and as long as the slot is in use, its input is
open and no EOF for it is on the way. -/
def MayWrite (s : EndsState) (k : Nat) (portNr : Short) : Prop :=
  ∀ i ∈ slot? portNr.toInt, s.accessory.incarnation i = k ∧
    ((s.accessory.bridge.services i).port = -1 ∨
      (s.accessory.bridge.services i).inputOpen = true ∧
        ∀ frame ∈ s.toAccessory, ¬frame.IsEofOf i)

/-- The thread in `Port.write` of `k` may. -/
def PortMayWrite (s : EndsState) (k : Nat) : Prop :=
  match s.services k with
  | .running port => s.MayWrite k port.portNr
  | _ => True

/-- None of the frames is for the service, or the slot is free once it has closed
its input. -/
def MayClose (s : EndsState) (frames : List PortFrame) (i : Slot) : Prop :=
  (s.accessory.bridge.services i).outputOpen = false ∨ ∀ frame ∈ frames, ¬frame.On i

instance (s : EndsState) (k : Nat) (portNr : Short) : Decidable (s.MayWrite k portNr) :=
  inferInstanceAs (Decidable (∀ i ∈ slot? portNr.toInt, _ ∧ _))

instance (s : EndsState) (k : Nat) : Decidable (s.PortMayWrite k) := by
  unfold PortMayWrite
  split <;> infer_instance

instance (s : EndsState) (frames : List PortFrame) (i : Slot) : Decidable (s.MayClose frames i) :=
  inferInstanceAs (Decidable (_ ∨ _))

/-- The condition on a step: a frame is written while it may be, a service closes
its input while nothing is on the way to it, and a slot is given away only when
nothing is on the way to it. -/
def NoCrossing (s : EndsState) : EndsLabel → Prop
  | .request _ => s.PortMayWrite 1
  | .write k => s.PortMayWrite k
  | .tell _ => s.PortMayWrite 0
  | .sendClose i => s.MayClose s.toAccessory i
  | .toAccessory (.perform (.spawn i _)) => ∀ frame ∈ s.toAccessory, ¬frame.On i
  | .toAccessory (.perform (.data i buffer outcomes _)) =>
      s.quiet.bulkWriteFails i buffer outcomes = true → s.MayClose s.toAccessory.tail i
  | _ => True

instance (s : EndsState) (label : EndsLabel) : Decidable (s.NoCrossing label) := by
  unfold NoCrossing
  split <;> infer_instance

/-- A frame behind these finds the input of its service open. -/
def Admits (m : LifecycleState) (before : List PortFrame) (frame : PortFrame) : Prop :=
  ∀ i, frame.On i → m.Occupied i →
    (m.bridge.services i).inputOpen = true ∧ ∀ eof ∈ before, ¬eof.IsEofOf i

structure Delivery (s : EndsState) : Prop where
  history : LifecycleState.HistoryInv s.accessory
  closed : ∀ i, s.accessory.Occupied i → (s.accessory.bridge.services i).inputOpen = true →
    .inputClosed ∉ s.accessory.eventsOf (s.accessory.incarnation i)
  writer : ∀ frame ∈ s.toAccessory, ∀ i, frame.On i → frame.writer = s.accessory.incarnation i
  input : Justified (Admits s.accessory) s.toAccessory
  handed : ∀ h ∈ s.handed, h.writer = h.incarnation ∧ h.closed = false

/-! ## The phone -/

/-- What a step of the phone leaves alone. -/
structure SameWire (s t : EndsState) : Prop where
  services : t.accessory.bridge.services = s.accessory.bridge.services
  incarnation : t.accessory.incarnation = s.accessory.incarnation
  started : t.accessory.started = s.accessory.started
  history : t.accessory.history = s.accessory.history
  handed : t.handed = s.handed
  toAccessory : t.toAccessory = s.toAccessory

theorem SameWire.refl (s : EndsState) : SameWire s s := ⟨rfl, rfl, rfl, rfl, rfl, rfl⟩

theorem SameWire.trans {u : EndsState} (h : SameWire s t) (h' : SameWire t u) : SameWire s u where
  services := h'.services.trans h.services
  incarnation := h'.incarnation.trans h.incarnation
  started := h'.started.trans h.started
  history := h'.history.trans h.history
  handed := h'.handed.trans h.handed
  toAccessory := h'.toAccessory.trans h.toAccessory

theorem Delivery.phone (h : Delivery s) (hsame : SameWire s t) : Delivery t := by
  obtain ⟨services, activeServices, answered, writing, telling, toAccessory, m, handed⟩ := t
  obtain ⟨⟨services', port, sent, events⟩, incarnation, started, history⟩ := m
  obtain ⟨hservices, hincarnation, hstarted, hhistory, hhanded, htoAccessory⟩ := hsame
  cases hservices
  cases hincarnation
  cases hstarted
  cases hhistory
  cases hhanded
  cases htoAccessory
  have hm := h.history
  exact ⟨⟨hm.table, hm.started, hm.distinct, hm.live, hm.ended, hm.fresh⟩, h.closed, h.writer,
    h.input, h.handed⟩

theorem sameWire_setService (s : EndsState) (k : Nat) (service : PhoneService) :
    SameWire s (s.setService k service) := ⟨rfl, rfl, rfl, rfl, rfl, rfl⟩

theorem sameWire_cleanup (s : EndsState) (i : Slot) (port : Port) : SameWire s (s.cleanup i port) := by
  unfold cleanup
  split
  · exact ⟨rfl, rfl, rfl, rfl, rfl, rfl⟩
  · exact .refl s

theorem sameWire_statusReady {data : List UInt8} (ht : s.statusReady data = some t) :
    SameWire s t := by
  unfold statusReady at ht
  split at ht
  · split at ht
    · cases ht
      exact .refl s
    · split at ht
      · next port k _ _ =>
        cases ht
        exact (sameWire_setService s k _).trans (sameWire_cleanup _ _ _)
      · cases ht
        exact .refl s
  · cases ht

theorem sameWire_responseReady {data : List UInt8} (ht : s.responseReady data = some t) :
    SameWire s t := by
  unfold responseReady at ht
  split at ht
  · split at ht
    · cases ht
      exact ⟨rfl, rfl, rfl, rfl, rfl, rfl⟩
    · cases ht
      exact .refl s
  · cases ht

theorem sameWire_dataReady {msg : MultiplexedMessage} (ht : s.dataReady msg = some t) :
    SameWire s t := by
  obtain ⟨i, -, ht⟩ := Option.bind_eq_some_iff.mp ht
  split at ht
  · cases ht
    exact .refl s
  · split at ht
    · split at ht
      · split at ht
        · exact sameWire_statusReady ht
        · split at ht
          · exact sameWire_responseReady ht
          · cases ht
            exact .refl s
      · cases ht
    · cases ht

theorem sameWire_toPhone (ht : s.toPhone = some t) : SameWire s t := by
  unfold toPhone at ht
  split at ht
  · cases ht
  · have hready := sameWire_dataReady ht
    exact ⟨hready.services, hready.incarnation, hready.started, hready.history, hready.handed,
      hready.toAccessory⟩

/-- A frame is written while it may be. -/
theorem Delivery.portWrite (h : Delivery s) {k : Nat} {port : Port} {data : List UInt8}
    (hmay : s.MayWrite k port.portNr) : Delivery (s.portWrite k port data) := by
  refine ⟨h.history, h.closed, ?_, h.input.snoc ?_, h.handed⟩
  · intro frame hframe i hi
    obtain hframe | hframe := List.mem_append.mp hframe
    · exact h.writer frame hframe i hi
    · cases List.mem_singleton.mp hframe
      exact (hmay i hi).1.symm
  · intro i hi hocc
    exact (hmay i hi).2.resolve_left hocc

theorem Delivery.libraryWrite (h : Delivery s) {k : Nat} {data : List UInt8}
    (hmay : s.PortMayWrite k) (ht : s.libraryWrite k data = some t) : Delivery t := by
  unfold EndsState.libraryWrite at ht
  unfold PortMayWrite at hmay
  split at ht
  · next port hk =>
    rw [hk] at hmay
    split at ht
    · cases ht
      exact h.portWrite hmay
    · cases ht
  · cases ht

theorem Delivery.clear (h : Delivery s) {k : Nat} {g : Signal} (ht : s.clear k g = some t) :
    Delivery t := by
  unfold EndsState.clear at ht
  split at ht
  · split at ht
    · cases ht
      exact h.phone ⟨rfl, rfl, rfl, rfl, rfl, rfl⟩
    · cases ht
  · cases ht

theorem Delivery.tell (h : Delivery s) {n : Nat} (hmay : s.PortMayWrite 0)
    (ht : s.tell n = some t) : Delivery t := by
  unfold EndsState.tell at ht
  split at ht
  · split at ht
    · split at ht
      · next u hu =>
        cases ht
        exact (h.libraryWrite hmay hu).phone ⟨rfl, rfl, rfl, rfl, rfl, rfl⟩
      · cases ht
        exact h.phone ⟨rfl, rfl, rfl, rfl, rfl, rfl⟩
    · cases ht
  · split at ht
    · next port _ =>
      obtain ⟨i, -, rfl⟩ := Option.map_eq_some_iff.mp ht
      exact h.phone (SameWire.trans (sameWire_cleanup s i port) ⟨rfl, rfl, rfl, rfl, rfl, rfl⟩)
    · cases ht
  · cases ht

/-! ## The accessory -/

/-- An operation on the table, after which `frames` are left of those on the way. -/
theorem Delivery.record (h : Delivery s) {op : Operation} {b : BridgeConnection}
    (hspec : OperationSpec s.quiet op b) {frames : List PortFrame} {handed : List Handover}
    (hrest : frames ⊆ s.toAccessory) (hjustified : Justified (Admits s.accessory) frames)
    (hspawn : ∀ i protocol, op = .spawn i protocol → ∀ frame ∈ frames, ¬frame.On i)
    (hinput : ∀ frame ∈ frames, ∀ i, frame.On i → s.accessory.Occupied i →
      (b.services i).port ≠ -1 → (s.accessory.bridge.services i).inputOpen = true →
        (b.services i).inputOpen = true)
    (hhanded : ∀ h ∈ handed, h.writer = h.incarnation ∧ h.closed = false) :
    Delivery { s with
      toAccessory := frames, accessory := s.accessory.record op b, handed := handed } := by
  have hsame : ∀ frame ∈ frames, ∀ i, frame.On i →
      (s.accessory.record op b).incarnation i = s.accessory.incarnation i := by
    intro frame hframe i hi
    apply LifecycleState.record_incarnation
    rintro protocol rfl
    exact hspawn i protocol rfl frame hframe hi
  refine ⟨h.history.record hspec, fun i hi hopen => ?_, fun frame hframe i hi => ?_, ?_, hhanded⟩
  · obtain ⟨hocc, hlive, hinc⟩ | ⟨-, -, hinc⟩ := LifecycleState.record_occupied hspec hi
    · have hflag : (b.services i).inputOpen = true := hopen
      rw [hlive.input, Bool.and_eq_true] at hflag
      rw [hinc, LifecycleState.record_eventsOf_held hspec h.history hocc, List.mem_append]
      rintro (hbefore | hnow)
      · exact h.closed i hocc hflag.1 hbefore
      · simp [hnow] at hflag
    · rw [hinc, LifecycleState.record_eventsOf_unheld hspec (h.history.unheld (Nat.le_refl _)),
        h.history.fresh _ (Nat.le_refl _)]
      exact List.not_mem_nil
  · rw [h.writer frame (hrest hframe) i hi]
    exact (hsame frame hframe i hi).symm
  · show Justified (Admits (s.accessory.record op b)) frames
    refine hjustified.mono fun before frame _ hmem hadmits i hi hocc => ?_
    obtain ⟨hbefore, -, -⟩ | ⟨-, ⟨protocol, rfl⟩, -⟩ := LifecycleState.record_occupied hspec hocc
    · obtain ⟨hopen, hnone⟩ := hadmits i hi hbefore
      exact ⟨hinput frame hmem i hi hbefore hocc hopen, hnone⟩
    · exact absurd hi (hspawn i protocol rfl frame hmem)

/-- The input of a slot that stays in use is closed only by an operation that
closes it. -/
theorem Delivery.inputOpen_of_not_closesInput (h : Delivery s) {op : Operation} {b : BridgeConnection}
    {i : Slot} (hb : perform s.quiet op = some b) (hspawn : ∀ protocol, op ≠ .spawn i protocol)
    (hno : ¬op.ClosesInput s.quiet i) (hocc : s.accessory.Occupied i)
    (hafter : (b.services i).port ≠ -1) (hopen : (s.accessory.bridge.services i).inputOpen = true) :
    (b.services i).inputOpen = true := by
  have hend := BridgeConnection.perform_endOf_input (b := s.quiet) h.history.table hb hspawn hno
  have hbefore : (s.quiet.endOf i).input = true := by
    have hport : (s.quiet.services i).port ≠ -1 := hocc
    have hflag : (s.quiet.services i).inputOpen = true := hopen
    simp [BridgeConnection.endOf, hport, hflag]
  rw [hbefore] at hend
  simpa [BridgeConnection.endOf, hafter] using hend

/-- A service that closes its input leaves the slot free if its output is closed. -/
theorem free_of_closed {b : BridgeConnection} {i : Slot} (ht : Table b)
    (hout : (s.accessory.bridge.services i).outputOpen = false)
    (hend : b.endOf i = (s.quiet.endOf i).sends .close) : (b.services i).port = -1 := by
  by_contra hused
  have hflag : (s.quiet.services i).outputOpen = false := hout
  have hclosed : (b.services i).inputOpen = false ∧ (b.services i).outputOpen = false := by
    simp only [BridgeConnection.endOf, hflag, End.sends, Bool.and_false, End.mk.injEq] at hend
    simpa [hused] using hend
  have hopen := (ht.inUse hused).open_
  simp [hclosed] at hopen

/-- While frames for a slot are on the way, a call of `sendClose` by its service
frees it or does not concern it. -/
theorem Delivery.inputOpen_of_mayClose (h : Delivery s) {op : Operation} {b : BridgeConnection}
    {frames : List PortFrame} {frame : PortFrame} {i : Slot} (hb : perform s.quiet op = some b)
    (hspawn : ∀ protocol, op ≠ .spawn i protocol) (hocc : s.accessory.Occupied i)
    (hafter : (b.services i).port ≠ -1) (hopen : (s.accessory.bridge.services i).inputOpen = true)
    (hmem : frame ∈ frames) (hi : frame.On i)
    (hclose : op.ClosesInput s.quiet i →
      b.endOf i = (s.quiet.endOf i).sends .close ∧ s.MayClose frames i) :
    (b.services i).inputOpen = true := by
  by_cases hcloses : op.ClosesInput s.quiet i
  · obtain ⟨hend, hout | hnone⟩ := hclose hcloses
    · have htable := (perform_spec (b := s.quiet) h.history.table rfl hb).table
      exact absurd (free_of_closed htable hout hend) hafter
    · exact absurd hi (hnone frame hmem)
  · exact h.inputOpen_of_not_closesInput hb hspawn hcloses hocc hafter hopen

theorem Delivery.sendClose (h : Delivery s) {j : Slot} (hmay : s.MayClose s.toAccessory j)
    (ht : s.serviceCalls (.sendClose j) = some t) : Delivery t := by
  obtain ⟨b, hb, rfl⟩ := Option.map_eq_some_iff.mp ht
  apply h.record (perform_spec (b := s.quiet) h.history.table rfl hb) (List.Subset.refl _) h.input
    nofun _ h.handed
  intro frame hmem i hi hocc hafter hopen
  apply h.inputOpen_of_mayClose hb nofun hocc hafter hopen hmem hi
  rintro rfl
  refine ⟨?_, hmay⟩
  simp only [perform] at hb
  split at hb
  · cases hb
  · cases hb
    exact (BridgeConnection.sendClose_effect (b := s.quiet) (h.history.table.inUse hocc).port).1

theorem Delivery.sendEof (h : Delivery s) {j : Slot} (ht : s.serviceCalls (.sendEof j) = some t) :
    Delivery t := by
  obtain ⟨b, hb, rfl⟩ := Option.map_eq_some_iff.mp ht
  apply h.record (perform_spec (b := s.quiet) h.history.table rfl hb) (List.Subset.refl _) h.input
    nofun _ h.handed
  intro frame _ i _ hocc hafter hopen
  exact h.inputOpen_of_not_closesInput hb nofun id hocc hafter hopen

/-- A callback that closes nothing. -/
theorem Delivery.idle (h : Delivery s) {i : Slot} {f : OnBytesReceived} {c b : BridgeConnection}
    {data : List UInt8} (hc : s.quiet.accept i f = some c) (hservices : b.services = c.services)
    (hevents : b.events = c.events) {frames : List PortFrame} {handed : List Handover}
    (hrest : frames ⊆ s.toAccessory) (hjustified : Justified (Admits s.accessory) frames)
    (hhanded : ∀ h ∈ handed, h.writer = h.incarnation ∧ h.closed = false) :
    Delivery { s with
      toAccessory := frames, accessory := s.accessory.record (.data i data [] []) b
      handed := handed } := by
  obtain ⟨hentered, hocc⟩ := Table.accepted (b := s.quiet) h.history.table rfl hc
  have hspec : OperationSpec s.quiet (.data i data [] []) b :=
    hentered.idle h.history.table nofun hocc hservices hevents
  apply h.record hspec hrest hjustified nofun _ hhanded
  intro _ _ j _ _ _ hopen
  rw [hservices, hentered.services]
  exact hopen

/-- The frame at the head is for the incarnation on its slot, whose input is open. -/
theorem Delivery.head (h : Delivery s) {frame : PortFrame} {rest : List PortFrame}
    (hqueue : s.toAccessory = frame :: rest) {i : Slot} (hi : frame.On i)
    (hocc : s.accessory.Occupied i) :
    frame.writer = s.accessory.incarnation i ∧ s.inputClosed i = false := by
  have hadmits := h.input [] frame rest hqueue i hi hocc
  have hmem : frame ∈ s.toAccessory := by
    rw [hqueue]
    exact List.mem_cons_self
  exact ⟨h.writer frame hmem i hi, decide_eq_false (h.closed i hocc hadmits.1)⟩

/-- What an operation that fits the frame does to the inputs of the frames behind it. -/
theorem Delivery.fits (h : Delivery s) {frame : PortFrame} {rest : List PortFrame}
    (hqueue : s.toAccessory = frame :: rest) {i : Slot} (hi : frame.On i) {op : Operation}
    (hfits : Fits i frame.data op) (hmay : s.NoCrossing (.toAccessory (.perform op)))
    {b : BridgeConnection} (hb : perform s.quiet op = some b) {later : PortFrame}
    (hmem : later ∈ rest) {j : Slot} (hj : later.On j) (hocc : s.accessory.Occupied j)
    (hafter : (b.services j).port ≠ -1) (hopen : (s.accessory.bridge.services j).inputOpen = true) :
    (b.services j).inputOpen = true := by
  have hspawn : ∀ protocol, op ≠ .spawn j protocol := by
    rintro protocol rfl
    apply hmay later _ hj
    rw [hqueue]
    exact List.mem_cons_of_mem _ hmem
  apply h.inputOpen_of_mayClose hb hspawn hocc hafter hopen hmem hj
  intro hcloses
  cases op with
  | status target code =>
      -- an EOF for `j` has no frame for `j` behind it
      obtain ⟨rfl, rfl⟩ := hcloses
      obtain ⟨rfl, htarget, hcode⟩ := hfits
      obtain ⟨before, after, hsplit⟩ := List.append_of_mem hmem
      have hadmits := h.input (frame :: before) later after (by rw [hqueue, hsplit]; rfl) target hj
        hocc
      exact absurd ⟨hi, htarget, hcode⟩ (hadmits.2 frame List.mem_cons_self)
  | data k buffer outcomes reply =>
      obtain ⟨rfl, hfails⟩ := hcloses
      have hrest : s.MayClose s.toAccessory.tail k := hmay hfails
      rw [hqueue] at hrest
      exact ⟨BridgeConnection.endOf_bulkWriteFails (b := s.quiet) (h.history.table.inUse hocc).port
        hb hfails, hrest⟩
  | spawn _ _ => exact hcloses.elim
  | sendEof _ => exact hcloses.elim
  | sendClose _ => exact hfits.elim

theorem Delivery.sendToCorrectService (h : Delivery s) {course : Course}
    (hmay : s.NoCrossing (.toAccessory course)) (ht : s.sendToCorrectService course = some t) :
    Delivery t := by
  unfold EndsState.sendToCorrectService at ht
  split at ht
  · cases ht
  · next frame rest hqueue =>
    obtain ⟨i, hi, ht⟩ := Option.bind_eq_some_iff.mp ht
    have hrest : rest ⊆ s.toAccessory := by
      rw [hqueue]
      exact List.subset_cons_self _ _
    have hjustified : Justified (Admits s.accessory) rest := by
      have hinput := h.input
      rw [hqueue] at hinput
      refine hinput.tail.mono fun before later _ _ hadmits j hj hocc => ?_
      obtain ⟨hopen, hnone⟩ := hadmits j hj hocc
      exact ⟨hopen, fun eof heof => hnone eof (List.mem_cons_of_mem _ heof)⟩
    split at ht
    · cases ht
      exact ⟨h.history, h.closed, fun later hlater => h.writer later (hrest hlater), hjustified,
        h.handed⟩
    · next hocc =>
      obtain ⟨r, hr, rfl⟩ := Option.map_eq_some_iff.mp ht
      have hhanded : ∀ x ∈ s.handed ++ [⟨frame.writer, s.accessory.incarnation i, s.inputClosed i⟩],
          x.writer = x.incarnation ∧ x.closed = false := by
        intro x hx
        obtain hx | hx := List.mem_append.mp hx
        · exact h.handed x hx
        · cases List.mem_singleton.mp hx
          exact h.head hqueue hi hocc
      cases course with
      | perform op =>
          simp only [call] at hr
          split at hr
          · next hfits =>
            obtain ⟨b, hb, rfl⟩ := Option.map_eq_some_iff.mp hr
            apply h.record (perform_spec (b := s.quiet) h.history.table rfl hb) hrest hjustified _ _
              hhanded
            · rintro j protocol rfl later hlater
              exact hmay later (hrest hlater)
            · intro later hlater j hj
              exact h.fits hqueue hi hfits hmay hb hlater hj
          · cases hr
      | deny error =>
          simp only [call] at hr
          split at hr
          · obtain ⟨c, hc, rfl⟩ := Option.map_eq_some_iff.mp hr
            exact h.idle hc (b := c.writeAllPort i _) rfl rfl hrest hjustified hhanded
          · cases hr
      | unanswered =>
          simp only [call] at hr
          obtain ⟨c, hc, rfl⟩ := Option.map_eq_some_iff.mp hr
          exact h.idle hc rfl rfl hrest hjustified hhanded

theorem Delivery.step (h : Delivery s) {label : EndsLabel} (hmay : s.NoCrossing label)
    (ht : s.step label = some t) : Delivery t := by
  cases label with
  | request bytes => exact h.libraryWrite hmay ht
  | register k =>
      simp only [EndsState.step, EndsState.register] at ht
      split at ht
      · obtain ⟨i, -, rfl⟩ := Option.map_eq_some_iff.mp ht
        exact h.phone ⟨rfl, rfl, rfl, rfl, rfl, rfl⟩
      · cases ht
  | assign k =>
      simp only [EndsState.step, EndsState.assign] at ht
      split at ht
      · obtain ⟨port, -, rfl⟩ := Option.map_eq_some_iff.mp ht
        exact h.phone (sameWire_setService s k _)
      · cases ht
  | writeTest k data =>
      simp only [EndsState.step, EndsState.writeTest] at ht
      split at ht
      · split at ht
        · cases ht
          exact h.phone ⟨rfl, rfl, rfl, rfl, rfl, rfl⟩
        · cases ht
      · cases ht
  | write k =>
      simp only [EndsState.step, EndsState.write] at ht
      split at ht
      · next port data hk _ =>
        have hport : s.MayWrite k port.portNr := by
          simpa [NoCrossing, PortMayWrite, hk] using hmay
        cases ht
        exact (h.portWrite hport).phone ⟨rfl, rfl, rfl, rfl, rfl, rfl⟩
      · cases ht
  | close k => exact h.clear ht
  | eof k => exact h.clear ht
  | tell n => exact h.tell hmay ht
  | toPhone => exact h.phone (sameWire_toPhone ht)
  | toAccessory course => exact h.sendToCorrectService hmay ht
  | sendEof i => exact h.sendEof ht
  | sendClose i => exact h.sendClose hmay ht

theorem Delivery.initial : Delivery .initial where
  history := .initial
  closed _ _ _ := List.not_mem_nil
  writer := nofun
  input := .nil
  handed := nofun

end EndsState

open EndsState

/-- Any run of both sides, with services that call `sendEof` and `sendClose` when
they like, over any reuse of ports. If no frame crosses the close of the input it
is for, or the reuse of its slot, `sendToCorrectService` calls an incarnation only
with frames its own `Port` wrote, and not once its input has been closed. -/
theorem data_reaches_its_service (s : EndsState) (h : (bothEnds.guard NoCrossing).Reachable s) :
    ∀ x ∈ s.handed, x.writer = x.incarnation ∧ x.closed = false := by
  have hdelivery : Delivery s := by
    apply h.invariant
    · rintro s rfl
      exact .initial
    · intro s label t hs ht
      obtain ⟨hmay, hstep⟩ := Machine.guard_step.mp ht
      exact hs.step hmay hstep
  exact hdelivery.handed

/-- A bulk service is requested, and becomes incarnation `k`. -/
private def openBulk (k : Nat) : List EndsLabel :=
  [.request [0x6f, 1, 0, 0], .toAccessory (.perform (.spawn firstPort .bulk)), .toPhone,
    .register k, .assign k]

private def writeData : List EndsLabel := [.writeTest 3 [0x2a], .write 3]

/-- The data arrives; `outcome` is what `write` on the fifo returns. -/
private def handOver (outcome : Int) : EndsLabel :=
  .toAccessory (.perform (.data firstPort [0x2a] [outcome] []))

private def writeThenEof : List EndsLabel :=
  openBulk 3 ++ writeData ++
    [handOver 1, .eof 3, .tell 0, .toAccessory (.perform (.status firstPort streamEof)), .tell 0]

private theorem writeThenEof_isSome :
    ((bothEnds.guard NoCrossing).run .initial writeThenEof).isSome := by decide +kernel

theorem data_reaches_its_service_eof :
    ∃ s, (bothEnds.guard NoCrossing).Reachable s ∧
      s.handed.map (·.incarnation) = [1, 3, 0] ∧
      ∀ x ∈ s.handed, x.writer = x.incarnation ∧ x.closed = false :=
  ⟨_, .of_run rfl writeThenEof_isSome, by decide +kernel,
    data_reaches_its_service _ (.of_run rfl writeThenEof_isSome)⟩

/-- The payload has gone when the first of two frames arrives. -/
private def closedInput : List EndsLabel :=
  openBulk 3 ++ writeData ++ writeData ++ [handOver (-1), handOver 1]

/-- A request and data are on the way while the service of the data closes both
directions; the request gets its slot. -/
private def reusedSlot : List EndsLabel :=
  openBulk 3 ++ [.request [0x6f, 1, 0, 0]] ++ writeData ++
    [.sendEof firstPort, .sendClose firstPort, .toAccessory (.perform (.spawn firstPort .bulk)),
      handOver 1]

private theorem closedInput_isSome : (bothEnds.run .initial closedInput).isSome := by
  decide +kernel

private theorem reusedSlot_isSome : (bothEnds.run .initial reusedSlot).isSome := by
  decide +kernel

theorem stale_data_handed_over :
    (∃ s, bothEnds.run .initial closedInput = some s ∧ ⟨3, 3, true⟩ ∈ s.handed) ∧
      ∃ s, bothEnds.run .initial reusedSlot = some s ∧ ⟨3, 4, false⟩ ∈ s.handed :=
  ⟨⟨_, (Option.some_get closedInput_isSome).symm, by decide +kernel⟩,
    _, (Option.some_get reusedSlot_isSome).symm, by decide +kernel⟩

end AapBridge.Wire
