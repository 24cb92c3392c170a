import AapBridge.Accessory.StartOrder

/-! # What the messages of an incarnation say

The bridge queues bytes and ports; which incarnation they belong to is a matter
of where they come from. Here the two are tied together: the OPEN response names
the slot of the incarnation it opens, and what an incarnation sends is a frame
on its slot or a status about it. A port that is read after the slot has been
reset is −1.
-/

namespace AapBridge.Accessory

open AapBridge.Lib AapBridge.Lib.HalfClose

/-- What `port` of slot `i` may hold when it is read. -/
def Names (i : Slot) (port : Int) : Prop := port = i ∨ port = -1

/-- A buffer `sendEof` or `sendClose` builds for slot `i`. -/
def IsStatus (i : Slot) (buffer : List UInt8) : Prop :=
  ∃ port g, Names i port ∧ buffer = statusBuffer port g

/-- A frame on slot `i`, or a status about it. -/
def IsAbout (i : Slot) (msg : MultiplexedMessage) : Prop :=
  (∃ port, Names i port ∧ msg.port = BitVec.ofInt 16 port) ∨ IsStatus i msg.data

/-- What a message says, given the slot of every incarnation. -/
def Conveys (slot : Nat → Slot) : Origin → Option MultiplexedMessage → Prop
  | .bridge, _ => True
  | .opened k, msg => ∃ m, msg = some m ∧ m.data = openResponse (slot k)
  | .service k, msg => ∃ m, msg = some m ∧ IsAbout (slot k) m

def MainPc.Conveys (slot : Nat → Slot) : MainPc → Prop
  | .sendClear i _ buffer => IsStatus i buffer
  | .write _ buffer (.opened k) _ => buffer = openResponse (slot k)
  | .write i buffer (.service k) _ => i = slot k ∨ IsStatus (slot k) buffer
  | .addWait msg origin _ | .addStore msg origin _ => Accessory.Conveys slot origin msg
  | _ => True

def ServicePc.Conveys (i : Slot) : ServicePc → Prop
  | .eofClear buffer | .eofWrite buffer => IsStatus i buffer
  | .addWait msg _ | .addStore msg _ => IsAbout i msg
  | _ => True

namespace ThreadsState

variable {s t : ThreadsState}

structure Faithful (s : ThreadsState) : Prop where
  ports : ∀ i, Names i (s.bridge.services i).port
  main : s.main.Conveys s.slot
  thread : ∀ k, (s.pc k).Conveys (s.slot k)
  log : ∀ origin msg, (origin, msg) ∈ s.added → Conveys s.slot origin msg

theorem modify_names (h : ∀ j, Names j (s.bridge.services j).port) {i : Slot}
    {f : BridgeService → BridgeService} (hf : Names i (f (s.bridge.services i)).port) (j : Slot) :
    Names j ((s.bridge.modify i f).services j).port := by
  by_cases hj : j = i
  · subst hj
    rw [BridgeConnection.modify_services_self]
    exact hf
  · rw [BridgeConnection.modify_services_ne _ hj]
    exact h j

namespace Faithful

theorem message (h : Faithful s) (i : Slot) (buffer : List UInt8) :
    IsAbout i (s.message i buffer) := .inl ⟨_, h.ports i, rfl⟩

theorem status (h : Faithful s) (i : Slot) (g : Signal) :
    IsStatus i (statusBuffer (s.bridge.services i).port g) := ⟨_, g, h.ports i, rfl⟩

theorem move (ha : Announced s) (h : Faithful s) {label : ThreadsLabel} {pc pc' : MainPc}
    (hpc : s.main = pc) (hm : MainMove s label pc pc') : pc'.Conveys s.slot := by
  have hmain := h.main
  rw [hpc] at hmain
  cases hm with
  | @replied _ _ i _ _ => exact .inl (ha.working i (by rw [hpc]; rfl)).2.symm
  | @build i g => exact h.status i g
  | @message i buffer origin next =>
      cases origin with
      | bridge => trivial
      | opened k => exact ⟨_, rfl, hmain⟩
      | service k =>
          obtain rfl | hstatus := hmain
          · exact ⟨_, rfl, h.message _ buffer⟩
          · exact ⟨_, rfl, .inr hstatus⟩
  | _ => trivial

theorem serviceMove (h : Faithful s) {k : Nat} {label : ThreadsLabel} {pc pc' : ServicePc}
    (hpc : s.pc k = pc) (hm : ServiceMove s k label pc pc') : pc'.Conveys (s.slot k) := by
  have hthread := h.thread k
  rw [hpc] at hthread
  cases hm with
  | @write data => exact h.message _ data
  | eofBuild => exact h.status _ .eof
  | eofWrite => exact .inr hthread
  | _ => trivial

theorem enter (h : Faithful s) {pc : MainPc} (hpc : pc.Conveys s.slot) : Faithful (s.enter pc) :=
  ⟨h.ports, hpc, h.thread, h.log⟩

theorem place (h : Faithful s) {k : Nat} {pc : ServicePc} (hpc : pc.Conveys (s.slot k)) :
    Faithful (s.place k pc) := by
  have hslot : (s.place k pc).slot = s.slot := funext fun j => place_slot s k j pc
  refine ⟨h.ports, ?_, fun j => ?_, ?_⟩
  · rw [hslot]
    exact h.main
  · rw [hslot]
    by_cases hj : j = k
    · subst hj
      rw [place_pc_self]
      exact hpc
    · rw [place_pc_ne s hj]
      exact h.thread j
  · rw [hslot]
    exact h.log

theorem modify (h : Faithful s) {i : Slot} {f : BridgeService → BridgeService}
    (hf : Names i (f (s.bridge.services i)).port) : Faithful (s.modify i f) :=
  ⟨modify_names h.ports hf, h.main, h.thread, h.log⟩

theorem stopWork (h : Faithful s) (k : Nat) : Faithful (s.stopWork k) := by
  have hslot : (s.stopWork k).slot = s.slot := funext fun j => stopWork_slot s k j
  refine ⟨h.ports, ?_, fun j => ?_, ?_⟩
  · rw [hslot]
    exact h.main
  · rw [hslot, stopWork_pc]
    exact h.thread j
  · rw [hslot]
    exact h.log

theorem store (h : Faithful s) {origin : Origin} {msg : Option MultiplexedMessage}
    (hmsg : Conveys s.slot origin msg) : Faithful (s.store msg origin) := by
  refine ⟨h.ports, h.main, h.thread, fun o m hm => ?_⟩
  obtain hm | hm := List.mem_append.mp hm
  · exact h.log o m hm
  · cases List.mem_singleton.mp hm
    exact hmsg

/-- What was sent before says nothing about the new incarnation. -/
theorem create (ha : Announced s) (h : Faithful s) (i : Slot)
    (protocol : BridgeConnection.Protocol) : Faithful (s.create i protocol) := by
  have hslot : ∀ k, k < s.started → (s.create i protocol).slot k = s.slot k := fun k hk =>
    create_slot_ne s (Nat.ne_of_lt hk) i protocol
  refine ⟨h.ports, trivial, fun k => ?_, fun origin msg hmsg => ?_⟩
  · by_cases hk : k = s.started
    · subst hk
      obtain hnew | hnew := create_pc_self s i protocol <;> rw [hnew] <;> trivial
    · rw [create_pc_ne s hk, create_slot_ne s hk]
      exact h.thread k
  · have hconveys := h.log origin msg hmsg
    cases origin with
    | bridge => trivial
    | opened k =>
        rw [Conveys, hslot k (ha.logged k msg (.inl hmsg))]
        exact hconveys
    | service k =>
        rw [Conveys, hslot k (ha.logged k msg (.inr hmsg))]
        exact hconveys

/-- What these fields say does not depend on the others. -/
theorem congr (h : Faithful s) (hsame : t = { s with
      startLock := t.startLock, cleanupLock := t.cleanupLock, incarnation := t.incarnation
      started := t.started, work := t.work, sender := t.sender, receiver := t.receiver
      spaceSem := t.spaceSem, queue := t.queue }) : Faithful t := by
  rw [hsame]
  exact ⟨h.ports, h.main, h.thread, h.log⟩

theorem update (ha : Announced s) (h : Faithful s) {pc pc' : MainPc} {i : Slot}
    {f : BridgeService → BridgeService} (hpc : s.main = pc) (hu : MainUpdate s pc i f pc') :
    Faithful ((s.modify i f).enter pc') := by
  have hmain := h.main
  rw [hpc] at hmain
  have hport : Names i (f (s.bridge.services i)).port := by
    rw [hu.keepsCallbacks.port]
    exact h.ports i
  apply (h.modify hport).enter
  cases hu with
  | @send i g buffer =>
      have hslot := (ha.working i (by rw [hpc]; rfl)).2
      refine .inr ?_
      show IsStatus (s.slot (s.incarnation i)) buffer
      rw [hslot]
      exact hmain
  | _ => trivial

theorem step (ho : Owners s) (ha : Announced s) (h : Faithful s) {label : ThreadsLabel}
    (ht : s.step label = some t) : Faithful t := by
  have hmain := h.main
  cases step_cases ht with
  | ignored => exact h
  | main hpc hm => exact h.enter (h.move ha hpc hm)
  | mainUpdate hpc hu => exact h.update ha hpc hu
  | create hpc => exact h.create ha _ _
  | @allocate i code hpc hfree =>
      have hports := modify_names h.ports (i := i) (f := fun service => { service with port := i })
        (.inl rfl)
      exact ⟨hports, trivial, h.thread, h.log⟩
  | @install i k protocol hpc =>
      obtain ⟨-, ⟨-, hslot, -, -⟩, -⟩ := ho.installing i k protocol hpc
      have hopens : openResponse i = openResponse (s.slot k) := by rw [hslot]
      have hports : ∀ j, Names j ((s.bridge.install i protocol).services j).port := by
        rw [BridgeConnection.install]
        apply modify_names h.ports
        cases protocol <;> exact h.ports i
      exact ⟨hports, hopens, h.thread, h.log⟩
  | mainWait hpc =>
      rw [hpc] at hmain
      have htaken : Faithful { s with spaceSem := s.spaceSem - 1 } := h.congr rfl
      exact htaken.enter hmain
  | mainStore hpc =>
      rw [hpc] at hmain
      exact (h.store hmain).enter trivial
  | signalsCleanup hpc => exact (h.stopWork _).enter trivial
  | mainReset hpc => exact (h.modify (.inr rfl)).enter trivial
  | spawnLock => exact ⟨h.ports, trivial, h.thread, h.log⟩
  | spawnUnlock => exact ⟨h.ports, trivial, h.thread, h.log⟩
  | mainCleanupLock => exact ⟨h.ports, trivial, h.thread, h.log⟩
  | mainCleanupUnlock => exact ⟨h.ports, trivial, h.thread, h.log⟩
  | service hpc hm => exact h.place (h.serviceMove hpc hm)
  | @eofClear k buffer hpc =>
      have hthread := h.thread k
      rw [hpc] at hthread
      have hcleared : Faithful (s.modify (s.slot k) (closeFlag .eof)) := h.modify (h.ports _)
      exact hcleared.place hthread
  | @serviceWait k msg next hpc =>
      have hthread := h.thread k
      rw [hpc] at hthread
      have htaken : Faithful { s with spaceSem := s.spaceSem - 1 } := h.congr rfl
      exact htaken.place hthread
  | @serviceStore k msg next hpc =>
      have hthread := h.thread k
      rw [hpc] at hthread
      have hstored : Faithful (s.store (some msg) (.service k)) := h.store ⟨msg, rfl, hthread⟩
      exact hstored.place trivial
  | @startLock k =>
      have hlocked : Faithful { s with startLock := some (.service k) } := h.congr rfl
      exact hlocked.place trivial
  | @startUnlock =>
      have hunlocked : Faithful { s with startLock := none } := h.congr rfl
      exact hunlocked.place trivial
  | @serviceCleanupLock k =>
      have hlocked : Faithful { s with cleanupLock := some (.service k) } := h.congr rfl
      exact hlocked.place trivial
  | @serviceReset k =>
      have hreset : Faithful (s.modify (s.slot k) fun _ => .unused) := h.modify (.inr rfl)
      exact hreset.place trivial
  | serviceCleanupUnlock =>
      have hunlocked : Faithful { s with cleanupLock := none } := h.congr rfl
      exact hunlocked.place trivial
  | senderTest | senderPoll | wrote | receiverNull | receiverEnds => exact h.congr rfl

theorem initial : Faithful .initial where
  ports i := by
    simp only [ThreadsState.initial, initServer]
    split_ifs with h0 h1 h2 <;> simp [Names, BridgeService.unused, *]
  main := trivial
  thread _ := trivial
  log := nofun

end Faithful

end ThreadsState


open ThreadsState

end AapBridge.Accessory
