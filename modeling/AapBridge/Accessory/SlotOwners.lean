import AapBridge.Accessory.ThreadSteps

/-! # Threads and the slots they serve

A service's thread that has not ended owns its slot: it is the last incarnation
there, the port is taken, and the callback that joins it is installed, or about
to be. So a slot is reset only when its thread has ended or is about to.
-/

namespace AapBridge.Accessory

open AapBridge.Lib AapBridge.Lib.HalfClose

namespace BridgeConnection.Protocol

def onBytesReceived : Protocol → OnBytesReceived
  | .bulk => .bulkOnBytesReceived
  | .method => .methodOnBytesReceived
  | .signals => .signalsOnBytesReceived

def onEof : Protocol → OnEof
  | .bulk => .bulkOnEof
  | .method => .methodOnEof
  | .signals => .signalsOnEof

def onCleanupService : Protocol → OnCleanupService
  | .bulk => .bulkCleanup
  | .method => .methodCleanup
  | .signals => .signalsCleanup

end BridgeConnection.Protocol

/-- A callback of the service is installed. -/
def BridgeService.Serves (service : BridgeService) (protocol : BridgeConnection.Protocol) : Prop :=
  service.onBytesReceived = some protocol.onBytesReceived ∨
    service.onEof = some protocol.onEof ∨
    service.onCleanupService = some protocol.onCleanupService

/-- `onCleanupService` joins the thread of the service. -/
def BridgeService.JoinsThread (service : BridgeService) : Prop :=
  service.onCleanupService = some .bulkCleanup ∨ service.onCleanupService = some .signalsCleanup

/-- The thread may still use its slot. -/
def ServicePc.Alive : ServicePc → Prop
  | .notCreated | .cleanupUnlock | .ended => False
  | _ => True

/-- Places of main the invariant says nothing about. -/
def MainPc.Plain : MainPc → Prop
  | .spawnInit _ _ | .spawnInstall _ _ _ | .cleanupJoin _ _ _ | .cleanupReset _ _ => False
  | _ => True

/-- Main holds the start lock here. -/
def MainPc.InSpawn : MainPc → Prop
  | .spawnOpen _ | .spawnInit _ _ | .spawnInstall _ _ _ => True
  | .resume next | .write _ _ _ next | .addWait _ _ next | .addStore _ _ next
  | .cleanupLock _ next | .cleanupCallback _ next | .cleanupJoin _ _ next | .cleanupReset _ next
  | .cleanupUnlock next => next = .spawnUnlock
  | _ => False

theorem BridgeService.not_serves_unused (protocol : BridgeConnection.Protocol) :
    ¬BridgeService.unused.Serves protocol := by
  rintro (h | h | h) <;> cases h

namespace ThreadsState

variable {s t : ThreadsState}

/-- Incarnation `k` of this protocol is the last on slot `i`. -/
def Holds (s : ThreadsState) (i : Slot) (k : Nat) (protocol : BridgeConnection.Protocol) : Prop :=
  k < s.started ∧ s.slot k = i ∧ s.incarnation i = k ∧ (s.thread k).protocol = protocol

structure Owners (s : ThreadsState) : Prop where
  startMain : s.main.InSpawn → s.startLock = some .main
  startThread : ∀ k, s.pc k = .startUnlock → s.startLock = some (.service k)
  fresh : ∀ k, s.started ≤ k → s.pc k = .notCreated
  method : ∀ k, (s.thread k).protocol = .method → s.pc k = .notCreated
  last : ∀ k, (s.pc k).Alive → s.incarnation (s.slot k) = k
  port : ∀ k, (s.pc k).Alive → (s.bridge.services (s.slot k)).port ≠ -1
  callback : ∀ k, (s.pc k).Alive → (s.bridge.services (s.slot k)).JoinsThread ∨
    ∃ i protocol, s.main = .spawnInstall i k protocol
  spawning : ∀ i code, s.main = .spawnInit i code → (s.bridge.services i).port ≠ -1 ∧
    (∀ protocol, ¬(s.bridge.services i).Serves protocol) ∧ ∀ k, (s.pc k).Alive → s.slot k ≠ i
  installing : ∀ i k protocol, s.main = .spawnInstall i k protocol →
    (s.bridge.services i).port ≠ -1 ∧ s.Holds i k protocol ∧
      (s.pc k = .notCreated ∨ s.pc k = .startLock)
  joining : ∀ i k next, s.main = .cleanupJoin i k next → s.incarnation i = k
  resetting : ∀ i next, s.main = .cleanupReset i next → ∀ k, (s.pc k).Alive → s.slot k ≠ i
  installed : ∀ i protocol, (s.bridge.services i).Serves protocol →
    s.Holds i (s.incarnation i) protocol
  free : ∀ i, (s.bridge.services i).port = -1 → ∀ protocol, ¬(s.bridge.services i).Serves protocol

theorem modify_same (s : ThreadsState) {i : Slot} {f : BridgeService → BridgeService}
    (hf : KeepsCallbacks f) (j : Slot) :
    ((s.modify i f).bridge.services j).port = (s.bridge.services j).port ∧
      (∀ protocol, ((s.modify i f).bridge.services j).Serves protocol ↔
        (s.bridge.services j).Serves protocol) ∧
      (((s.modify i f).bridge.services j).JoinsThread ↔ (s.bridge.services j).JoinsThread) := by
  by_cases hj : j = i
  · subst hj
    have hself : (s.modify j f).bridge.services j = f (s.bridge.services j) :=
      BridgeConnection.modify_services_self _ _ _
    rw [hself]
    refine ⟨hf.port _, fun protocol => ?_, ?_⟩
    · rw [BridgeService.Serves, hf.onBytesReceived, hf.onEof, hf.onCleanupService]
      rfl
    · rw [BridgeService.JoinsThread, hf.onCleanupService]
      rfl
  · have hsame : (s.modify i f).bridge.services j = s.bridge.services j :=
      BridgeConnection.modify_services_ne _ hj _
    rw [hsame]
    exact ⟨rfl, fun _ => Iff.rfl, Iff.rfl⟩

theorem reset_self (s : ThreadsState) (i : Slot) :
    (s.modify i fun _ => .unused).bridge.services i = .unused :=
  s.bridge.modify_services_self i fun _ => .unused

theorem reset_ne (s : ThreadsState) {i j : Slot} (hj : j ≠ i) :
    (s.modify i fun _ => .unused).bridge.services j = s.bridge.services j :=
  s.bridge.modify_services_ne hj fun _ => .unused

theorem MainMove.inSpawn {label : ThreadsLabel} {pc pc' : MainPc} (h : MainMove s label pc pc')
    (hpc : pc'.InSpawn) : pc.InSpawn := by
  cases h with
  | message => exact hpc
  | noPort => trivial
  | denied => trivial
  | callbackBulk => exact hpc
  | callbackOther => exact hpc
  | joined => exact hpc
  | @sendOpen _ g => cases g <;> cases hpc
  | @sendClosed _ g => cases g <;> cases hpc
  | _ => cases hpc

theorem MainMove.not_install {label : ThreadsLabel} {pc pc' : MainPc} (h : MainMove s label pc pc')
    (i : Slot) (k : Nat) (protocol : BridgeConnection.Protocol) : pc ≠ .spawnInstall i k protocol := by
  rintro rfl
  cases h

theorem MainUpdate.not_install {pc pc' : MainPc} {i : Slot} {f : BridgeService → BridgeService}
    (h : MainUpdate s pc i f pc') (j : Slot) (k : Nat) (protocol : BridgeConnection.Protocol) :
    pc ≠ .spawnInstall j k protocol := by
  rintro rfl
  cases h

theorem MainUpdate.plain {pc pc' : MainPc} {i : Slot} {f : BridgeService → BridgeService}
    (h : MainUpdate s pc i f pc') : pc'.Plain ∧ ¬pc'.InSpawn := by
  cases h with
  | receivedEof => exact ⟨trivial, id⟩
  | _ => exact ⟨trivial, nofun⟩

namespace Owners

/-! ## Main -/

theorem enter (h : Owners s) {pc pc' : MainPc} (hpc : s.main = pc)
    (hspawn : pc'.InSpawn → pc.InSpawn) (hfrom : ∀ i k protocol, pc ≠ .spawnInstall i k protocol)
    (hto : pc'.Plain) : Owners (s.enter pc') where
  startMain hin := h.startMain (hpc ▸ hspawn hin)
  startThread := h.startThread
  fresh := h.fresh
  method := h.method
  last := h.last
  port := h.port
  callback k hk := by
    obtain hjoins | ⟨i, protocol, hinstall⟩ := h.callback k hk
    · exact .inl hjoins
    · exact absurd (hpc.symm.trans hinstall) (hfrom i k protocol)
  spawning i code hin := by cases show pc' = _ from hin; exact hto.elim
  installing i k protocol hin := by cases show pc' = _ from hin; exact hto.elim
  joining i k next hin := by cases show pc' = _ from hin; exact hto.elim
  resetting i next hin := by cases show pc' = _ from hin; exact hto.elim
  installed := h.installed
  free := h.free

/-- Going to join the thread of slot `i`. -/
theorem join (h : Owners s) {i : Slot} {next : Next} (hpc : s.main = .cleanupCallback i next) :
    Owners (s.enter (.cleanupJoin i (s.incarnation i) next)) where
  startMain hnext := h.startMain (by rw [hpc]; exact hnext)
  startThread := h.startThread
  fresh := h.fresh
  method := h.method
  last := h.last
  port := h.port
  callback k hk := by
    obtain hjoins | ⟨j, protocol, hinstall⟩ := h.callback k hk
    · exact .inl hjoins
    · simp [hpc] at hinstall
  spawning := nofun
  installing := nofun
  joining := by
    rintro j k next' ⟨⟩
    rfl
  resetting := nofun
  installed := h.installed
  free := h.free

/-- Going to reset slot `i`, whose thread has ended. -/
theorem resetNext (h : Owners s) {pc : MainPc} {i : Slot} {next : Next} (hpc : s.main = pc)
    (hspawn : next = .spawnUnlock → pc.InSpawn)
    (hfrom : ∀ i k protocol, pc ≠ .spawnInstall i k protocol)
    (hgone : ∀ k, (s.pc k).Alive → s.slot k ≠ i) : Owners (s.enter (.cleanupReset i next)) where
  startMain hnext := h.startMain (hpc ▸ hspawn hnext)
  startThread := h.startThread
  fresh := h.fresh
  method := h.method
  last := h.last
  port := h.port
  callback k hk := by
    obtain hjoins | ⟨j, protocol, hinstall⟩ := h.callback k hk
    · exact .inl hjoins
    · exact absurd (hpc.symm.trans hinstall) (hfrom j k protocol)
  spawning := nofun
  installing := nofun
  joining := nofun
  resetting := by
    rintro j next' ⟨⟩
    exact hgone
  installed := h.installed
  free := h.free

theorem modify (h : Owners s) {i : Slot} {f : BridgeService → BridgeService}
    (hf : KeepsCallbacks f) : Owners (s.modify i f) where
  startMain := h.startMain
  startThread := h.startThread
  fresh := h.fresh
  method := h.method
  last := h.last
  port k hk := by
    rw [(modify_same s hf _).1]
    exact h.port k hk
  callback k hk := (h.callback k hk).imp (modify_same s hf _).2.2.mpr id
  spawning j code hpc := by
    obtain ⟨hport, hnone, hgone⟩ := h.spawning j code hpc
    obtain ⟨hport', hserves, -⟩ := modify_same s hf j
    exact ⟨hport' ▸ hport, fun protocol hj => hnone protocol ((hserves protocol).mp hj), hgone⟩
  installing j k protocol hpc := by
    obtain ⟨hport, hrest⟩ := h.installing j k protocol hpc
    exact ⟨(modify_same s hf j).1 ▸ hport, hrest⟩
  joining := h.joining
  resetting := h.resetting
  installed j protocol hj := h.installed j protocol (((modify_same s hf j).2.1 protocol).mp hj)
  free j hj protocol hs :=
    h.free j ((modify_same s hf j).1 ▸ hj) protocol (((modify_same s hf j).2.1 protocol).mp hs)

/-- No thread is left on a slot that is not joined, or whose thread has been. -/
theorem move (h : Owners s) {label : ThreadsLabel} {pc pc' : MainPc} (hpc : s.main = pc)
    (hm : MainMove s label pc pc') : Owners (s.enter pc') := by
  have hspawn : pc'.InSpawn → pc.InSpawn := hm.inSpawn
  have hfrom : ∀ i k protocol, pc ≠ .spawnInstall i k protocol := hm.not_install
  cases hm with
  | callbackBulk => exact h.join hpc
  | @callbackOther i next hb hs =>
      apply h.resetNext hpc hspawn hfrom
      rintro k hk rfl
      obtain (hjoins | hjoins) | ⟨j, protocol, hinstall⟩ := h.callback k hk
      · exact hb hjoins
      · exact hs hjoins
      · exact hfrom j k protocol (hpc.symm.trans hinstall)
  | @joined i k next hended =>
      apply h.resetNext hpc hspawn hfrom
      rintro j hj rfl
      have hlast := h.last j hj
      rw [h.joining _ _ _ hpc] at hlast
      subst hlast
      rw [hended] at hj
      exact hj
  | _ => exact h.enter hpc hspawn hfrom trivial

theorem update (h : Owners s) {pc pc' : MainPc} {i : Slot} {f : BridgeService → BridgeService}
    (hpc : s.main = pc) (hu : MainUpdate s pc i f pc') : Owners ((s.modify i f).enter pc') :=
  (h.modify hu.keepsCallbacks).enter hpc (fun hin => absurd hin hu.plain.2) hu.not_install
    hu.plain.1

theorem allocate (h : Owners s) {i : Slot} {code : UInt8} (hpc : s.main = .spawnOpen code)
    (hfree : (s.bridge.services i).port = -1) :
    Owners { s with bridge := s.bridge.allocate i, main := .spawnInit i code } := by
  have hself : (s.bridge.allocate i).services i = { s.bridge.services i with port := i } :=
    s.bridge.modify_services_self i fun service => { service with port := i }
  have hne : ∀ j, j ≠ i → (s.bridge.allocate i).services j = s.bridge.services j := fun j hj =>
    s.bridge.modify_services_ne hj fun service => { service with port := i }
  have hgone : ∀ k, (s.pc k).Alive → s.slot k ≠ i := by
    rintro k hk rfl
    exact h.port k hk hfree
  have hserves : ∀ protocol, ¬((s.bridge.allocate i).services i).Serves protocol := by
    intro protocol
    rw [hself]
    exact h.free i hfree protocol
  constructor
  · exact fun _ => h.startMain (by rw [hpc]; trivial)
  · exact h.startThread
  · exact h.fresh
  · exact h.method
  · exact h.last
  · intro k hk
    show ((s.bridge.allocate i).services (s.slot k)).port ≠ -1
    rw [hne _ (hgone k hk)]
    exact h.port k hk
  · intro k hk
    show ((s.bridge.allocate i).services (s.slot k)).JoinsThread ∨ _
    rw [hne _ (hgone k hk)]
    obtain hjoins | ⟨j, protocol, hinstall⟩ := h.callback k hk
    · exact .inl hjoins
    · simp [hpc] at hinstall
  · rintro j code' ⟨⟩
    refine ⟨?_, hserves, hgone⟩
    show ((s.bridge.allocate i).services i).port ≠ -1
    rw [hself]
    show (i.val : Int) ≠ -1
    omega
  · nofun
  · nofun
  · nofun
  · intro j protocol hj
    by_cases hji : j = i
    · subst hji
      exact absurd hj (hserves protocol)
    · change ((s.bridge.allocate i).services j).Serves protocol at hj
      rw [hne j hji] at hj
      exact h.installed j protocol hj
  · intro j hj protocol
    change ((s.bridge.allocate i).services j).port = -1 at hj
    show ¬((s.bridge.allocate i).services j).Serves protocol
    by_cases hji : j = i
    · subst hji
      exact hserves protocol
    · rw [hne j hji] at hj ⊢
      exact h.free j hj protocol

/-- What the new incarnation does not touch. -/
theorem create_holds {i j : Slot} (hj : j ≠ i) {k : Nat} {protocol q : BridgeConnection.Protocol}
    (h : s.Holds j k q) : (s.create i protocol).Holds j k q := by
  obtain ⟨hk, hslot, hinc, hprotocol⟩ := h
  have hne : k ≠ s.started := by omega
  refine ⟨Nat.lt_succ_of_lt hk, by rw [create_slot_ne s hne, hslot], ?_, ?_⟩
  · show Function.update s.incarnation i s.started j = k
    rw [Function.update_of_ne hj, hinc]
  · show (Function.update s.thread s.started _ k).protocol = q
    rw [Function.update_of_ne hne, hprotocol]

theorem create (h : Owners s) {i : Slot} {code : UInt8} (hpc : s.main = .spawnInit i code)
    (protocol : BridgeConnection.Protocol) : Owners (s.create i protocol) := by
  obtain ⟨hport, hnone, hgone⟩ := h.spawning i code hpc
  have hself : (s.create i protocol).Holds i s.started protocol := by
    refine ⟨Nat.lt_succ_self _, create_slot_self s i protocol, ?_, ?_⟩
    · exact Function.update_self _ _ _
    · show (Function.update s.thread s.started _ s.started).protocol = protocol
      rw [Function.update_self]
  -- a thread that is alive afterwards is the new one, or was alive on another slot
  have halive : ∀ k, ((s.create i protocol).pc k).Alive → k ≠ s.started →
      (s.pc k).Alive ∧ s.slot k ≠ i := by
    intro k hk hne
    rw [create_pc_ne s hne] at hk
    exact ⟨hk, hgone k hk⟩
  constructor
  · exact fun _ => h.startMain (by rw [hpc]; trivial)
  · intro k hk
    by_cases hne : k = s.started
    · subst hne
      obtain hnew | hnew := create_pc_self s i protocol <;> rw [hnew] at hk <;> cases hk
    · rw [create_pc_ne s hne] at hk
      exact h.startThread k hk
  · intro k hk
    have hlt : s.started + 1 ≤ k := hk
    rw [create_pc_ne s (by omega)]
    exact h.fresh k (by omega)
  · intro k hk
    by_cases hne : k = s.started
    · subst hne
      have hp : protocol = .method := hself.2.2.2.symm.trans hk
      subst hp
      simp [ThreadsState.create, pc]
    · rw [create_pc_ne s hne]
      change (Function.update s.thread s.started _ k).protocol = _ at hk
      rw [Function.update_of_ne hne] at hk
      exact h.method k hk
  · intro k hk
    by_cases hne : k = s.started
    · subst hne
      rw [create_slot_self]
      exact hself.2.2.1
    · obtain ⟨hk, hslot⟩ := halive k hk hne
      rw [create_slot_ne s hne]
      show Function.update s.incarnation i s.started (s.slot k) = k
      rw [Function.update_of_ne hslot]
      exact h.last k hk
  · intro k hk
    by_cases hne : k = s.started
    · subst hne
      rw [create_slot_self]
      exact hport
    · rw [create_slot_ne s hne]
      exact h.port k (halive k hk hne).1
  · intro k hk
    by_cases hne : k = s.started
    · subst hne
      exact .inr ⟨i, protocol, rfl⟩
    · rw [create_slot_ne s hne]
      obtain hjoins | ⟨j, q, hinstall⟩ := h.callback k (halive k hk hne).1
      · exact .inl hjoins
      · simp [hpc] at hinstall
  · rintro j code' ⟨⟩
  · rintro j k q ⟨⟩
    exact ⟨hport, hself, create_pc_self s i protocol⟩
  · rintro j k next ⟨⟩
  · rintro j next ⟨⟩
  · intro j q hj
    have hji : j ≠ i := by
      rintro rfl
      exact hnone q hj
    have hholds : (s.create i protocol).Holds j (s.incarnation j) q :=
      create_holds hji (h.installed j q hj)
    rwa [← show (s.create i protocol).incarnation j = s.incarnation j from
      Function.update_of_ne hji _ _] at hholds
  · exact h.free

/-- The callbacks are stored while the thread waits for the start lock. -/
theorem install (h : Owners s) {i : Slot} {k : Nat} {protocol : BridgeConnection.Protocol}
    (hpc : s.main = .spawnInstall i k protocol) :
    Owners { s with
      bridge := s.bridge.install i protocol
      main := .write spawnerService (openResponse i) (.opened k) .spawnUnlock } := by
  obtain ⟨hport, hholds, hwaits⟩ := h.installing i k protocol hpc
  have hne : ∀ j, j ≠ i → (s.bridge.install i protocol).services j = s.bridge.services j := by
    intro j hj
    simp [BridgeConnection.install, BridgeConnection.modify, hj]
  have hself : ((s.bridge.install i protocol).services i).port = (s.bridge.services i).port ∧
      (∀ q, ((s.bridge.install i protocol).services i).Serves q → q = protocol) ∧
      (protocol ≠ .method → ((s.bridge.install i protocol).services i).JoinsThread) := by
    rw [BridgeConnection.install, BridgeConnection.modify_services_self]
    cases protocol with
    | bulk => exact ⟨rfl, fun q hq => by cases q <;> simp_all [BridgeService.Serves,
        BridgeConnection.Protocol.onBytesReceived, BridgeConnection.Protocol.onEof,
        BridgeConnection.Protocol.onCleanupService], fun _ => .inl rfl⟩
    | method => exact ⟨rfl, fun q hq => by cases q <;> simp_all [BridgeService.Serves,
        BridgeConnection.Protocol.onBytesReceived, BridgeConnection.Protocol.onEof,
        BridgeConnection.Protocol.onCleanupService], fun hp => absurd rfl hp⟩
    | signals => exact ⟨rfl, fun q hq => by cases q <;> simp_all [BridgeService.Serves,
        BridgeConnection.Protocol.onBytesReceived, BridgeConnection.Protocol.onEof,
        BridgeConnection.Protocol.onCleanupService], fun _ => .inr rfl⟩
  constructor
  · exact fun _ => h.startMain (by rw [hpc]; trivial)
  · exact h.startThread
  · exact h.fresh
  · exact h.method
  · exact h.last
  · intro j hj
    show ((s.bridge.install i protocol).services (s.slot j)).port ≠ -1
    by_cases hji : s.slot j = i
    · rw [hji, hself.1]
      exact hport
    · rw [hne _ hji]
      exact h.port j hj
  · intro j hj
    show ((s.bridge.install i protocol).services (s.slot j)).JoinsThread ∨ _
    by_cases hji : s.slot j = i
    · have hlast := h.last j hj
      rw [hji, hholds.2.2.1] at hlast
      subst hlast
      rw [hji]
      refine .inl (hself.2.2 fun hmethod => ?_)
      have hnot := h.method k (hholds.2.2.2.trans hmethod)
      change (s.pc k).Alive at hj
      rw [hnot] at hj
      exact hj
    · rw [hne _ hji]
      obtain hjoins | ⟨i', q, hinstall⟩ := h.callback j hj
      · exact .inl hjoins
      · rw [hpc] at hinstall
        cases hinstall
        exact absurd hholds.2.1 hji
  · simp
  · simp
  · simp
  · simp
  · intro j q hj
    change ((s.bridge.install i protocol).services j).Serves q at hj
    by_cases hji : j = i
    · subst hji
      rw [hself.2.1 q hj]
      show s.Holds j (s.incarnation j) protocol
      rw [hholds.2.2.1]
      exact hholds
    · rw [hne j hji] at hj
      exact h.installed j q hj
  · intro j hj q
    change ((s.bridge.install i protocol).services j).port = -1 at hj
    show ¬((s.bridge.install i protocol).services j).Serves q
    by_cases hji : j = i
    · subst hji
      rw [hself.1] at hj
      exact absurd hj hport
    · rw [hne j hji] at hj ⊢
      exact h.free j hj q

/-- Slot `i` can be reset once no thread is left on it and nothing is being opened there. -/
theorem reset (h : Owners s) {i : Slot} (hgone : ∀ k, (s.pc k).Alive → s.slot k ≠ i)
    (hspawning : ∀ code, s.main ≠ .spawnInit i code)
    (hinstalling : ∀ k protocol, s.main ≠ .spawnInstall i k protocol) :
    Owners (s.modify i fun _ => .unused) := by
  constructor
  · exact h.startMain
  · exact h.startThread
  · exact h.fresh
  · exact h.method
  · exact h.last
  · intro k hk
    show ((s.modify i fun _ => .unused).bridge.services (s.slot k)).port ≠ -1
    rw [reset_ne s (hgone k hk)]
    exact h.port k hk
  · intro k hk
    show ((s.modify i fun _ => .unused).bridge.services (s.slot k)).JoinsThread ∨ _
    rw [reset_ne s (hgone k hk)]
    exact h.callback k hk
  · intro j code hpc
    have hji : j ≠ i := by
      rintro rfl
      exact hspawning code hpc
    rw [reset_ne s hji]
    exact h.spawning j code hpc
  · intro j k protocol hpc
    have hji : j ≠ i := by
      rintro rfl
      exact hinstalling k protocol hpc
    rw [reset_ne s hji]
    exact h.installing j k protocol hpc
  · exact h.joining
  · exact h.resetting
  · intro j protocol hj
    by_cases hji : j = i
    · subst hji
      rw [reset_self] at hj
      exact absurd hj (BridgeService.not_serves_unused protocol)
    · rw [reset_ne s hji] at hj
      exact h.installed j protocol hj
  · intro j hj protocol
    by_cases hji : j = i
    · subst hji
      rw [reset_self]
      exact BridgeService.not_serves_unused protocol
    · rw [reset_ne s hji] at hj ⊢
      exact h.free j hj protocol

/-! ## Services -/

/-- A thread goes on, and may take or release the start lock. -/
theorem placeLock (h : Owners s) {k : Nat} {pc pc' : ServicePc} {lock : Option Holder}
    (hpc : s.pc k = pc) (hcreated : pc ≠ .notCreated) (halive : pc'.Alive → pc.Alive)
    (hmain : s.main.InSpawn → lock = some .main)
    (hself : pc' = .startUnlock → lock = some (.service k))
    (hother : ∀ j, j ≠ k → s.pc j = .startUnlock → lock = some (.service j))
    (hinstall : ∀ i protocol, s.main ≠ .spawnInstall i k protocol) :
    Owners ({ s with startLock := lock }.place k pc') := by
  subst hpc
  let u : ThreadsState := { s with startLock := lock }
  have hne : ∀ j, j ≠ k → (u.place k pc').pc j = s.pc j := fun j hj => place_pc_ne u hj pc'
  have hslot : ∀ j, (u.place k pc').slot j = s.slot j := fun j => place_slot u k j pc'
  have hback : ∀ j, ((u.place k pc').pc j).Alive → (s.pc j).Alive := by
    intro j hj
    by_cases hjk : j = k
    · subst hjk
      rw [place_pc_self] at hj
      exact halive hj
    · rwa [hne j hjk] at hj
  have hprotocol : ∀ j, ((u.place k pc').thread j).protocol = (s.thread j).protocol := by
    intro j
    by_cases hjk : j = k
    · subst hjk
      simp [ThreadsState.place, u]
    · simp [ThreadsState.place, u, hjk]
  have hholds : ∀ i j protocol, s.Holds i j protocol → (u.place k pc').Holds i j protocol := by
    rintro i j protocol ⟨hj, hs, hinc, hp⟩
    exact ⟨hj, by rw [hslot, hs], hinc, by rw [hprotocol, hp]⟩
  constructor
  · exact hmain
  · intro j hj
    by_cases hjk : j = k
    · subst hjk
      rw [place_pc_self] at hj
      exact hself hj
    · rw [hne j hjk] at hj
      exact hother j hjk hj
  · intro j hj
    by_cases hjk : j = k
    · subst hjk
      exact absurd (h.fresh j hj) hcreated
    · rw [hne j hjk]
      exact h.fresh j hj
  · intro j hj
    rw [hprotocol] at hj
    by_cases hjk : j = k
    · subst hjk
      exact absurd (h.method j hj) hcreated
    · rw [hne j hjk]
      exact h.method j hj
  · intro j hj
    rw [hslot]
    exact h.last j (hback j hj)
  · intro j hj
    rw [hslot]
    exact h.port j (hback j hj)
  · intro j hj
    rw [hslot]
    exact h.callback j (hback j hj)
  · intro i code hpc
    obtain ⟨hport, hnone, hgone⟩ := h.spawning i code hpc
    refine ⟨hport, hnone, fun j hj => ?_⟩
    rw [hslot]
    exact hgone j (hback j hj)
  · intro i j protocol hpc
    obtain ⟨hport, hj, hwaits⟩ := h.installing i j protocol hpc
    have hjk : j ≠ k := by
      rintro rfl
      exact hinstall i protocol hpc
    refine ⟨hport, hholds i j protocol hj, ?_⟩
    rw [hne j hjk]
    exact hwaits
  · exact h.joining
  · intro i next hpc j hj
    rw [hslot]
    exact h.resetting i next hpc j (hback j hj)
  · exact fun i protocol hi => hholds _ _ _ (h.installed i protocol hi)
  · exact h.free

/-- A thread goes on behind the start lock. -/
theorem place (h : Owners s) {k : Nat} {pc pc' : ServicePc} (hpc : s.pc k = pc)
    (hcreated : pc ≠ .notCreated) (hwaiting : pc ≠ .startLock) (halive : pc'.Alive → pc.Alive)
    (hlock : pc' ≠ .startUnlock) : Owners (s.place k pc') := by
  apply h.placeLock hpc hcreated halive h.startMain (fun heq => absurd heq hlock)
    (fun j _ hj => h.startThread j hj)
  intro i protocol hinstall
  have hwaits := (h.installing i k protocol hinstall).2.2
  rw [hpc] at hwaits
  exact hwaits.elim hcreated hwaiting

/-- Main is not opening the service whose thread is past the start lock. -/
theorem not_installing (h : Owners s) {k : Nat} (hcreated : s.pc k ≠ .notCreated)
    (hwaiting : s.pc k ≠ .startLock) (halive : (s.pc k).Alive) :
    (∀ code, s.main ≠ .spawnInit (s.slot k) code) ∧
      ∀ j protocol, s.main ≠ .spawnInstall (s.slot k) j protocol := by
  constructor
  · intro code hpc
    exact (h.spawning _ code hpc).2.2 k halive rfl
  · intro j protocol hpc
    obtain ⟨-, ⟨-, -, hinc, -⟩, hwaits⟩ := h.installing _ j protocol hpc
    rw [h.last k halive] at hinc
    subst hinc
    exact hwaits.elim hcreated hwaiting

/-! ## Any step -/

/-- What these fields say does not depend on the others. -/
theorem congr (h : Owners s) (hsame : t = { s with
      cleanupLock := t.cleanupLock, work := t.work, sender := t.sender, receiver := t.receiver
      spaceSem := t.spaceSem, queue := t.queue, added := t.added }) : Owners t := by
  rw [hsame]
  exact ⟨h.startMain, h.startThread, h.fresh, h.method, h.last, h.port, h.callback, h.spawning,
    h.installing, h.joining, h.resetting, h.installed, h.free⟩

theorem stopWork (h : Owners s) (k : Nat) : Owners (s.stopWork k) := by
  have hprotocol : ∀ j, ((s.stopWork k).thread j).protocol = (s.thread j).protocol := by
    intro j
    by_cases hjk : j = k
    · subst hjk
      simp [ThreadsState.stopWork]
    · simp [ThreadsState.stopWork, hjk]
  have hholds : ∀ i j protocol, s.Holds i j protocol → (s.stopWork k).Holds i j protocol := by
    rintro i j protocol ⟨hj, hslot, hinc, hp⟩
    exact ⟨hj, by rw [stopWork_slot, hslot], hinc, by rw [hprotocol, hp]⟩
  constructor
  · exact h.startMain
  · intro j
    rw [stopWork_pc]
    exact h.startThread j
  · intro j
    rw [stopWork_pc]
    exact h.fresh j
  · intro j
    rw [stopWork_pc, hprotocol]
    exact h.method j
  · intro j
    rw [stopWork_pc, stopWork_slot]
    exact h.last j
  · intro j
    rw [stopWork_pc, stopWork_slot]
    exact h.port j
  · intro j
    rw [stopWork_pc, stopWork_slot]
    exact h.callback j
  · intro i code hpc
    obtain ⟨hport, hnone, hgone⟩ := h.spawning i code hpc
    refine ⟨hport, hnone, fun j => ?_⟩
    rw [stopWork_pc, stopWork_slot]
    exact hgone j
  · intro i j protocol hpc
    obtain ⟨hport, hj, hwaits⟩ := h.installing i j protocol hpc
    rw [stopWork_pc]
    exact ⟨hport, hholds i j protocol hj, hwaits⟩
  · exact h.joining
  · intro i next hpc j
    rw [stopWork_pc, stopWork_slot]
    exact h.resetting i next hpc j
  · exact fun i protocol hi => hholds _ _ _ (h.installed i protocol hi)
  · exact h.free

/-- The thread of slot `i` resets it, and is done with it. -/
theorem serviceReset (h : Owners s) {k : Nat} (hpc : s.pc k = .cleanupReset) :
    Owners ((s.modify (s.slot k) fun _ => .unused).place k .cleanupUnlock) := by
  have halive : (s.pc k).Alive := hpc ▸ trivial
  obtain ⟨hspawn, hinstall⟩ := h.not_installing (by simp [hpc]) (by simp [hpc]) halive
  -- the slot is `k`'s alone, so it may be reset once `k` has left
  have hplaced : Owners (s.place k .cleanupUnlock) := h.place hpc nofun nofun nofun nofun
  apply hplaced.reset (i := s.slot k)
  · intro j hj
    rw [place_slot]
    by_cases hjk : j = k
    · subst hjk
      rw [place_pc_self] at hj
      exact hj.elim
    · rw [place_pc_ne s hjk] at hj
      intro hslot
      have hlast := h.last j hj
      rw [hslot, h.last k halive] at hlast
      exact hjk hlast.symm
  · exact hspawn
  · exact hinstall

theorem serviceMove (h : Owners s) {k : Nat} {label : ThreadsLabel} {pc pc' : ServicePc}
    (hpc : s.pc k = pc) (hm : ServiceMove s k label pc pc') : Owners (s.place k pc') := by
  cases hm <;> exact h.place hpc nofun nofun (fun _ => trivial) nofun

/-- Main takes or releases the start lock. -/
theorem startLock (h : Owners s) {lock : Option Holder} {pc pc' : MainPc} (hpc : s.main = pc)
    (hfrom : ∀ i k protocol, pc ≠ .spawnInstall i k protocol) (hto : pc'.Plain)
    (hnone : ∀ k, s.pc k ≠ .startUnlock) (hlock : pc'.InSpawn → lock = some .main) :
    Owners { s with startLock := lock, main := pc' } where
  startMain := hlock
  startThread k hk := absurd hk (hnone k)
  fresh := h.fresh
  method := h.method
  last := h.last
  port := h.port
  callback k hk := by
    obtain hjoins | ⟨i, protocol, hinstall⟩ := h.callback k hk
    · exact .inl hjoins
    · exact absurd (hpc.symm.trans hinstall) (hfrom i k protocol)
  spawning i code hin := by cases show pc' = _ from hin; exact hto.elim
  installing i k protocol hin := by cases show pc' = _ from hin; exact hto.elim
  joining i k next hin := by cases show pc' = _ from hin; exact hto.elim
  resetting i next hin := by cases show pc' = _ from hin; exact hto.elim
  installed := h.installed
  free := h.free

theorem step (h : Owners s) {label : ThreadsLabel} (ht : s.step label = some t) : Owners t := by
  cases step_cases ht with
  | ignored => exact h
  | main hpc hm => exact h.move hpc hm
  | mainUpdate hpc hu => exact h.update hpc hu
  | spawnLock hpc hlock =>
      have hnone : ∀ k, s.pc k ≠ .startUnlock := by
        intro k hk
        simp [h.startThread k hk] at hlock
      exact h.startLock hpc nofun trivial hnone fun _ => rfl
  | allocate hpc hfree => exact h.allocate hpc hfree
  | create hpc => exact h.create hpc _
  | install hpc => exact h.install hpc
  | spawnUnlock hpc =>
      have hlock := h.startMain (by rw [hpc]; rfl)
      have hnone : ∀ k, s.pc k ≠ .startUnlock := by
        intro k hk
        simp [h.startThread k hk] at hlock
      exact h.startLock hpc nofun trivial hnone nofun
  | mainWait hpc =>
      have hsame : Owners { s with spaceSem := s.spaceSem - 1 } := h.congr rfl
      exact hsame.enter hpc id nofun trivial
  | @mainStore msg origin next hpc =>
      have hsame : Owners (s.store msg origin) := h.congr rfl
      exact hsame.enter hpc id nofun trivial
  | mainCleanupLock hpc =>
      have hsame : Owners { s with cleanupLock := some .main } := h.congr rfl
      exact hsame.enter hpc id nofun trivial
  | signalsCleanup hpc hs => exact (h.stopWork _).join hpc
  | @mainReset i next hpc =>
      have hreset := h.reset (h.resetting i next hpc) (by simp [hpc]) (by simp [hpc])
      exact hreset.enter hpc id nofun trivial
  | mainCleanupUnlock hpc =>
      have hsame : Owners { s with cleanupLock := none } := h.congr rfl
      exact hsame.enter hpc id nofun trivial
  | service hpc hm => exact h.serviceMove hpc hm
  | startLock hpc hlock =>
      have hmain : ¬s.main.InSpawn := by
        intro hin
        simp [h.startMain hin] at hlock
      apply h.placeLock hpc nofun (fun _ => trivial) (fun hin => absurd hin hmain) (fun _ => rfl)
      · intro j _ hj
        simp [h.startThread j hj] at hlock
      · intro i protocol hinstall
        exact hmain (hinstall ▸ trivial)
  | @startUnlock k hpc =>
      have hlock := h.startThread k hpc
      have hmain : ¬s.main.InSpawn := by
        intro hin
        simp [h.startMain hin] at hlock
      have hother : ∀ j, j ≠ k → s.pc j ≠ .startUnlock := by
        intro j hjk hj
        rw [h.startThread j hj] at hlock
        cases hlock
        exact hjk rfl
      exact h.placeLock hpc nofun (fun _ => trivial) (fun hin => absurd hin hmain) nofun
        (fun j hjk hj => absurd hj (hother j hjk)) fun i protocol hinstall =>
          hmain (hinstall ▸ trivial)
  | eofClear hpc =>
      have hkeeps : KeepsCallbacks (closeFlag .eof) :=
        ⟨fun _ => rfl, fun _ => rfl, fun _ => rfl, fun _ => rfl⟩
      exact (h.modify hkeeps).place hpc nofun nofun (fun _ => trivial) nofun
  | serviceWait hpc =>
      have hsame : Owners { s with spaceSem := s.spaceSem - 1 } := h.congr rfl
      exact hsame.place hpc nofun nofun (fun _ => trivial) nofun
  | @serviceStore k msg next hpc =>
      have hsame : Owners (s.store (some msg) (.service k)) := h.congr rfl
      exact hsame.place hpc nofun nofun (fun _ => trivial) nofun
  | @serviceCleanupLock k hpc =>
      have hsame : Owners { s with cleanupLock := some (.service k) } := h.congr rfl
      exact hsame.place hpc nofun nofun (fun _ => trivial) nofun
  | serviceReset hpc => exact h.serviceReset hpc
  | serviceCleanupUnlock hpc =>
      have hsame : Owners { s with cleanupLock := none } := h.congr rfl
      exact hsame.place hpc nofun nofun nofun nofun
  | senderTest | senderPoll | wrote | receiverNull | receiverEnds => exact h.congr rfl

theorem initial_free (i : Slot) (protocol : BridgeConnection.Protocol) :
    ¬(ThreadsState.initial.bridge.services i).Serves protocol := by
  intro hserves
  simp only [ThreadsState.initial, initServer] at hserves
  split_ifs at hserves <;> cases protocol <;> obtain h | h | h := hserves <;> cases h

theorem initial : Owners .initial where
  startMain := nofun
  startThread := nofun
  fresh _ _ := rfl
  method _ _ := rfl
  last _ := nofun
  port _ := nofun
  callback _ := nofun
  spawning := nofun
  installing := nofun
  joining := nofun
  resetting := nofun
  installed i protocol hi := absurd hi (initial_free i protocol)
  free i _ := initial_free i

theorem reachable (h : bridgeThreads.Reachable s) : Owners s := by
  apply h.invariant
  · rintro s rfl
    exact initial
  · intro s label t hs ht
    exact hs.step ht

end Owners

end ThreadsState

end AapBridge.Accessory
