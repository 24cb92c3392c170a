import AapBridge.Accessory.SlotOwners

/-! # The cleanup lock and the join under it

`CleanupService` joins the thread of a bulk service while it holds the cleanup
lock, and that thread wants the same lock if it finds both directions closed in
`sendEof`. It does so exactly when the input has been closed before its test, so
main may go to the join only behind that test, or with the input still open.
-/

namespace AapBridge.Accessory

open AapBridge.Lib AapBridge.Lib.HalfClose

namespace ServicePc

/-- Behind the read loop of `bulkTransferThread`. -/
def BehindLoop : ServicePc → Prop
  | .eofBuild | .eofClear _ | .eofWrite _
  | .cleanupLock | .cleanupCallback | .cleanupReset | .cleanupUnlock => True
  | .addWait _ next | .addStore _ next | .resume next => next = .eofTest
  | _ => False

/-- The test of `sendEof` has found both directions closed. -/
def Cleaning : ServicePc → Prop
  | .cleanupLock | .cleanupCallback | .cleanupReset => True
  | _ => False

theorem Cleaning.alive {pc : ServicePc} (h : pc.Cleaning) : pc.Alive := by
  cases pc <;> first | exact h.elim | trivial

end ServicePc

namespace ThreadsState

variable {s t : ThreadsState}

/-- Main waits for a thread while it holds the lock that thread waits for. -/
def Deadlocked (s : ThreadsState) : Prop :=
  ∃ i k next, s.main = .cleanupJoin i k next ∧ s.cleanupLock = some .main ∧ s.pc k = .cleanupLock

/-- The condition: when main takes the cleanup lock for a bulk service, the
thread of the service has ended, or the input is still open. -/
def JoinsSafely (s : ThreadsState) : ThreadsLabel → Prop
  | .main =>
      match s.main with
      | .cleanupLock i _ => (s.bridge.services i).onCleanupService = some .bulkCleanup →
          s.pc (s.incarnation i) = .ended ∨ (s.bridge.services i).inputOpen = true
      | _ => True
  | _ => True

instance (s : ThreadsState) (label : ThreadsLabel) : Decidable (s.JoinsSafely label) := by
  unfold JoinsSafely
  split
  · split <;> infer_instance
  · infer_instance

/-- Thread `k` of slot `i` will not go for the lock. -/
def Harmless (s : ThreadsState) (i : Slot) (k : Nat) : Prop :=
  s.pc k = .ended ∨ (s.bridge.services i).inputOpen = true

structure Closing (s : ThreadsState) : Prop where
  bulk : ∀ k, (s.pc k).BehindLoop → (s.thread k).protocol = .bulk
  closed : ∀ k, (s.pc k).Cleaning → (s.bridge.services (s.slot k)).inputOpen = false
  callback : ∀ i next, s.main = .cleanupCallback i next →
    (s.bridge.services i).onCleanupService = some .bulkCleanup → s.Harmless i (s.incarnation i)
  join : ∀ i k next, s.main = .cleanupJoin i k next →
    s.slot k = i ∧ ((s.thread k).protocol = .bulk → s.Harmless i k)

theorem Closing.not_deadlocked (h : Closing s) : ¬s.Deadlocked := by
  rintro ⟨i, k, next, hmain, -, hk⟩
  obtain ⟨hslot, hsafe⟩ := h.join i k next hmain
  obtain hended | hopen := hsafe (h.bulk k (hk ▸ trivial))
  · simp [hk] at hended
  · have hclosed := h.closed k (hk ▸ trivial)
    simp [hslot, hopen] at hclosed

namespace Closing

/-! ## Main -/

/-- Main goes to a place that is not in `CleanupService`. -/
theorem enter (h : Closing s) {pc : MainPc} (hcallback : ∀ i next, pc ≠ .cleanupCallback i next)
    (hjoin : ∀ i k next, pc ≠ .cleanupJoin i k next) : Closing (s.enter pc) :=
  ⟨h.bulk, h.closed, fun i next hpc => absurd hpc (hcallback i next),
    fun i k next hpc => absurd hpc (hjoin i k next)⟩

theorem move (ho : Owners s) (h : Closing s) {label : ThreadsLabel} {pc pc' : MainPc}
    (hpc : s.main = pc) (hm : MainMove s label pc pc') : Closing (s.enter pc') := by
  cases hm with
  | @callbackBulk i next hb =>
      refine ⟨h.bulk, h.closed, nofun, ?_⟩
      rintro j k next' ⟨⟩
      exact ⟨(ho.installed i .bulk (.inr (.inr hb))).2.1, fun _ => h.callback i next hpc hb⟩
  | _ => exact h.enter nofun nofun

/-- An update of one entry that opens no input of a thread's slot and closes none
main is waiting for. -/
theorem services (h : Closing s) {bridge : BridgeConnection}
    (hclosed : ∀ k, (s.pc k).Cleaning → (bridge.services (s.slot k)).inputOpen =
      (s.bridge.services (s.slot k)).inputOpen)
    (hopen : ∀ i, (s.bridge.services i).inputOpen = true → (bridge.services i).inputOpen = true)
    (hcallback : ∀ i, (bridge.services i).onCleanupService = some .bulkCleanup →
      (s.bridge.services i).onCleanupService = some .bulkCleanup) :
    Closing { s with bridge } := by
  refine ⟨h.bulk, fun k hk => (hclosed k hk).trans (h.closed k hk), ?_, ?_⟩
  · intro i next hpc hb
    exact (h.callback i next hpc (hcallback i hb)).imp id (hopen i)
  · intro i k next hpc
    obtain ⟨hslot, hsafe⟩ := h.join i k next hpc
    exact ⟨hslot, fun hp => (hsafe hp).imp id (hopen i)⟩

/-- A flag is cleared while main is outside `CleanupService`. -/
theorem update (h : Closing s) {pc pc' : MainPc} {i : Slot} {f : BridgeService → BridgeService}
    (hu : MainUpdate s pc i f pc') : Closing ((s.modify i f).enter pc') := by
  have hcloses : ∀ service, service.inputOpen = false → (f service).inputOpen = false := by
    intro service hservice
    cases hu with
    | @send _ g _ => cases g <;> simp [closeFlag, hservice]
    | _ => simp [closeFlag, hservice]
  have hclosed : ∀ k, (s.pc k).Cleaning →
      ((s.modify i f).bridge.services (s.slot k)).inputOpen = false := by
    intro k hk
    by_cases hki : s.slot k = i
    · subst hki
      show ((s.bridge.modify (s.slot k) f).services (s.slot k)).inputOpen = false
      rw [BridgeConnection.modify_services_self]
      exact hcloses _ (h.closed k hk)
    · show ((s.bridge.modify i f).services (s.slot k)).inputOpen = false
      rw [BridgeConnection.modify_services_ne _ hki]
      exact h.closed k hk
  refine ⟨h.bulk, hclosed, fun j next hpc => ?_, fun j k next hpc => ?_⟩
  · cases hu <;> cases hpc
  · cases hu <;> cases hpc

/-! ## Services -/

/-- A thread goes on. -/
theorem place (h : Closing s) {k : Nat} {pc pc' : ServicePc} (hpc : s.pc k = pc)
    (hended : pc ≠ .ended) (hbulk : pc'.BehindLoop → (s.thread k).protocol = .bulk)
    (hclosed : pc'.Cleaning → (s.bridge.services (s.slot k)).inputOpen = false) :
    Closing (s.place k pc') := by
  subst hpc
  have hprotocol : ∀ j, ((s.place k pc').thread j).protocol = (s.thread j).protocol := by
    intro j
    by_cases hjk : j = k
    · subst hjk
      simp [ThreadsState.place]
    · simp [ThreadsState.place, hjk]
  have hharmless : ∀ i j, s.Harmless i j → (s.place k pc').Harmless i j := by
    rintro i j (hj | hopen)
    · by_cases hjk : j = k
      · subst hjk
        exact absurd hj hended
      · exact .inl ((place_pc_ne s hjk pc').trans hj)
    · exact .inr hopen
  constructor
  · intro j hj
    rw [hprotocol]
    by_cases hjk : j = k
    · subst hjk
      rw [place_pc_self] at hj
      exact hbulk hj
    · rw [place_pc_ne s hjk] at hj
      exact h.bulk j hj
  · intro j hj
    rw [place_slot]
    by_cases hjk : j = k
    · subst hjk
      rw [place_pc_self] at hj
      exact hclosed hj
    · rw [place_pc_ne s hjk] at hj
      exact h.closed j hj
  · intro i next hmain hb
    exact hharmless i _ (h.callback i next hmain hb)
  · intro i j next hmain
    obtain ⟨hslot, hsafe⟩ := h.join i j next hmain
    rw [place_slot, hprotocol]
    exact ⟨hslot, fun hp => hharmless i j (hsafe hp)⟩

theorem serviceMove (h : Closing s) {k : Nat} {label : ThreadsLabel} {pc pc' : ServicePc}
    (hpc : s.pc k = pc) (hm : ServiceMove s k label pc pc') : Closing (s.place k pc') := by
  have hbulk : pc.BehindLoop → (s.thread k).protocol = .bulk := fun hb => h.bulk k (hpc ▸ hb)
  cases hm with
  | readError hprotocol => exact h.place hpc nofun (fun _ => hprotocol) nofun
  | eofBuild | eofWrite => exact h.place hpc nofun (fun _ => hbulk trivial) nofun
  | stillOpen => exact h.place hpc nofun nofun nofun
  | closed hclosed =>
      have hin : (s.bridge.services (s.slot k)).inputOpen = false := by
        simp [bothClosed] at hclosed
        exact hclosed.1
      exact h.place hpc nofun (fun _ => hbulk rfl) fun _ => hin
  | detach =>
      exact h.place hpc nofun (fun _ => hbulk trivial) fun _ => h.closed k (hpc ▸ trivial)
  | _ => exact h.place hpc nofun nofun nofun

/-- What these fields say does not depend on the others. -/
theorem congr (h : Closing s) (hsame : t = { s with
      startLock := t.startLock, cleanupLock := t.cleanupLock, work := t.work, sender := t.sender
      receiver := t.receiver, spaceSem := t.spaceSem, queue := t.queue, added := t.added }) :
    Closing t := by
  rw [hsame]
  exact ⟨h.bulk, h.closed, h.callback, h.join⟩

/-! ## Any step -/

/-- The thread of a signals service is joined; it never takes the cleanup lock. -/
theorem signalsCleanup (ho : Owners s) (h : Closing s) {i : Slot} {next : Next}
    (hs : (s.bridge.services i).onCleanupService = some .signalsCleanup) :
    Closing ((s.stopWork (s.incarnation i)).enter (.cleanupJoin i (s.incarnation i) next)) := by
  obtain ⟨-, hslot, -, hsignals⟩ := ho.installed i .signals (.inr (.inr hs))
  have hprotocol : ∀ j,
      ((s.stopWork (s.incarnation i)).thread j).protocol = (s.thread j).protocol := by
    intro j
    by_cases hji : j = s.incarnation i
    · subst hji
      simp [ThreadsState.stopWork]
    · simp [ThreadsState.stopWork, hji]
  refine ⟨fun k hk => ?_, fun k hk => ?_, by rintro j next' ⟨⟩, ?_⟩
  · change ((s.stopWork _).pc k).BehindLoop at hk
    rw [stopWork_pc] at hk
    exact (hprotocol k).trans (h.bulk k hk)
  · change ((s.stopWork _).pc k).Cleaning at hk
    rw [stopWork_pc] at hk
    show (s.bridge.services ((s.stopWork _).slot k)).inputOpen = false
    rw [stopWork_slot]
    exact h.closed k hk
  · rintro j k next' ⟨⟩
    refine ⟨(stopWork_slot s _ _).trans hslot, fun hbulk => ?_⟩
    have hp : (s.thread (s.incarnation i)).protocol = .bulk := (hprotocol _).symm.trans hbulk
    rw [hsignals] at hp
    cases hp

/-- The new thread is not in `sendEof`. -/
theorem create (h : Closing s) (i : Slot) (protocol : BridgeConnection.Protocol) :
    Closing (s.create i protocol) := by
  have hnew : ¬((s.create i protocol).pc s.started).BehindLoop ∧
      ¬((s.create i protocol).pc s.started).Cleaning := by
    obtain hpc | hpc := create_pc_self s i protocol <;> rw [hpc] <;> exact ⟨id, id⟩
  refine ⟨fun k hk => ?_, fun k hk => ?_, nofun, nofun⟩
  · by_cases hks : k = s.started
    · subst hks
      exact absurd hk hnew.1
    · rw [create_pc_ne s hks] at hk
      show (Function.update s.thread s.started _ k).protocol = .bulk
      rw [Function.update_of_ne hks]
      exact h.bulk k hk
  · by_cases hks : k = s.started
    · subst hks
      exact absurd hk hnew.2
    · rw [create_pc_ne s hks] at hk
      rw [create_slot_ne s hks]
      exact h.closed k hk

theorem reset (h : Closing s) {i : Slot} (hgone : ∀ k, (s.pc k).Cleaning → s.slot k ≠ i) :
    Closing (s.modify i fun _ => .unused) := by
  apply h.services
  · intro k hk
    exact congrArg _ (reset_ne s (hgone k hk))
  · intro j hj
    by_cases hji : j = i
    · subst hji
      exact congrArg BridgeService.inputOpen (reset_self s j)
    · exact (congrArg BridgeService.inputOpen (reset_ne s hji)).trans hj
  · intro j hj
    by_cases hji : j = i
    · subst hji
      have hnone : ((s.modify j fun _ => .unused).bridge.services j).onCleanupService = none :=
        congrArg BridgeService.onCleanupService (reset_self s j)
      exact nomatch hnone.symm.trans hj
    · exact (congrArg BridgeService.onCleanupService (reset_ne s hji)).symm.trans hj

theorem serviceReset (ho : Owners s) (h : Closing s) {k : Nat} (hpc : s.pc k = .cleanupReset) :
    Closing ((s.modify (s.slot k) fun _ => .unused).place k .cleanupUnlock) := by
  have hbulk : (s.thread k).protocol = .bulk := h.bulk k (hpc ▸ trivial)
  have hplaced : Closing (s.place k .cleanupUnlock) := h.place hpc nofun (fun _ => hbulk) nofun
  apply hplaced.reset (i := s.slot k)
  intro j hj
  rw [place_slot]
  by_cases hjk : j = k
  · subst hjk
    rw [place_pc_self] at hj
    exact hj.elim
  · rw [place_pc_ne s hjk] at hj
    intro hslot
    have hlast := ho.last j hj.alive
    rw [hslot, ho.last k (hpc ▸ trivial)] at hlast
    exact hjk hlast.symm

theorem step (ho : Owners s) (h : Closing s) {label : ThreadsLabel} (hsafe : s.JoinsSafely label)
    (ht : s.step label = some t) : Closing t := by
  cases step_cases ht with
  | ignored => exact h
  | main hpc hm => exact h.move ho hpc hm
  | mainUpdate hpc hu => exact h.update hu
  | spawnLock hpc =>
      have hsame : Closing { s with startLock := some .main } := h.congr rfl
      exact hsame.enter (by simp) (by simp)
  | @allocate i code hpc hfree =>
      have hsame : ∀ j, ((s.bridge.allocate i).services j).inputOpen =
            (s.bridge.services j).inputOpen ∧
          ((s.bridge.allocate i).services j).onCleanupService =
            (s.bridge.services j).onCleanupService := by
        intro j
        by_cases hji : j = i
        · subst hji
          simp [BridgeConnection.allocate, BridgeConnection.modify]
        · simp [BridgeConnection.allocate, BridgeConnection.modify, hji]
      have hallocated : Closing { s with bridge := s.bridge.allocate i } :=
        h.services (fun k _ => (hsame _).1) (fun j hj => (hsame j).1.trans hj)
          fun j hj => (hsame j).2.symm.trans hj
      exact hallocated.enter (by simp) (by simp)
  | create hpc => exact h.create _ _
  | @install i k protocol hpc =>
      -- main is not in `CleanupService`
      have hopen : ∀ j, ((s.bridge.install i protocol).services j).inputOpen =
          (s.bridge.services j).inputOpen := by
        intro j
        by_cases hji : j = i
        · subst hji
          cases protocol <;> simp [BridgeConnection.install, BridgeConnection.modify]
        · simp [BridgeConnection.install, BridgeConnection.modify, hji]
      exact ⟨h.bulk, fun j hj => (hopen _).trans (h.closed j hj), by rintro j next ⟨⟩, by rintro j k next ⟨⟩⟩
  | spawnUnlock hpc =>
      have hsame : Closing { s with startLock := none } := h.congr rfl
      exact hsame.enter (by simp) (by simp)
  | mainWait hpc =>
      have hsame : Closing { s with spaceSem := s.spaceSem - 1 } := h.congr rfl
      exact hsame.enter (by simp) (by simp)
  | @mainStore msg origin next hpc =>
      have hsame : Closing (s.store msg origin) := h.congr rfl
      exact hsame.enter (by simp) (by simp)
  | @mainCleanupLock i next hpc hlock =>
      refine ⟨h.bulk, h.closed, ?_, by rintro j k next ⟨⟩⟩
      rintro j next' ⟨⟩ hb
      simp only [JoinsSafely, hpc] at hsafe
      exact hsafe hb
  | signalsCleanup hpc hs => exact h.signalsCleanup ho hs
  | @mainReset i next hpc =>
      have hreset := h.reset fun k hk => ho.resetting i next hpc k hk.alive
      exact hreset.enter (by simp) (by simp)
  | mainCleanupUnlock hpc =>
      have hsame : Closing { s with cleanupLock := none } := h.congr rfl
      exact hsame.enter (by simp) (by simp)
  | service hpc hm => exact h.serviceMove hpc hm
  | @startLock k hpc hlock =>
      have hsame : Closing { s with startLock := some (.service k) } := h.congr rfl
      exact hsame.place hpc (by simp) False.elim False.elim
  | startUnlock hpc =>
      have hsame : Closing { s with startLock := none } := h.congr rfl
      exact hsame.place hpc (by simp) (by rintro ⟨⟩) False.elim
  | @eofClear k buffer hpc =>
      have hbulk : (s.thread k).protocol = .bulk := h.bulk k (hpc ▸ trivial)
      have hmodified : Closing (s.modify (s.slot k) (closeFlag .eof)) := by
        have hsame : ∀ j, ((s.modify (s.slot k) (closeFlag .eof)).bridge.services j).inputOpen =
              (s.bridge.services j).inputOpen ∧
            ((s.modify (s.slot k) (closeFlag .eof)).bridge.services j).onCleanupService =
              (s.bridge.services j).onCleanupService := by
          intro j
          by_cases hjk : j = s.slot k
          · subst hjk
            simp [ThreadsState.modify, BridgeConnection.modify, closeFlag]
          · simp [ThreadsState.modify, BridgeConnection.modify, hjk]
        exact h.services (fun k _ => (hsame _).1) (fun j hj => (hsame j).1.trans hj)
          fun j hj => (hsame j).2.symm.trans hj
      exact hmodified.place hpc (by simp) (fun _ => hbulk) False.elim
  | serviceWait hpc =>
      have hsame : Closing { s with spaceSem := s.spaceSem - 1 } := h.congr rfl
      exact hsame.place hpc (by simp) (fun hb => h.bulk _ (hpc ▸ hb)) False.elim
  | @serviceStore k msg next hpc =>
      have hsame : Closing (s.store (some msg) (.service k)) := h.congr rfl
      exact hsame.place hpc (by simp) (fun hb => h.bulk _ (hpc ▸ hb)) False.elim
  | @serviceCleanupLock k hpc hlock =>
      have hsame : Closing { s with cleanupLock := some (.service k) } := h.congr rfl
      exact hsame.place hpc (by simp) (fun _ => h.bulk _ (hpc ▸ trivial)) fun _ =>
        h.closed k (hpc ▸ trivial)
  | serviceReset hpc => exact h.serviceReset ho hpc
  | serviceCleanupUnlock hpc =>
      have hsame : Closing { s with cleanupLock := none } := h.congr rfl
      exact hsame.place hpc (by simp) False.elim False.elim
  | senderTest | senderPoll | wrote | receiverNull | receiverEnds => exact h.congr rfl

theorem initial : Closing .initial := ⟨nofun, nofun, nofun, nofun⟩

end Closing

end ThreadsState

open ThreadsState

/-- Any interleaving of all threads, any frames from the phone. Where main takes
the cleanup lock for a bulk service only when its thread has ended or its input
is still open, main never waits for a thread that waits for the lock main holds. -/
theorem closing_not_deadlocked (s : ThreadsState)
    (h : (bridgeThreads.guard fun s label => s.JoinsSafely label).Reachable s) :
    ¬s.Deadlocked := by
  have hboth : Owners s ∧ Closing s := by
    apply h.invariant (P := fun s => Owners s ∧ Closing s)
    · rintro s rfl
      exact ⟨.initial, .initial⟩
    · rintro s label t ⟨ho, hc⟩ ht
      obtain ⟨hsafe, hstep⟩ := Machine.guard_step.mp ht
      exact ⟨ho.step hstep, hc.step ho hsafe hstep⟩
  exact hboth.2.not_deadlocked

/-- A bulk service is opened on port 3, and its thread is in `read`. -/
private def bulkOpened : List ThreadsLabel :=
  [.frame spawnerService [0, 1, 0, 0], .main, .main, .openNewPort (some firstPort), .init true,
    .main, .main, .main, .main, .main, .service 0, .service 0]

/-- Main handles a status about port 3 of the phone, up to the last test. -/
private def statusFrame (code : UInt8) : List ThreadsLabel :=
  [.frame portStatusService [3, 0, code, 0], .main, .main, .main]

/-- The payload has closed its fifo before the phone closes the port. -/
private def endedRun : List ThreadsLabel :=
  bulkOpened ++ [.read 0 none, .service 0, .service 0, .service 0, .service 0, .service 0, .service 0] ++
    statusFrame 3 ++ [.main, .main, .main, .main, .main]

private theorem endedRun_isSome :
    ((bridgeThreads.guard fun s label => s.JoinsSafely label).run .initial endedRun).isSome := by
  decide +kernel

theorem closing_not_deadlocked_ended :
    ∃ s, (bridgeThreads.guard fun s label => s.JoinsSafely label).Reachable s ∧
      s.main = .cleanupReset firstPort .poll ∧ ¬s.Deadlocked :=
  ⟨_, .of_run rfl endedRun_isSome, by decide +kernel,
    closing_not_deadlocked _ (.of_run rfl endedRun_isSome)⟩

/-- The phone sends EOF and CLOSE, and main is in the join before the thread
gets to its test. -/
private def crossedRun : List ThreadsLabel :=
  bulkOpened ++ statusFrame 3 ++ [.main, .main] ++ statusFrame 4 ++ [.main, .main, .main] ++
    [.read 0 none, .service 0, .service 0, .service 0, .service 0, .service 0, .service 0]

private theorem crossedRun_isSome : (bridgeThreads.run .initial crossedRun).isSome := by
  decide +kernel

theorem crossedRun_deadlocked :
    ∃ s, bridgeThreads.run .initial crossedRun = some s ∧ s.Deadlocked :=
  ⟨_, (Option.some_get crossedRun_isSome).symm, firstPort, 0, .poll,
    by decide +kernel, by decide +kernel, by decide +kernel⟩

end AapBridge.Accessory
