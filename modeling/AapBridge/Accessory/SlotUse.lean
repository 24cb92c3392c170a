import AapBridge.Accessory.SlotOwners

/-! # Entries that are reset while main uses them

`sendToCorrectService` and `PortStatusOnBytesReceived` test an entry once and use
it without a lock. The thread of a service may clean the entry up in between, and a
denied request leaves an entry that is taken and has no callbacks. Main then calls
through a null pointer, or clears a flag of an entry that is not in use, which the
next service on that port inherits. Nothing else can do so.
-/

namespace AapBridge.Accessory

open AapBridge.Lib AapBridge.Lib.HalfClose

/-- The entry main has tested and goes on to use. -/
def MainPc.uses : MainPc → Option Slot
  | .call i _ | .statusSwitch i _ | .onEof i | .bulkWrites i _ | .method i | .sendBuild i _
  | .sendClear i _ _ => some i
  | _ => none

/-- The entry `PortStatusOnBytesReceived` is about to test. -/
def MainPc.tests : MainPc → Option Slot
  | .statusTest target _ => some target
  | _ => none

theorem uses_none {pc : MainPc} {P : Slot → Prop} (h : pc.uses = none) :
    ∀ i, pc.uses = some i → P i := by
  intro i hi
  rw [h] at hi
  cases hi

namespace ThreadsState

variable {s t : ThreadsState}

/-- The service main uses is there, and an entry that is not in use is as
`CleanupService` leaves it. -/
structure Clean (s : ThreadsState) : Prop where
  present : ∀ i, s.main.uses = some i → (s.bridge.services i).Started
  unused : ∀ i, (s.bridge.services i).port = -1 → s.bridge.services i = .unused

/-- No entry without callbacks is used, and no thread resets the entry main uses. -/
def Undisturbed (s : ThreadsState) : ThreadsLabel → Prop
  | .frame i _ =>
      (s.bridge.services i).port = -1 ∨ (s.bridge.services i).onBytesReceived.isSome = true
  | .main => ∀ i ∈ s.main.tests,
      (s.bridge.services i).port = -1 ∨ (s.bridge.services i).onBytesReceived.isSome = true
  | .service k => s.pc k = .cleanupReset → s.main.uses ≠ some (s.slot k)
  | _ => True

instance (s : ThreadsState) (label : ThreadsLabel) : Decidable (Undisturbed s label) := by
  cases label <;> unfold Undisturbed <;> infer_instance

structure Installed (s : ThreadsState) : Prop where
  owners : Owners s
  started : ∀ i, (s.bridge.services i).onBytesReceived.isSome = true →
    (s.bridge.services i).Started
  bulk : ∀ i data, s.main = .bulkWrites i data →
    (s.bridge.services i).onBytesReceived = some .bulkOnBytesReceived

/-! ## What the updates keep -/

theorem closeFlag_started {service : BridgeService} (h : service.Started) (g : Signal) :
    (closeFlag g service).Started := by
  cases g with
  | eof => exact ⟨h.onBytesReceived, h.onEof, h.onCleanupService, h.bulkEof, h.bulkBytes⟩
  | close => exact ⟨h.onBytesReceived, h.onEof, h.onCleanupService, h.bulkEof, h.bulkBytes⟩

theorem MainUpdate.started {pc pc' : MainPc} {i : Slot} {f : BridgeService → BridgeService}
    (h : MainUpdate s pc i f pc') {service : BridgeService} (hservice : service.Started) :
    (f service).Started := by
  cases h with
  | receivedEof => exact closeFlag_started hservice .close
  | receivedClose => exact closeFlag_started hservice .eof
  | closedFifo =>
      exact ⟨hservice.onBytesReceived, hservice.onEof, hservice.onCleanupService,
        fun _ => ⟨-1, rfl⟩, fun _ => ⟨-1, rfl⟩⟩
  | @send _ g _ => exact closeFlag_started hservice g

theorem MainUpdate.uses {pc pc' : MainPc} {i : Slot} {f : BridgeService → BridgeService}
    (h : MainUpdate s pc i f pc') :
    pc.uses = some i ∧ (pc'.uses = none ∨ pc'.uses = some i) ∧ pc.tests = none ∧
      ∀ j data, pc' ≠ .bulkWrites j data := by
  cases h with
  | receivedEof => exact ⟨rfl, .inr rfl, rfl, fun _ _ heq => MainPc.noConfusion heq⟩
  | receivedClose => exact ⟨rfl, .inl rfl, rfl, fun _ _ heq => MainPc.noConfusion heq⟩
  | closedFifo => exact ⟨rfl, .inl rfl, rfl, fun _ _ heq => MainPc.noConfusion heq⟩
  | send => exact ⟨rfl, .inl rfl, rfl, fun _ _ heq => MainPc.noConfusion heq⟩

theorem closeFlag_keeps (g : Signal) : KeepsCallbacks (closeFlag g) := by
  cases g with
  | eof => exact ⟨fun _ => rfl, fun _ => rfl, fun _ => rfl, fun _ => rfl⟩
  | close => exact ⟨fun _ => rfl, fun _ => rfl, fun _ => rfl, fun _ => rfl⟩

theorem KeepsCallbacks.modify_onBytesReceived {f : BridgeService → BridgeService}
    (h : KeepsCallbacks f) (b : BridgeConnection) (i j : Slot) :
    ((b.modify i f).services j).onBytesReceived = (b.services j).onBytesReceived := by
  by_cases hji : j = i
  · subst hji
    rw [BridgeConnection.modify_services_self, h.onBytesReceived]
  · rw [BridgeConnection.modify_services_ne _ hji]

theorem unused_not_started : ¬BridgeService.unused.Started := fun h => Bool.noConfusion h.onEof

/-- Nothing happens to the table, and main uses no entry it did not use before. -/
theorem Clean.congr (h : Clean s) (hb : t.bridge = s.bridge)
    (hm : ∀ i, t.main.uses = some i → s.main.uses = some i) : Clean t where
  present i hi := by
    rw [hb]
    exact h.present i (hm i hi)
  unused := by
    rw [hb]
    exact h.unused

/-- An entry that is in use is changed; only main's own entry need be there. -/
theorem Clean.modify (h : Clean s) {i : Slot} {f : BridgeService → BridgeService}
    (hf : KeepsCallbacks f) (hstarted : ∀ service, service.Started → (f service).Started)
    (hport : (s.bridge.services i).port ≠ -1)
    (hb : t.bridge = s.bridge.modify i f)
    (hm : ∀ j, t.main.uses = some j → s.main.uses = some j) : Clean t where
  present j hj := by
    rw [hb]
    have hbefore := h.present j (hm j hj)
    by_cases hji : j = i
    · subst hji
      rw [BridgeConnection.modify_services_self]
      exact hstarted _ hbefore
    · rw [BridgeConnection.modify_services_ne _ hji]
      exact hbefore
  unused j hj := by
    rw [hb] at hj ⊢
    by_cases hji : j = i
    · subst hji
      rw [BridgeConnection.modify_services_self, hf.port] at hj
      exact absurd hj hport
    · rw [BridgeConnection.modify_services_ne _ hji] at hj ⊢
      exact h.unused j hj

/-- An entry main does not use is reset. -/
theorem Clean.reset (h : Clean s) {i : Slot} (hb : t.bridge = s.bridge.modify i fun _ => .unused)
    (hm : ∀ j, t.main.uses = some j → s.main.uses = some j ∧ j ≠ i) : Clean t where
  present j hj := by
    obtain ⟨hbefore, hji⟩ := hm j hj
    rw [hb, BridgeConnection.modify_services_ne _ hji]
    exact h.present j hbefore
  unused j hj := by
    rw [hb] at hj ⊢
    by_cases hji : j = i
    · subst hji
      rw [BridgeConnection.modify_services_self]
    · rw [BridgeConnection.modify_services_ne _ hji] at hj ⊢
      exact h.unused j hj

/-- The entry main uses is in use. -/
theorem Clean.occupied (h : Clean s) {i : Slot} (hi : s.main.uses = some i) :
    (s.bridge.services i).port ≠ -1 := by
  intro hport
  have hstarted := h.present i hi
  rw [h.unused i hport] at hstarted
  exact unused_not_started hstarted

/-! ## One step -/

/-- A move of main begins to use an entry only behind one of the two tests. -/
theorem MainMove.uses {label : ThreadsLabel} {pc pc' : MainPc} (hpc : s.main = pc)
    (h : MainMove s label pc pc') :
    (∀ i, pc'.uses = some i → pc.uses = some i) ∧ Undisturbed s label ∨
      (∃ i data, label = .frame i data ∧ (s.bridge.services i).port ≠ -1 ∧ pc' = .call i data) ∨
      ∃ target status, pc = .statusTest target status := by
  have hquiet : pc.tests = none → ∀ i ∈ s.main.tests, (s.bridge.services i).port = -1 ∨
      (s.bridge.services i).onBytesReceived.isSome = true := by
    intro hnone i hi
    rw [hpc, hnone] at hi
    cases hi
  cases h with
  | frame hport => exact .inr (.inl ⟨_, _, rfl, hport, rfl⟩)
  | statusGone => exact .inr (.inr ⟨_, _, rfl⟩)
  | statusFound => exact .inr (.inr ⟨_, _, rfl⟩)
  | @sendOpen _ g =>
      cases g with
      | eof => exact .inl ⟨uses_none rfl, hquiet rfl⟩
      | close => exact .inl ⟨uses_none rfl, hquiet rfl⟩
  | bulk | method | onEofMethod | build => exact .inl ⟨fun _ hi => hi, hquiet rfl⟩
  | bulkFailed => exact .inl ⟨fun _ hi => hi, trivial⟩
  | null | bulkWritten | noReply | replied | noPort | denied =>
      exact .inl ⟨uses_none rfl, trivial⟩
  | _ => exact .inl ⟨uses_none rfl, hquiet rfl⟩

theorem MainMove.bulkWrites {label : ThreadsLabel} {pc : MainPc} {i : Slot} {data : List UInt8}
    (h : MainMove s label pc (.bulkWrites i data)) :
    (s.bridge.services i).onBytesReceived = some .bulkOnBytesReceived := by
  cases h with
  | bulk hbulk => exact hbulk

theorem install_started (b : BridgeConnection) (i : Slot) (protocol : BridgeConnection.Protocol) :
    ((b.install i protocol).services i).Started := by
  rw [BridgeConnection.install, BridgeConnection.modify_services_self]
  cases protocol with
  | bulk => exact ⟨rfl, rfl, rfl, fun _ => ⟨0, rfl⟩, fun _ => ⟨0, rfl⟩⟩
  | method =>
      exact ⟨rfl, rfl, rfl, fun heq => OnEof.noConfusion (Option.some.inj heq),
        fun heq => OnBytesReceived.noConfusion (Option.some.inj heq)⟩
  | signals =>
      exact ⟨rfl, rfl, rfl, fun heq => OnEof.noConfusion (Option.some.inj heq),
        fun heq => OnBytesReceived.noConfusion (Option.some.inj heq)⟩

/-- One entry is changed, and has its callbacks afterwards or has none. -/
theorem Installed.modify (h : Installed s) (ht : Owners t) {i : Slot}
    {f : BridgeService → BridgeService} (hb : t.bridge.services = (s.bridge.modify i f).services)
    (hf : (f (s.bridge.services i)).onBytesReceived.isSome = true →
      (f (s.bridge.services i)).Started)
    (hbulk : ∀ j data, t.main = .bulkWrites j data →
      (t.bridge.services j).onBytesReceived = some .bulkOnBytesReceived) : Installed t where
  owners := ht
  started j hj := by
    rw [hb] at hj ⊢
    by_cases hji : j = i
    · subst hji
      rw [BridgeConnection.modify_services_self] at hj ⊢
      exact hf hj
    · rw [BridgeConnection.modify_services_ne _ hji] at hj ⊢
      exact h.started j hj
  bulk := hbulk

/-- The table is as it was. -/
theorem Installed.congr (h : Installed s) (ht : Owners t) (hb : t.bridge = s.bridge)
    (hbulk : ∀ i data, t.main = .bulkWrites i data →
      (s.bridge.services i).onBytesReceived = some .bulkOnBytesReceived) : Installed t where
  owners := ht
  started := by
    rw [hb]
    exact h.started
  bulk := by
    rw [hb]
    exact hbulk

theorem no_bulkWrites {pc : MainPc} (h : pc.uses = none) {P : Slot → Prop} :
    ∀ i data, pc = .bulkWrites i data → P i := by
  intro i data heq
  rw [heq] at h
  cases h

theorem Installed.step (h : Installed s) (hclean : Clean s) {label : ThreadsLabel}
    (ht : s.step label = some t) (hclean' : Clean t) : Installed t := by
  have howners := h.owners.step ht
  cases step_cases ht with
  | ignored => exact h
  | main hpc hm =>
      apply h.congr howners rfl
      intro i data heq
      cases show _ = MainPc.bulkWrites i data from heq
      exact hm.bulkWrites
  | @mainUpdate pc i f pc' hpc hu =>
      have hentry : (s.bridge.services i).Started := by
        apply hclean.present
        rw [hpc]
        exact hu.uses.1
      refine h.modify howners rfl (fun _ => hu.started hentry) ?_
      intro j data heq
      exact absurd heq (hu.uses.2.2.2 j data)
  | spawnLock hpc hlock => exact h.congr howners rfl (no_bulkWrites rfl)
  | @allocate i protocol hpc hfree =>
      refine h.modify (f := fun service => { service with port := i }) howners rfl ?_
        (no_bulkWrites rfl)
      intro hcallback
      have hstarted := h.started _ hcallback
      exact ⟨hstarted.onBytesReceived, hstarted.onEof, hstarted.onCleanupService,
        hstarted.bulkEof, hstarted.bulkBytes⟩
  | create hpc => exact h.congr howners rfl (no_bulkWrites rfl)
  | @install i k protocol hpc =>
      refine h.modify howners rfl ?_ (no_bulkWrites rfl)
      intro _
      have hstarted := install_started s.bridge i protocol
      rwa [BridgeConnection.install, BridgeConnection.modify_services_self] at hstarted
  | spawnUnlock hpc => exact h.congr howners rfl (no_bulkWrites rfl)
  | mainWait hpc hspace => exact h.congr howners rfl (no_bulkWrites rfl)
  | mainStore hpc => exact h.congr howners rfl (no_bulkWrites rfl)
  | mainCleanupLock hpc hlock => exact h.congr howners rfl (no_bulkWrites rfl)
  | signalsCleanup hpc hs => exact h.congr howners rfl (no_bulkWrites rfl)
  | mainReset hpc =>
      exact h.modify howners rfl (fun hcallback => Bool.noConfusion hcallback) (no_bulkWrites rfl)
  | mainCleanupUnlock hpc => exact h.congr howners rfl (no_bulkWrites rfl)
  | service hpc hm => exact h.congr howners rfl h.bulk
  | startLock hpc hlock => exact h.congr howners rfl h.bulk
  | startUnlock hpc => exact h.congr howners rfl h.bulk
  | @eofClear k buffer hpc =>
      refine h.modify howners rfl ?_ ?_
      · intro hcallback
        rw [(closeFlag_keeps .eof).onBytesReceived] at hcallback
        exact closeFlag_started (h.started _ hcallback) .eof
      · intro j data heq
        show ((s.bridge.modify (s.slot k) (closeFlag .eof)).services j).onBytesReceived = _
        rw [((closeFlag_keeps .eof).modify_onBytesReceived s.bridge (s.slot k) j)]
        exact h.bulk j data heq
  | serviceWait hpc hspace => exact h.congr howners rfl h.bulk
  | serviceStore hpc => exact h.congr howners rfl h.bulk
  | serviceCleanupLock hpc hlock => exact h.congr howners rfl h.bulk
  | @serviceReset k hpc =>
      refine h.modify howners rfl (fun hcallback => Bool.noConfusion hcallback) ?_
      intro j data heq
      -- main would use the entry that has just been reset
      have hne : j ≠ s.slot k := by
        intro hj
        have hstarted := hclean'.present j (by rw [heq]; rfl)
        rw [hj, show ((s.modify (s.slot k) fun _ => .unused).place k .cleanupUnlock).bridge.services
          (s.slot k) = .unused from reset_self s (s.slot k)] at hstarted
        exact unused_not_started hstarted
      rw [show ((s.modify (s.slot k) fun _ => .unused).place k .cleanupUnlock).bridge.services j =
        s.bridge.services j from reset_ne s hne]
      exact h.bulk j data heq
  | serviceCleanupUnlock hpc => exact h.congr howners rfl h.bulk
  | senderTest hpc => exact h.congr howners rfl h.bulk
  | senderPoll hpc hqueue => exact h.congr howners rfl h.bulk
  | wrote hpc => exact h.congr howners rfl h.bulk
  | receiverNull hpc => exact h.congr howners rfl h.bulk
  | receiverEnds hpc => exact h.congr howners rfl h.bulk

theorem initial_started (i : Slot) (h : (initServer.services i).port ≠ -1 ∨
    (initServer.services i).onBytesReceived.isSome = true) : (initServer.services i).Started := by
  have hnone : ∀ service : BridgeService, service.onEof ≠ some .bulkOnEof →
      service.onBytesReceived ≠ some .bulkOnBytesReceived → service.onBytesReceived.isSome →
      service.onEof.isSome → service.onCleanupService.isSome → service.Started :=
    fun _ heof hbytes h1 h2 h3 =>
      ⟨h1, h2, h3, fun heq => absurd heq heof, fun heq => absurd heq hbytes⟩
  simp only [initServer] at h ⊢
  split_ifs at h ⊢
  · exact hnone _ (by decide) (by decide) rfl rfl rfl
  · exact hnone _ (by decide) (by decide) rfl rfl rfl
  · exact hnone _ (by decide) (by decide) rfl rfl rfl
  · obtain hport | hcallback := h
    · exact absurd rfl hport
    · cases hcallback

theorem Clean.initial : Clean .initial where
  present := uses_none rfl
  unused i hi := by
    change (initServer.services i).port = -1 at hi
    change initServer.services i = .unused
    unfold initServer at hi ⊢
    dsimp only at hi ⊢
    split_ifs at hi ⊢
    rfl

theorem Installed.initial : Installed .initial where
  owners := .initial
  started i hi := initial_started i (.inr hi)
  bulk := no_bulkWrites rfl

end ThreadsState

/-! ## Results -/

open ThreadsState

/-- A bulk service is opened on port 3; its thread is number `k`. -/
private def bulkStarted (k : Nat) : List ThreadsLabel :=
  [.frame spawnerService [0, 1, 0, 0], .main, .main, .openNewPort (some firstPort), .init true,
    .main, .main, .main, .main, .main, .service k, .service k]

/-- Main takes a status about port 3 up to the `switch`. -/
private def statusTaken (code : UInt8) : List ThreadsLabel :=
  [.frame portStatusService [3, 0, code, 0], .main, .main]

/-- The phone has sent EOF and sends CLOSE while the payload closes its fifo; the
thread resets the entry behind main's test. -/
private def closeCrosses : List ThreadsLabel :=
  bulkStarted 0 ++ statusTaken 3 ++ [.main, .main, .main] ++
    .read 0 none :: List.replicate 8 (.service 0) ++ statusTaken 4 ++ [.service 0, .main, .main]

/-- The next service on the port gets the phone's EOF. -/
private def inheritedFlag : List ThreadsLabel :=
  closeCrosses ++ .service 0 :: bulkStarted 1 ++ statusTaken 3 ++ List.replicate 5 .main

/-- Its cleanup waits for its thread, which goes on reading: nobody has closed its output. -/
example : ((bridgeThreads.run .initial inheritedFlag).map fun s => (s.main, s.pc 1)) =
    some (.cleanupJoin firstPort 1 .poll, .resume .loop) := by
  decide +kernel

end AapBridge.Accessory
