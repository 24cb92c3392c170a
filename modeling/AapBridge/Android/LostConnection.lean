import AapBridge.Android.FrameAtHand

/-! # Calls that a lost connection leaves waiting

Only an `IOException` in `ServiceSpawner.onDataReady` releases the 5000 permits;
every other end of the receiver thread releases none. The permits are counted
against what released them, and the calls that came to wait against those that
got one: a call is left without a permit exactly if more calls have come than
permits were released.
-/

namespace AapBridge.Android

open AapBridge.Lib
open AapBridge.Accessory (Slot slot? MultiplexedMessage)

variable {Tid Sid P C : Type*}

namespace ReceivingState

variable {s t : ReceivingState Tid Sid P}

/-! ## What the receiver does to the spawner -/

inductive SpawnerStep (s t : ReceivingState Tid Sid P) : Prop
  | same (spawner : t.spawner = s.spawner) (answering : s.answering = false)
      (reads : (s.spawnerReads && s.inputClosed) = false)
  | answered {bytes : List UInt8} {response : OpenRequestResponse} (answering : s.answering = true)
      (reads : s.spawnerReads = false)
      (spawner : t.spawner = { s.spawner with portRequestResponse := bytes }.answer response)
  | ignored {bytes : List UInt8} (answering : s.answering = false) (reads : s.spawnerReads = false)
      (spawner : t.spawner = { s.spawner with portRequestResponse := bytes })
  | released (answering : s.answering = false) (reads : (s.spawnerReads && s.inputClosed) = true)
      (spawner : t.spawner = { s.spawner with
        openRequestResponsesReady := s.spawner.openRequestResponsesReady + 5000 })
  | done (receiver : s.receiver = .awaitDone) (answering : s.answering = false)
      (reads : s.spawnerReads = false)
      (spawner : t.spawner = { s.spawner with
        openRequestResponsesDone := s.spawner.openRequestResponsesDone - 1 })

theorem onDataReady_spawner (s : ReceivingState Tid Sid P) (service : Sid) (length : Short) :
    (s.onDataReady service length).spawner = s.spawner := by
  unfold onDataReady
  cases s.kind service with
  | portStatus => dsimp only; split <;> rfl
  | serviceSpawner => rfl
  | keepalive => rfl
  | dbusMethods | dbusSignals | bulkTransfer => dsimp only; split <;> rfl

theorem spawnerResponse_spawner {bytes : List UInt8} (hanswering : s.answering = isResponse bytes)
    (hreads : s.spawnerReads = false) : SpawnerStep s (s.spawnerResponse bytes) := by
  match bytes with
  | msgType :: low :: high :: success :: errorCode =>
      by_cases htype : msgType = 0x73
      · have hresponse : isResponse (msgType :: low :: high :: success :: errorCode) = true := by
          simp [isResponse, htype]
        apply SpawnerStep.answered (hanswering.trans hresponse) hreads
        unfold spawnerResponse
        dsimp only
        rw [if_neg (not_not_intro htype)]
      · have hresponse : isResponse (msgType :: low :: high :: success :: errorCode) = false := by
          simp [isResponse, htype]
        apply SpawnerStep.ignored (hanswering.trans hresponse) hreads
        unfold spawnerResponse
        dsimp only
        rw [if_pos htype]
        rfl
  | [] | [_] | [_, _] | [_, _, _] => exact .ignored hanswering hreads rfl

theorem handle_spawner {service : Sid} {bytes : List UInt8} (h : s.receiver = .handle service bytes) :
    SpawnerStep s (s.handle service bytes) := by
  have hreads : s.spawnerReads = false := by
    rw [spawnerReads, h]
  have hanswering : s.answering = (s.kind service = .serviceSpawner && isResponse bytes) := by
    rw [answering, h]
  unfold ReceivingState.handle
  cases hkind : s.kind service with
  | serviceSpawner =>
      rw [hkind] at hanswering
      exact spawnerResponse_spawner (by simpa using hanswering) hreads
  | portStatus =>
      rw [hkind] at hanswering
      apply SpawnerStep.same _ (by simpa using hanswering) (by simp [hreads])
      dsimp only
      split
      · split <;> rfl
      · rfl
  | dbusMethods | dbusSignals =>
      rw [hkind] at hanswering
      apply SpawnerStep.same _ (by simpa using hanswering) (by simp [hreads])
      dsimp only
      split <;> rfl
  | keepalive | bulkTransfer =>
      rw [hkind] at hanswering
      exact .same rfl (by simpa using hanswering) (by simp [hreads])

theorem readThrows_spawner {service : Sid} {bytes : List UInt8} {remaining : Nat}
    (h : s.receiver = .readAll service bytes remaining) (hremaining : remaining ≠ 0) :
    (s.readThrows service bytes).spawner = if s.spawnerReads then { s.spawner with
      openRequestResponsesReady := s.spawner.openRequestResponsesReady + 5000 } else s.spawner := by
  have hreads : s.spawnerReads = decide (s.kind service = .serviceSpawner) := by
    rw [spawnerReads, h]
    simp [Nat.pos_of_ne_zero hremaining]
  unfold readThrows
  rw [hreads]
  cases s.kind service <;> rfl

theorem not_answering (h : ∀ service bytes, s.receiver ≠ .handle service bytes) : s.answering = false := by
  unfold answering
  split
  · next service bytes hreceiver => exact absurd hreceiver (h service bytes)
  · rfl

theorem not_spawnerReads (h : ∀ service bytes remaining, s.receiver ≠ .readAll service bytes remaining) :
    s.spawnerReads = false := by
  unfold spawnerReads
  split
  · next service bytes remaining hreceiver => exact absurd hreceiver (h service bytes remaining)
  · rfl

/-- Outside of `readAll`, `handle` and the wait for the requester nothing happens
to the spawner. -/
theorem SpawnerStep.elsewhere (hspawner : t.spawner = s.spawner)
    (hhandle : ∀ service bytes, s.receiver ≠ .handle service bytes)
    (hread : ∀ service bytes remaining, s.receiver ≠ .readAll service bytes remaining) : SpawnerStep s t :=
  .same hspawner (not_answering hhandle) (by rw [not_spawnerReads hread, Bool.false_and])

theorem readAll_spawner [DecidableEq P] {service : Sid} {bytes : List UInt8} {remaining n : Nat}
    (hpc : s.receiver = .readAll service bytes remaining) (h : s.receive n = some t) : SpawnerStep s t := by
  have hanswering : s.answering = false := not_answering (by rw [hpc]; nofun)
  have hclosed : s.inputClosed = (s.port service).any fun x => !(s.ports x).inputOpen := by
    rw [inputClosed, hpc]
  simp only [ReceivingState.receive, hpc] at h
  split at h
  · next hzero =>
    cases h
    have hreads : s.spawnerReads = false := by
      rw [spawnerReads, hpc]
      simp [hzero]
    exact .same rfl hanswering (by rw [hreads, Bool.false_and])
  · next hremaining =>
    split at h
    · next hport =>
      cases h
      rw [hport] at hclosed
      exact .same rfl hanswering (by rw [hclosed]; exact Bool.and_false _)
    · next x hport =>
      rw [hport] at hclosed
      split at h
      · next hopen =>
        obtain ⟨r, hr, rfl⟩ := Option.map_eq_some_iff.mp h
        have hspawner : r.2.spawner = s.spawner := by
          rw [(read_spec hr).2.2.2.2]
        exact .same hspawner hanswering (by rw [hclosed]; simp [hopen])
      · next hopen =>
        cases h
        have hthrows := readThrows_spawner hpc hremaining
        cases hreads : s.spawnerReads with
        | true =>
            rw [hreads] at hthrows
            exact .released hanswering (by rw [hreads, hclosed]; simpa using hopen) hthrows
        | false =>
            rw [hreads] at hthrows
            exact .same hthrows hanswering (by rw [hreads, Bool.false_and])

theorem receive_spawner [DecidableEq P] {n : Nat} (h : s.receive n = some t) : SpawnerStep s t := by
  have hread : ∀ {requested : Nat} {r : List UInt8 × ReceivingState Tid Sid P}, s.read n requested = some r →
      r.2.spawner = s.spawner := by
    intro requested r hr
    rw [(read_spec hr).2.2.2.2]
  cases hpc : s.receiver with
  | readAll service bytes remaining => exact readAll_spawner hpc h
  | handle service bytes =>
      simp only [ReceivingState.receive, hpc] at h
      cases h
      exact handle_spawner hpc
  | awaitDone =>
      simp only [ReceivingState.receive, hpc] at h
      split at h
      · cases h
        exact .done hpc (not_answering (by rw [hpc]; nofun)) (not_spawnerReads (by rw [hpc]; nofun)) rfl
      · cases h
  | header bytes =>
      simp only [ReceivingState.receive, hpc] at h
      obtain ⟨r, hr, rfl⟩ := Option.map_eq_some_iff.mp h
      refine .elsewhere ?_ (by rw [hpc]; nofun) (by rw [hpc]; nofun)
      split <;> exact hread hr
  | lookup port dataLength =>
      refine .elsewhere ?_ (by rw [hpc]; nofun) (by rw [hpc]; nofun)
      simp only [ReceivingState.receive, hpc] at h
      split at h
      · cases h
        rfl
      · split at h <;> cases h <;> rfl
  | skip mustSkip =>
      refine .elsewhere ?_ (by rw [hpc]; nofun) (by rw [hpc]; nofun)
      simp only [ReceivingState.receive, hpc] at h
      split at h
      · obtain ⟨r, hr, rfl⟩ := Option.map_eq_some_iff.mp h
        exact hread hr
      · cases h
        rfl
  | test service dataLength =>
      refine .elsewhere ?_ (by rw [hpc]; nofun) (by rw [hpc]; nofun)
      simp only [ReceivingState.receive, hpc] at h
      split at h
      · cases h
        rfl
      · split at h <;> cases h
        · exact onDataReady_spawner s service dataLength
        · rfl
  | skipRead i =>
      refine .elsewhere ?_ (by rw [hpc]; nofun) (by rw [hpc]; nofun)
      simp only [ReceivingState.receive, hpc] at h
      split at h
      · obtain ⟨r, hr, rfl⟩ := Option.map_eq_some_iff.mp h
        exact hread hr
      · cases h
        rfl
  | statusTest port status =>
      refine .elsewhere ?_ (by rw [hpc]; nofun) (by rw [hpc]; nofun)
      simp only [ReceivingState.receive, hpc] at h
      split at h <;> cases h <;> rfl
  | statusSwitch port status =>
      refine .elsewhere ?_ (by rw [hpc]; nofun) (by rw [hpc]; nofun)
      simp only [ReceivingState.receive, hpc] at h
      split at h
      · split at h <;> cases h <;> rfl
      · cases h
        rfl
  | statusCleanup port =>
      refine .elsewhere ?_ (by rw [hpc]; nofun) (by rw [hpc]; nofun)
      simp only [ReceivingState.receive, hpc] at h
      split at h
      · cases h
        rfl
      · split at h <;> cases h <;> rfl
  | stopped =>
      simp only [ReceivingState.receive, hpc] at h
      cases h

/-- The permits that a step of the receiver releases. -/
theorem receive_permits [DecidableEq P] {n : Nat} (h : s.receive n = some t) :
    t.spawner.openRequestResponsesReady = s.spawner.openRequestResponsesReady +
      (if s.answering then 1 else 0) + 5000 * (if s.spawnerReads && s.inputClosed then 1 else 0) := by
  cases receive_spawner h with
  | same spawner answering reads =>
      rw [spawner, answering, reads]
      rfl
  | answered answering reads spawner =>
      rw [spawner, answering, reads]
      rfl
  | ignored answering reads spawner =>
      rw [spawner, answering, reads]
      rfl
  | released answering reads spawner =>
      rw [spawner, answering, reads]
      rfl
  | done receiver answering reads spawner =>
      rw [spawner, answering, reads]
      rfl

/-! ## A read that fails -/

theorem failRead_spawner {loss : Loss} (h : s.failRead loss = some t) :
    (s.spawnerReads && loss = .ioException) = true ∧ t.spawner = { s.spawner with
        openRequestResponsesReady := s.spawner.openRequestResponsesReady + 5000 } ∨
      (s.spawnerReads && loss = .ioException) = false ∧ ∃ bytes, t.spawner =
        { s.spawner with portRequestResponse := bytes } := by
  have hother : (∀ service bytes remaining, s.receiver ≠ .readAll service bytes remaining) →
      t.spawner = s.spawner → (s.spawnerReads && loss = .ioException) = true ∧ t.spawner = { s.spawner with
          openRequestResponsesReady := s.spawner.openRequestResponsesReady + 5000 } ∨
        (s.spawnerReads && loss = .ioException) = false ∧ ∃ bytes, t.spawner =
          { s.spawner with portRequestResponse := bytes } := by
    intro hread hspawner
    rw [not_spawnerReads hread, hspawner]
    exact .inr ⟨rfl, _, rfl⟩
  cases hpc : s.receiver with
  | readAll service bytes remaining =>
      simp only [failRead, hpc] at h
      split at h
      · cases h
      · next hguard =>
        push Not at hguard
        cases loss with
        | endOfFile =>
            rw [show decide (Loss.endOfFile = .ioException) = false from rfl, Bool.and_false]
            dsimp only at h
            split at h
            · cases h
              exact .inr ⟨rfl, _, rfl⟩
            · cases h
              have hkeep : ∃ bytes', (s.keepBytes service bytes).spawner =
                  { s.spawner with portRequestResponse := bytes' } := by
                unfold keepBytes
                split
                · exact ⟨_, rfl⟩
                · exact ⟨_, rfl⟩
              exact .inr ⟨rfl, hkeep⟩
        | ioException =>
            cases h
            rw [readThrows_spawner hpc hguard.1]
            cases s.spawnerReads with
            | true => exact .inl ⟨rfl, rfl⟩
            | false => exact .inr ⟨rfl, _, rfl⟩
  | header bytes =>
      simp only [failRead, hpc] at h
      cases h
      exact hother (by rw [hpc]; nofun) rfl
  | skip mustSkip =>
      refine hother (by rw [hpc]; nofun) ?_
      simp only [failRead, hpc] at h
      split at h
      · cases loss <;> cases h <;> rfl
      · cases h
  | skipRead i =>
      refine hother (by rw [hpc]; nofun) ?_
      simp only [failRead, hpc] at h
      split at h
      · cases loss <;> cases h <;> rfl
      · cases h
  | _ =>
      simp only [failRead, hpc] at h
      cases h

theorem failRead_permits {loss : Loss} (h : s.failRead loss = some t) :
    t.spawner.openRequestResponsesReady = s.spawner.openRequestResponsesReady +
      5000 * (if s.spawnerReads && loss = .ioException then 1 else 0) := by
  rcases failRead_spawner h with ⟨hfails, hspawner⟩ | ⟨hfails, bytes, hspawner⟩
  · rw [hspawner, hfails]
    rfl
  · rw [hspawner, hfails]
    rfl

/-- The other threads leave the receiver and the spawner alone. -/
theorem step_aside [DecidableEq Tid] [DecidableEq Sid] [DecidableEq P] {label : ReceivingLabel Tid Sid P}
    (hreceive : ∀ n, label ≠ .receive n) (htake : label ≠ .takeResponse) (h : s.step label = some t) :
    t.spawner = s.spawner ∧ t.receiver = s.receiver := by
  by_cases harrive : ∃ msg, label = .arrive msg
  · obtain ⟨msg, rfl⟩ := harrive
    obtain ⟨-, h⟩ := Option.ite_none_right_eq_some.mp h
    cases h
    exact ⟨rfl, rfl⟩
  · have haside := aside_step hreceive (fun msg hmsg => harrive ⟨msg, hmsg⟩) htake h
    exact ⟨haside.spawner, haside.receiver⟩

/-! ## The end of the thread -/

variable (s) in
/-- The next step of the receiver leaves the loop: a port number outside the
array, a service without a port, or an `Error` of the port status service or of
`new DbusMessage`. -/
def ending : Bool :=
  match s.receiver with
  | .lookup port _ => (slot? port.toInt).isNone
  | .test service dataLength =>
      match s.port service with
      | none => true
      | some x => (s.ports x).inputOpen && s.kind service = .portStatus && dataLength.toInt ≠ 4
  | .handle service bytes => (s.kind service).decodes && DbusMessage.invalidEndian bytes
  | _ => false

variable (s) in
def isStopped : Bool :=
  match s.receiver with
  | .stopped => true
  | _ => false

theorem isStopped_iff : s.isStopped = true ↔ s.receiver = .stopped := by
  unfold isStopped
  split
  · next h => exact iff_of_true rfl h
  · next h => exact iff_of_false nofun h

theorem onDataReady_stopped {service : Sid} {length : Short}
    (h : (s.onDataReady service length).receiver = .stopped) :
    s.kind service = .portStatus ∧ length.toInt ≠ 4 := by
  unfold onDataReady at h
  cases hkind : s.kind service with
  | portStatus =>
      simp only [hkind] at h
      split at h
      · next hlength => exact ⟨rfl, hlength⟩
      · cases h
  | serviceSpawner | keepalive =>
      simp only [hkind] at h
      cases h
  | dbusMethods | dbusSignals | bulkTransfer =>
      simp only [hkind] at h
      split at h <;> cases h

theorem handle_stopped {service : Sid} {bytes : List UInt8}
    (h : (s.handle service bytes).receiver = .stopped) :
    (s.kind service).decodes = true ∧ DbusMessage.invalidEndian bytes = true := by
  unfold ReceivingState.handle at h
  cases hkind : s.kind service with
  | portStatus =>
      simp only [hkind] at h
      split at h
      · split at h <;> cases h
      · cases h
  | serviceSpawner =>
      simp only [hkind, spawnerResponse] at h
      split at h
      · split at h <;> cases h
      · cases h
  | dbusMethods | dbusSignals =>
      simp only [hkind] at h
      split at h
      · next hinvalid => exact ⟨rfl, hinvalid⟩
      · cases h
  | keepalive | bulkTransfer =>
      simp only [hkind] at h
      cases h

theorem receive_stopped [DecidableEq P] {n : Nat} (h : s.receive n = some t)
    (hstopped : t.receiver = .stopped) : s.ending = true := by
  cases hpc : s.receiver with
  | lookup port dataLength =>
      simp only [ReceivingState.receive, hpc] at h
      simp only [ending, hpc]
      split at h
      · next hslot => rw [hslot]; rfl
      · split at h <;> cases h <;> cases hstopped
  | test service dataLength =>
      simp only [ReceivingState.receive, hpc] at h
      simp only [ending, hpc]
      cases hport : s.port service with
      | none => rfl
      | some x =>
          simp only [hport] at h
          split at h
          · next hopen =>
            cases h
            obtain ⟨hkind, hlength⟩ := onDataReady_stopped hstopped
            simp [hopen, hkind, hlength]
          · cases h
            cases hstopped
  | handle service bytes =>
      simp only [ReceivingState.receive, hpc] at h
      cases h
      obtain ⟨hdecodes, hinvalid⟩ := handle_stopped hstopped
      simp only [ending, hpc, hdecodes, hinvalid, Bool.and_self]
  | header bytes =>
      simp only [ReceivingState.receive, hpc] at h
      obtain ⟨r, hr, rfl⟩ := Option.map_eq_some_iff.mp h
      split at hstopped <;> cases hstopped
  | skip mustSkip | skipRead i =>
      simp only [ReceivingState.receive, hpc] at h
      split at h
      · obtain ⟨r, hr, rfl⟩ := Option.map_eq_some_iff.mp h
        cases hstopped
      · cases h
        cases hstopped
  | readAll service bytes remaining =>
      simp only [ReceivingState.receive, hpc] at h
      split at h
      · cases h
        cases hstopped
      · split at h
        · cases h
          cases hstopped
        · split at h
          · obtain ⟨r, hr, rfl⟩ := Option.map_eq_some_iff.mp h
            cases hstopped
          · cases h
            unfold readThrows at hstopped
            split at hstopped <;> cases hstopped
  | statusTest port status =>
      simp only [ReceivingState.receive, hpc] at h
      split at h <;> cases h <;> cases hstopped
  | statusSwitch port status =>
      simp only [ReceivingState.receive, hpc] at h
      split at h
      · split at h <;> cases h <;> cases hstopped
      · cases h
        cases hstopped
  | statusCleanup port =>
      simp only [ReceivingState.receive, hpc] at h
      split at h
      · cases h
        cases hstopped
      · split at h <;> cases h <;> cases hstopped
  | awaitDone =>
      simp only [ReceivingState.receive, hpc] at h
      split at h
      · cases h
        cases hstopped
      · cases h
  | stopped =>
      simp only [ReceivingState.receive, hpc] at h
      cases h

/-- A read that fails ends the thread in front of a frame, or in a skip. -/
theorem failRead_stopped {loss : Loss} (h : s.failRead loss = some t)
    (hstopped : t.receiver = .stopped) :
    (∃ bytes, s.receiver = .header bytes) ∨ (∃ i, s.receiver = .skip i) ∧ loss = .ioException := by
  cases hpc : s.receiver with
  | header bytes => exact .inl ⟨bytes, rfl⟩
  | skip mustSkip =>
      simp only [failRead, hpc] at h
      split at h
      · cases loss with
        | endOfFile =>
            cases h
            rw [hpc] at hstopped
            cases hstopped
        | ioException => exact .inr ⟨⟨mustSkip, rfl⟩, rfl⟩
      · cases h
  | skipRead i =>
      simp only [failRead, hpc] at h
      split at h
      · cases loss <;> cases h <;> cases hstopped
      · cases h
  | readAll service bytes remaining =>
      simp only [failRead, hpc] at h
      split at h
      · cases h
      · cases loss with
        | endOfFile =>
            dsimp only at h
            split at h <;> cases h <;> cases hstopped
        | ioException =>
            cases h
            unfold readThrows at hstopped
            split at hstopped <;> cases hstopped
  | _ =>
      simp only [failRead, hpc] at h
      cases h

end ReceivingState

namespace RequestingState

variable {s t : RequestingState Tid Sid P C}

/-! ## Permits and calls -/

variable (s) in
/-- The permits that have been released. -/
def released : Nat := s.answers + 5000 * s.failures

/-- The permits that are left are those released for which no call has come yet,
and the calls that wait are those without one. -/
structure Accounted (s : RequestingState Tid Sid P C) : Prop where
  permits : s.base.spawner.openRequestResponsesReady + s.come = s.queue.length + s.released
  waiting : ∀ c, s.call c = .waiting ↔ c ∈ s.queue
  nodup : s.queue.Nodup

theorem Accounted.initial [DecidableEq C] (h : RequestingInit s) : s.Accounted where
  permits := by
    obtain ⟨hcome, hanswers, hfailures⟩ := h.counters
    rw [h.spawner, hcome, h.queue, released, hanswers, hfailures]
    rfl
  waiting c := by
    rw [h.call c, h.queue]
    exact iff_of_false nofun List.not_mem_nil
  nodup := by
    rw [h.queue]
    exact List.nodup_nil

/-- A call that neither waited nor waits now. -/
theorem waiting_setCall [DecidableEq C] (h : ∀ c, s.call c = .waiting ↔ c ∈ s.queue) {c : C} {pc : RequestPc}
    (hbefore : s.call c ≠ .waiting) (hafter : pc ≠ .waiting) (c' : C) :
    (s.setCall c pc).call c' = .waiting ↔ c' ∈ s.queue := by
  change Function.update s.call c pc c' = .waiting ↔ c' ∈ s.queue
  by_cases hc : c' = c
  · rw [hc, Function.update_self, ← h c]
    exact iff_of_false hafter hbefore
  · rw [Function.update_of_ne hc]
    exact h c'

theorem Accounted.stepBase [DecidableEq Tid] [DecidableEq Sid] [DecidableEq P] {label : ReceivingLabel Tid Sid P} (h : s.Accounted)
    (hstep : s.stepBase label = some t) : t.Accounted := by
  have haside : ∀ {base : ReceivingState Tid Sid P}, (∀ n, label ≠ .receive n) → label ≠ .takeResponse →
      s.base.step label = some base → ({ s with base } : RequestingState Tid Sid P C).Accounted := by
    intro base hreceive htake hbase
    refine ⟨?_, h.waiting, h.nodup⟩
    rw [(ReceivingState.step_aside hreceive htake hbase).1]
    exact h.permits
  cases label with
  | takeResponse => cases hstep
  | arrive msg =>
      simp only [RequestingState.stepBase] at hstep
      split at hstep
      · obtain ⟨base, hbase, rfl⟩ := Option.map_eq_some_iff.mp hstep
        exact haside nofun nofun hbase
      · cases hstep
  | receive n =>
      obtain ⟨base, hbase, rfl⟩ := Option.map_eq_some_iff.mp hstep
      refine ⟨?_, h.waiting, h.nodup⟩
      have hpermits := h.permits
      show base.spawner.openRequestResponsesReady + s.come = s.queue.length +
        ((if s.base.answering = true then s.answers + 1 else s.answers) +
          5000 * if (s.base.spawnerReads && s.base.inputClosed) = true then s.failures + 1 else s.failures)
      rw [ReceivingState.receive_permits hbase]
      rw [released] at hpermits
      split <;> split <;> omega
  | startClose tid x | startEof tid x | run tid | register i service | assignPort service x =>
      obtain ⟨base, hbase, rfl⟩ := Option.map_eq_some_iff.mp hstep
      exact haside nofun nofun hbase

theorem Accounted.fail (h : s.Accounted) (hstep : s.fail = some t) : t.Accounted := by
  obtain ⟨loss, hlost, hstep⟩ := Option.bind_eq_some_iff.mp hstep
  split at hstep
  · obtain ⟨base, hbase, rfl⟩ := Option.map_eq_some_iff.mp hstep
    refine ⟨?_, h.waiting, h.nodup⟩
    have hpermits := h.permits
    show base.spawner.openRequestResponsesReady + s.come = s.queue.length + (s.answers +
      5000 * if (s.base.spawnerReads && decide (loss = .ioException)) = true then s.failures + 1
        else s.failures)
    rw [ReceivingState.failRead_permits hbase]
    rw [released] at hpermits
    split <;> omega
  · cases hstep

/-! ## Calls left waiting -/

variable (s) in
/-- The receiver thread has ended, and a call waits where no permit is left. -/
def Stranded : Prop :=
  s.base.receiver = .stopped ∧ (∃ c, s.call c = .waiting) ∧
    s.base.spawner.openRequestResponsesReady = 0

variable (s) in
/-- A read that fails now leaves the loop. -/
def failEnds : Bool :=
  match s.base.receiver with
  | .header _ => true
  | .skip _ => s.lost = some .ioException
  | _ => false

variable (s) in
/-- A response has been read for each of `come` calls; or the connection was lost to an
`IOException` inside a response, and for at most 5000 of them none has. -/
def Answers (come : Nat) : Prop :=
  come ≤ s.answers ∨ 0 < s.failures ∧ come ≤ s.answers + 5000

instance (come : Nat) : Decidable (s.Answers come) := inferInstanceAs (Decidable (_ ∨ _))

variable (s) in
/-- The condition: the thread ends where the calls that have come to wait are answered,
or behind a response that an `IOException` broke off, with at most 5000 that are not.
The same holds of a call that comes later. -/
def Supplied : RequestingLabel Tid Sid P C → Prop
  | .base (.receive _) => s.base.ending = true → s.Answers s.come
  | .fail => s.failEnds = true → s.Answers s.come
  | .wait _ => s.base.isStopped = true → s.Answers (s.come + 1)
  | _ => True

instance (s : RequestingState Tid Sid P C) (label : RequestingLabel Tid Sid P C) :
    Decidable (s.Supplied label) :=
  match label with
  | .base (.receive _) => inferInstanceAs (Decidable (_ → _))
  | .fail => inferInstanceAs (Decidable (_ → _))
  | .wait _ => inferInstanceAs (Decidable (_ → _))
  | .base (.arrive _) | .base (.startClose _ _) | .base (.startEof _ _) | .base (.run _)
  | .base .takeResponse | .base (.register _ _) | .base (.assignPort _ _) | .lose _ _ | .fill _
  | .write _ | .writeThrows _ | .acquire _ | .poll _ | .release _ => isTrue trivial

/-- Enough permits have been released for the calls. -/
theorem Answers.released {come : Nat} (h : s.Answers come) : come ≤ s.released := by
  unfold RequestingState.released
  obtain hanswers | ⟨hfailures, hmore⟩ := h <;> omega

theorem not_stranded (h : s.Accounted) (hsupplied : s.base.receiver = .stopped → s.come ≤ s.released) :
    ¬s.Stranded := by
  rintro ⟨hstopped, ⟨c, hc⟩, hready⟩
  have hpermits := h.permits
  have hmem := (h.waiting c).mp hc
  have hlength := List.length_pos_of_mem hmem
  have hle := hsupplied hstopped
  omega

/-! ## Runs -/

variable [DecidableEq Tid] [DecidableEq Sid] [DecidableEq P] [DecidableEq C]

theorem Accounted.step {request : C → ServiceRequest} {label : RequestingLabel Tid Sid P C}
    (h : s.Accounted) (hstep : s.step request label = some t) : t.Accounted := by
  cases label with
  | base label => exact h.stepBase hstep
  | lose loss kept =>
      simp only [RequestingState.step, lose] at hstep
      split at hstep
      · cases hstep
        exact ⟨h.permits, h.waiting, h.nodup⟩
      · cases hstep
  | fail => exact h.fail hstep
  | fill c =>
      simp only [RequestingState.step] at hstep
      split at hstep
      · next hcall =>
        cases hstep
        refine ⟨h.permits, waiting_setCall h.waiting (by rw [hcall]; nofun) ?_, h.nodup⟩
        split <;> nofun
      · cases hstep
  | write c =>
      simp only [RequestingState.step] at hstep
      split at hstep
      · next hcall =>
        split at hstep
        · cases hstep
        · cases hstep
          unfold RequestingState.write
          split <;>
            exact ⟨h.permits, waiting_setCall h.waiting (by rw [hcall]; nofun) nofun, h.nodup⟩
      · cases hstep
  | writeThrows c =>
      simp only [RequestingState.step] at hstep
      split at hstep
      · next hcall =>
        split at hstep
        · cases hstep
          exact ⟨h.permits, waiting_setCall h.waiting (by rw [hcall]; nofun) nofun, h.nodup⟩
        · cases hstep
      · cases hstep
  | wait c =>
      simp only [RequestingState.step] at hstep
      split at hstep
      · next hcall =>
        cases hstep
        have hfresh : c ∉ s.queue := by
          rw [← h.waiting c, hcall]
          nofun
        refine ⟨?_, fun c' => ?_, ?_⟩
        · have hpermits := h.permits
          show s.base.spawner.openRequestResponsesReady + (s.come + 1) = (s.queue ++ [c]).length + s.released
          rw [List.length_append, List.length_singleton]
          omega
        · show Function.update s.call c .waiting c' = .waiting ↔ c' ∈ s.queue ++ [c]
          rw [List.mem_append, List.mem_singleton]
          by_cases hc : c' = c
          · rw [hc, Function.update_self]
            exact iff_of_true rfl (.inr rfl)
          · rw [Function.update_of_ne hc, h.waiting c']
            exact (or_iff_left hc).symm
        · exact List.nodup_append.mpr ⟨h.nodup, List.nodup_singleton c, by
            intro a ha b hb
            rw [List.mem_singleton.mp hb]
            exact ne_of_mem_of_not_mem ha hfresh⟩
      · cases hstep
  | acquire c =>
      simp only [RequestingState.step] at hstep
      split at hstep
      · next hguard =>
        obtain ⟨hhead, hready⟩ := hguard
        cases hstep
        obtain ⟨rest, hqueue⟩ := List.head?_eq_some_iff.mp hhead
        have hnodup := h.nodup
        rw [hqueue] at hnodup
        obtain ⟨hfresh, hrest⟩ := List.nodup_cons.mp hnodup
        refine ⟨?_, fun c' => ?_, ?_⟩
        · have hpermits := h.permits
          rw [hqueue, List.length_cons] at hpermits
          show s.base.spawner.openRequestResponsesReady - 1 + s.come = s.queue.tail.length + s.released
          rw [hqueue, List.tail_cons]
          omega
        · show Function.update s.call c .acquired c' = .waiting ↔ c' ∈ s.queue.tail
          rw [hqueue, List.tail_cons]
          by_cases hc : c' = c
          · rw [hc, Function.update_self]
            exact iff_of_false nofun hfresh
          · rw [Function.update_of_ne hc, h.waiting c', hqueue, List.mem_cons]
            exact or_iff_right hc
        · show s.queue.tail.Nodup
          rwa [hqueue]
      · cases hstep
  | poll c | release c =>
      simp only [RequestingState.step] at hstep
      split at hstep
      · next hcall =>
        cases hstep
        exact ⟨h.permits, waiting_setCall h.waiting (by rw [hcall]; nofun) nofun, h.nodup⟩
      · cases hstep

theorem Accounted.reachable {request : C → ServiceRequest}
    (h : Machine.Reachable (requesting request) s) : s.Accounted :=
  h.invariant (fun _ hi => .initial hi) fun _ _ _ hs ht => hs.step ht

theorem supplied_step {request : C → ServiceRequest} {label : RequestingLabel Tid Sid P C}
    (h : s.base.receiver = .stopped → s.come ≤ s.released) (hsupplied : s.Supplied label)
    (hstep : s.step request label = some t) : t.base.receiver = .stopped → t.come ≤ t.released := by
  have haside : ∀ {label : ReceivingLabel Tid Sid P} {base : ReceivingState Tid Sid P},
      s.base.step label = some base → (∀ n, label ≠ .receive n) → label ≠ .takeResponse →
        base.receiver = .stopped → s.come ≤ s.released := by
    intro label base hbase hreceive htake hstopped
    rw [(ReceivingState.step_aside hreceive htake hbase).2] at hstopped
    exact h hstopped
  cases label with
  | base label =>
      cases label with
      | takeResponse => cases hstep
      | arrive msg =>
          simp only [RequestingState.step, RequestingState.stepBase] at hstep
          split at hstep
          · obtain ⟨base, hbase, rfl⟩ := Option.map_eq_some_iff.mp hstep
            exact haside hbase nofun nofun
          · cases hstep
      | receive n =>
          obtain ⟨base, hbase, rfl⟩ := Option.map_eq_some_iff.mp hstep
          intro hstopped
          have hcome := (hsupplied (ReceivingState.receive_stopped hbase hstopped)).released
          rw [released] at hcome
          show s.come ≤ (if s.base.answering = true then s.answers + 1 else s.answers) +
            5000 * if (s.base.spawnerReads && s.base.inputClosed) = true then s.failures + 1 else s.failures
          split <;> split <;> omega
      | startClose tid x | startEof tid x | run tid | register i service | assignPort service x =>
          obtain ⟨base, hbase, rfl⟩ := Option.map_eq_some_iff.mp hstep
          exact haside hbase nofun nofun
  | lose loss kept =>
      simp only [RequestingState.step, lose] at hstep
      split at hstep
      · cases hstep
        exact h
      · cases hstep
  | fail =>
      obtain ⟨loss, hlost, hstep⟩ := Option.bind_eq_some_iff.mp hstep
      split at hstep
      · obtain ⟨base, hbase, rfl⟩ := Option.map_eq_some_iff.mp hstep
        intro hstopped
        have hends : s.failEnds = true := by
          unfold failEnds
          rcases ReceivingState.failRead_stopped hbase hstopped with ⟨bytes, hheader⟩ | ⟨⟨i, hskip⟩, hloss⟩
          · rw [hheader]
          · rw [hskip, hlost, hloss]
            rfl
        have hcome := (hsupplied hends).released
        rw [released] at hcome
        show s.come ≤ s.answers + 5000 * if (s.base.spawnerReads && decide (loss = .ioException)) = true
          then s.failures + 1 else s.failures
        split <;> omega
      · cases hstep
  | wait c =>
      simp only [RequestingState.step] at hstep
      split at hstep
      · cases hstep
        intro hstopped
        exact (hsupplied (ReceivingState.isStopped_iff.mpr hstopped)).released
      · cases hstep
  | write c =>
      simp only [RequestingState.step] at hstep
      split at hstep
      · split at hstep
        · cases hstep
        · cases hstep
          unfold RequestingState.write
          split <;> exact h
      · cases hstep
  | writeThrows c =>
      simp only [RequestingState.step] at hstep
      split at hstep
      · split at hstep
        · cases hstep
          exact h
        · cases hstep
      · cases hstep
  | acquire c =>
      simp only [RequestingState.step] at hstep
      split at hstep
      · cases hstep
        exact h
      · cases hstep
  | fill c | poll c | release c =>
      simp only [RequestingState.step] at hstep
      split at hstep
      · cases hstep
        exact h
      · cases hstep

theorem supplied_reachable {request : C → ServiceRequest}
    (h : Machine.Reachable (Machine.guard (requesting request) RequestingState.Supplied) s) :
    s.Accounted ∧ (s.base.receiver = .stopped → s.come ≤ s.released) := by
  apply h.invariant (P := fun s => s.Accounted ∧ (s.base.receiver = .stopped → s.come ≤ s.released))
  · intro s hi
    refine ⟨.initial hi, fun hstopped => ?_⟩
    rw [hi.base.receiver] at hstopped
    cases hstopped
  · intro s label t hs hstep
    obtain ⟨hsupplied, hstep⟩ := Machine.guard_step.mp hstep
    exact ⟨hs.1.step hstep, supplied_step hs.2 hsupplied hstep⟩

/-- With fewer permits than calls, the calls take what there is. -/
theorem stranded_follows (request : C → ServiceRequest) {permits : Nat} (h : s.Accounted)
    (hready : s.base.spawner.openRequestResponsesReady = permits) (hstopped : s.base.receiver = .stopped)
    (hfew : s.released < s.come) :
    ∃ as t, (requesting request).run s as = some t ∧ t.Stranded := by
  induction permits generalizing s with
  | zero =>
      have hpermits := h.permits
      cases hqueue : s.queue with
      | nil =>
          rw [hqueue, List.length_nil] at hpermits
          omega
      | cons c rest =>
          have hwaiting : s.call c = .waiting := by
            rw [h.waiting c, hqueue]
            exact List.mem_cons_self
          exact ⟨[], s, rfl, hstopped, ⟨c, hwaiting⟩, hready⟩
  | succ permits ih =>
      have hpermits := h.permits
      cases hqueue : s.queue with
      | nil =>
          rw [hqueue, List.length_nil] at hpermits
          omega
      | cons c rest =>
          have hstep : ∃ t, s.step request (.acquire c) = some t := by
            simp only [RequestingState.step, hqueue]
            rw [if_pos ⟨rfl, by omega⟩]
            exact ⟨_, rfl⟩
          obtain ⟨t, ht⟩ := hstep
          have hcount : t.base.spawner.openRequestResponsesReady = permits ∧
              t.base.receiver = s.base.receiver ∧ t.released = s.released ∧ t.come = s.come := by
            simp only [RequestingState.step] at ht
            split at ht
            · cases ht
              refine ⟨?_, rfl, rfl, rfl⟩
              show s.base.spawner.openRequestResponsesReady - 1 = permits
              omega
            · cases ht
          obtain ⟨hready', hreceiver, hreleased, hcome⟩ := hcount
          obtain ⟨as, u, hrun, hstranded⟩ := ih (h.step ht) hready' (hreceiver.trans hstopped)
            (by rw [hreleased, hcome]; exact hfew)
          refine ⟨.acquire c :: as, u, ?_, hstranded⟩
          rw [Machine.run_cons]
          show (s.step request (.acquire c)).bind _ = _
          rw [ht]
          exact hrun

/-- In every run in which the calls are supplied when the receiver thread ends,
and those that come later too, no call is left waiting. In any run, if fewer
permits have been released than calls have come when the thread has ended, taking
what is left leaves a call waiting. -/
theorem lost_connection_releases (request : C → ServiceRequest) :
    (∀ s : RequestingState Tid Sid P C,
      ((requesting request).guard RequestingState.Supplied).Reachable s → ¬s.Stranded) ∧
    ∀ s : RequestingState Tid Sid P C, (requesting request).Reachable s →
      s.base.receiver = .stopped → s.released < s.come →
        ∃ as t, (requesting request).run s as = some t ∧ t.Stranded := by
  constructor
  · intro s h
    obtain ⟨haccounted, hsupplied⟩ := supplied_reachable h
    exact not_stranded haccounted hsupplied
  · intro s h hstopped hfew
    exact stranded_follows request (.reachable h) rfl hstopped hfew

end RequestingState

attribute [local instance] two_neZero four_neZero

/-- The bridge before the first call of `requestService`. -/
def beforeRequests : RequestingState (Fin 1) (Fin 4) (Fin 4) (Fin 2) where
  base := bridgeStarted
  spawnerPort := 1
  lost := none
  portRequest := ByteBuffer.allocate 4000
  call _ := .outside
  queue := []
  outgoing := []
  come := 0
  answers := 0
  failures := 0

theorem beforeRequests_init : RequestingInit beforeRequests :=
  ⟨bridgeStarted_init, rfl, rfl, rfl, fun _ => rfl, rfl, rfl, rfl, rfl, rfl⟩

/-- Both calls ask for a `DbusMethods` service. -/
def methodsRequest (_ : Fin 2) : ServiceRequest := ⟨2, []⟩

/-- The call waits. -/
def RequestPc.isWaiting : RequestPc → Bool
  | .waiting => true
  | _ => false

theorem RequestPc.eq_waiting {pc : RequestPc} (h : pc.isWaiting = true) : pc = .waiting := by
  cases pc <;> first | rfl | cases h

private def callWaits : List (RequestingLabel (Fin 1) (Fin 4) (Fin 4) (Fin 2)) :=
  [.fill 0, .write 0, .wait 0]

/-- The connection is lost behind the header of the response. -/
private def insideResponse : List (RequestingLabel (Fin 1) (Fin 4) (Fin 4) (Fin 2)) :=
  [.base (.arrive ⟨1, 8, [0x73, 3, 0, 1, 0, 0, 0, 0]⟩), .lose .ioException 4, .base (.receive 4),
    .base (.receive 0), .base (.receive 0), .fail, .base (.receive 0), .fail]

private theorem insideResponse_isSome :
    (((requesting methodsRequest).guard RequestingState.Supplied).run beforeRequests
      (callWaits ++ insideResponse)).isSome := by
  decide +kernel

private theorem insideResponse_ends :
    ((((requesting methodsRequest).guard RequestingState.Supplied).run beforeRequests
        (callWaits ++ insideResponse)).get insideResponse_isSome).base.isStopped = true ∧
      (((((requesting methodsRequest).guard RequestingState.Supplied).run beforeRequests
        (callWaits ++ insideResponse)).get insideResponse_isSome).call 0).isWaiting = true := by
  decide +kernel

/-- The 5000 permits are there for the call that waits. -/
theorem lost_connection_releases_response : ∃ s : RequestingState (Fin 1) (Fin 4) (Fin 4) (Fin 2),
    s.base.receiver = .stopped ∧ s.call 0 = .waiting ∧ s.base.spawner.openRequestResponsesReady ≠ 0 := by
  have hstopped := ReceivingState.isStopped_iff.mp insideResponse_ends.1
  have hwaiting := RequestPc.eq_waiting insideResponse_ends.2
  refine ⟨_, hstopped, hwaiting, fun hzero => ?_⟩
  apply (RequestingState.lost_connection_releases methodsRequest).1 _
    (Machine.Reachable.of_run (M := (requesting methodsRequest).guard RequestingState.Supplied)
      beforeRequests_init insideResponse_isSome)
  exact ⟨hstopped, ⟨0, hwaiting⟩, hzero⟩

/-- The connection is lost in front of a header. -/
private def beforeHeader : List (RequestingLabel (Fin 1) (Fin 4) (Fin 4) (Fin 2)) :=
  [.lose .endOfFile 0, .fail]

private theorem beforeHeader_isSome :
    ((requesting methodsRequest).run beforeRequests (callWaits ++ beforeHeader)).isSome := by
  decide +kernel

private theorem beforeHeader_ends :
    (((requesting methodsRequest).run beforeRequests
        (callWaits ++ beforeHeader)).get beforeHeader_isSome).base.isStopped = true ∧
      ((((requesting methodsRequest).run beforeRequests
        (callWaits ++ beforeHeader)).get beforeHeader_isSome).call 0).isWaiting = true ∧
      (((requesting methodsRequest).run beforeRequests (callWaits ++ beforeHeader)).get
        beforeHeader_isSome).base.spawner.openRequestResponsesReady = 0 := by
  decide +kernel

/-- A call has written its request and waits; the stream ends, and with it the
receiver thread. -/
theorem call_stranded :
    ¬∀ s : RequestingState (Fin 1) (Fin 4) (Fin 4) (Fin 2),
      (requesting methodsRequest).Reachable s → ¬s.Stranded := by
  intro h
  have hreach := Machine.Reachable.of_run (M := requesting methodsRequest) beforeRequests_init
    beforeHeader_isSome
  obtain ⟨hstopped, hwaiting, hready⟩ := beforeHeader_ends
  exact h _ hreach ⟨ReceivingState.isStopped_iff.mp hstopped, ⟨0, RequestPc.eq_waiting hwaiting⟩, hready⟩

end AapBridge.Android
