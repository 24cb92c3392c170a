import AapBridge.Accessory.BridgeThreads

/-! # What one step of the threads can do

Most steps only move the thread that takes them (`MainMove`, `ServiceMove`);
the others change one more thing each. Everything about runs goes through
`step_cases`, and no later proof unfolds the step function.
-/

namespace AapBridge.Accessory

open AapBridge.Lib AapBridge.Lib.HalfClose

namespace ThreadsState

/-- The steps of main that change nothing but its place. -/
inductive MainMove (s : ThreadsState) : ThreadsLabel → MainPc → MainPc → Prop where
  | null (h : s.receiver ≠ .reading) : MainMove s .null (.resume .poll) (.resume (.deInit 0))
  | frame {i data} (h : (s.bridge.services i).port ≠ -1) :
      MainMove s (.frame i data) (.resume .poll) (.call i data)
  | status {i data target status} :
      MainMove s .main (.call i data) (.statusTest target status)
  | spawner {i data protocol} : MainMove s .main (.call i data) (.spawnLock protocol)
  | keepalive {i data} :
      MainMove s .main (.call i data) (.write i [0x70, 0x6f, 0x6e, 0x67] .bridge .poll)
  | bulk {i data} (h : (s.bridge.services i).onBytesReceived = some .bulkOnBytesReceived) :
      MainMove s .main (.call i data) (.bulkWrites i data)
  | method {i data} (h : (s.bridge.services i).onBytesReceived = some .methodOnBytesReceived) :
      MainMove s .main (.call i data) (.method i)
  | signals {i data} : MainMove s .main (.call i data) (.resume .poll)
  | statusGone {target status} : MainMove s .main (.statusTest target status) (.resume .poll)
  | statusFound {target status} :
      MainMove s .main (.statusTest target status) (.statusSwitch target status)
  | statusUnknown {target status} :
      MainMove s .main (.statusSwitch target status) (.resume (.closedTest target))
  | onEofMethod {target} (h : (s.bridge.services target).onEof = some .methodOnEof) :
      MainMove s .main (.onEof target) (.sendBuild target .eof)
  | onEofOther {target} : MainMove s .main (.onEof target) (.resume (.closedTest target))
  | bulkWritten {outcomes i data} :
      MainMove s (.bulkWrite outcomes) (.bulkWrites i data) (.resume .poll)
  | bulkFailed {outcomes i data} :
      MainMove s (.bulkWrite outcomes) (.bulkWrites i data) (.sendBuild i .close)
  | noReply {reply tooLong i} : MainMove s (.reply reply tooLong) (.method i) (.resume .poll)
  | replied {reply tooLong i marshalled} (h : methodReply reply tooLong = some marshalled) :
      MainMove s (.reply reply tooLong) (.method i)
        (.write i marshalled (.service (s.incarnation i)) .poll)
  | noPort {protocol} : MainMove s (.openNewPort none) (.spawnOpen protocol)
      (.write spawnerService (deniedResponse 5) .bridge .spawnUnlock)
  | denied {ok i protocol error} : MainMove s (.init ok) (.spawnInit i protocol)
      (.write spawnerService (deniedResponse error) .bridge .spawnUnlock)
  | build {i g} : MainMove s .main (.sendBuild i g)
      (.sendClear i g (statusBuffer (s.bridge.services i).port g))
  | message {i buffer origin next} : MainMove s .main (.write i buffer origin next)
      (.addWait (some (s.message i buffer)) origin next)
  | sendClosed {i g} (h : s.bothClosed i = true) :
      MainMove s .main (.resume (.sendTest i g)) (.cleanupLock i (behindSend i g))
  | sendOpen {i g} : MainMove s .main (.resume (.sendTest i g)) (.resume (behindSend i g))
  | closed {i} (h : s.bothClosed i = true) :
      MainMove s .main (.resume (.closedTest i)) (.cleanupLock i .poll)
  | stillOpen {i} : MainMove s .main (.resume (.closedTest i)) (.resume .poll)
  | deInitUsed {n} (h : n < maxPorts) :
      MainMove s .main (.resume (.deInit n)) (.cleanupLock ⟨n, h⟩ (.deInit (n + 1)))
  | deInitFree {n} (h : n < maxPorts) :
      MainMove s .main (.resume (.deInit n)) (.resume (.deInit (n + 1)))
  | deInitEnd {n} (h : maxPorts ≤ n) :
      MainMove s .main (.resume (.deInit n)) (.addWait none .bridge .joinReceive)
  | joinReceive : MainMove s .main (.resume .joinReceive) (.resume .joinSend)
  | joinSend : MainMove s .main (.resume .joinSend) (.resume .finished)
  | callbackBulk {i next} (h : (s.bridge.services i).onCleanupService = some .bulkCleanup) :
      MainMove s .main (.cleanupCallback i next) (.cleanupJoin i (s.incarnation i) next)
  | callbackOther {i next} (hb : (s.bridge.services i).onCleanupService ≠ some .bulkCleanup)
      (hs : (s.bridge.services i).onCleanupService ≠ some .signalsCleanup) :
      MainMove s .main (.cleanupCallback i next) (.cleanupReset i next)
  | joined {i k next} (h : s.pc k = .ended) :
      MainMove s .main (.cleanupJoin i k next) (.cleanupReset i next)

/-- The steps of the thread of service `k` that change nothing but its place. -/
inductive ServiceMove (s : ThreadsState) (k : Nat) :
    ThreadsLabel → ServicePc → ServicePc → Prop where
  | pop : ServiceMove s k (.service k) (.resume .loop) .pop
  | stopped : ServiceMove s k (.service k) (.resume .loop) .ended
  | read {data} (h : data.length ≤ bulkBufferSize) :
      ServiceMove s k (.read k (some data)) (.resume .loop) (.write data)
  | readError (h : (s.thread k).protocol = .bulk) :
      ServiceMove s k (.read k none) (.resume .loop) .eofBuild
  | signal {marshalled} : ServiceMove s k (.pop k (some marshalled)) .pop (.write marshalled)
  | noSignal : ServiceMove s k (.pop k none) .pop (.resume .loop)
  | write {data} : ServiceMove s k (.service k) (.write data)
      (.addWait (s.message (s.slot k) data) .loop)
  | eofBuild : ServiceMove s k (.service k) .eofBuild
      (.eofClear (statusBuffer (s.bridge.services (s.slot k)).port .eof))
  | eofWrite {buffer} : ServiceMove s k (.service k) (.eofWrite buffer)
      (.addWait (s.message portStatusService buffer) .eofTest)
  | closed (h : s.bothClosed (s.slot k) = true) :
      ServiceMove s k (.service k) (.resume .eofTest) .cleanupLock
  | stillOpen : ServiceMove s k (.service k) (.resume .eofTest) .ended
  | detach : ServiceMove s k (.service k) .cleanupCallback .cleanupReset

/-- An update of flags or of `service_data`. -/
structure KeepsCallbacks (f : BridgeService → BridgeService) : Prop where
  port : ∀ service, (f service).port = service.port
  onBytesReceived : ∀ service, (f service).onBytesReceived = service.onBytesReceived
  onEof : ∀ service, (f service).onEof = service.onEof
  onCleanupService : ∀ service, (f service).onCleanupService = service.onCleanupService

/-- Main clears a flag, or stores in `service_data`, and goes on at `pc`. -/
inductive MainUpdate (s : ThreadsState) :
    MainPc → Slot → (BridgeService → BridgeService) → MainPc → Prop where
  | receivedEof {target status} :
      MainUpdate s (.statusSwitch target status) target (closeFlag .close) (.onEof target)
  | receivedClose {target status} : MainUpdate s (.statusSwitch target status) target
      (closeFlag .eof) (.resume (.closedTest target))
  | closedFifo {target} : MainUpdate s (.onEof target) target
      (fun service => { service with serviceData := some (.bulk (-1)) })
      (.resume (.closedTest target))
  | send {i g buffer} : MainUpdate s (.sendClear i g buffer) i (closeFlag g)
      (.write portStatusService buffer (.service (s.incarnation i)) (.sendTest i g))

inductive Step (s : ThreadsState) : ThreadsLabel → ThreadsState → Prop where
  /-- A frame for a port that is closed. -/
  | ignored {i data} (hpc : s.main = .resume .poll) : Step s (.frame i data) s
  | main {label pc pc'} (hpc : s.main = pc) (hm : MainMove s label pc pc') :
      Step s label (s.enter pc')
  | mainUpdate {pc i f pc'} (hpc : s.main = pc) (hu : MainUpdate s pc i f pc') :
      Step s .main ((s.modify i f).enter pc')
  | spawnLock {protocol} (hpc : s.main = .spawnLock protocol) (hlock : s.startLock = none) :
      Step s .main { s with startLock := some .main, main := .spawnOpen protocol }
  | allocate {i protocol} (hpc : s.main = .spawnOpen protocol)
      (hfree : (s.bridge.services i).port = -1) :
      Step s (.openNewPort (some i))
        { s with bridge := s.bridge.allocate i, main := .spawnInit i protocol }
  | create {i code protocol} (hpc : s.main = .spawnInit i code) :
      Step s (.init true) (s.create i protocol)
  | install {i k protocol} (hpc : s.main = .spawnInstall i k protocol) :
      Step s .main { s with
        bridge := s.bridge.install i protocol
        main := .write spawnerService (openResponse i) (.opened k) .spawnUnlock }
  | spawnUnlock (hpc : s.main = .resume .spawnUnlock) :
      Step s .main { s with startLock := none, main := .resume .poll }
  | mainWait {msg origin next} (hpc : s.main = .addWait msg origin next) (hspace : 0 < s.spaceSem) :
      Step s .main { s with spaceSem := s.spaceSem - 1, main := .addStore msg origin next }
  | mainStore {msg origin next} (hpc : s.main = .addStore msg origin next) :
      Step s .main ((s.store msg origin).enter (.resume next))
  | mainCleanupLock {i next} (hpc : s.main = .cleanupLock i next) (hlock : s.cleanupLock = none) :
      Step s .main { s with cleanupLock := some .main, main := .cleanupCallback i next }
  | signalsCleanup {i next} (hpc : s.main = .cleanupCallback i next)
      (hs : (s.bridge.services i).onCleanupService = some .signalsCleanup) :
      Step s .main
        ((s.stopWork (s.incarnation i)).enter (.cleanupJoin i (s.incarnation i) next))
  | mainReset {i next} (hpc : s.main = .cleanupReset i next) :
      Step s .main ((s.modify i fun _ => .unused).enter (.cleanupUnlock next))
  | mainCleanupUnlock {next} (hpc : s.main = .cleanupUnlock next) :
      Step s .main { s with cleanupLock := none, main := .resume next }
  | service {k label pc pc'} (hpc : s.pc k = pc) (hm : ServiceMove s k label pc pc') :
      Step s label (s.place k pc')
  | startLock {k} (hpc : s.pc k = .startLock) (hlock : s.startLock = none) :
      Step s (.service k) ({ s with startLock := some (.service k) }.place k .startUnlock)
  | startUnlock {k} (hpc : s.pc k = .startUnlock) :
      Step s (.service k) ({ s with startLock := none }.place k (.resume .loop))
  | eofClear {k buffer} (hpc : s.pc k = .eofClear buffer) :
      Step s (.service k) ((s.modify (s.slot k) (closeFlag .eof)).place k (.eofWrite buffer))
  | serviceWait {k msg next} (hpc : s.pc k = .addWait msg next) (hspace : 0 < s.spaceSem) :
      Step s (.service k) ({ s with spaceSem := s.spaceSem - 1 }.place k (.addStore msg next))
  | serviceStore {k msg next} (hpc : s.pc k = .addStore msg next) :
      Step s (.service k) ((s.store (some msg) (.service k)).place k (.resume next))
  | serviceCleanupLock {k} (hpc : s.pc k = .cleanupLock) (hlock : s.cleanupLock = none) :
      Step s (.service k)
        ({ s with cleanupLock := some (.service k) }.place k .cleanupCallback)
  | serviceReset {k} (hpc : s.pc k = .cleanupReset) :
      Step s (.service k) ((s.modify (s.slot k) fun _ => .unused).place k .cleanupUnlock)
  | serviceCleanupUnlock {k} (hpc : s.pc k = .cleanupUnlock) :
      Step s (.service k) ({ s with cleanupLock := none }.place k .ended)
  | senderTest (hpc : s.sender = .loopTest) :
      Step s .sender { s with sender := if s.work then .poll else .ended }
  | senderPoll {msg queue} (hpc : s.sender = .poll) (hqueue : s.queue = msg :: queue) :
      Step s .sender { s with
        queue, spaceSem := s.spaceSem + 1, sender := if msg.isSome then .write else .ended }
  | wrote {ok} (hpc : s.sender = .write) :
      Step s (.wrote ok) { s with work := s.work && ok, sender := .loopTest }
  | receiverNull (hpc : s.receiver = .reading) :
      Step s .receiver { s with receiver := .nullAdded }
  | receiverEnds (hpc : s.receiver = .nullAdded) :
      Step s .receiver { s with work := false, receiver := .ended }

variable {s t : ThreadsState}

/-! ## Main -/

theorem callOnBytesReceived_cases {i : Slot} {data : List UInt8} (hpc : s.main = .call i data)
    (h : s.callOnBytesReceived i data = some t) : Step s .main t := by
  unfold callOnBytesReceived at h
  obtain ⟨f, hf, h⟩ := Option.bind_eq_some_iff.mp h
  cases f with
  | portStatusOnBytesReceived =>
      obtain ⟨target, -, h⟩ := Option.bind_eq_some_iff.mp h
      obtain ⟨status, -, rfl⟩ := Option.map_eq_some_iff.mp h
      exact .main hpc .status
  | serviceSpawnerOnBytesReceived =>
      obtain ⟨protocol, -, rfl⟩ := Option.map_eq_some_iff.mp h
      exact .main hpc .spawner
  | keepaliveOnBytesReceived =>
      cases h
      exact .main hpc .keepalive
  | bulkOnBytesReceived =>
      cases h
      exact .main hpc (.bulk hf)
  | methodOnBytesReceived =>
      cases h
      exact .main hpc (.method hf)
  | signalsOnBytesReceived =>
      cases h
      exact .main hpc .signals

theorem statusSwitch_cases {target : Slot} {status : UInt8}
    (hpc : s.main = .statusSwitch target status) : Step s .main (s.statusSwitch target status) := by
  unfold statusSwitch
  split
  · exact .mainUpdate hpc .receivedEof
  · split
    · exact .mainUpdate hpc .receivedClose
    · exact .main hpc .statusUnknown

theorem callOnEof_cases {target : Slot} (hpc : s.main = .onEof target)
    (h : s.callOnEof target = some t) : Step s .main t := by
  unfold callOnEof at h
  obtain ⟨f, hf, h⟩ := Option.bind_eq_some_iff.mp h
  cases f with
  | methodOnEof =>
      cases h
      exact .main hpc (.onEofMethod hf)
  | bulkOnEof =>
      dsimp only at h
      split at h
      · cases h
        exact .mainUpdate hpc .closedFifo
      · cases h
  | portStatusOnEof | serviceSpawnerOnEof | keepaliveOnEof | signalsOnEof =>
      cases h
      exact .main hpc .onEofOther

theorem callOnCleanupService_cases {i : Slot} {next : Next}
    (hpc : s.main = .cleanupCallback i next) : Step s .main (s.callOnCleanupService i next) := by
  unfold callOnCleanupService
  split
  · next hb => exact .main hpc (.callbackBulk hb)
  · next hs => exact .signalsCleanup hpc hs
  · next hb hs => exact .main hpc (.callbackOther (fun h => hb h) fun h => hs h)

theorem resumeMain_cases {next : Next} (hpc : s.main = .resume next)
    (h : s.resumeMain next = some t) : Step s .main t := by
  cases next with
  | spawnUnlock =>
      cases h
      exact .spawnUnlock hpc
  | sendTest i g =>
      simp only [resumeMain] at h
      split at h
      · next hclosed =>
        cases h
        exact .main hpc (.sendClosed hclosed)
      · cases h
        exact .main hpc .sendOpen
  | closedTest i =>
      simp only [resumeMain] at h
      split at h
      · next hclosed =>
        cases h
        exact .main hpc (.closed hclosed)
      · cases h
        exact .main hpc .stillOpen
  | deInit n =>
      simp only [resumeMain] at h
      split at h
      · next hn =>
        split at h
        · cases h
          exact .main hpc (.deInitUsed hn)
        · cases h
          exact .main hpc (.deInitFree hn)
      · next hn =>
        cases h
        exact .main hpc (.deInitEnd (Nat.le_of_not_lt hn))
  | joinReceive =>
      simp only [resumeMain] at h
      split at h
      · cases h
        exact .main hpc .joinReceive
      · cases h
  | joinSend =>
      simp only [resumeMain] at h
      split at h
      · cases h
        exact .main hpc .joinSend
      · cases h
  | poll => cases h
  | finished => cases h

theorem runMain_cases (h : s.runMain = some t) : Step s .main t := by
  unfold runMain at h
  split at h
  · next next hpc => exact resumeMain_cases hpc h
  · next i data hpc => exact callOnBytesReceived_cases hpc h
  · next target status hpc =>
    split at h
    · cases h
      exact .main hpc .statusGone
    · cases h
      exact .main hpc .statusFound
  · next target status hpc =>
    cases h
    exact statusSwitch_cases hpc
  · next target hpc => exact callOnEof_cases hpc h
  · next protocol hpc =>
    split at h
    · next hlock =>
      cases h
      exact .spawnLock hpc hlock
    · cases h
  · next i k protocol hpc =>
    cases h
    exact .install hpc
  · next i g hpc =>
    cases h
    exact .main hpc .build
  · next i g buffer hpc =>
    cases h
    exact .mainUpdate hpc .send
  · next i buffer origin next hpc =>
    cases h
    exact .main hpc .message
  · next msg origin next hpc =>
    split at h
    · next hspace =>
      cases h
      exact .mainWait hpc hspace
    · cases h
  · next msg origin next hpc =>
    cases h
    exact .mainStore hpc
  · next i next hpc =>
    split at h
    · next hlock =>
      cases h
      exact .mainCleanupLock hpc hlock
    · cases h
  · next i next hpc =>
    cases h
    exact callOnCleanupService_cases hpc
  · next i k next hpc =>
    split at h
    · next hended =>
      cases h
      exact .main hpc (.joined hended)
    · cases h
  · next i next hpc =>
    cases h
    exact .mainReset hpc
  · next next hpc =>
    cases h
    exact .mainCleanupUnlock hpc
  all_goals cases h

theorem frame_cases {i : Slot} {data : List UInt8} (h : s.frame i data = some t) :
    Step s (.frame i data) t := by
  unfold frame at h
  split at h
  · next hpc =>
    split at h
    · cases h
      exact .ignored hpc
    · next hport =>
      cases h
      exact .main hpc (.frame hport)
  · cases h

theorem null_cases (h : s.null = some t) : Step s .null t := by
  unfold null at h
  split at h
  · next hpc =>
    split at h
    · next hreceiver =>
      cases h
      exact .main hpc (.null hreceiver)
    · cases h
  · cases h

theorem openNewPort_cases {opened : Option Slot} (h : s.openNewPort opened = some t) :
    Step s (.openNewPort opened) t := by
  unfold openNewPort at h
  split at h
  · next hpc =>
    cases h
    exact .main hpc .noPort
  · next hpc =>
    split at h
    · next hfree =>
      cases h
      exact .allocate hpc hfree
    · cases h
  · cases h

theorem init_cases {ok : Bool} (h : s.init ok = some t) : Step s (.init ok) t := by
  unfold init at h
  split at h
  · next i code hpc =>
    split at h
    · cases h
      exact .main hpc .denied
    · cases h
      cases ok with
      | true => exact .create hpc
      | false => exact .main hpc .denied
  · cases h

theorem bulkWrite_cases {outcomes : List Int} (h : s.bulkWrite outcomes = some t) :
    Step s (.bulkWrite outcomes) t := by
  unfold bulkWrite at h
  split at h
  · next i data hpc =>
    split at h
    · obtain ⟨r, -, rfl⟩ := Option.map_eq_some_iff.mp h
      split
      · exact .main hpc .bulkFailed
      · exact .main hpc .bulkWritten
    · cases h
  · cases h

theorem reply_cases {reply : Option (List UInt8)} {tooLong : List UInt8}
    (h : s.reply reply tooLong = some t) : Step s (.reply reply tooLong) t := by
  unfold ThreadsState.reply at h
  split at h
  · next i hpc =>
    split at h
    · cases h
      exact .main hpc .noReply
    · next marshalled hreply =>
      cases h
      exact .main hpc (.replied hreply)
  · cases h

/-! ## Services -/

theorem resumeService_cases {k : Nat} {next : ServiceNext} (hpc : s.pc k = .resume next)
    (h : s.resumeService k next = some t) : Step s (.service k) t := by
  cases next with
  | loop =>
      simp only [resumeService] at h
      split at h
      · split at h
        · cases h
          exact .service hpc .pop
        · cases h
          exact .service hpc .stopped
      · cases h
  | eofTest =>
      simp only [resumeService] at h
      split at h
      · next hclosed =>
        cases h
        exact .service hpc (.closed hclosed)
      · cases h
        exact .service hpc .stillOpen

theorem runService_cases {k : Nat} (h : s.runService k = some t) : Step s (.service k) t := by
  unfold runService at h
  split at h
  · next hpc =>
    split at h
    · next hlock =>
      cases h
      exact .startLock hpc hlock
    · cases h
  · next hpc =>
    cases h
    exact .startUnlock hpc
  · next next hpc => exact resumeService_cases hpc h
  · next data hpc =>
    cases h
    exact .service hpc .write
  · next hpc =>
    cases h
    exact .service hpc .eofBuild
  · next buffer hpc =>
    cases h
    exact .eofClear hpc
  · next buffer hpc =>
    cases h
    exact .service hpc .eofWrite
  · next msg next hpc =>
    split at h
    · next hspace =>
      cases h
      exact .serviceWait hpc hspace
    · cases h
  · next msg next hpc =>
    cases h
    exact .serviceStore hpc
  · next hpc =>
    split at h
    · next hlock =>
      cases h
      exact .serviceCleanupLock hpc hlock
    · cases h
  · next hpc =>
    cases h
    exact .service hpc .detach
  · next hpc =>
    cases h
    exact .serviceReset hpc
  · next hpc =>
    cases h
    exact .serviceCleanupUnlock hpc
  all_goals cases h

theorem read_cases {k : Nat} {data : Option (List UInt8)} (h : s.read k data = some t) :
    Step s (.read k data) t := by
  unfold ThreadsState.read at h
  split at h
  · next hpc hprotocol =>
    cases h
    exact .service hpc (.readError hprotocol)
  · next data hpc hprotocol =>
    split at h
    · next hlen =>
      cases h
      exact .service hpc (.read hlen.2)
    · cases h
  · cases h

theorem pop_cases {k : Nat} {signal : Option (List UInt8)} (h : s.pop k signal = some t) :
    Step s (.pop k signal) t := by
  unfold ThreadsState.pop at h
  split at h
  · next hpc =>
    cases h
    exact .service hpc .noSignal
  · next marshalled hpc =>
    cases h
    exact .service hpc .signal
  · cases h

/-! ## Any step -/

theorem runSender_cases (h : s.runSender = some t) : Step s .sender t := by
  unfold runSender at h
  split at h
  · next hpc =>
    cases h
    exact .senderTest hpc
  · next hpc =>
    split at h
    · cases h
    · next msg queue hqueue =>
      cases h
      exact .senderPoll hpc hqueue
  all_goals cases h

theorem wrote_cases {ok : Bool} (h : s.wrote ok = some t) : Step s (.wrote ok) t := by
  unfold ThreadsState.wrote at h
  split at h
  · next hpc =>
    cases h
    exact .wrote hpc
  · cases h

theorem runReceiver_cases (h : s.runReceiver = some t) : Step s .receiver t := by
  unfold runReceiver at h
  split at h
  · next hpc =>
    cases h
    exact .receiverNull hpc
  · next hpc =>
    cases h
    exact .receiverEnds hpc
  · cases h

theorem step_cases {label : ThreadsLabel} (h : s.step label = some t) : Step s label t := by
  cases label with
  | frame i data => exact frame_cases h
  | null => exact null_cases h
  | main => exact runMain_cases h
  | openNewPort opened => exact openNewPort_cases h
  | init ok => exact init_cases h
  | bulkWrite outcomes => exact bulkWrite_cases h
  | reply reply tooLong => exact reply_cases h
  | service k => exact runService_cases h
  | read k data => exact read_cases h
  | pop k signal => exact pop_cases h
  | sender => exact runSender_cases h
  | wrote ok => exact wrote_cases h
  | receiver => exact runReceiver_cases h

theorem MainUpdate.keepsCallbacks {pc pc' : MainPc} {i : Slot} {f : BridgeService → BridgeService}
    (h : MainUpdate s pc i f pc') : KeepsCallbacks f := by
  cases h with
  | receivedEof => exact ⟨fun _ => rfl, fun _ => rfl, fun _ => rfl, fun _ => rfl⟩
  | receivedClose => exact ⟨fun _ => rfl, fun _ => rfl, fun _ => rfl, fun _ => rfl⟩
  | closedFifo => exact ⟨fun _ => rfl, fun _ => rfl, fun _ => rfl, fun _ => rfl⟩
  | @send _ g _ => cases g <;> exact ⟨fun _ => rfl, fun _ => rfl, fun _ => rfl, fun _ => rfl⟩

end ThreadsState

end AapBridge.Accessory
