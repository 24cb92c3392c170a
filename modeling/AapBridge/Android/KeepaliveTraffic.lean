import AapBridge.Android.Keepalive
import AapBridge.Android.PortStatus

/-! # Pings and their replies

The threads share one buffer, whose position other threads may rewind while one
is writing; it stays at an end of the text all the same. Every ping on the stream
is on its way, answered, or its reply has been taken, whatever the accessory does
for its other services.
-/

namespace AapBridge.Android

open AapBridge.Lib
open AapBridge.Accessory (BridgeConnection Operation MultiplexedMessage Slot Table perform slot?
  portStatusService spawnerService)

namespace Keepalive

variable {Tid : Type*} [DecidableEq Tid]

namespace State

variable {s u : State Tid}

@[simp] theorem place_pc_self (t : Option Tid) (pc : SendPc) : (s.place t pc).pc t = pc := by
  simp [place]

theorem place_pc_ne {t r : Option Tid} (h : r ≠ t) (pc : SendPc) :
    (s.place t pc).pc r = s.pc r := by
  simp [place, h]

/-- Every step of a thread. -/
inductive Ran (s : State Tid) (t : Option Tid) : State Tid → Prop
  | clear (hpc : s.pc t = .clear) :
      Ran s t ({ s with keepAliveReceived := false, ticks := s.ticks + 1 }.place t .rewind)
  | rewind (hpc : s.pc t = .rewind) : Ran s t ({ s with ping := s.ping.rewind }.place t .write)
  | write (hpc : s.pc t = .write) (hmonitor : s.monitor = none) :
      Ran s t ({ s with monitor := some t }.place t (.stream (writeAmount s.ping)))
  | stream {amount : Short} {payload : List UInt8} (hpc : s.pc t = .stream amount)
      (hload : CMemory.load s.ping.array (s.ping.arrayOffset + s.ping.position) amount.toNat =
        some payload) : Ran s t ((s.sent t payload).place t (.leave amount))
  | fails {amount : Short} (hpc : s.pc t = .stream amount) :
      Ran s t ({ s with failed := true }.raise t)
  | early {amount : Short} (hpc : s.pc t = .stream amount) (hout : s.outputStream = false) :
      Ran s t ({ s with early := true }.raise t)
  | leave {amount : Short} {buffer : ByteBuffer} (hpc : s.pc t = .leave amount)
      (hset : s.ping.setPosition (s.ping.position + amount.toNat) = some buffer) :
      Ran s t ({ s with ping := buffer, monitor := none }.place t .idle)

omit [DecidableEq Tid] in
theorem construct_eq {succeeds : Bool} (hu : s.construct succeeds = some u) :
    ∃ construction connection outputStream,
      u = { s with construction, connection, outputStream } := by
  unfold construct at hu
  cases hc : s.construction with
  | built => simp only [hc, reduceCtorEq] at hu
  | threw => simp only [hc, reduceCtorEq] at hu
  | _ =>
      simp only [hc] at hu
      split at hu
      all_goals
        cases hu
        exact ⟨_, _, _, rfl⟩

omit [DecidableEq Tid] in
theorem handle_eq (hu : s.handle = some u) :
    ∃ what rest closed uncaught, s.messages = what :: rest ∧
      u = { s with messages := rest, closed, uncaught } := by
  have taken : ∀ what rest, s.messages = what :: rest → (if s.connection then
      some { s with messages := rest, closed := true }
      else some { s with messages := rest, uncaught := true }) = some u →
        ∃ what rest closed uncaught, s.messages = what :: rest ∧
          u = { s with messages := rest, closed, uncaught } := by
    intro what rest hqueue htaken
    split at htaken
    all_goals
      cases htaken
      exact ⟨what, rest, _, _, hqueue, rfl⟩
  unfold handle at hu
  split at hu
  · next hqueue => exact taken _ _ hqueue hu
  · next hqueue => exact taken _ _ hqueue hu
  · cases hu

/-- A frame is taken; if it is a reply, the flag is set or the read threw. -/
inductive Received (s : State Tid) (msg : MultiplexedMessage) (rest : List MultiplexedMessage) :
    State Tid → Prop
  | reply (hpong : isPong msg = true) : Received s msg rest { s with
      accessory := { s.accessory with sent := rest }
      keepAliveReceived := true
      handled := s.handled + 1 }
  | missed (hpong : isPong msg = true) : Received s msg rest { s with
      accessory := { s.accessory with sent := rest }
      missed := s.missed + 1
      failed := true }
  | other (hpong : isPong msg = false) : Received s msg rest { s with
      accessory := { s.accessory with sent := rest } }

omit [DecidableEq Tid] in
theorem receive_eq {succeeds : Bool} (hu : s.receive succeeds = some u) :
    ∃ msg rest, s.accessory.sent = msg :: rest ∧ Received s msg rest u := by
  unfold receive at hu
  split at hu
  · next msg rest _ hsent =>
    refine ⟨msg, rest, hsent, ?_⟩
    split at hu
    · next hpong =>
      split at hu
      · cases hu
        exact .reply hpong
      · cases hu
        exact .missed hpong
    · next hpong =>
      cases hu
      exact .other (Bool.eq_false_iff.mpr hpong)
  · cases hu

theorem tick_eq (hu : s.tick = some u) : s.pc none = .idle ∧ s.cancelled = false ∧
    (s.keepAliveReceived = true ∧ u = s.place none .clear ∨ s.keepAliveReceived = false ∧
      u = ({ s with cancelled := true }.post 0).place none .rewind) := by
  unfold tick at hu
  split at hu
  · next hdue =>
    refine ⟨hdue.1, hdue.2, ?_⟩
    split at hu
    · next hflag =>
      cases hu
      exact .inl ⟨hflag, rfl⟩
    · next hflag =>
      cases hu
      exact .inr ⟨Bool.eq_false_iff.mpr hflag, rfl⟩
  · cases hu

/-! ## The buffer -/

/-- The position is at an end of the text, and the amount of the thread with the
monitor fits behind it, also when another thread rewinds. -/
structure Buffered (s : State Tid) : Prop where
  array : s.ping.array = pingBytes
  arrayOffset : s.ping.arrayOffset = 0
  limit : s.ping.limit = 4
  position : s.ping.position = 0 ∨ s.ping.position = 4
  holder : ∀ t amount, s.pc t = .stream amount ∨ s.pc t = .leave amount →
    s.monitor = some t ∧ (amount = 0 ∨ amount = 4 ∧ s.ping.position = 0)

omit [DecidableEq Tid] in
theorem Buffered.load (h : Buffered s) {t : Option Tid} {amount : Short}
    (hpc : s.pc t = .stream amount) :
    ∃ payload, CMemory.load s.ping.array (s.ping.arrayOffset + s.ping.position) amount.toNat =
      some payload ∧ (payload = [] ∨ payload = pingBytes) := by
  rw [h.array, h.arrayOffset]
  obtain hamount | ⟨hamount, hzero⟩ := (h.holder t amount (.inl hpc)).2
  · refine ⟨[], ?_, .inl rfl⟩
    obtain hp | hp := h.position <;> rw [hp, hamount] <;> rfl
  · refine ⟨pingBytes, ?_, .inr rfl⟩
    rw [hzero, hamount]
    rfl

omit [DecidableEq Tid] in
theorem Buffered.setPosition (h : Buffered s) {t : Option Tid} {amount : Short}
    (hpc : s.pc t = .leave amount) :
    ∃ buffer, s.ping.setPosition (s.ping.position + amount.toNat) = some buffer ∧
      buffer.array = pingBytes ∧ buffer.arrayOffset = 0 ∧ buffer.limit = 4 ∧
      (buffer.position = 0 ∨ buffer.position = 4) := by
  have hbounds : s.ping.position + amount.toNat = 0 ∨ s.ping.position + amount.toNat = 4 := by
    obtain hamount | ⟨hamount, hzero⟩ := (h.holder t amount (.inr hpc)).2
    · rw [hamount]
      exact h.position
    · rw [hamount, hzero]
      exact .inr rfl
  have hle : s.ping.position + amount.toNat ≤ s.ping.limit := by
    rw [h.limit]
    omega
  exact ⟨_, dif_pos hle, h.array, h.arrayOffset, h.limit, hbounds⟩

/-- No step of a thread goes wrong over the buffer. -/
theorem Buffered.ran (h : Buffered s) {t : Option Tid} {succeeds : Bool}
    (hu : s.run t succeeds = some u) : Ran s t u := by
  unfold run at hu
  cases hpc : s.pc t with
  | idle => simp only [hpc, reduceCtorEq] at hu
  | clear =>
      simp only [hpc, Option.some.injEq] at hu
      subst hu
      exact .clear hpc
  | rewind =>
      simp only [hpc, Option.some.injEq] at hu
      subst hu
      exact .rewind hpc
  | write =>
      simp only [hpc] at hu
      split at hu
      · next hmonitor =>
        cases hu
        exact .write hpc hmonitor
      · cases hu
  | stream amount =>
      simp only [hpc] at hu
      split at hu
      · split at hu
        · obtain ⟨payload, hload, -⟩ := h.load hpc
          simp only [hload, Option.some.injEq] at hu
          subst hu
          exact .stream hpc hload
        · cases hu
          exact .fails hpc
      · next hout =>
        cases hu
        exact .early hpc (by simpa using hout)
  | leave amount =>
      obtain ⟨buffer, hset, -⟩ := h.setPosition hpc
      simp only [hpc, hset, Option.some.injEq] at hu
      subst hu
      exact .leave hpc hset

omit [DecidableEq Tid] in
theorem Buffered.congr (h : Buffered s) (hpc : u.pc = s.pc) (hmonitor : u.monitor = s.monitor)
    (hping : u.ping = s.ping) : Buffered u := by
  obtain ⟨harray, hoffset, hlimit, hposition, hholder⟩ := h
  rw [← hping] at harray hoffset hlimit hposition hholder
  rw [← hpc, ← hmonitor] at hholder
  exact ⟨harray, hoffset, hlimit, hposition, hholder⟩

/-- A thread without the monitor goes on, and the buffer stays as it is. -/
theorem Buffered.place (h : Buffered s) {t : Option Tid} {pc : SendPc}
    (hstream : ∀ amount, pc ≠ .stream amount) (hleave : ∀ amount, pc ≠ .leave amount) :
    Buffered (s.place t pc) := by
  refine ⟨h.array, h.arrayOffset, h.limit, h.position, ?_⟩
  intro r amount hr
  by_cases hrt : r = t
  · subst hrt
    rw [place_pc_self] at hr
    cases hr with
    | inl hr => exact absurd hr (hstream amount)
    | inr hr => exact absurd hr (hleave amount)
  · rw [place_pc_ne hrt] at hr
    exact h.holder r amount hr

theorem writeAmount_ping {b : ByteBuffer} (hlimit : b.limit = 4)
    (hposition : b.position = 0 ∨ b.position = 4) :
    writeAmount b = 0 ∨ writeAmount b = 4 ∧ b.position = 0 := by
  cases hposition with
  | inl hp =>
      refine .inr ⟨?_, hp⟩
      simp only [writeAmount, ByteBuffer.remaining, hlimit, hp]
      rfl
  | inr hp =>
      refine .inl ?_
      simp only [writeAmount, ByteBuffer.remaining, hlimit, hp]
      rfl

/-- The monitor is given up by the thread that has it. -/
theorem Buffered.release (h : Buffered s) {t : Option Tid} {amount : Short}
    (hpc : s.pc t = .stream amount ∨ s.pc t = .leave amount) {r : Option Tid} {other : Short}
    (hr : (s.place t .idle).pc r = .stream other ∨ (s.place t .idle).pc r = .leave other) : False := by
  by_cases hrt : r = t
  · subst hrt
    rw [place_pc_self] at hr
    cases hr with
    | inl hr => cases hr
    | inr hr => cases hr
  · rw [place_pc_ne hrt] at hr
    have hself := (h.holder t amount hpc).1
    have hother := (h.holder r other hr).1
    rw [hself] at hother
    exact hrt (Option.some.inj hother).symm

theorem Buffered.raise (h : Buffered s) {t : Option Tid} {amount : Short}
    (hpc : s.pc t = .stream amount) : Buffered (s.raise t) := by
  refine ⟨h.array, h.arrayOffset, h.limit, h.position, ?_⟩
  intro r other hr
  exact (h.release (.inl hpc) hr).elim

theorem Buffered.run (h : Buffered s) {t : Option Tid} (hran : Ran s t u) : Buffered u := by
  cases hran with
  | clear _ =>
      have hsame : Buffered { s with keepAliveReceived := false, ticks := s.ticks + 1 } :=
        h.congr rfl rfl rfl
      exact hsame.place (fun _ => SendPc.noConfusion) (fun _ => SendPc.noConfusion)
  | rewind _ =>
      have hrewound : Buffered { s with ping := s.ping.rewind } := by
        refine ⟨h.array, h.arrayOffset, h.limit, .inl rfl, ?_⟩
        intro r amount hr
        obtain ⟨hmonitor, hamount⟩ := h.holder r amount hr
        exact ⟨hmonitor, hamount.imp id fun hfour => ⟨hfour.1, rfl⟩⟩
      exact hrewound.place (fun _ => SendPc.noConfusion) (fun _ => SendPc.noConfusion)
  | write _ hmonitor =>
      refine ⟨h.array, h.arrayOffset, h.limit, h.position, ?_⟩
      intro r amount hr
      by_cases hrt : r = t
      · subst hrt
        rw [place_pc_self] at hr
        cases hr with
        | inl hr =>
            cases hr
            exact ⟨rfl, writeAmount_ping h.limit h.position⟩
        | inr hr => cases hr
      · rw [place_pc_ne hrt] at hr
        have hheld := (h.holder r amount hr).1
        rw [hmonitor] at hheld
        cases hheld
  | @stream amount payload hpc hload =>
      have hsent : Buffered (s.sent t payload) := h.congr rfl rfl rfl
      refine ⟨hsent.array, hsent.arrayOffset, hsent.limit, hsent.position, ?_⟩
      intro r other hr
      by_cases hrt : r = t
      · subst hrt
        rw [place_pc_self] at hr
        cases hr with
        | inl hr => cases hr
        | inr hr =>
            cases hr
            exact h.holder r amount (.inl hpc)
      · rw [place_pc_ne hrt] at hr
        exact hsent.holder r other hr
  | fails hpc =>
      have hsame : Buffered { s with failed := true } := h.congr rfl rfl rfl
      exact hsame.raise hpc
  | early hpc _ =>
      have hsame : Buffered { s with early := true } := h.congr rfl rfl rfl
      exact hsame.raise hpc
  | @leave amount buffer hpc hset =>
      obtain ⟨buffer', hset', harray, hoffset, hlimit, hposition⟩ := h.setPosition hpc
      rw [hset] at hset'
      cases hset'
      refine ⟨harray, hoffset, hlimit, hposition, ?_⟩
      intro r other hr
      exact (h.release (.inr hpc) hr).elim

/-! ## The traffic -/

theorem entry_keepalive : Accessory.initServer.services slot =
    { Accessory.BridgeService.unused with
      port := 2
      serviceData := none
      onBytesReceived := some .keepaliveOnBytesReceived
      onEof := some .keepaliveOnEof
      onCleanupService := some .keepaliveOnEof } := rfl

/-- Pings are on their way, replies are, or they have been taken; nothing closes
the accessory's entry. -/
structure Traffic (s : State Tid) : Prop where
  table : Table s.accessory
  entry : s.accessory.services slot = Accessory.initServer.services slot
  conserved : s.pinged + s.called = s.outstanding + s.handled + s.missed
  payloads : ∀ payload ∈ s.toAccessory, payload = [] ∨ payload = pingBytes

theorem Elsewhere.ne {op : Operation} (h : Elsewhere op) {i : Slot} (hi : concerned op = some i) :
    slot ≠ i := by
  intro heq
  rw [← heq] at hi
  exact h hi

/-- An operation about other slots leaves the entry alone. -/
theorem perform_elsewhere {b b' : BridgeConnection} {op : Operation}
    (hocc : (b.services slot).port ≠ -1) (hop : Elsewhere op) (h : perform b op = some b') :
    b'.services slot = b.services slot := by
  cases op with
  | spawn i protocol =>
      simp only [perform, Option.bind_eq_some_iff] at h
      obtain ⟨c, hc, h⟩ := h
      have hsame := BridgeConnection.accept_services hc
      split at h
      · next hfree =>
        cases h
        have hne : slot ≠ i := by
          intro hi
          rw [hsame, ← hi] at hfree
          exact hocc hfree
        simp [BridgeConnection.install, BridgeConnection.allocate, BridgeConnection.modify,
          BridgeConnection.writeAllPort, hne, hsame]
      · cases h
  | status target code =>
      simp only [perform, Option.bind_eq_some_iff] at h
      obtain ⟨c, hc, h⟩ := h
      have hsame := BridgeConnection.accept_services hc
      split at h
      · cases h
        rw [hsame]
      · rw [(BridgeConnection.frame_portStatusSwitch h slot (Elsewhere.ne hop rfl)).1, hsame]
  | data i buffer outcomes reply =>
      simp only [perform] at h
      split at h
      · obtain ⟨c, hc, rfl⟩ := Option.map_eq_some_iff.mp h
        exact congrFun (BridgeConnection.accept_services hc) slot
      · obtain ⟨c, hc, h⟩ := Option.bind_eq_some_iff.mp h
        rw [(BridgeConnection.frame_bulkOnBytesReceived h slot (Elsewhere.ne hop rfl)).1,
          BridgeConnection.accept_services hc]
      · obtain ⟨c, hc, rfl⟩ := Option.map_eq_some_iff.mp h
        exact congrFun (BridgeConnection.accept_services hc) slot
      · exact congrFun (BridgeConnection.accept_services h) slot
      · cases h
  | sendEof i =>
      simp only [perform] at h
      split at h
      · cases h
      · cases h
        exact (BridgeConnection.frame_sendEof b i slot (Elsewhere.ne hop rfl)).1
  | sendClose i =>
      simp only [perform] at h
      split at h
      · cases h
      · cases h
        exact (BridgeConnection.frame_sendClose b i slot (Elsewhere.ne hop rfl)).1

/-- A frame on the port of another entry, or of an unused one, is no reply. -/
theorem isPong_other {b : BridgeConnection} (ht : Table b) {i : Slot} (hi : i ≠ slot)
    {msg : MultiplexedMessage} (hport : msg.port = BitVec.ofInt 16 (b.services i).port) :
    isPong msg = false := by
  apply decide_eq_false
  rw [slot_of_short, hport]
  intro heq
  by_cases hocc : (b.services i).port = -1
  · rw [hocc] at heq
    revert heq
    decide
  · rw [(ht.inUse hocc).port] at heq
    have hnat : BitVec.ofNat 16 i.val = BitVec.ofNat 16 slot.val := by
      rw [← BitVec.ofInt_natCast]
      exact heq
    have hself := (slot_of_short i (BitVec.ofNat 16 i.val)).mpr rfl
    have hother := (slot_of_short slot (BitVec.ofNat 16 i.val)).mpr hnat
    rw [hself] at hother
    exact hi (Option.some.inj hother)

theorem elsewhere_writers {op : Operation} (h : Elsewhere op) {i : Slot} (hi : i ∈ op.writers) :
    i ≠ slot := by
  have hlibrary : portStatusService ≠ slot ∧ spawnerService ≠ slot := by decide
  cases op with
  | spawn j protocol =>
      cases List.mem_singleton.mp hi
      exact hlibrary.2
  | data j buffer outcomes reply =>
      obtain hi | hi := List.mem_cons.mp hi
      · cases hi
        exact hlibrary.1
      · cases List.mem_singleton.mp hi
        exact (Elsewhere.ne h rfl).symm
  | status _ _ | sendEof _ | sendClose _ =>
      cases List.mem_singleton.mp hi
      exact hlibrary.1

omit [DecidableEq Tid] in
theorem Traffic.occupied (h : Traffic s) : (s.accessory.services slot).port ≠ -1 := by
  rw [h.entry, entry_keepalive]
  decide

omit [DecidableEq Tid] in
theorem Traffic.operate (h : Traffic s) {op : Operation} (hop : Elsewhere op)
    (hu : s.operate op = some u) : Traffic u := by
  obtain ⟨b, hb, rfl⟩ := Option.map_eq_some_iff.mp hu
  have htable : Table s.quiet := h.table
  obtain ⟨added, hsent, hports⟩ := BridgeConnection.perform_adds htable hb
  have hpongs : b.sent.countP isPong = s.accessory.sent.countP isPong := by
    have hnone : added.countP isPong = 0 := by
      rw [List.countP_eq_zero]
      intro msg hmsg
      obtain ⟨i, hi, hport⟩ := hports msg hmsg
      rw [isPong_other htable (elsewhere_writers hop hi) hport]
      exact Bool.false_ne_true
    rw [hsent, List.countP_append, hnone]
    rfl
  refine ⟨(Accessory.perform_spec htable rfl hb).table, ?_, ?_, h.payloads⟩
  · exact (perform_elsewhere (b := s.quiet) h.occupied hop hb).trans h.entry
  · have hconserved := h.conserved
    simp only [outstanding, pongs] at hconserved ⊢
    omega

/-- A ping is answered with one frame on the port it came on. -/
theorem perform_pong {b b' : BridgeConnection} {payload : List UInt8}
    (hentry : b.services slot = Accessory.initServer.services slot)
    (h : perform b (.data slot payload [] []) = some b') :
    b'.services = b.services ∧ ∃ pong, b'.sent = b.sent ++ [pong] ∧ isPong pong = true := by
  have hcallback : (b.services slot).onBytesReceived = some .keepaliveOnBytesReceived := by
    rw [hentry, entry_keepalive]
  simp only [perform, hcallback] at h
  obtain ⟨c, hc, rfl⟩ := Option.map_eq_some_iff.mp h
  have hservices := BridgeConnection.accept_services hc
  refine ⟨hservices, _, congrArg (· ++ _) (BridgeConnection.accept_sent hc), ?_⟩
  apply decide_eq_true
  rw [slot_of_short, hservices, hentry, entry_keepalive]
  rfl

omit [DecidableEq Tid] in
theorem Traffic.answer (h : Traffic s) (hu : s.answer = some u) : Traffic u := by
  unfold State.answer at hu
  cases hqueue : s.toAccessory with
  | nil => simp only [hqueue, reduceCtorEq] at hu
  | cons payload rest =>
      simp only [hqueue] at hu
      obtain ⟨b, hb, rfl⟩ := Option.map_eq_some_iff.mp hu
      obtain ⟨hservices, pong, hsent, hpong⟩ := perform_pong (b := s.quiet) h.entry hb
      have hentry : b.services slot = s.accessory.services slot := congrFun hservices slot
      refine ⟨(Accessory.perform_spec (b := s.quiet) h.table rfl hb).table, hentry.trans h.entry, ?_, ?_⟩
      · have hpongs : b.sent.countP isPong = s.accessory.sent.countP isPong + 1 := by
          rw [hsent, List.countP_append, List.countP_singleton, if_pos hpong]
          rfl
        have hconserved := h.conserved
        simp only [outstanding, pongs, hqueue, List.length_cons] at hconserved ⊢
        omega
      · intro other hother
        apply h.payloads
        rw [hqueue]
        exact List.mem_cons_of_mem _ hother

omit [DecidableEq Tid] in
theorem Traffic.congr (h : Traffic s) (haccessory : u.accessory = s.accessory)
    (hqueue : u.toAccessory = s.toAccessory) (hpinged : u.pinged = s.pinged)
    (hcalled : u.called = s.called) (hhandled : u.handled = s.handled)
    (hmissed : u.missed = s.missed) : Traffic u := by
  obtain ⟨htable, hentry, hconserved, hpayloads⟩ := h
  simp only [outstanding, pongs] at hconserved
  rw [← haccessory] at htable hentry hconserved
  rw [← hqueue] at hpayloads hconserved
  rw [← hpinged, ← hcalled, ← hhandled, ← hmissed] at hconserved
  exact ⟨htable, hentry, hconserved, hpayloads⟩

omit [DecidableEq Tid] in
theorem Traffic.receive (h : Traffic s) {msg : MultiplexedMessage} {rest : List MultiplexedMessage}
    (hsent : s.accessory.sent = msg :: rest) (hu : Received s msg rest u) : Traffic u := by
  have hconserved := h.conserved
  simp only [outstanding, pongs, hsent, List.countP_cons] at hconserved
  cases hu with
  | reply hpong =>
      rw [if_pos hpong] at hconserved
      refine ⟨h.table, h.entry, ?_, h.payloads⟩
      simp only [outstanding, pongs]
      omega
  | missed hpong =>
      rw [if_pos hpong] at hconserved
      refine ⟨h.table, h.entry, ?_, h.payloads⟩
      simp only [outstanding, pongs]
      omega
  | other hpong =>
      rw [if_neg (Bool.eq_false_iff.mp hpong)] at hconserved
      exact ⟨h.table, h.entry, hconserved, h.payloads⟩

/-- A frame with what the buffer held goes out, everything else stays. -/
theorem Traffic.run (h : Traffic s) (hbuffered : Buffered s) {t : Option Tid} (hran : Ran s t u) :
    Traffic u := by
  cases hran with
  | @stream amount payload hpc hload =>
      obtain ⟨payload', hload', htext⟩ := hbuffered.load hpc
      rw [hload] at hload'
      cases hload'
      refine ⟨h.table, h.entry, ?_, ?_⟩
      · have hconserved := h.conserved
        have hlength : (s.toAccessory ++ [payload]).length = s.toAccessory.length + 1 := by simp
        simp only [outstanding, pongs, State.sent, State.place, hlength] at hconserved ⊢
        split <;> omega
      · intro other hother
        obtain hother | hother := List.mem_append.mp hother
        · exact h.payloads other hother
        · cases List.mem_singleton.mp hother
          exact htext
  | _ => exact ⟨h.table, h.entry, h.conserved, h.payloads⟩

end State

end Keepalive

end AapBridge.Android
