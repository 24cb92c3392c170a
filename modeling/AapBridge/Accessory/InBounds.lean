import AapBridge.Accessory.TableBounds

/-! # Untrusted input and the bounds of memory

A step of the receiver and a dispatch, each with the exact condition under which
all its accesses are in range, and the runs made of them: no access of a run is
out of range exactly if every step meets its condition.
-/

namespace AapBridge.Accessory

open AapBridge.Lib AapBridge.Lib.CMemory

/-! ## The receiver -/

/-- The size of a header is not negative, and what has come of a payload fits
the buffer. -/
def ReceiveInside (s : ReceiverState) : ReceiverLabel → Prop
  | .bytes bs =>
      match s.pc with
      | .header read => (bs.length : Int) = read.size →
          0 ≤ (headerSize (s.buffer.take read.offset ++ bs)).toInt
      | .payload _ _ read => read.offset + bs.length ≤ bufferSize
      | .stopped | .fault => True
  | .error | .clearWork => True

/-- The variables of a receiver at its `read`, with any size from the wire. -/
structure Reading (s : ReceiverState) : Prop where
  buffer : s.buffer.length = bufferSize
  pc : match s.pc with
    | .header read => 0 < read.size ∧ (read.offset : Int) + read.size = 4
    | .payload _ size read => 0 < read.size ∧ (read.offset : Int) + read.size = size.toInt
    | .stopped | .fault => True

def ReceiverState.Faultless (s : ReceiverState) : Prop := s.pc ≠ .fault

theorem Reading.initial : Reading .initial :=
  ⟨by simp [ReceiverState.initial], by decide, by decide⟩

theorem ReceiverState.stop_faultless (s : ReceiverState) : s.stop.Faultless := by
  simp [ReceiverState.stop, ReceiverState.Faultless]

theorem Reading.stop {s : ReceiverState} (h : Reading s) : Reading s.stop := ⟨h.buffer, trivial⟩

/-- The loop starts again, or ends. -/
theorem Reading.loop {s : ReceiverState} (h : s.buffer.length = bufferSize) :
    s.loop.Faultless ∧ Reading s.loop := by
  unfold ReceiverState.loop
  split
  · exact ⟨nofun, by simp, by decide, by decide⟩
  · exact ⟨nofun, h, trivial⟩

theorem deliver_faultless {s : ReceiverState} (h : s.buffer.length = bufferSize) (port size : Short) :
    ((s.deliver port size).Faultless ↔ 0 ≤ size.toInt ∧ size.toInt ≤ bufferSize) ∧
      Reading (s.deliver port size) := by
  have hint := BitVec.toInt_eq_toNat_cond size
  have hlt := size.isLt
  have hmax : bufferSize = 4000 := rfl
  unfold ReceiverState.deliver
  by_cases hneg : size.toInt < 0
  · rw [if_pos hneg]
    refine ⟨iff_of_false (fun hf => hf rfl) (by omega), h, trivial⟩
  · rw [if_neg hneg]
    have hnat : (size.toNat : Int) = size.toInt := by split at hint <;> omega
    by_cases hfits : size.toNat ≤ bufferSize
    · rw [load_zero_of_le (by rw [h]; exact hfits)]
      have hloop := Reading.loop (s := { s with queued := s.queued ++
        [some ⟨port, size, s.buffer.take size.toNat⟩] }) h
      exact ⟨iff_of_true hloop.1 (by omega), hloop.2⟩
    · rw [load, if_neg (by omega)]
      exact ⟨iff_of_false (fun hf => hf rfl) (by omega), h, trivial⟩

theorem Reading.header {s t : ReceiverState} {read : ReadAll} {bytes : List UInt8} (h : Reading s)
    (hpc : s.pc = .header read) (hs : s.arrive bytes = some t) :
    (t.Faultless ↔ ReceiveInside s (.bytes bytes)) ∧ Reading t := by
  have hread := h.pc
  rw [hpc] at hread
  obtain ⟨hpos, hsum⟩ := hread
  have hmax : s.buffer.length = 4000 := h.buffer
  simp only [ReceiverState.arrive, hpc] at hs
  simp only [ReceiveInside, hpc]
  obtain ⟨-, hle, ⟨hout, -⟩ | ⟨-, buffer, hlen, htake, ⟨hmore, rfl⟩ | ⟨hwhole, rfl⟩⟩⟩ := fill_cases hs
  · omega
  · refine ⟨iff_of_true (by simp [ReceiverState.Faultless]) fun heq => ?_, hlen.trans h.buffer, ?_, ?_⟩
    · omega
    · show 0 < read.size - bytes.length
      omega
    · show ((read.offset + bytes.length : Nat) : Int) + (read.size - bytes.length) = 4
      omega
  · have hfour : read.offset + bytes.length = 4 := by omega
    rw [hfour] at htake
    rw [← htake]
    have hlen' := hlen.trans hmax
    obtain ⟨b0, b1, b2, b3, rest, rfl⟩ := exists_four_cons (show 4 ≤ buffer.length by omega)
    · have hsize : headerSize ((b0 :: b1 :: b2 :: b3 :: rest).take 4) = wireShort b2 b3 := rfl
      rw [hsize]
      simp only [ReceiverState.decodeHeader, hwhole, forall_const]
      by_cases hbig : (wireShort b2 b3).toInt > 0
      · rw [if_pos hbig]
        exact ⟨iff_of_true (by simp [ReceiverState.Faultless]) (by omega), hlen', hbig, by simp⟩
      · rw [if_neg hbig]
        have hdeliver := deliver_faultless
          (s := { s with buffer := b0 :: b1 :: b2 :: b3 :: rest }) hlen' (wireShort b0 b1)
          (wireShort b2 b3)
        refine ⟨hdeliver.1.trans ?_, hdeliver.2⟩
        have hbuf : bufferSize = 4000 := rfl
        omega

theorem Reading.payload {s t : ReceiverState} {port size : Short} {read : ReadAll}
    {bytes : List UInt8} (h : Reading s) (hpc : s.pc = .payload port size read)
    (hs : s.arrive bytes = some t) :
    (t.Faultless ↔ ReceiveInside s (.bytes bytes)) ∧ Reading t := by
  have hread := h.pc
  rw [hpc] at hread
  obtain ⟨hpos, hsum⟩ := hread
  have hmax : s.buffer.length = bufferSize := h.buffer
  simp only [ReceiverState.arrive, hpc] at hs
  simp only [ReceiveInside, hpc]
  obtain ⟨-, hle, ⟨hout, rfl⟩ | ⟨hin, buffer, hlen, -, ⟨hmore, rfl⟩ | ⟨hwhole, rfl⟩⟩⟩ := fill_cases hs
  · exact ⟨iff_of_false (fun hf => hf rfl) (by omega), h.buffer, trivial⟩
  · refine ⟨iff_of_true (by simp [ReceiverState.Faultless]) (by omega), hlen.trans h.buffer, ?_, ?_⟩
    · show 0 < read.size - bytes.length
      omega
    · show ((read.offset + bytes.length : Nat) : Int) + (read.size - bytes.length) = size.toInt
      omega
  · have hdeliver := deliver_faultless (s := { s with buffer }) (hlen.trans h.buffer) port size
    refine ⟨hdeliver.1.trans ?_, hdeliver.2⟩
    omega

theorem Reading.step {s t : ReceiverState} {l : ReceiverLabel} (h : Reading s) (hf : s.Faultless)
    (hs : receiver.step s l = some t) : (t.Faultless ↔ ReceiveInside s l) ∧ Reading t := by
  cases l with
  | bytes bs =>
      have hs' : s.arrive bs = some t := hs
      cases hpc : s.pc with
      | header read => exact h.header hpc hs'
      | payload port size read => exact h.payload hpc hs'
      | stopped => simp [ReceiverState.arrive, hpc] at hs'
      | fault => exact absurd hpc hf
  | error =>
      have hs' : s.error = some t := hs
      unfold ReceiverState.error at hs'
      split at hs'
      · cases hs'
        exact ⟨iff_of_true s.stop_faultless trivial, h.stop⟩
      · cases hs'
        exact ⟨iff_of_true s.stop_faultless trivial, h.stop⟩
      · cases hs'
      · cases hs'
  | clearWork =>
      cases hs
      exact ⟨iff_of_true hf trivial, h.buffer, h.pc⟩

/-! ## The spawner -/

/-- The three bytes of the request, a table whose last entry was not allocated
last, and the strings its protocol reads, if a port is found. -/
def RequestInside (b : BridgeConnection) (buffer : List UInt8) (env : Environment) : Prop :=
  4 ≤ buffer.length ∧ b.lastAllocatedPort ≠ 399 ∧
    ((∃ i, (b.services i).port = -1) →
      (buffer[1]? = some 1 →
        (if env.fifos && env.notified then 3 else 2) ≤ (buffer.drop 4).count 0) ∧
      (buffer[1]? = some 3 → (if env.bus then 4 else 0) ≤ (buffer.drop 4).count 0))

theorem serviceSpawner_isSome {b : BridgeConnection} {i : Slot} {buffer : List UInt8}
    {env : Environment} (hlast : 0 ≤ b.lastAllocatedPort ∧ b.lastAllocatedPort < maxPorts) :
    (b.serviceSpawnerOnBytesReceived i buffer env).isSome ↔ RequestInside b buffer env := by
  unfold BridgeConnection.serviceSpawnerOnBytesReceived RequestInside
  by_cases hshort : buffer.length < 4
  · have hnone : load buffer 1 3 = none := if_neg (by omega)
    rw [hnone]
    exact iff_of_false (by simp) (by omega)
  · obtain ⟨b0, protocol, b2, b3, arguments, rfl⟩ := exists_four_cons (not_lt.mp hshort)
    · have hload : load (b0 :: protocol :: b2 :: b3 :: arguments) 1 3 = some [protocol, b2, b3] := by
        simp [load]
      obtain ⟨hfull, hopen⟩ := openNewPort_spec hlast
      rw [hload, Option.bind_some]
      by_cases hend : b.lastAllocatedPort = 399
      · rw [hfull hend]
        exact iff_of_false (by simp) fun hc => hc.2.1 hend
      · rcases hopen hend with ⟨slot, hfree, hfound⟩ | ⟨hused, hnone⟩
        · rw [hfound, Option.bind_some]
          have hexists : ∃ i, (b.services i).port = -1 := ⟨slot, hfree⟩
          have hbulk := bulkInit_isSome (b0 :: protocol :: b2 :: b3 :: arguments) 4 env
          have hsignals := signalsInit_isSome (b0 :: protocol :: b2 :: b3 :: arguments) 4 env
          simp only [List.headD_cons, hend, hexists, forall_const, List.getElem?_cons_succ,
            List.getElem?_cons_zero, Option.some.injEq, ne_eq, not_false_eq_true, true_and,
            List.length_cons, Nat.le_add_left]
          by_cases h1 : protocol = 1
          · subst h1
            simpa using hbulk
          · by_cases h3 : protocol = 3
            · subst h3
              simpa using hsignals
            · by_cases h2 : protocol = 2 <;> simp [h1, h2, h3]
        · rw [hnone, Option.bind_some]
          refine iff_of_true rfl ⟨by simp, hend, fun hexists => ?_⟩
          obtain ⟨slot, hfree⟩ := hexists
          exact absurd hfree (hused slot)

/-- A free entry that is given its number has no callbacks yet. -/
theorem Sound.allocate {b : BridgeConnection} (h : Sound b) {i : Slot}
    (hfree : (b.services i).port = -1) : Sound (b.allocate i) where
  slots := by
    intro j
    by_cases hji : j = i
    · subst hji
      have hself : (b.allocate j).services j = { b.services j with port := j } := by
        simp [BridgeConnection.allocate, BridgeConnection.modify]
      rw [hself]
      rcases h.slots j with ⟨hport, -⟩ | ⟨-, hnone⟩
      · omega
      · exact .inr ⟨.inl rfl, hnone.onBytesReceived, hnone.onEof, hnone.onCleanupService⟩
    · have hother : (b.allocate i).services j = b.services j := by
        simp [BridgeConnection.allocate, BridgeConnection.modify, hji]
      rw [hother]
      exact h.slots j
  last := by
    have hi := i.isLt
    show 0 ≤ (i.val : Int) ∧ (i.val : Int) < maxPorts
    omega

theorem Sound.install {b : BridgeConnection} (h : Sound b) {i : Slot}
    (hport : (b.services i).port = i) (protocol : BridgeConnection.Protocol) :
    Sound (b.install i protocol) := by
  apply h.keeps (i := i)
  refine ⟨fun j hj => b.modify_services_ne hj _, rfl, fun _ => ?_⟩
  rw [BridgeConnection.install, BridgeConnection.modify_services_self]
  cases protocol <;> exact .inl ⟨hport, rfl, rfl, rfl, by simp, by simp⟩

theorem Sound.respond {b : BridgeConnection} (h : Sound b) {i : Slot}
    (hport : (b.services i).port = i) (spawner : Slot) (protocol : BridgeConnection.Protocol)
    (error : UInt8) (service_data : Bool) : Sound (b.respond spawner i protocol error service_data) := by
  unfold BridgeConnection.respond
  split
  · exact (h.install hport protocol).keeps (.writeAllPort spawner spawner _ _)
  · exact h.keeps (.writeAllPort spawner spawner _ _)

theorem Sound.serviceSpawner {b b' : BridgeConnection} {i : Slot} {buffer : List UInt8}
    {env : Environment} (h : Sound b) (hs : b.serviceSpawnerOnBytesReceived i buffer env = some b') :
    Sound b' := by
  obtain ⟨request, -, hs⟩ := Option.bind_eq_some_iff.mp hs
  obtain ⟨opened, hopened, hs⟩ := Option.bind_eq_some_iff.mp hs
  cases opened with
  | none =>
      cases hs
      exact h.keeps (.writeAllPort i i _ _)
  | some found =>
      obtain ⟨slot, c⟩ := found
      obtain ⟨hfree, rfl⟩ := openNewPort_free hopened
      have hsound := h.allocate hfree
      have hport : ((b.allocate slot).services slot).port = slot := by
        simp [BridgeConnection.allocate, BridgeConnection.modify]
      simp only at hs
      split at hs
      · obtain ⟨started, -, rfl⟩ := Option.map_eq_some_iff.mp hs
        exact hsound.respond hport i .bulk 2 started
      · split at hs
        · cases hs
          exact hsound.respond hport i .method 3 env.bus
        · split at hs
          · obtain ⟨started, -, rfl⟩ := Option.map_eq_some_iff.mp hs
            exact hsound.respond hport i .signals 2 started
          · cases hs
            exact hsound.keeps (.writeAllPort i i _ _)

/-! ## Dispatches -/

section

variable {Message : Type*} (target : Target) (lib : Libdbus Message)

def PayloadInside (b : BridgeConnection) (f : OnBytesReceived) (buffer : List UInt8)
    (env : Environment) : Prop :=
  match f with
  | .portStatusOnBytesReceived => StatusInside b buffer
  | .serviceSpawnerOnBytesReceived => RequestInside b buffer env
  | .methodOnBytesReceived => CallInside target lib buffer
  | .keepaliveOnBytesReceived | .bulkOnBytesReceived | .signalsOnBytesReceived => True

/-- The port is an entry of the table, and if that is in use it has a callback
which finds what it reads. -/
def MessageInside (b : BridgeConnection) (msg : MultiplexedMessage) (env : Environment) : Prop :=
  ∃ i, slot? msg.port.toInt = some i ∧ ((b.services i).port ≠ -1 →
    ∃ f, (b.services i).onBytesReceived = some f ∧ PayloadInside target lib b f msg.data env)

variable {target lib}

theorem runOnBytesReceived_isSome {b : BridgeConnection} (h : Sound b) {i : Slot}
    {f : OnBytesReceived} {buffer : List UInt8} {env : Environment}
    (hf : (b.services i).onBytesReceived = some f) :
    (b.runOnBytesReceived target lib i f buffer env).isSome ↔
      PayloadInside target lib b f buffer env := by
  unfold BridgeConnection.runOnBytesReceived PayloadInside
  cases f with
  | portStatusOnBytesReceived => rw [Option.isSome_map, portStatus_isSome h]
  | serviceSpawnerOnBytesReceived => rw [Option.isSome_map, serviceSpawner_isSome h.last]
  | methodOnBytesReceived => rw [Option.isSome_map, method_isSome]
  | keepaliveOnBytesReceived | signalsOnBytesReceived => exact iff_of_true rfl trivial
  | bulkOnBytesReceived =>
      refine iff_of_true ?_ trivial
      rcases h.slots i with ⟨-, hstarted⟩ | ⟨-, hnone⟩
      · obtain ⟨fd, hfd⟩ := hstarted.bulkBytes hf
        simp only [BridgeConnection.bulkDispatch, hfd]
        rw [load_zero_of_le (Nat.le_refl _)]
        rfl
      · rw [hnone.onBytesReceived] at hf
        cases hf

theorem Sound.runOnBytesReceived {b b' : BridgeConnection} (h : Sound b) {i : Slot}
    {f : OnBytesReceived} {buffer : List UInt8} {env : Environment}
    (hs : b.runOnBytesReceived target lib i f buffer env = some (some b')) : Sound b' := by
  cases f with
  | portStatusOnBytesReceived =>
      obtain ⟨c, hc, heq⟩ := Option.map_eq_some_iff.mp hs
      cases heq
      obtain ⟨slot, hkeeps⟩ := Keeps.portStatusOnBytesReceived hc
      exact h.keeps hkeeps
  | serviceSpawnerOnBytesReceived =>
      obtain ⟨c, hc, heq⟩ := Option.map_eq_some_iff.mp hs
      cases heq
      exact h.serviceSpawner hc
  | keepaliveOnBytesReceived =>
      cases hs
      exact h.keeps (.writeAllPort i i _ _)
  | signalsOnBytesReceived =>
      cases hs
      exact h
  | methodOnBytesReceived =>
      obtain ⟨outcome, -, heq⟩ := Option.map_eq_some_iff.mp hs
      cases outcome with
      | refused =>
          cases heq
          exact h
      | exited => cases heq
      | built message arg_pointer =>
          cases hreply : env.reply with
          | none =>
              simp only [hreply] at heq
              cases heq
              exact h
          | some reply =>
              simp only [hreply] at heq
              cases heq
              exact h.keeps (.writeAllPort i i _ _)
  | bulkOnBytesReceived =>
      obtain ⟨c, hc, heq⟩ := Option.map_eq_some_iff.mp hs
      cases heq
      unfold BridgeConnection.bulkDispatch at hc
      split at hc
      · obtain ⟨-, -, rfl⟩ := Option.map_eq_some_iff.mp hc
        split
        · exact h
        · split
          · exact h.keeps (.sendClose i _)
          · exact h
      · cases hc

variable (target lib) in
/-- A dispatch stays in bounds exactly when the message does. -/
theorem sendToCorrectService_isSome {b : BridgeConnection} (h : Sound b) (msg : MultiplexedMessage)
    (env : Environment) :
    (b.sendToCorrectService target lib msg env).isSome ↔ MessageInside target lib b msg env := by
  unfold BridgeConnection.sendToCorrectService MessageInside
  cases slot? msg.port.toInt with
  | none => simp
  | some i =>
      simp only [Option.bind_some, Option.some.injEq, exists_eq_left']
      by_cases hfree : (b.services i).port = -1
      · simp [hfree]
      · rw [if_neg hfree]
        simp only [ne_eq, hfree, not_false_eq_true, forall_const]
        cases hf : (b.services i).onBytesReceived with
        | none => simp
        | some f =>
            have hlog : Sound (b.log i (.onBytesReceived f)) := h.keeps (.log i i b _)
            rw [Option.bind_some, runOnBytesReceived_isSome hlog hf]
            simp only [Option.some.injEq, exists_eq_left']
            exact Iff.rfl

theorem Sound.sendToCorrectService {b b' : BridgeConnection} (h : Sound b) {msg : MultiplexedMessage}
    {env : Environment} (hs : b.sendToCorrectService target lib msg env = some (some b')) :
    Sound b' := by
  obtain ⟨i, -, hs⟩ := Option.bind_eq_some_iff.mp hs
  split at hs
  · cases hs
    exact h
  · obtain ⟨f, -, hs⟩ := Option.bind_eq_some_iff.mp hs
    have hlog : Sound (b.log i (.onBytesReceived f)) := h.keeps (.log i i b _)
    exact hlog.runOnBytesReceived hs

end

/-! ## Runs -/

/-- No access of the receiver or of a dispatch has been out of range. -/
def InRange (s : AccessoryState) : Prop := s.receiver.Faultless ∧ s.status ≠ .fault

section

variable {Message : Type*} (target : Target) (lib : Libdbus Message)

/-- The condition on one step. -/
def StepInside (s : AccessoryState) : AccessoryLabel → Prop
  | .receive l => ReceiveInside s.receiver l
  | .dispatch env => ∀ msg, s.receiver.queued[s.polled]? = some (some msg) →
      MessageInside target lib s.bridge msg env
  | .bulkThreadEnds _ => True

variable {target lib}

theorem crashed_iff (s : AccessoryState) :
    s.crashed = true ↔ ¬InRange s ∨ s.status = .exited := by
  unfold AccessoryState.crashed InRange ReceiverState.Faultless
  cases hpc : s.receiver.pc <;> cases hstatus : s.status <;> simp

theorem step_inRange {s t : AccessoryState} {label : AccessoryLabel} (hin : InRange s)
    (hreading : Reading s.receiver) (hsound : Sound s.bridge)
    (hs : (accessory target lib).step s label = some t) :
    (InRange t ↔ StepInside target lib s label) ∧
      (InRange t → Reading t.receiver ∧ Sound t.bridge) := by
  have hs' : s.step target lib label = some t := hs
  unfold AccessoryState.step at hs'
  split at hs'
  · cases hs'
  · cases label with
    | receive l =>
        obtain ⟨r, hr, rfl⟩ := Option.map_eq_some_iff.mp hs'
        obtain ⟨hiff, hnext⟩ := hreading.step hin.1 hr
        refine ⟨?_, fun _ => ⟨hnext, hsound⟩⟩
        show r.Faultless ∧ s.status ≠ .fault ↔ _
        rw [hiff]
        exact ⟨And.left, fun h => ⟨h, hin.2⟩⟩
    | dispatch env =>
        simp only at hs'
        split at hs'
        · rename_i msg hmsg
          cases hs'
          have hiff := sendToCorrectService_isSome target lib hsound msg env
          have hinside : StepInside target lib s (.dispatch env) ↔
              MessageInside target lib s.bridge msg env := by
            simp [StepInside, hmsg]
          rw [hinside, ← hiff]
          unfold AccessoryState.dispatch
          split <;> rename_i hresult
          · exact ⟨iff_of_false (fun h => h.2 rfl) (by simp [hresult]), fun h => absurd rfl h.2⟩
          · exact ⟨iff_of_true ⟨hin.1, nofun⟩ (by simp [hresult]), fun _ => ⟨hreading, hsound⟩⟩
          · exact ⟨iff_of_true hin (by simp [hresult]),
              fun _ => ⟨hreading, hsound.sendToCorrectService hresult⟩⟩
        · cases hs'
        · cases hs'
    | bulkThreadEnds i =>
        simp only at hs'
        split at hs'
        · cases hs'
          exact ⟨iff_of_true hin trivial, fun _ => ⟨hreading, hsound.keeps (.sendEof i _)⟩⟩
        · cases hs'

theorem Sound.initial : Sound initServer where
  slots := by
    intro i
    unfold initServer
    simp only
    split
    · rename_i h
      exact .inl ⟨by simp [h], rfl, rfl, rfl, by simp, by simp⟩
    · split
      · rename_i h
        exact .inl ⟨by simp [h], rfl, rfl, rfl, by simp, by simp⟩
      · split
        · rename_i h
          exact .inl ⟨by simp [h], rfl, rfl, rfl, by simp, by simp⟩
        · exact .unused i
  last := by decide

end

/-- All accesses of a run are in range exactly if every step of it finds the
input that its accesses rely on. -/
theorem accesses_inRange_iff {Message : Type*} (target : Target) (lib : Libdbus Message)
    (labels : List AccessoryLabel) (s : AccessoryState)
    (h : (accessory target lib).run .initial labels = some s) :
    InRange s ↔ (accessory target lib).Along (StepInside target lib) .initial labels := by
  apply Machine.good_iff_along (I := fun s => Reading s.receiver ∧ Sound s.bridge) ?_ ?_ ?_ ?_ h
  · intro s label hbad
    have hcrashed : s.crashed = true := (crashed_iff s).mpr (.inl hbad)
    show s.step target lib label = none
    unfold AccessoryState.step
    rw [if_pos hcrashed]
  · intro s label t hgood hinv hstep
    exact step_inRange hgood hinv.1 hinv.2 hstep
  · exact ⟨nofun, nofun⟩
  · exact ⟨.initial, .initial⟩

/-- A libdbus that takes every call and counts the arguments. -/
private def countingDbus : Libdbus Nat where
  newMethodCall _ _ _ _ := some 0
  appendBasic n _ _ := some (n + 1)

private def x86 : Target := ⟨true, id⟩

private def environment : Environment := ⟨true, true, true, true, [], some [0x6C]⟩

/-- A request for the method service, and a call of `M` with one byte on port 3. -/
private def requestAndCall : List AccessoryLabel :=
  [.receive (.bytes [1, 0, 4, 0]), .receive (.bytes [0x6F, 2, 0, 0]), .dispatch environment,
    .receive (.bytes [3, 0, 19]), .receive (.bytes [0]),
    .receive (.bytes [0x61, 0x2E, 0x62, 0, 0x2F, 0x61, 0, 0x61, 0x2E, 0x62, 0, 0x4D, 0]),
    .receive (.bytes [1, 0, 0, 0, 0x79, 5]), .dispatch environment]

private theorem requestAndCall_isSome :
    ((accessory x86 countingDbus).run .initial requestAndCall).isSome := by decide +kernel

theorem accesses_inRange_call :
    (accessory x86 countingDbus).Along (StepInside x86 countingDbus) .initial requestAndCall := by
  have hrunning : (((accessory x86 countingDbus).run .initial requestAndCall).get
      requestAndCall_isSome).crashed = false := by decide +kernel
  apply (accesses_inRange_iff x86 countingDbus requestAndCall _
    (Option.some_get requestAndCall_isSome).symm).mp
  by_contra hout
  rw [(crashed_iff _).mpr (.inl hout)] at hrunning
  cases hrunning

/-- An empty frame for port 400. -/
private def port400 : List AccessoryLabel :=
  [.receive (.bytes [0x90, 0x01, 0, 0]), .dispatch environment]

private theorem port400_isSome :
    ((accessory x86 countingDbus).run .initial port400).isSome := by decide +kernel

/-- The entry behind the table is read. -/
theorem accesses_outOfRange_port_400 :
    ¬∀ labels s, (accessory x86 countingDbus).run .initial labels = some s → InRange s := by
  intro h
  have hfault : (((accessory x86 countingDbus).run .initial port400).get port400_isSome).status =
      .fault := by decide +kernel
  exact (h port400 _ (Option.some_get port400_isSome).symm).2 hfault

end AapBridge.Accessory
