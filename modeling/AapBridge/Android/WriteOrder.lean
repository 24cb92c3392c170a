import AapBridge.Android.PortWrite

/-! # What the writers put on the stream

The monitor of a port protects its header buffer, so the header a thread has
filled is still there when it gets the bridge; the monitor of the bridge keeps
header and payload together. The stream, with the payload that is still owed to
it, is therefore the frames one after another, and each thread's frames on a
port carry the buffers it was handed, in order and in full.
-/

namespace AapBridge.Android

open AapBridge.Lib

/-! ## Header buffers -/

/-- The header buffer of a port: its number in front, the mark behind it. -/
structure Port.Ready (port : Port) : Prop where
  open_ : port.outputOpen = true
  arrayOffset : port.header.arrayOffset = 0
  capacity : port.header.capacity = 4
  limit : port.header.limit = 4
  mark : port.header.mark = some 2
  number : port.header.array.take 2 = shortBytes port.portNr
  length : port.header.array.length = 4

theorem Port.create_ready {portNr : Short} {port : Port} (h : Port.create portNr = some port) :
    port.Ready := by
  obtain ⟨header, hput, harray, hoffset, hcapacity, hlimit, -, hposition⟩ :=
    ByteBuffer.putShort_of_le (b := ByteBuffer.allocate 4) portNr (by decide)
  have harray' : header.array = shortBytes portNr ++ [0, 0] := harray
  rw [Port.create, hput, Option.map_some, Option.some.injEq] at h
  subst h
  constructor
  · rfl
  · exact hoffset
  · exact hcapacity
  · exact hlimit
  · exact congrArg some hposition
  · simp [ByteBuffer.setMark, harray', List.take_left' (shortBytes_length portNr)]
  · simp [ByteBuffer.setMark, harray']

/-- Filling always succeeds and only touches the size. -/
theorem Port.Ready.fillHeader {port : Port} (h : port.Ready) (amount : Short) :
    ∃ port', port.fillHeader amount = some port' ∧ port'.Ready ∧ port'.portNr = port.portNr ∧
      port'.header.array = shortBytes port.portNr ++ shortBytes amount := by
  obtain ⟨reset, hreset, harray, hoffset, hcapacity, hlimit, hmark, hposition⟩ :=
    ByteBuffer.reset_of_mark h.mark (by rw [h.limit]; decide)
  obtain ⟨header, hput, hbytes, hoffset', hcapacity', hlimit', hmark', -⟩ :=
    ByteBuffer.putShort_of_le (b := reset) amount (by rw [hposition, hlimit, h.limit])
  have hfill : port.fillHeader amount = some { port with header } := by
    simp [Port.fillHeader, hreset, hput]
  have hwhole : header.array = shortBytes port.portNr ++ shortBytes amount := by
    rw [hbytes, hoffset, h.arrayOffset, hposition, harray, h.number,
      List.drop_of_length_le (by rw [h.length]), List.append_nil]
  refine ⟨_, hfill, ⟨h.open_, ?_, ?_, ?_, ?_, ?_, ?_⟩, rfl, hwhole⟩
  · exact hoffset'.trans (hoffset.trans h.arrayOffset)
  · exact hcapacity'.trans (hcapacity.trans h.capacity)
  · exact hlimit'.trans (hlimit.trans h.limit)
  · exact hmark'.trans hmark
  · rw [hwhole, List.take_left' (shortBytes_length _)]
  · rw [hwhole]
    simp

/-- A header that has been filled goes out as it stands. -/
theorem Port.Ready.load {port : Port} (h : port.Ready) :
    CMemory.load port.header.array port.header.arrayOffset port.header.capacity =
      some port.header.array := by
  rw [h.arrayOffset, h.capacity, CMemory.load_zero_of_le (by rw [h.length]),
    List.take_of_length_le (by rw [h.length])]

theorem writeAmount_toNat (buffer : ByteBuffer) :
    (writeAmount buffer).toNat ≤ 4000 ∧ (writeAmount buffer).toNat ≤ buffer.remaining := by
  have hnat : (writeAmount buffer).toNat =
      (if buffer.remaining > 4000 then 4000 else buffer.remaining) % 65536 := by
    simp [writeAmount]
  rw [hnat]
  split <;> omega

/-! ## Threads -/

section

variable {Tid P : Type*}

namespace WriterPc

def heldPort : WriterPc P → Option P
  | .idle | .loop _ => none
  | .enter call | .lockBridge call _ | .writeHeader call _ | .writePayload call _
  | .unlockBridge call _ | .leave call _ => some call.port

def holdsBridge : WriterPc P → Bool
  | .writeHeader _ _ | .writePayload _ _ | .unlockBridge _ _ => true
  | _ => false

/-- The header is on the stream, its payload is not. -/
def awaitsPayload : WriterPc P → Bool
  | .writePayload _ _ => true
  | _ => false

/-- The payload of a frame whose header is on the stream. -/
def owed : WriterPc P → List UInt8
  | .writePayload call amount => call.buffer.contents.take amount.toNat
  | _ => []

/-- What the current buffer has contributed to the frames on port `p`. -/
def progress [DecidableEq P] (p : P) : WriterPc P → List UInt8
  | .idle => []
  | .loop call | .enter call | .lockBridge call _ | .writeHeader call _ =>
      if call.port = p then call.written else []
  | .writePayload call amount | .unlockBridge call amount | .leave call amount =>
      if call.port = p then call.written ++ call.buffer.contents.take amount.toNat else []

/-- What a thread knows of its call and of the header it has filled. -/
def Sound (ports : P → Port) : WriterPc P → Prop
  | .idle => True
  | .loop call | .enter call => call.handed = call.written ++ call.buffer.contents
  | .lockBridge call amount | .writeHeader call amount =>
      call.handed = call.written ++ call.buffer.contents ∧ amount = writeAmount call.buffer ∧
        (ports call.port).header.array = shortBytes (ports call.port).portNr ++ shortBytes amount
  | .writePayload call amount | .unlockBridge call amount | .leave call amount =>
      call.handed = call.written ++ call.buffer.contents ∧ amount = writeAmount call.buffer

end WriterPc

/-- Who holds which monitor. -/
structure Monitors (pc : Tid → WriterPc P) (portMonitor : P → Option Tid)
    (bridgeMonitor : Option Tid) : Prop where
  port : ∀ t p, (pc t).heldPort = some p ↔ portMonitor p = some t
  bridge : ∀ t, (pc t).holdsBridge = true ↔ bridgeMonitor = some t

def owedBy (pc : Tid → WriterPc P) : Option Tid → List UInt8
  | none => []
  | some t => (pc t).owed

/-- The bytes of a frame on port number `portNr`. -/
def frameBytes (portNr : Short) (payload : List UInt8) : List UInt8 :=
  shortBytes portNr ++ shortBytes (BitVec.ofNat 16 payload.length) ++ payload

/-- The bytes of the frames, one after another. -/
def WritersState.wire (s : WritersState Tid P) : List UInt8 :=
  (s.frames.map fun f => frameBytes (s.ports f.1.2).portNr f.2).flatten

structure WritersInv [DecidableEq Tid] [DecidableEq P] (s : WritersState Tid P) : Prop where
  ports : ∀ p, (s.ports p).Ready
  monitors : Monitors s.pc s.portMonitor s.bridgeMonitor
  sound : ∀ t, (s.pc t).Sound s.ports
  wire : s.sent ++ owedBy s.pc s.bridgeMonitor = s.wire
  sizes : ∀ f ∈ s.frames, f.2.length ≤ 4000
  conserved : ∀ t p, (keyed (t, p) s.frames).flatten =
    (keyed (t, p) s.finished).flatten ++ (s.pc t).progress p
  thrown : s.thrown = false

variable [DecidableEq Tid]

/-- A step of thread `t` changes what `t` holds and nothing else. -/
theorem Monitors.update {pc : Tid → WriterPc P} {portMonitor portMonitor' : P → Option Tid}
    {bridgeMonitor bridgeMonitor' : Option Tid} (h : Monitors pc portMonitor bridgeMonitor)
    {t : Tid} {new : WriterPc P} (hport : ∀ p, new.heldPort = some p ↔ portMonitor' p = some t)
    (hbridge : new.holdsBridge = true ↔ bridgeMonitor' = some t)
    (hport' : ∀ u, u ≠ t → ∀ p, portMonitor' p = some u ↔ portMonitor p = some u)
    (hbridge' : ∀ u, u ≠ t → (bridgeMonitor' = some u ↔ bridgeMonitor = some u)) :
    Monitors (Function.update pc t new) portMonitor' bridgeMonitor' := by
  constructor
  · intro u p
    by_cases hut : u = t
    · subst hut
      rw [Function.update_self]
      exact hport p
    · rw [Function.update_of_ne hut, hport' u hut]
      exact h.port u p
  · intro u
    by_cases hut : u = t
    · subst hut
      rw [Function.update_self]
      exact hbridge
    · rw [Function.update_of_ne hut, hbridge' u hut]
      exact h.bridge u

theorem owedBy_update {pc : Tid → WriterPc P} {bridgeMonitor bridgeMonitor' : Option Tid}
    {t : Tid} {new : WriterPc P} (hold : (pc t).owed = []) (hnew : new.owed = [])
    (hbridge' : ∀ u, u ≠ t → (bridgeMonitor' = some u ↔ bridgeMonitor = some u)) :
    owedBy (Function.update pc t new) bridgeMonitor' = owedBy pc bridgeMonitor := by
  have hnone : ∀ b : Option Tid, (∀ u, u ≠ t → b ≠ some u) →
      owedBy pc b = [] ∧ owedBy (Function.update pc t new) b = [] := by
    intro b hb
    cases b with
    | none => exact ⟨rfl, rfl⟩
    | some u =>
        have hut : u = t := by
          by_contra hne
          exact hb u hne rfl
        subst hut
        exact ⟨hold, by simp [owedBy, hnew]⟩
  by_cases hother : ∃ u, u ≠ t ∧ bridgeMonitor = some u
  · obtain ⟨u, hut, hu⟩ := hother
    rw [(hbridge' u hut).mpr hu, hu]
    simp [owedBy, hut]
  · have hold' : ∀ u, u ≠ t → bridgeMonitor ≠ some u := fun u hut hu => hother ⟨u, hut, hu⟩
    rw [(hnone _ fun u hut hu => hold' u hut ((hbridge' u hut).mp hu)).2, (hnone _ hold').1]

theorem sound_update {pc : Tid → WriterPc P} {ports : P → Port} (h : ∀ t, (pc t).Sound ports)
    {t : Tid} {new : WriterPc P} (hnew : new.Sound ports) (u : Tid) :
    (Function.update pc t new u).Sound ports := by
  by_cases hut : u = t
  · subst hut
    rw [Function.update_self]
    exact hnew
  · rw [Function.update_of_ne hut]
    exact h u

namespace WritersInv

variable [DecidableEq P] {s : WritersState Tid P} {t : Tid}

/-- A step that only moves monitors, and leaves no payload owed. -/
theorem move (h : WritersInv s) {new : WriterPc P} {portMonitor : P → Option Tid}
    {bridgeMonitor : Option Tid} (hport : ∀ p, new.heldPort = some p ↔ portMonitor p = some t)
    (hbridge : new.holdsBridge = true ↔ bridgeMonitor = some t)
    (hport' : ∀ u, u ≠ t → ∀ p, portMonitor p = some u ↔ s.portMonitor p = some u)
    (hbridge' : ∀ u, u ≠ t → (bridgeMonitor = some u ↔ s.bridgeMonitor = some u))
    (hold : (s.pc t).owed = []) (hnew : new.owed = []) (hsound : new.Sound s.ports)
    (hprogress : ∀ p, new.progress p = (s.pc t).progress p) :
    WritersInv ({ s with portMonitor, bridgeMonitor }.at t new) := by
  refine ⟨h.ports, h.monitors.update hport hbridge hport' hbridge', sound_update h.sound hsound,
    ?_, h.sizes, ?_, h.thrown⟩
  · have howed := owedBy_update hold hnew hbridge'
    simp only [WritersState.at, howed]
    exact h.wire
  · intro u p
    by_cases hut : u = t
    · subst hut
      simp only [WritersState.at, Function.update_self, hprogress]
      exact h.conserved u p
    · simp only [WritersState.at, Function.update_of_ne hut]
      exact h.conserved u p

/-- The caller's loop ends: the buffer has gone out in full. -/
theorem finish (h : WritersInv s) {call : Call P} (hpc : s.pc t = .loop call)
    (hempty : call.buffer.hasRemaining = false) :
    WritersInv ({ s with finished := s.finished ++ [((t, call.port), call.handed)] }.at t .idle) := by
  have hheld := h.monitors.port t
  have hsound := h.sound t
  have hbridge := h.monitors.bridge t
  have hconserved := h.conserved
  rw [hpc] at hheld hsound hbridge
  have hnil : call.buffer.contents = [] := by
    by_contra hne
    rw [call.buffer.hasRemaining_iff.mpr hne] at hempty
    cases hempty
  have hall : call.handed = call.written := by
    have heq : call.handed = call.written ++ call.buffer.contents := hsound
    rw [heq, hnil, List.append_nil]
  refine ⟨h.ports, h.monitors.update hheld hbridge (fun _ _ _ => Iff.rfl) (fun _ _ => Iff.rfl),
    sound_update h.sound trivial, ?_, h.sizes, ?_, h.thrown⟩
  · have howed : owedBy (Function.update s.pc t .idle) s.bridgeMonitor =
        owedBy s.pc s.bridgeMonitor := owedBy_update (by rw [hpc]; rfl) rfl fun _ _ => Iff.rfl
    simp only [WritersState.at, howed]
    exact h.wire
  · intro u p
    by_cases hut : u = t
    · subst hut
      by_cases hp : call.port = p
      · subst hp
        simp [WritersState.at, hconserved, hpc, WriterPc.progress, hall]
      · have hne : ((u, call.port) : Tid × P) ≠ (u, p) := fun heq => hp (Prod.mk.inj heq).2
        simp [WritersState.at, hconserved, hpc, WriterPc.progress, hp, keyed_singleton_of_ne hne]
    · have hne : ((t, call.port) : Tid × P) ≠ (u, p) := fun heq => hut (Prod.mk.inj heq).1.symm
      simp [WritersState.at, hconserved, hut, keyed_singleton_of_ne hne]

/-- The header is filled while the port is held, so no other thread's header changes. -/
theorem fill (h : WritersInv s) {call : Call P} (hpc : s.pc t = .enter call) {port : Port}
    (hready : port.Ready) (hnumber : port.portNr = (s.ports call.port).portNr)
    (harray : port.header.array =
      shortBytes (s.ports call.port).portNr ++ shortBytes (writeAmount call.buffer)) :
    WritersInv ({ s with ports := Function.update s.ports call.port port }.at t
      (.lockBridge call (writeAmount call.buffer))) := by
  have hheld := h.monitors.port t
  have hsound := h.sound t
  have hbridge := h.monitors.bridge t
  rw [hpc] at hheld hsound hbridge
  have hnumbers : ∀ p, (Function.update s.ports call.port port p).portNr = (s.ports p).portNr := by
    intro p
    by_cases hp : p = call.port
    · subst hp
      rw [Function.update_self, hnumber]
    · rw [Function.update_of_ne hp]
  have hothers : ∀ u, u ≠ t → (s.pc u).Sound (Function.update s.ports call.port port) := by
    intro u hut
    have hu := h.sound u
    have hmine : s.portMonitor call.port = some t := (hheld call.port).mp rfl
    have hport : ∀ other, (s.pc u).heldPort = some other → other ≠ call.port := by
      intro other hother heq
      have hsame := (h.monitors.port u other).mp hother
      rw [heq, hmine] at hsame
      exact hut (Option.some.inj hsame).symm
    cases hcase : s.pc u with
    | lockBridge call' amount =>
        rw [hcase] at hu hport
        have hne := hport call'.port rfl
        simpa [WriterPc.Sound, hne] using hu
    | writeHeader call' amount =>
        rw [hcase] at hu hport
        have hne := hport call'.port rfl
        simpa [WriterPc.Sound, hne] using hu
    | _ =>
        rw [hcase] at hu
        exact hu
  refine ⟨?_, h.monitors.update hheld hbridge (fun _ _ _ => Iff.rfl) (fun _ _ => Iff.rfl), ?_, ?_,
    h.sizes, ?_, h.thrown⟩
  · intro p
    by_cases hp : p = call.port
    · subst hp
      simpa [WritersState.at] using hready
    · simpa [WritersState.at, hp] using h.ports p
  · intro u
    by_cases hut : u = t
    · subst hut
      simp only [WritersState.at, Function.update_self, WriterPc.Sound, hnumber]
      exact ⟨hsound, trivial, harray⟩
    · simp only [WritersState.at, Function.update_of_ne hut]
      exact hothers u hut
  · have howed : owedBy (Function.update s.pc t (.lockBridge call (writeAmount call.buffer)))
        s.bridgeMonitor = owedBy s.pc s.bridgeMonitor :=
      owedBy_update (by rw [hpc]; rfl) rfl fun _ _ => Iff.rfl
    simp only [WritersState.at, howed, WritersState.wire, hnumbers]
    exact h.wire
  · intro u p
    have hconserved := h.conserved u p
    by_cases hut : u = t
    · subst hut
      rw [hpc] at hconserved
      simpa [WritersState.at, WriterPc.progress] using hconserved
    · simpa [WritersState.at, hut] using hconserved

/-- The header goes out, and with it the frame is on its way. -/
theorem header (h : WritersInv s) {call : Call P} {amount : Short}
    (hpc : s.pc t = .writeHeader call amount) :
    WritersInv ({ s with
      sent := s.sent ++ (s.ports call.port).header.array
      frames := s.frames ++ [((t, call.port), call.buffer.contents.take amount.toNat)] }.at t
        (.writePayload call amount)) := by
  have hheld := h.monitors.port t
  have hsound := h.sound t
  have hbridge := h.monitors.bridge t
  have hwire := h.wire
  rw [hpc] at hheld hsound hbridge
  obtain ⟨hhanded, hamount, harray⟩ := hsound
  obtain ⟨hmax, hrem⟩ := writeAmount_toNat call.buffer
  rw [← hamount] at hmax hrem
  have hlen : (call.buffer.contents.take amount.toNat).length = amount.toNat := by
    rw [List.length_take, call.buffer.contents_length]
    omega
  have hmine : s.bridgeMonitor = some t := hbridge.mp rfl
  refine ⟨h.ports, h.monitors.update hheld hbridge (fun _ _ _ => Iff.rfl) (fun _ _ => Iff.rfl),
    sound_update h.sound ⟨hhanded, hamount⟩, ?_, ?_, ?_, h.thrown⟩
  · have hframe : frameBytes (s.ports call.port).portNr (call.buffer.contents.take amount.toNat) =
        (s.ports call.port).header.array ++ call.buffer.contents.take amount.toNat := by
      rw [frameBytes, hlen, BitVec.ofNat_toNat, BitVec.setWidth_eq, harray]
    have hsent : s.sent = s.wire := by
      simpa [hmine, owedBy, hpc, WriterPc.owed] using hwire
    simp only [WritersState.at, WritersState.wire, hmine, owedBy, Function.update_self,
      WriterPc.owed, List.map_append, List.flatten_append, List.map_cons, List.map_nil,
      List.flatten_cons, List.flatten_nil, List.append_nil, hframe, hsent, List.append_assoc]
  · intro f hf
    rcases List.mem_append.mp hf with hold | hnew
    · exact h.sizes f hold
    · rw [List.mem_singleton.mp hnew]
      exact hlen.trans_le hmax
  · intro u p
    have hconserved := h.conserved u p
    by_cases hut : u = t
    · subst hut
      rw [hpc] at hconserved
      by_cases hp : call.port = p
      · subst hp
        simp only [WriterPc.progress, if_true] at hconserved
        simp [WritersState.at, WriterPc.progress, hconserved]
      · have hne : ((u, call.port) : Tid × P) ≠ (u, p) := fun heq => hp (Prod.mk.inj heq).2
        simp only [WriterPc.progress, if_neg hp] at hconserved
        simp [WritersState.at, WriterPc.progress, hp, hconserved, keyed_singleton_of_ne hne]
    · have hne : ((t, call.port) : Tid × P) ≠ (u, p) := fun heq => hut (Prod.mk.inj heq).1.symm
      simp [WritersState.at, hut, hconserved, keyed_singleton_of_ne hne]

/-- The payload follows its header. -/
theorem payload (h : WritersInv s) {call : Call P} {amount : Short}
    (hpc : s.pc t = .writePayload call amount) :
    WritersInv ({ s with
      sent := s.sent ++ call.buffer.contents.take amount.toNat }.at t
        (.unlockBridge call amount)) := by
  have hheld := h.monitors.port t
  have hsound := h.sound t
  have hbridge := h.monitors.bridge t
  have hwire := h.wire
  rw [hpc] at hheld hsound hbridge
  have hmine : s.bridgeMonitor = some t := hbridge.mp rfl
  refine ⟨h.ports, h.monitors.update hheld hbridge (fun _ _ _ => Iff.rfl) (fun _ _ => Iff.rfl),
    sound_update h.sound hsound, ?_, h.sizes, ?_, h.thrown⟩
  · rw [hmine, owedBy, hpc] at hwire
    simp only [WritersState.at, hmine, owedBy, Function.update_self, WriterPc.owed, List.append_nil]
    exact hwire
  · intro u p
    have hconserved := h.conserved u p
    by_cases hut : u = t
    · subst hut
      rw [hpc] at hconserved
      simpa [WritersState.at, WriterPc.progress] using hconserved
    · simpa [WritersState.at, hut] using hconserved

theorem initial (h : WritersInit s) : WritersInv s := by
  constructor
  · intro p
    obtain ⟨n, -, hn⟩ := h.ports p
    exact Port.create_ready hn
  · constructor
    · intro u p
      simp [h.pc, h.portMonitor, WriterPc.heldPort]
    · intro u
      simp [h.pc, h.bridgeMonitor, WriterPc.holdsBridge]
  · intro u
    rw [h.pc]
    trivial
  · simp [h.sent, h.bridgeMonitor, owedBy, WritersState.wire, h.frames]
  · simp [h.frames]
  · intro u p
    simp [h.frames, h.finished, h.pc, WriterPc.progress]
  · exact h.thrown

omit [DecidableEq Tid] in
/-- A thread that waits for its port or leaves it touches the monitor of that port only. -/
theorem portMonitor_update {portMonitor : P → Option Tid} {q : P} {new : Option Tid}
    (hq : portMonitor q = none ∨ portMonitor q = some t) (hnew : new = none ∨ new = some t)
    (u : Tid) (hut : u ≠ t) (p : P) :
    Function.update portMonitor q new p = some u ↔ portMonitor p = some u := by
  by_cases hp : p = q
  · subst hp
    rw [Function.update_self]
    rcases hq with hq | hq <;> rcases hnew with hnew | hnew <;> simp [hq, hnew, Ne.symm hut]
  · rw [Function.update_of_ne hp]

theorem enterPort (h : WritersInv s) {call : Call P} (hpc : s.pc t = .loop call)
    (hfree : s.portMonitor call.port = none) :
    WritersInv ({ s with
      portMonitor := Function.update s.portMonitor call.port (some t) }.at t (.enter call)) := by
  have hheld := h.monitors.port t
  have hbridge := h.monitors.bridge t
  have hsound := h.sound t
  rw [hpc] at hheld hbridge hsound
  refine h.move (t := t) ?_ hbridge (portMonitor_update (.inl hfree) (.inr rfl))
    (fun _ _ => Iff.rfl) (by rw [hpc]; rfl) rfl hsound ?_
  · intro p
    by_cases hp : p = call.port
    · simp [hp, WriterPc.heldPort]
    · have hnone : s.portMonitor p ≠ some t := fun hp' => by cases (hheld p).mpr hp'
      simp [hp, hnone, WriterPc.heldPort, Ne.symm hp]
  · intro p
    rw [hpc]
    rfl

theorem leavePort (h : WritersInv s) {call : Call P} {amount : Short} {buffer : ByteBuffer}
    (hpc : s.pc t = .leave call amount)
    (hbuffer : buffer.contents = call.buffer.contents.drop amount.toNat) :
    WritersInv ({ s with portMonitor := Function.update s.portMonitor call.port none }.at t
      (.loop { call with
        buffer, written := call.written ++ call.buffer.contents.take amount.toNat })) := by
  have hheld := h.monitors.port t
  have hbridge := h.monitors.bridge t
  have hsound := h.sound t
  rw [hpc] at hheld hbridge hsound
  have hmine : s.portMonitor call.port = some t := (hheld call.port).mp rfl
  refine h.move (t := t) ?_ hbridge (portMonitor_update (.inr hmine) (.inl rfl))
    (fun _ _ => Iff.rfl) (by rw [hpc]; rfl) rfl ?_ ?_
  · intro p
    by_cases hp : p = call.port
    · simp [hp, WriterPc.heldPort]
    · have hnone : s.portMonitor p ≠ some t := fun hp' => by
        have heq := (hheld p).mpr hp'
        exact hp (Option.some.inj heq).symm
      simp [hp, hnone, WriterPc.heldPort]
  · show call.handed = call.written ++ call.buffer.contents.take amount.toNat ++ buffer.contents
    rw [hbuffer, List.append_assoc, List.take_append_drop]
    exact hsound.1
  · intro p
    rw [hpc]
    rfl

theorem lockBridge (h : WritersInv s) {call : Call P} {amount : Short}
    (hpc : s.pc t = .lockBridge call amount) (hfree : s.bridgeMonitor = none) :
    WritersInv ({ s with bridgeMonitor := some t }.at t (.writeHeader call amount)) := by
  have hheld := h.monitors.port t
  have hsound := h.sound t
  rw [hpc] at hheld hsound
  refine h.move (t := t) hheld (by simp [WriterPc.holdsBridge]) (fun _ _ _ => Iff.rfl) ?_
    (by rw [hpc]; rfl) rfl hsound ?_
  · intro u hut
    simp [hfree, Ne.symm hut]
  · intro p
    rw [hpc]
    rfl

theorem unlockBridge (h : WritersInv s) {call : Call P} {amount : Short}
    (hpc : s.pc t = .unlockBridge call amount) :
    WritersInv ({ s with bridgeMonitor := none }.at t (.leave call amount)) := by
  have hheld := h.monitors.port t
  have hsound := h.sound t
  have hbridge := h.monitors.bridge t
  rw [hpc] at hheld hsound hbridge
  have hmine : s.bridgeMonitor = some t := hbridge.mp rfl
  refine h.move (t := t) hheld (by simp [WriterPc.holdsBridge]) (fun _ _ _ => Iff.rfl) ?_
    (by rw [hpc]; rfl) rfl hsound ?_
  · intro u hut
    simp [hmine, Ne.symm hut]
  · intro p
    rw [hpc]
    rfl

theorem step (h : WritersInv s) {s' : WritersState Tid P} (hstep : s.step t = some s') :
    WritersInv s' := by
  unfold WritersState.step at hstep
  have hsound := h.sound t
  cases hpc : s.pc t with
  | idle => simp [hpc] at hstep
  | loop call =>
      simp only [hpc] at hstep
      split at hstep
      · split at hstep
        · next hfree =>
          cases hstep
          exact h.enterPort hpc hfree
        · cases hstep
      · next hempty =>
        cases hstep
        exact h.finish hpc (by simpa using hempty)
  | enter call =>
      obtain ⟨port, hfill, hready, hnumber, harray⟩ :=
        (h.ports call.port).fillHeader (writeAmount call.buffer)
      simp only [hpc, (h.ports call.port).open_, if_true, hfill] at hstep
      cases hstep
      exact h.fill hpc hready hnumber harray
  | lockBridge call amount =>
      simp only [hpc] at hstep
      split at hstep
      · next hfree =>
        cases hstep
        exact h.lockBridge hpc hfree
      · cases hstep
  | writeHeader call amount =>
      simp only [hpc, (h.ports call.port).load] at hstep
      cases hstep
      exact h.header hpc
  | writePayload call amount =>
      rw [hpc] at hsound
      obtain ⟨-, hrem⟩ := writeAmount_toNat call.buffer
      rw [← hsound.2] at hrem
      have hload := call.buffer.load_contents hrem
      have hprint : amount.toNat ≤ call.buffer.array.length := by
        have hinside := call.buffer.inside
        have hlimit := call.buffer.limit_le
        unfold ByteBuffer.remaining at hrem
        omega
      simp only [hpc, hload, hprint, decide_true] at hstep
      cases hstep
      exact h.payload hpc
  | unlockBridge call amount =>
      simp only [hpc] at hstep
      cases hstep
      exact h.unlockBridge hpc
  | leave call amount =>
      rw [hpc] at hsound
      obtain ⟨-, hrem⟩ := writeAmount_toNat call.buffer
      rw [← hsound.2] at hrem
      obtain ⟨buffer, hset, hcontents⟩ := ByteBuffer.setPosition_contents hrem
      simp only [hpc, hset] at hstep
      cases hstep
      exact h.leavePort hpc hcontents

theorem label (h : WritersInv s) {a : WriterLabel Tid P} {s' : WritersState Tid P}
    (hstep : writersStep s a = some s') : WritersInv s' := by
  cases a with
  | call t port buffer =>
      simp only [writersStep] at hstep
      split at hstep
      · next hpc =>
        cases hstep
        have hheld := h.monitors.port t
        have hbridge := h.monitors.bridge t
        rw [hpc] at hheld hbridge
        refine h.move (t := t) hheld hbridge (fun _ _ _ => Iff.rfl) (fun _ _ => Iff.rfl)
          (by rw [hpc]; rfl) rfl rfl ?_
        intro p
        rw [hpc]
        simp [WriterPc.progress]
      · cases hstep
  | run t => exact h.step hstep

end WritersInv

variable [DecidableEq P]

theorem WritersState.step_sent {s s' : WritersState Tid P} {t : Tid} (h : s.step t = some s') :
    s.sent <+: s'.sent := by
  cases hpc : s.pc t with
  | idle => simp [WritersState.step, hpc] at h
  | writeHeader call amount =>
      simp only [WritersState.step, hpc] at h
      split at h <;> cases h
      · exact List.prefix_rfl
      · exact List.prefix_append _ _
  | writePayload call amount =>
      simp only [WritersState.step, hpc] at h
      split at h <;> cases h
      · exact List.prefix_append _ _
      · exact List.prefix_rfl
  | loop call =>
      simp only [WritersState.step, hpc] at h
      split at h
      · split at h <;> cases h
        exact List.prefix_rfl
      · cases h
        exact List.prefix_rfl
  | enter call =>
      simp only [WritersState.step, hpc] at h
      split at h
      · split at h <;> cases h <;> exact List.prefix_rfl
      · cases h
        exact List.prefix_rfl
  | lockBridge call amount =>
      simp only [WritersState.step, hpc] at h
      split at h <;> cases h
      exact List.prefix_rfl
  | unlockBridge call amount =>
      simp only [WritersState.step, hpc] at h
      cases h
      exact List.prefix_rfl
  | leave call amount =>
      simp only [WritersState.step, hpc] at h
      split at h <;> cases h <;> exact List.prefix_rfl

/-- What has been put on the stream stays there. -/
theorem writersStep_sent {s s' : WritersState Tid P} {a : WriterLabel Tid P}
    (h : writersStep s a = some s') : s.sent <+: s'.sent := by
  cases a with
  | call t port buffer =>
      simp only [writersStep] at h
      split at h
      · cases h
        exact List.prefix_rfl
      · cases h
  | run t => exact WritersState.step_sent h

end

end AapBridge.Android
