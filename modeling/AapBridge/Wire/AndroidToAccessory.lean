import AapBridge.Accessory.Receiver
import AapBridge.Android.WriteOrder

/-! # From the phone to the accessory

Writers on one side, the receiver thread on the other, and a transport that
hands over the stream in reads of any size. The stream is a sequence of frames,
the receiver cuts it where the writers joined it, and so the messages it queues
are the frames, whatever the interleaving and the splitting.
-/

namespace AapBridge.Wire

open AapBridge.Lib AapBridge.Accessory AapBridge.Android

/-! ## The two encodings -/

theorem shortBytes_eq (v : Android.Short) :
    ∃ low high, shortBytes v = [low, high] ∧ wireShort low high = v := by
  have hlen := shortBytes_length v
  match hbytes : shortBytes v, hlen with
  | [low, high], _ =>
      refine ⟨low, high, rfl, ?_⟩
      have hword := ByteOrder.word_put .littleEndian (n := 2) (by decide) v
      have hget : ByteOrder.littleEndian.get (shortBytes v) = low.toNat + 256 * high.toNat := by
        rw [hbytes]
        simp [ByteOrder.get, ByteOrder.arrange]
      rw [wireShort, ← hget]
      exact hword

theorem header_of_shorts (portNr size : Android.Short) :
    (shortBytes portNr ++ shortBytes size).length = 4 ∧
      headerPort (shortBytes portNr ++ shortBytes size) = portNr ∧
      headerSize (shortBytes portNr ++ shortBytes size) = size := by
  obtain ⟨p0, p1, hp, hport⟩ := shortBytes_eq portNr
  obtain ⟨s0, s1, hs, hsize⟩ := shortBytes_eq size
  rw [hp, hs]
  exact ⟨rfl, hport, hsize⟩

theorem toInt_ofNat {n : Nat} (h : n ≤ 4000) : (BitVec.ofNat 16 n).toInt = n := by
  have hn : n % 65536 = n := Nat.mod_eq_of_lt (by omega)
  rw [BitVec.toInt_eq_toNat_cond, BitVec.toNat_ofNat]
  simp only [Nat.reducePow, hn]
  rw [if_pos (by omega)]

theorem headerSize_frameBytes (portNr : Android.Short) {payload : List UInt8}
    (h : payload.length ≤ 4000) :
    (headerSize (frameBytes portNr payload)).toInt = payload.length := by
  obtain ⟨hlen, -, hsize⟩ := header_of_shorts portNr (BitVec.ofNat 16 payload.length)
  rw [frameBytes, headerSize_append hlen, hsize, toInt_ofNat h]

theorem isFrame_frameBytes (portNr : Android.Short) {payload : List UInt8}
    (h : payload.length ≤ 4000) : wireFraming.IsFrame (frameBytes portNr payload) := by
  obtain ⟨hlen, -, hsize⟩ := header_of_shorts portNr (BitVec.ofNat 16 payload.length)
  rw [frameBytes, isFrame_header_append hlen, hsize, toInt_ofNat h, Int.toNat_natCast]

/-- The receiver reads back what `Port.write` encoded. -/
theorem messageOf_frameBytes (portNr : Android.Short) (payload : List UInt8) :
    messageOf (frameBytes portNr payload) =
      ⟨portNr, BitVec.ofNat 16 payload.length, payload⟩ := by
  obtain ⟨hlen, hport, hsize⟩ := header_of_shorts portNr (BitVec.ofNat 16 payload.length)
  rw [messageOf, frameBytes, headerPort_append hlen, headerSize_append hlen, hport, hsize, ← hlen,
    List.drop_left]

/-- The header at the beginning of a stream of good frames is a good header. -/
theorem sizeInRange_of_flatten {bytes tail : List UInt8} {fs : List (List UInt8)}
    (hfs : ∀ f ∈ fs, wireFraming.IsFrame f ∧ SizeInRange f)
    (heq : bytes ++ tail = fs.flatten) : SizeInRange bytes := by
  intro hlen
  cases fs with
  | nil =>
      have hnil : bytes = [] := (List.append_eq_nil_iff.mp heq).1
      simp [hnil] at hlen
  | cons f fs =>
      obtain ⟨hframe, hrange⟩ := hfs f (by simp)
      have hfour : 4 ≤ f.length := hframe.1
      have htake : bytes.take 4 = f.take 4 := by
        have hcut := congrArg (List.take 4) heq
        rwa [List.flatten_cons, List.take_append_of_le_length hlen,
          List.take_append_of_le_length hfour] at hcut
      have hsame : headerSize bytes = headerSize f := by
        have hb : headerSize (bytes.take 4 ++ bytes.drop 4) = headerSize (bytes.take 4) :=
          headerSize_append (by simp; omega)
        have hf : headerSize (f.take 4 ++ f.drop 4) = headerSize (f.take 4) :=
          headerSize_append (by simp; omega)
        rw [List.take_append_drop] at hb hf
        rw [hb, hf, htake]
      rw [hsame]
      exact hrange hfour

/-! ## The link -/

/-- `taken` is how much of the stream the transport has handed over. -/
structure Link (Tid P : Type*) where
  writers : WritersState Tid P
  receiver : ReceiverState
  taken : Nat

inductive LinkLabel (Tid P : Type*) where
  | write (a : WriterLabel Tid P)
  /-- A call of `readAccessory` returns `n` bytes. -/
  | read (n : Nat)

variable {Tid P : Type*} [DecidableEq Tid] [DecidableEq P]

def linkStep (m : Link Tid P) : LinkLabel Tid P → Option (Link Tid P)
  | .write a => (writersStep m.writers a).map fun writers => { m with writers }
  | .read n =>
      if m.taken + n ≤ m.writers.sent.length then
        (m.receiver.arrive ((m.writers.sent.drop m.taken).take n)).map fun receiver =>
          { m with receiver, taken := m.taken + n }
      else none

def link : Machine (Link Tid P) (LinkLabel Tid P) where
  init m := WritersInit m.writers ∧ m.receiver = .initial ∧ m.taken = 0
  step := linkStep

structure LinkInv (m : Link Tid P) : Prop where
  writers : WritersInv m.writers
  taken : m.taken ≤ m.writers.sent.length
  receiver : Receiving m.receiver (m.writers.sent.take m.taken)

/-- The frames as the writers put them on the stream. -/
def frameList (s : WritersState Tid P) : List (List UInt8) :=
  s.frames.map fun f => frameBytes (s.ports f.1.2).portNr f.2

theorem frameList_good {s : WritersState Tid P} (h : WritersInv s) :
    ∀ f ∈ frameList s, wireFraming.IsFrame f ∧ SizeInRange f := by
  intro f hf
  obtain ⟨w, hw, rfl⟩ := List.mem_map.mp hf
  have hsize := h.sizes w hw
  refine ⟨isFrame_frameBytes _ hsize, fun _ => ?_⟩
  rw [headerSize_frameBytes _ hsize]
  have hmax : (bufferSize : Int) = 4000 := rfl
  omega

theorem LinkInv.stream {m : Link Tid P} (h : LinkInv m) :
    m.writers.sent.take m.taken ++ (m.writers.sent.drop m.taken ++
      owedBy m.writers.pc m.writers.bridgeMonitor) = (frameList m.writers).flatten := by
  rw [← List.append_assoc, List.take_append_drop]
  exact h.writers.wire

theorem LinkInv.read {m : Link Tid P} (h : LinkInv m) {n : Nat}
    (hn : m.taken + n ≤ m.writers.sent.length) {receiver : ReceiverState}
    (hr : m.receiver.arrive ((m.writers.sent.drop m.taken).take n) = some receiver) :
    LinkInv { m with receiver, taken := m.taken + n } := by
  obtain ⟨rest, hrest, hcur⟩ := Framing.assemble_next
    (fun f hf => (frameList_good h.writers f hf).1) h.stream
  have hsize : SizeInRange ((wireFraming.assemble (m.writers.sent.take m.taken)).2 ++
      (m.writers.sent.drop m.taken).take n) := by
    have hgood : ∀ f ∈ rest, wireFraming.IsFrame f ∧ SizeInRange f := fun f hf =>
      frameList_good h.writers f (hrest ▸ List.mem_append_right _ hf)
    have hflat : ((wireFraming.assemble (m.writers.sent.take m.taken)).2 ++
        (m.writers.sent.drop m.taken).take n) ++ ((m.writers.sent.drop m.taken).drop n ++
          owedBy m.writers.pc m.writers.bridgeMonitor) = rest.flatten := by
      rw [← hcur, List.append_assoc, ← List.append_assoc (List.take n _), List.take_append_drop]
    exact sizeInRange_of_flatten hgood hflat
  refine ⟨h.writers, hn, ?_⟩
  have htaken : m.writers.sent.take (m.taken + n) =
      m.writers.sent.take m.taken ++ (m.writers.sent.drop m.taken).take n := List.take_add
  show Receiving receiver (m.writers.sent.take (m.taken + n))
  rw [htaken]
  exact h.receiver.arrive hr hsize

theorem LinkInv.step {m m' : Link Tid P} {a : LinkLabel Tid P} (h : LinkInv m)
    (hstep : linkStep m a = some m') : LinkInv m' := by
  cases a with
  | write a =>
      obtain ⟨writers, hw, rfl⟩ := Option.map_eq_some_iff.mp hstep
      obtain ⟨more, hmore⟩ := writersStep_sent hw
      have htake : writers.sent.take m.taken = m.writers.sent.take m.taken := by
        rw [← hmore, List.take_append_of_le_length h.taken]
      refine ⟨h.writers.label hw, ?_, ?_⟩
      · show m.taken ≤ writers.sent.length
        rw [← hmore, List.length_append]
        exact Nat.le_add_right_of_le h.taken
      · show Receiving m.receiver (writers.sent.take m.taken)
        rw [htake]
        exact h.receiver
  | read n =>
      simp only [linkStep] at hstep
      split at hstep
      · next hn =>
        obtain ⟨receiver, hr, rfl⟩ := Option.map_eq_some_iff.mp hstep
        exact h.read hn hr
      · cases hstep

theorem LinkInv.reachable {m : Link Tid P} (h : link.Reachable m) : LinkInv m := by
  apply h.invariant
  · rintro s ⟨hwriters, hreceiver, htaken⟩
    refine ⟨.initial hwriters, by simp [htaken], ?_⟩
    rw [hreceiver, htaken]
    exact .initial
  · intro s a s' hs hstep
    exact hs.step hstep

/-- The message a write turns into. -/
def Link.message (m : Link Tid P) (f : (Tid × P) × List UInt8) : MultiplexedMessage :=
  ⟨(m.writers.ports f.1.2).portNr, BitVec.ofNat 16 f.2.length, f.2⟩

/-- All of the stream has been read, and no thread is between header and payload. -/
def Link.Quiet (m : Link Tid P) : Prop :=
  m.taken = m.writers.sent.length ∧ ∀ t, (m.writers.pc t).awaitsPayload = false

/-- The payloads of the queued messages for port number `n`, one after another. -/
def payloadsOn (n : Android.Short) (queued : List (Option MultiplexedMessage)) : List UInt8 :=
  queued.flatMap fun
    | some msg => if msg.port = n then msg.data else []
    | none => []

/-- The bytes written on ports with number `n`, in the order of the writes. -/
def Link.writtenOn (m : Link Tid P) (n : Android.Short) : List UInt8 :=
  m.writers.frames.flatMap fun f => if (m.writers.ports f.1.2).portNr = n then f.2 else []

omit [DecidableEq Tid] [DecidableEq P] in
theorem Link.frames_eq (m : Link Tid P) :
    (frameList m.writers).map (fun f => some (messageOf f)) =
      m.writers.frames.map fun f => some (m.message f) := by
  simp [frameList, messageOf_frameBytes, Link.message]

theorem LinkInv.queued_prefix {m : Link Tid P} (h : LinkInv m) :
    ∃ rest, m.writers.frames.map (fun f => some (m.message f)) = m.receiver.queued ++ rest := by
  obtain ⟨rest, hrest⟩ := Framing.assemble_prefix
    (fun f hf => (frameList_good h.writers f hf).1) h.stream
  refine ⟨rest.map fun f => some (messageOf f), ?_⟩
  rw [h.receiver.queued, ← m.frames_eq, ← List.map_append, hrest]

theorem LinkInv.queued_all {m : Link Tid P} (h : LinkInv m) (hquiet : m.Quiet) :
    m.receiver.queued = m.writers.frames.map fun f => some (m.message f) := by
  have howed : owedBy m.writers.pc m.writers.bridgeMonitor = [] := by
    cases hb : m.writers.bridgeMonitor with
    | none => rfl
    | some t =>
        have hnot := hquiet.2 t
        rw [owedBy]
        cases hpc : m.writers.pc t with
        | writePayload call amount => simp [hpc, WriterPc.awaitsPayload] at hnot
        | _ => rfl
  have hall := h.stream
  rw [howed, hquiet.1, List.take_length, List.drop_length, List.append_nil, List.append_nil] at hall
  rw [h.receiver.queued, hquiet.1, List.take_length, hall,
    Framing.assemble_flatten _ fun f hf => (frameList_good h.writers f hf).1, m.frames_eq]

theorem LinkInv.read_enabled {m : Link Tid P} (h : LinkInv m)
    (hmore : m.taken < m.writers.sent.length) : (linkStep m (.read 1)).isSome := by
  obtain ⟨requested, hpos, harrive⟩ := h.receiver.ready
  have hone : ((m.writers.sent.drop m.taken).take 1).length = 1 := by
    rw [List.length_take, List.length_drop]
    omega
  rw [linkStep, if_pos (by omega), Option.isSome_map]
  exact harrive _ (by omega) (by omega)

/-- Any number of threads and ports, any interleaving, any splitting into reads.
Every frame carries at most 4000 bytes, the queued messages are the frames
written, in order (all of them as soon as the stream is read), so per port the
payloads are the bytes written; no write throws, the receiver can always go on,
and the frames of a thread on a port carry its buffers one after another. -/
theorem framing_lossless (m : Link Tid P) (h : link.Reachable m) :
    (∀ f ∈ m.writers.frames, f.2.length ≤ 4000) ∧
    (∃ rest, m.writers.frames.map (fun f => some (m.message f)) = m.receiver.queued ++ rest) ∧
    (m.Quiet → m.receiver.queued = m.writers.frames.map fun f => some (m.message f)) ∧
    (m.Quiet → ∀ n, payloadsOn n m.receiver.queued = m.writtenOn n) ∧
    m.writers.thrown = false ∧
    (m.taken < m.writers.sent.length → (linkStep m (.read 1)).isSome) ∧
    ∀ t p, (keyed (t, p) m.writers.frames).flatten =
      (keyed (t, p) m.writers.finished).flatten ++ (m.writers.pc t).progress p := by
  have hm := LinkInv.reachable h
  refine ⟨hm.writers.sizes, hm.queued_prefix, hm.queued_all, ?_, hm.writers.thrown,
    hm.read_enabled, hm.writers.conserved⟩
  intro hquiet n
  rw [payloadsOn, hm.queued_all hquiet, Link.writtenOn, List.flatMap_map]
  rfl

private def tail : ByteBuffer where
  array := [0x10, 0x20, 0x30, 0x40]
  arrayOffset := 1
  capacity := 3
  limit := 3
  position := 1
  mark := none
  inside := by decide
  limit_le := by decide
  position_le := by decide

private def idleLink : Link (Fin 2) (Fin 1) where
  writers :=
    { ports := fun _ => (Port.create 300).get (by decide)
      portMonitor := fun _ => none
      bridgeMonitor := none
      pc := fun _ => .idle
      sent := []
      frames := []
      finished := []
      thrown := false }
  receiver := .initial
  taken := 0

attribute [local instance] one_neZero two_neZero

private def splitRun : List (LinkLabel (Fin 2) (Fin 1)) :=
  [.write (.call 0 0 tail), .write (.call 1 0 tail), .write (.run 0), .write (.run 0),
    .write (.run 0), .write (.run 0), .read 3, .write (.run 0), .read 1, .read 1, .read 1]

private theorem splitRun_isSome : (link.run idleLink splitRun).isSome := by decide +kernel

/-- A read that ends inside a header, and another before the payload is complete. -/
theorem framing_lossless_split :
    ∃ m : Link (Fin 2) (Fin 1), link.Reachable m ∧
      m.receiver.queued = [some ⟨300, 2, [0x30, 0x40]⟩] ∧
      m.receiver.queued = m.writers.frames.map fun f => some (m.message f) := by
  have hinit : link.init idleLink :=
    ⟨⟨fun _ => ⟨300, by decide, by simp [idleLink]⟩, fun _ => rfl, rfl, fun _ => rfl, rfl, rfl, rfl,
      rfl⟩, rfl, rfl⟩
  have hquiet : ((link.run idleLink splitRun).get splitRun_isSome).Quiet :=
    ⟨by decide +kernel, by decide +kernel⟩
  exact ⟨_, .of_run hinit splitRun_isSome, by decide +kernel,
    (framing_lossless _ (.of_run hinit splitRun_isSome)).2.2.1 hquiet⟩

end AapBridge.Wire
