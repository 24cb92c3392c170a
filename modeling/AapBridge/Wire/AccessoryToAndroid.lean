import AapBridge.Lib.Framing
import AapBridge.Accessory.SenderThread
import AapBridge.Android.Alignment

/-! # From the accessory to the phone

The sender thread on one side, the header decoding of the phone's receiver
thread on the other. What the transport does with a call of `writeAccessory`
decides only where the stream stops: behind a frame, or inside the last one.
-/

namespace AapBridge.Wire

open AapBridge.Lib AapBridge.Accessory AapBridge.Android

/-- What the accessory's services are meant to queue. -/
structure WellSized (msg : MultiplexedMessage) : Prop where
  port : 0 ≤ msg.port.toInt ∧ msg.port.toInt < maxPorts
  size : msg.size.toInt = msg.data.length
  small : msg.data.length ≤ 4000

/-! ## The phone's decoding -/

/-- The two calls of `bb.getShort()` behind the header. -/
def headerShorts : List UInt8 → Android.Short × Android.Short
  | p0 :: p1 :: l0 :: l1 :: _ => (getShort p0 p1, getShort l0 l1)
  | _ => (0, 0)

/-- `bb` has four bytes; as many bytes as `dataLength` says belong to the message. -/
def receiverFraming : Framing UInt8 where
  headerLength := 4
  headerLength_pos := Framing.four_pos
  payloadLength header := (headerShorts header).2.toInt.toNat

/-- The message the receiver thread makes of a frame. -/
def receivedMessage (frame : List UInt8) : MultiplexedMessage :=
  ⟨(headerShorts frame).1, (headerShorts frame).2, frame.drop 4⟩

theorem headerShorts_senderBytes (msg : MultiplexedMessage) :
    headerShorts (senderBytes msg) = (msg.port, msg.size) := by
  show (getShort _ _, getShort _ _) = (msg.port, msg.size)
  rw [ReceivingState.getShort_bytes, ReceivingState.getShort_bytes]

theorem isFrame_senderBytes {msg : MultiplexedMessage} (h : WellSized msg) :
    receiverFraming.IsFrame (senderBytes msg) := by
  have hsize : receiverFraming.payloadLength ((senderBytes msg).take 4) = msg.data.length := by
    show (getShort _ _).toInt.toNat = _
    rw [ReceivingState.getShort_bytes, h.size]
    rfl
  constructor
  · show 4 ≤ (senderBytes msg).length
    simp [senderBytes]
  · show _ = 4 + receiverFraming.payloadLength ((senderBytes msg).take 4)
    rw [hsize]
    simp [senderBytes]

theorem receivedMessage_senderBytes (msg : MultiplexedMessage) :
    receivedMessage (senderBytes msg) = msg := by
  rw [receivedMessage, headerShorts_senderBytes]
  rfl

/-- A beginning of a frame is kept back. -/
theorem feedAll_unfinished {frame cut : List UInt8} (done : List (List UInt8))
    (hframe : receiverFraming.IsFrame frame) (hcut : cut <+: frame)
    (hproper : cut.length < frame.length) :
    receiverFraming.feedAll (done, []) cut = (done, cut) := by
  have hnot : ∀ pre, pre <+: cut → ¬receiverFraming.IsFrame pre := by
    intro pre hpre hpreFrame
    have heq := hframe.eq_of_prefix hpreFrame (hpre.trans hcut)
    have hle := hpre.length_le
    rw [heq] at hle
    omega
  by_cases hnil : cut = []
  · rw [hnil]
    rfl
  · rw [Framing.feedAll_piece done [] cut hnil fun pre _ hpre _ => hnot pre hpre]
    exact if_neg (hnot cut List.prefix_rfl)

/-! ## The wire -/

/-- `sent` is what is out of the message the sender is working on. -/
def InFrame (s : SendingState) (current : List MultiplexedMessage) (sent : List UInt8) : Prop :=
  match s.pc with
  | .writeHeader msg left =>
      current = [msg] ∧ s.failed = false ∧ sent ++ left = senderHeader msg
  | .writeData msg left =>
      current = [msg] ∧ s.failed = false ∧ sent ++ left = senderBytes msg
  | .poll => current = [] ∧ sent = [] ∧ s.failed = false
  | .loopTest | .stopped =>
      (current = [] ∧ sent = [] ∧ s.failed = false) ∨
      (s.work = false ∧ s.failed = true ∧ ∃ msg, current = [msg] ∧ sent <+: senderBytes msg)

def OnWire (s : SendingState) : Prop :=
  ∃ done current sent, s.polled = done ++ current ∧ s.wire = streamOf done ++ sent ∧
    InFrame s current sent

/-- What leaves the device on one call, out of what the call still spans. -/
theorem sent_take {sent left frame : List UInt8} (h : sent ++ left = frame) (n : Nat) :
    (sent ++ left.take n) ++ left.drop n = frame := by
  rw [List.append_assoc, List.take_append_drop, h]

theorem OnWire.wrote {s t : SendingState} {n : Nat} (h : OnWire s) (ht : s.wrote n = some t) :
    OnWire t := by
  obtain ⟨done, current, sent, hpolled, hwire, hin⟩ := h
  obtain ⟨msg, left, hpc, rfl⟩ | ⟨msg, left, hpc, rfl⟩ := SendingState.wrote_cases ht
  · rw [InFrame, hpc] at hin
    refine ⟨done, current, sent ++ left.take n, hpolled, ?_, hin.1, hin.2.1, sent_take hin.2.2 n⟩
    simp [hwire]
  · rw [InFrame, hpc] at hin
    refine ⟨done, current, sent ++ left.take n, hpolled, ?_, hin.1, hin.2.1, sent_take hin.2.2 n⟩
    simp [hwire]

theorem OnWire.writeError {s t : SendingState} {n : Nat} (h : OnWire s)
    (ht : s.writeError n = some t) : OnWire t := by
  obtain ⟨done, current, sent, hpolled, hwire, hin⟩ := h
  obtain ⟨msg, left, hpc, rfl⟩ := SendingState.writeError_cases ht
  have hpart : current = [msg] ∧ sent ++ left <+: senderBytes msg := by
    rcases hpc with hpc | hpc
    · rw [InFrame, hpc] at hin
      exact ⟨hin.1, hin.2.2 ▸ List.prefix_append _ _⟩
    · rw [InFrame, hpc] at hin
      exact ⟨hin.1, hin.2.2 ▸ List.prefix_rfl⟩
  have hprefix : sent ++ left.take n <+: sent ++ left := by
    rw [List.prefix_append_right_inj]
    exact List.take_prefix n left
  refine ⟨done, current, sent ++ left.take n, hpolled, ?_, .inr ⟨rfl, rfl, msg, hpart.1, ?_⟩⟩
  · simp [hwire]
  · exact hprefix.trans hpart.2

theorem OnWire.poll {s t : SendingState} {msg : Option MultiplexedMessage} (h : OnWire s)
    (ht : s.poll msg = some t) : OnWire t := by
  obtain ⟨done, current, sent, hpolled, hwire, hin⟩ := h
  obtain ⟨hpc, hcase⟩ := SendingState.poll_cases ht
  rw [InFrame, hpc] at hin
  obtain ⟨rfl, rfl, hfailed⟩ := hin
  obtain ⟨-, rfl⟩ | ⟨m, -, rfl⟩ := hcase
  · exact ⟨done, [], [], hpolled, hwire, .inl ⟨rfl, rfl, hfailed⟩⟩
  · exact ⟨done, [m], [], by simp [hpolled], hwire, rfl, hfailed, rfl⟩

theorem OnWire.run {s t : SendingState} (h : OnWire s) (ht : s.run = some t)
    (hmsgs : ∀ msg ∈ s.polled, WellSized msg) : OnWire t := by
  obtain ⟨done, current, sent, hpolled, hwire, hin⟩ := h
  obtain ⟨hpc, hwork, rfl⟩ | ⟨hpc, -, rfl⟩ | ⟨msg, hpc, rfl⟩ | ⟨msg, hpc, rfl⟩ :=
    SendingState.run_cases ht
  · rw [InFrame, hpc] at hin
    obtain hin | ⟨hstop, -⟩ := hin
    · exact ⟨done, current, sent, hpolled, hwire, hin⟩
    · simp [hwork] at hstop
  · rw [InFrame, hpc] at hin
    exact ⟨done, current, sent, hpolled, hwire, hin⟩
  · rw [InFrame, hpc] at hin
    obtain ⟨rfl, hfailed, hsent⟩ := hin
    have hsendable := hmsgs msg (by simp [hpolled])
    have hdata : msg.data.take msg.size.toInt.toNat = msg.data := by
      rw [hsendable.size, Int.toNat_natCast, List.take_length]
    refine ⟨done, [msg], sent, hpolled, hwire, rfl, hfailed, ?_⟩
    rw [List.append_nil] at hsent
    rw [hdata, hsent]
    rfl
  · rw [InFrame, hpc] at hin
    obtain ⟨rfl, hfailed, hsent⟩ := hin
    rw [List.append_nil] at hsent
    refine ⟨done ++ [msg], [], [], by simp [hpolled], ?_, .inl ⟨rfl, rfl, hfailed⟩⟩
    show s.wire = _
    rw [hwire, hsent, ReceivingState.streamOf_append]
    simp [streamOf]

theorem OnWire.step {s t : SendingState} {label : SendingLabel} (h : OnWire s)
    (ht : s.step label = some t) (hmsgs : ∀ msg ∈ s.polled, WellSized msg) : OnWire t := by
  cases label with
  | run => exact h.run ht hmsgs
  | poll msg => exact h.poll ht
  | wrote n => exact h.wrote ht
  | writeError n => exact h.writeError ht
  | clearWork =>
      cases ht
      obtain ⟨done, current, sent, hpolled, hwire, hin⟩ := h
      refine ⟨done, current, sent, hpolled, hwire, ?_⟩
      unfold InFrame at hin ⊢
      split at hin <;> simp_all
      all_goals exact hin.imp id And.right

/-- Messages are only added to what has been polled. -/
theorem polled_grows {s t : SendingState} {label : SendingLabel} (ht : s.step label = some t) :
    s.polled <+: t.polled := by
  cases label with
  | run => obtain ⟨-, -, rfl⟩ | ⟨-, -, rfl⟩ | ⟨_, -, rfl⟩ | ⟨_, -, rfl⟩ :=
             SendingState.run_cases ht <;> exact List.prefix_rfl
  | poll msg =>
      obtain ⟨-, ⟨-, rfl⟩ | ⟨m, -, rfl⟩⟩ := SendingState.poll_cases ht
      · exact List.prefix_rfl
      · exact List.prefix_append _ _
  | wrote n =>
      obtain ⟨_, _, -, rfl⟩ | ⟨_, _, -, rfl⟩ := SendingState.wrote_cases ht <;>
        exact List.prefix_rfl
  | writeError n =>
      obtain ⟨_, _, -, rfl⟩ := SendingState.writeError_cases ht
      exact List.prefix_rfl
  | clearWork =>
      cases ht
      exact List.prefix_rfl

theorem OnWire.reachable {s : SendingState} (h : senderThread.Reachable s)
    (hmsgs : ∀ msg ∈ s.polled, WellSized msg) : OnWire s := by
  have hall : (∀ msg ∈ s.polled, WellSized msg) → OnWire s := by
    apply h.invariant (P := fun s => (∀ msg ∈ s.polled, WellSized msg) → OnWire s)
    · intro s hs _
      refine ⟨[], [], [], by simp [hs.polled], by simp [hs.wire, streamOf], ?_⟩
      rw [InFrame, hs.pc]
      exact .inl ⟨rfl, rfl, hs.failed⟩
    · intro s label t ih ht hsend
      have hbefore : ∀ msg ∈ s.polled, WellSized msg := fun msg hmsg =>
        hsend msg ((polled_grows ht).subset hmsg)
      exact (ih hbefore).step ht hbefore
  exact hall hmsgs

/-! ## Nothing behind a failure -/

/-- The loop has ended or is about to. -/
def Ended (s : SendingState) : Prop :=
  s.pc = .stopped ∨ s.work = false ∧ s.pc = .loopTest

theorem Ended.step {s t : SendingState} {label : SendingLabel} (h : Ended s)
    (ht : s.step label = some t) : Ended t ∧ t.wire = s.wire := by
  cases label with
  | run =>
      obtain ⟨hpc, hwork, rfl⟩ | ⟨hpc, -, rfl⟩ | ⟨msg, hpc, rfl⟩ | ⟨msg, hpc, rfl⟩ :=
        SendingState.run_cases ht
      · simp [Ended, hpc, hwork] at h
      · exact ⟨.inl rfl, rfl⟩
      · simp [Ended, hpc] at h
      · simp [Ended, hpc] at h
  | poll msg =>
      obtain ⟨hpc, -⟩ := SendingState.poll_cases ht
      simp [Ended, hpc] at h
  | wrote n =>
      obtain ⟨msg, left, hpc, -⟩ | ⟨msg, left, hpc, -⟩ := SendingState.wrote_cases ht <;>
        simp [Ended, hpc] at h
  | writeError n =>
      obtain ⟨msg, left, hpc | hpc, -⟩ := SendingState.writeError_cases ht <;>
        simp [Ended, hpc] at h
  | clearWork =>
      cases ht
      exact ⟨h.imp id fun hloop => ⟨rfl, hloop.2⟩, rfl⟩

theorem Ended.run {s t : SendingState} {labels : List SendingLabel} (h : Ended s)
    (ht : senderThread.run s labels = some t) : t.wire = s.wire := by
  have hboth : Ended t ∧ t.wire = s.wire := by
    apply Machine.run_preserves (P := fun u => Ended u ∧ u.wire = s.wire) _ ⟨h, rfl⟩ ht
    intro u label v hu hv
    obtain ⟨hended, hwire⟩ := hu.1.step hv
    exact ⟨hended, hwire.trans hu.2⟩
  exact hboth.2

theorem OnWire.ended {s : SendingState} (h : OnWire s) (hfailed : s.failed = true) : Ended s := by
  obtain ⟨done, current, sent, -, -, hin⟩ := h
  unfold InFrame at hin
  split at hin
  · simp [hfailed] at hin
  · simp [hfailed] at hin
  · simp [hfailed] at hin
  · next hpc =>
    obtain hin | hin := hin
    · simp [hfailed] at hin
    · exact .inr ⟨hin.1, hpc⟩
  · next hpc => exact .inl hpc

/-! ## The stream and its decoding -/

/-- The unfinished frame at the end of the wire, if there is one. -/
def Truncated (rest : List MultiplexedMessage) (cut : List UInt8) : Prop :=
  cut = [] ∨ ∃ msg, rest = [msg] ∧ cut <+: senderBytes msg ∧ cut.length < (senderBytes msg).length

theorem InFrame.begins {s : SendingState} {current : List MultiplexedMessage} {sent : List UInt8}
    (h : InFrame s current sent) :
    (current = [] ∧ sent = []) ∨ ∃ msg, current = [msg] ∧ sent <+: senderBytes msg := by
  unfold InFrame at h
  split at h
  · next msg left hpc =>
    have hheader : sent <+: senderHeader msg := h.2.2 ▸ List.prefix_append _ _
    exact .inr ⟨msg, h.1, hheader.trans (List.prefix_append _ _)⟩
  · next msg left hpc => exact .inr ⟨msg, h.1, h.2.2 ▸ List.prefix_append _ _⟩
  · exact .inl ⟨h.1, h.2.1⟩
  · exact h.imp (fun hin => ⟨hin.1, hin.2.1⟩) fun hin => hin.2.2
  · exact h.imp (fun hin => ⟨hin.1, hin.2.1⟩) fun hin => hin.2.2

theorem OnWire.frames {s : SendingState} (h : OnWire s) :
    ∃ done rest cut, s.polled = done ++ rest ∧ rest.length ≤ 1 ∧
      s.wire = streamOf done ++ cut ∧ Truncated rest cut := by
  obtain ⟨done, current, sent, hpolled, hwire, hin⟩ := h
  obtain ⟨rfl, rfl⟩ | ⟨msg, rfl, hsent⟩ := hin.begins
  · exact ⟨done, [], [], hpolled, by simp, hwire, .inl rfl⟩
  · by_cases hall : sent.length < (senderBytes msg).length
    · exact ⟨done, [msg], sent, hpolled, by simp, hwire, .inr ⟨msg, rfl, hsent, hall⟩⟩
    · have hwhole : sent = senderBytes msg :=
        hsent.eq_of_length (Nat.le_antisymm hsent.length_le (Nat.le_of_not_lt hall))
      refine ⟨done ++ [msg], [], [], by simp [hpolled], by simp, ?_, .inl rfl⟩
      rw [hwire, hwhole, ReceivingState.streamOf_append]
      simp [streamOf]

/-- Between two messages nothing is cut off, unless a call has failed. -/
theorem OnWire.complete {s : SendingState} (h : OnWire s) (hfailed : s.failed = false)
    (hpc : s.pc = .loopTest ∨ s.pc = .poll ∨ s.pc = .stopped) : s.wire = streamOf s.polled := by
  obtain ⟨done, current, sent, hpolled, hwire, hin⟩ := h
  have hnone : current = [] ∧ sent = [] := by
    unfold InFrame at hin
    rcases hpc with hpc | hpc | hpc <;> simp only [hpc] at hin
    · exact hin.elim (fun hin => ⟨hin.1, hin.2.1⟩) fun hin => by simp [hfailed] at hin
    · exact ⟨hin.1, hin.2.1⟩
    · exact hin.elim (fun hin => ⟨hin.1, hin.2.1⟩) fun hin => by simp [hfailed] at hin
  rw [hwire, hpolled, hnone.1, hnone.2]
  simp

theorem assemble_wire {done rest : List MultiplexedMessage} {cut : List UInt8}
    (hsend : ∀ msg ∈ done ++ rest, WellSized msg) (hcut : Truncated rest cut) :
    receiverFraming.assemble (streamOf done ++ cut) = (done.map senderBytes, cut) := by
  have hframes : ∀ f ∈ done.map senderBytes, receiverFraming.IsFrame f := by
    intro f hf
    obtain ⟨msg, hmsg, rfl⟩ := List.mem_map.mp hf
    exact isFrame_senderBytes (hsend msg (List.mem_append_left _ hmsg))
  rw [Framing.assemble_append, streamOf, Framing.assemble_flatten _ hframes]
  obtain rfl | ⟨msg, rfl, hpre, hlen⟩ := hcut
  · rfl
  · exact feedAll_unfinished _ (isFrame_senderBytes (hsend msg (by simp))) hpre hlen

/-- Any messages, any partial writes, any failing call, `work` cleared at any
time. The wire holds the frames of the first messages polled and at most one
truncated frame, which only a failure leaves behind and which nothing follows;
the phone cuts off these messages and nothing else. -/
theorem wire_decodes (s : SendingState) (h : senderThread.Reachable s)
    (hmsgs : ∀ msg ∈ s.polled, WellSized msg) :
    (∃ done rest cut, s.polled = done ++ rest ∧ rest.length ≤ 1 ∧
      s.wire = streamOf done ++ cut ∧ Truncated rest cut ∧
      receiverFraming.assemble s.wire = (done.map senderBytes, cut) ∧
      (receiverFraming.assemble s.wire).1.map receivedMessage = done) ∧
    (s.failed = true ∨ s.pc = .stopped →
      ∀ labels t, senderThread.run s labels = some t → t.wire = s.wire) ∧
    (s.failed = false → s.pc = .loopTest ∨ s.pc = .poll ∨ s.pc = .stopped →
      s.wire = streamOf s.polled) := by
  have hwire := OnWire.reachable h hmsgs
  refine ⟨?_, ?_, hwire.complete⟩
  · obtain ⟨done, rest, cut, hpolled, hrest, hstream, hcut⟩ := hwire.frames
    have hcuts := assemble_wire (fun msg hmsg => hmsgs msg (hpolled ▸ hmsg)) hcut
    rw [← hstream] at hcuts
    refine ⟨done, rest, cut, hpolled, hrest, hstream, hcut, hcuts, ?_⟩
    rw [hcuts, List.map_map]
    calc done.map (receivedMessage ∘ senderBytes) = done.map id := by
          apply List.map_congr_left
          intro msg _
          exact receivedMessage_senderBytes msg
      _ = done := List.map_id done
  · intro hover labels t ht
    obtain hfailed | hstopped := hover
    · exact (hwire.ended hfailed).run ht
    · exact Ended.run (.inl hstopped) ht

private def startingSender : SendingState where
  work := true
  connectedToAndroid := true
  pc := .loopTest
  polled := []
  wire := []
  failed := false

/-- A header in two calls, then a payload that fails after one of its three bytes. -/
private def failingRun : List SendingLabel :=
  [.run, .poll (some ⟨399, 0, []⟩), .wrote 0, .wrote 4, .run, .run, .run,
    .poll (some ⟨5, 3, [7, 8, 9]⟩), .wrote 1, .wrote 3, .run, .writeError 1]

private theorem failingRun_isSome : (senderThread.run startingSender failingRun).isSome := by
  decide +kernel

theorem wire_decodes_failing :
    ∃ s : SendingState, s.failed = true ∧ s.wire = [0x8f, 1, 0, 0, 5, 0, 3, 0, 7] ∧
      ∃ done rest cut, s.polled = done ++ rest ∧ rest.length ≤ 1 ∧
        s.wire = streamOf done ++ cut ∧ Truncated rest cut ∧
        receiverFraming.assemble s.wire = (done.map senderBytes, cut) ∧
        (receiverFraming.assemble s.wire).1.map receivedMessage = done := by
  have hinit : senderThread.init startingSender := ⟨rfl, rfl, rfl, rfl, rfl⟩
  have hmsgs : ∀ msg ∈ ((senderThread.run startingSender failingRun).get failingRun_isSome).polled,
      WellSized msg := by
    have hpolled : ((senderThread.run startingSender failingRun).get failingRun_isSome).polled =
        [⟨399, 0, []⟩, ⟨5, 3, [7, 8, 9]⟩] := by decide +kernel
    rw [hpolled]
    intro msg hmsg
    obtain rfl | rfl : msg = ⟨399, 0, []⟩ ∨ msg = ⟨5, 3, [7, 8, 9]⟩ := by simpa using hmsg
    · exact ⟨by decide, by decide, by decide⟩
    · exact ⟨by decide, by decide, by decide⟩
  exact ⟨_, by decide +kernel, by decide +kernel,
    (wire_decodes _ (.of_run hinit failingRun_isSome) hmsgs).1⟩

end AapBridge.Wire
