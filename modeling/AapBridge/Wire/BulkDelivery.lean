import AapBridge.Lib.EndMark
import AapBridge.Wire.BulkDownload
import AapBridge.Wire.PortFrames

/-! # What the application reads is what the payload wrote

Everything the payload has written is somewhere on the way, in order, and only
frames that come before the service is registered are dropped in front of what
the application reads. The EOF goes out behind the data and is handled behind it,
so the end of the stream is the end of what was written.
-/

namespace AapBridge.Wire

open AapBridge.Lib AapBridge.Lib.HalfClose AapBridge.Accessory
open AapBridge.Android hiding Short

namespace DeliveryPc

/-- What the receiver has of a frame and the pipe has not. -/
def rest : DeliveryPc → List UInt8
  | .idle | .ended | .lost => []
  | .readAll data => data
  | .filling rest => rest

def Waits : DeliveryPc → Prop
  | .idle | .ended | .lost => True
  | .readAll _ | .filling _ => False

theorem Waits.rest {pc : DeliveryPc} (h : pc.Waits) : pc.rest = [] := by
  cases pc with
  | idle => rfl
  | ended => rfl
  | lost => rfl
  | readAll _ => exact h.elim
  | filling _ => exact h.elim

end DeliveryPc

def ReadingPc.buffer : ReadingPc → List UInt8
  | .writing buffer => buffer
  | .reading | .ended => []

/-! ## Frames on the way -/

/-- The frame is a status of the port. -/
def about (p : Slot) (msg : MultiplexedMessage) : Bool :=
  slot? msg.port.toInt = some portStatusService && namedPort msg.data = some p

/-- `PortStatus.onDataReady` takes the frame for an EOF of the port. -/
def isEof (p : Slot) (msg : MultiplexedMessage) : Bool :=
  about p msg && msg.data.getD 2 0 = 3

/-- The buffer of `sendEof` and `sendClose` names the port it was built for. -/
theorem statusBuffer_names (p : Slot) (g : Signal) :
    namedPort (statusBuffer p g) = some p ∧ (statusBuffer p g).getD 2 0 = statusCode g := by
  have hbytes := BridgeConnection.statusBuffer_eq p (statusCode g)
  have hmessage : statusBuffer p g = PortStatus.message (BitVec.ofNat 16 p) (statusCode g) := hbytes
  obtain ⟨low, high, hshort, hget⟩ := getShort_shortBytes (BitVec.ofNat 16 p)
  have hlist : statusBuffer p g = [low, high, statusCode g, 0] := by
    rw [hmessage, PortStatus.message, hshort]
    rfl
  rw [hlist]
  refine ⟨?_, rfl⟩
  show slot? (getShort low high).toInt = some p
  rw [hget]
  exact (slot_of_short p _).mpr rfl

theorem statusFrame_isEof (p : Slot) (g : Signal) :
    isEof p ⟨0, 4, statusBuffer p g⟩ = decide (g = .eof) := by
  obtain ⟨hnames, hcode⟩ := statusBuffer_names p g
  have hzero : slot? (0 : BitVec 16).toInt = some portStatusService := by decide
  simp only [isEof, about, hnames, hcode, hzero]
  cases g <;> decide

theorem Foreign.off {p : Slot} {msg : MultiplexedMessage} (h : Foreign p msg) :
    onPort p msg = false ∧ isEof p msg = false := by
  refine ⟨decide_eq_false h.1, ?_⟩
  rw [Bool.eq_false_iff]
  intro heof
  simp only [isEof, about, Bool.and_eq_true, decide_eq_true_eq] at heof
  exact h.2 heof.1.1 heof.1.2

/-! ## The invariant -/

namespace DownloadState

variable {p : Slot} {s t : DownloadState}

/-- What the payload has written, in order: dropped, read, or on the way. What is
`gone` in between is lost by a close or by a receiver that has ended. -/
def Holds (p : Slot) (s : DownloadState) (gone : List UInt8) : Prop :=
  s.written = s.dropped ++ (s.received ++ (s.pipe ++ (gone ++ (s.receiver.rest ++
    (dataOf p s.toPhone ++ (s.thread.buffer ++ s.fifo))))))

structure Flow (p : Slot) (s : DownloadState) : Prop where
  bytes : ∃ gone, s.Holds p gone ∧
    (gone = [] ∨ s.closing = true ∨ s.receiver = .ended ∧ s.closedByWriter = false)
  unregistered : s.registration ≠ .running →
    s.received = [] ∧ s.pipe = [] ∧ s.receiver.Waits ∧ s.closing = false
  inactive : s.active = false →
    s.registration = .requested ∨ s.closedByWriter = true ∨ s.closing = true
  inputClosed : s.inputOpen = false → s.closedByWriter = true ∨ s.closing = true
  eofs : s.thread ≠ .ended → s.closedByWriter = false ∧ ∀ msg ∈ s.toPhone, isEof p msg = false
  /-- The port sends nothing behind its EOF. -/
  behind : behindMark (onPort p) (isEof p) s.toPhone = []
  writerClosed : s.closedByWriter = true →
    s.thread = .ended ∧ framesOf p s.toPhone = [] ∧ s.receiver.Waits
  threadEnded : s.thread = .ended →
    s.failed = true ∨ s.early = true ∨ s.payload = .closed ∧ s.fifo = []
  ended : s.ended = true → s.closedByWriter = true ∧ s.pipe = [] ∧
    (s.failed = true ∨ s.early = true ∨
      s.payload = .closed ∧ s.written = s.dropped ++ s.received)

theorem Flow.initial : Flow p .initial where
  bytes := ⟨[], rfl, .inl rfl⟩
  unregistered _ := ⟨rfl, rfl, trivial, rfl⟩
  inactive _ := .inl rfl
  inputClosed hclosed := Bool.noConfusion hclosed
  eofs _ := ⟨rfl, fun _ hmsg => absurd hmsg List.not_mem_nil⟩
  behind := rfl
  writerClosed hclosed := Bool.noConfusion hclosed
  threadEnded hended := ReadingPc.noConfusion hended
  ended hended := Bool.noConfusion hended

/-! ## The accessory's side -/

/-- The payload writes while it has the fifo open. -/
theorem Flow.payloadWrite (h : Flow p s) (hopen : s.payload = .open_) (bytes : List UInt8) :
    Flow p { s with written := s.written ++ bytes, fifo := s.fifo ++ bytes } := by
  obtain ⟨gone, hholds, hgone⟩ := h.bytes
  refine ⟨⟨gone, ?_, hgone⟩, h.unregistered, h.inactive, h.inputClosed, h.eofs, h.behind, h.writerClosed, ?_, ?_⟩
  · unfold Holds at hholds
    simp only [Holds, hholds, List.append_assoc]
  · intro hended
    obtain hfailed | hearly | ⟨hclosed, -⟩ := h.threadEnded hended
    · exact .inl hfailed
    · exact .inr (.inl hearly)
    · rw [hopen] at hclosed
      cases hclosed
  · intro hended
    obtain ⟨hclosed, hpipe, hrest⟩ := h.ended hended
    refine ⟨hclosed, hpipe, ?_⟩
    obtain hfailed | hearly | ⟨hpayload, -⟩ := hrest
    · exact .inl hfailed
    · exact .inr (.inl hearly)
    · rw [hopen] at hpayload
      cases hpayload

/-- The payload opens or closes the fifo. -/
theorem Flow.payload (h : Flow p s) {payload : PayloadEnd}
    (hkeeps : s.payload = .closed → payload = .closed) : Flow p { s with payload } := by
  refine ⟨h.bytes, h.unregistered, h.inactive, h.inputClosed, h.eofs, h.behind, h.writerClosed, ?_, ?_⟩
  · intro hended
    obtain hfailed | hearly | ⟨hclosed, hfifo⟩ := h.threadEnded hended
    · exact .inl hfailed
    · exact .inr (.inl hearly)
    · exact .inr (.inr ⟨hkeeps hclosed, hfifo⟩)
  · intro hended
    obtain ⟨hclosed, hpipe, hrest⟩ := h.ended hended
    refine ⟨hclosed, hpipe, ?_⟩
    obtain hfailed | hearly | ⟨hpayload, hread⟩ := hrest
    · exact .inl hfailed
    · exact .inr (.inl hearly)
    · exact .inr (.inr ⟨hkeeps hpayload, hread⟩)

theorem Flow.read (h : Flow p s) {n : Nat} (ht : s.read n = some t) : Flow p t := by
  unfold DownloadState.read at ht
  split at ht
  · next hread =>
    cases ht
    obtain ⟨gone, hholds, hgone⟩ := h.bytes
    have hrunning : s.thread ≠ .ended := by
      rw [hread.1]
      exact fun heq => ReadingPc.noConfusion heq
    refine ⟨⟨gone, ?_, hgone⟩, h.unregistered, h.inactive, h.inputClosed, fun _ => h.eofs hrunning, h.behind, ?_,
      fun heq => ReadingPc.noConfusion heq, h.ended⟩
    · simp only [Holds, hread.1, ReadingPc.buffer, List.nil_append] at hholds ⊢
      rw [List.take_append_drop]
      exact hholds
    · intro hclosed
      rw [(h.eofs hrunning).1] at hclosed
      cases hclosed
  · cases ht

/-- A frame that is not for the port goes out. -/
theorem Flow.other (h : Flow p s) {msg : MultiplexedMessage} (hoff : onPort p msg = false)
    (heof : s.thread ≠ .ended → isEof p msg = false) :
    Flow p { s with toPhone := s.toPhone ++ [msg] } := by
  obtain ⟨gone, hholds, hgone⟩ := h.bytes
  have hframes : framesOf p (s.toPhone ++ [msg]) = framesOf p s.toPhone := by
    rw [framesOf_append, framesOf_singleton_off hoff, List.append_nil]
  refine ⟨⟨gone, ?_, hgone⟩, h.unregistered, h.inactive, h.inputClosed, ?_, ?_, ?_, h.threadEnded, h.ended⟩
  · simp only [Holds, dataOf, hframes] at hholds ⊢
    exact hholds
  · intro hrunning
    obtain ⟨hclosed, hnone⟩ := h.eofs hrunning
    refine ⟨hclosed, ?_⟩
    intro other hother
    obtain hother | hother := List.mem_append.mp hother
    · exact hnone other hother
    · cases List.mem_singleton.mp hother
      exact heof hrunning
  · apply behindMark_append h.behind
    intro hon
    rw [hoff] at hon
    cases hon
  · intro hclosed
    rw [hframes]
    exact h.writerClosed hclosed

/-- The loop has ended, and `sendEof` goes out behind all data. -/
theorem Flow.sendEof (h : Flow p s) (hp : p ≠ portStatusService) (hreading : s.thread = .reading)
    {failed early : Bool} (hfailed : s.failed = true → failed = true)
    (hearly : s.early = true → early = true)
    (hwhy : failed = true ∨ early = true ∨ s.payload = .closed ∧ s.fifo = []) :
    Flow p { s.sendEof p with failed, early } := by
  have hrunning : s.thread ≠ .ended := by
    rw [hreading]
    exact fun heq => ReadingPc.noConfusion heq
  have hoff := statusFrame_off hp (statusBuffer p .eof)
  obtain ⟨gone, hholds, hgone⟩ := h.bytes
  have hframes : framesOf p (s.toPhone ++ [⟨0, 4, statusBuffer p .eof⟩]) = framesOf p s.toPhone := by
    rw [framesOf_append, framesOf_singleton_off hoff, List.append_nil]
  refine ⟨⟨gone, ?_, hgone⟩, h.unregistered, h.inactive, h.inputClosed, fun hend => absurd rfl hend, ?_, ?_,
    fun _ => hwhy, ?_⟩
  · simp only [Holds, hreading, dataOf, DownloadState.sendEof, hframes] at hholds ⊢
    exact hholds
  · apply behindMark_append h.behind
    intro hon
    rw [hoff] at hon
    cases hon
  · intro hclosed
    have hbefore := (h.eofs hrunning).1
    rw [show s.closedByWriter = true from hclosed] at hbefore
    cases hbefore
  · intro hended
    obtain ⟨hclosed, hpipe, hrest⟩ := h.ended hended
    exact ⟨hclosed, hpipe, hrest.imp hfailed (Or.imp hearly id)⟩

theorem Flow.writeAllPort (h : Flow p s) (hp : p ≠ portStatusService)
    (ht : s.writeAllPort p = some t) : Flow p t := by
  unfold DownloadState.writeAllPort at ht
  split at ht
  · next buffer hthread =>
    cases ht
    have hrunning : s.thread ≠ .ended := by
      rw [hthread]
      exact fun heq => ReadingPc.noConfusion heq
    obtain ⟨gone, hholds, hgone⟩ := h.bytes
    obtain ⟨hopen, hnone⟩ := h.eofs hrunning
    have hon := dataFrame_on p (BitVec.ofNat 16 buffer.length) buffer
    refine ⟨⟨gone, ?_, hgone⟩, h.unregistered, h.inactive, h.inputClosed, ?_, ?_, ?_,
      fun heq => ReadingPc.noConfusion heq, h.ended⟩
    · have hdata : dataOf p [⟨BitVec.ofNat 16 p, BitVec.ofNat 16 buffer.length, buffer⟩] = buffer := by
        simp [dataOf, framesOf, hon]
      simp only [Holds, hthread, ReadingPc.buffer, dataOf_append, hdata, List.append_assoc,
        List.nil_append] at hholds ⊢
      exact hholds
    · intro _
      refine ⟨hopen, ?_⟩
      intro other hother
      obtain hother | hother := List.mem_append.mp hother
      · exact hnone other hother
      · cases List.mem_singleton.mp hother
        have hslot : slot? (BitVec.ofNat 16 p.val).toInt = some p := (slot_of_short p _).mpr rfl
        simp [isEof, about, hslot, hp]
    · exact behindMark_append h.behind fun _ => hnone
    · intro hclosed
      rw [show s.closedByWriter = true from hclosed] at hopen
      cases hopen
  · cases ht

/-! ## The phone's side -/

/-- The oldest frame, when the port's is taken off the queue. -/
theorem Flow.pop_on (h : Flow p s) {msg : MultiplexedMessage} {rest : List MultiplexedMessage}
    (hqueue : s.toPhone = msg :: rest) (hon : onPort p msg = true) :
    dataOf p s.toPhone = msg.data ++ dataOf p rest ∧ s.closedByWriter = false := by
  constructor
  · rw [hqueue]
    simp [dataOf, framesOf, hon]
  · rw [Bool.eq_false_iff]
    intro hclosed
    have hnone := (h.writerClosed hclosed).2.1
    rw [hqueue] at hnone
    simp [framesOf, hon] at hnone

theorem Flow.behind_rest (h : Flow p s) {msg : MultiplexedMessage}
    {rest : List MultiplexedMessage} (hqueue : s.toPhone = msg :: rest) :
    behindMark (onPort p) (isEof p) rest = [] := by
  have hbehind := h.behind
  rw [hqueue] at hbehind
  exact behindMark_tail hbehind

theorem Flow.eofs_rest (h : Flow p s) {msg : MultiplexedMessage}
    {rest : List MultiplexedMessage} (hqueue : s.toPhone = msg :: rest) (hrunning : s.thread ≠ .ended) :
    s.closedByWriter = false ∧ ∀ other ∈ rest, isEof p other = false := by
  obtain ⟨hopen, hnone⟩ := h.eofs hrunning
  refine ⟨hopen, ?_⟩
  intro other hother
  apply hnone
  rw [hqueue]
  exact List.mem_cons_of_mem _ hother

/-- A frame that is not on the port is taken off the queue, and is no EOF of it or is
ignored. -/
theorem Flow.pop_off (h : Flow p s) {msg : MultiplexedMessage} {rest : List MultiplexedMessage}
    (hqueue : s.toPhone = msg :: rest) (hoff : onPort p msg = false) :
    Flow p { s with toPhone := rest } := by
  obtain ⟨gone, hholds, hgone⟩ := h.bytes
  have hframes : framesOf p s.toPhone = framesOf p rest := by
    rw [hqueue]
    exact framesOf_cons_off hoff
  refine ⟨⟨gone, ?_, hgone⟩, h.unregistered, h.inactive, h.inputClosed, ?_, ?_, ?_, h.threadEnded, h.ended⟩
  · simp only [Holds, dataOf, hframes] at hholds ⊢
    exact hholds
  · exact h.eofs_rest hqueue
  · exact h.behind_rest hqueue
  · intro hclosed
    rw [← hframes]
    exact h.writerClosed hclosed

/-- The receiver ends with part of a frame in hand. -/
theorem Flow.stop (h : Flow p s) :
    Flow p { s with receiver := .ended } := by
  obtain ⟨gone, hholds, hgone⟩ := h.bytes
  refine ⟨?_, ?_, h.inactive, h.inputClosed, h.eofs, h.behind, ?_, h.threadEnded, h.ended⟩
  · by_cases hclosed : s.closedByWriter = true
    · -- everything of the port has been handled
      obtain ⟨-, -, hwaits⟩ := h.writerClosed hclosed
      refine ⟨gone, ?_, ?_⟩
      · simp only [Holds, hwaits.rest] at hholds ⊢
        exact hholds
      · obtain hnone | hclosing | ⟨-, hopen⟩ := hgone
        · exact .inl hnone
        · exact .inr (.inl hclosing)
        · rw [hclosed] at hopen
          cases hopen
    · refine ⟨gone ++ s.receiver.rest, ?_, .inr (.inr ⟨rfl, Bool.eq_false_iff.mpr hclosed⟩)⟩
      simp only [Holds, DeliveryPc.rest, List.append_assoc, List.nil_append] at hholds ⊢
      exact hholds
  · intro hregistration
    obtain ⟨hreceived, hpipe, -, hclosing⟩ := h.unregistered hregistration
    exact ⟨hreceived, hpipe, trivial, hclosing⟩
  · intro hclosed
    obtain ⟨hthread, hframes, -⟩ := h.writerClosed hclosed
    exact ⟨hthread, hframes, trivial⟩

/-- A frame of the port is taken off the queue before the service has been stored. -/
theorem Flow.drop (h : Flow p s) {msg : MultiplexedMessage} {rest : List MultiplexedMessage}
    (hqueue : s.toPhone = msg :: rest) (hon : onPort p msg = true) (hidle : s.receiver = .idle)
    (hinactive : s.active = false) :
    Flow p { s with
      toPhone := rest
      dropped := if s.closing then s.dropped else s.dropped ++ msg.data } := by
  obtain ⟨hdata, hopen⟩ := h.pop_on hqueue hon
  obtain ⟨gone, hholds, hgone⟩ := h.bytes
  rw [Holds, hidle, hdata] at hholds
  refine ⟨?_, h.unregistered, h.inactive, h.inputClosed, ?_, ?_, ?_, h.threadEnded, ?_⟩
  · by_cases hclosing : s.closing = true
    · refine ⟨gone ++ msg.data, ?_, .inr (.inl hclosing)⟩
      simp only [Holds, hidle, hclosing, if_true, DeliveryPc.rest, List.append_assoc,
        List.nil_append] at hholds ⊢
      exact hholds
    · have hrequested : s.registration ≠ .running := by
        obtain hrequested | hclosed | hclosing' := h.inactive hinactive
        · rw [hrequested]
          exact fun heq => Registration.noConfusion heq
        · rw [hopen] at hclosed
          cases hclosed
        · exact absurd hclosing' hclosing
      obtain ⟨hreceived, hpipe, -, -⟩ := h.unregistered hrequested
      have hnone : gone = [] := by
        obtain hnone | hclosing' | ⟨hlost, -⟩ := hgone
        · exact hnone
        · exact absurd hclosing' hclosing
        · rw [hidle] at hlost
          cases hlost
      refine ⟨[], ?_, .inl rfl⟩
      simp only [Holds, hidle, hreceived, hpipe, hnone, hclosing, DeliveryPc.rest,
        List.append_assoc, List.nil_append, Bool.false_eq_true, if_false] at hholds ⊢
      exact hholds
  · exact h.eofs_rest hqueue
  · exact h.behind_rest hqueue
  · intro hclosed
    rw [show s.closedByWriter = true from hclosed] at hopen
    cases hopen
  · intro hended
    have hclosed := (h.ended hended).1
    rw [hopen] at hclosed
    cases hclosed

/-- A frame of the port is taken off the queue by the service. -/
theorem Flow.take (h : Flow p s) {msg : MultiplexedMessage} {rest : List MultiplexedMessage}
    (hqueue : s.toPhone = msg :: rest) (hon : onPort p msg = true) (hidle : s.receiver = .idle)
    {receiver : DeliveryPc} (hreceiver : receiver = .ended ∨
      s.registration = .running ∧ receiver = .readAll msg.data) :
    Flow p { s with toPhone := rest, receiver } := by
  obtain ⟨hdata, hopen⟩ := h.pop_on hqueue hon
  obtain ⟨gone, hholds, hgone⟩ := h.bytes
  rw [Holds, hidle, hdata] at hholds
  refine ⟨?_, ?_, h.inactive, h.inputClosed, ?_, ?_, ?_, h.threadEnded, ?_⟩
  · obtain hlost | ⟨-, hfill⟩ := hreceiver
    · refine ⟨gone ++ msg.data, ?_, .inr (.inr ⟨hlost, hopen⟩)⟩
      simp only [Holds, hlost, DeliveryPc.rest, List.append_assoc, List.nil_append] at hholds ⊢
      exact hholds
    · refine ⟨gone, ?_, ?_⟩
      · simp only [Holds, hfill, DeliveryPc.rest, List.append_assoc, List.nil_append] at hholds ⊢
        exact hholds
      · obtain hnone | hclosing | ⟨hlost, -⟩ := hgone
        · exact .inl hnone
        · exact .inr (.inl hclosing)
        · rw [hidle] at hlost
          cases hlost
  · intro hregistration
    obtain ⟨hreceived, hpipe, -, hclosing⟩ := h.unregistered hregistration
    obtain hlost | ⟨hrunning, -⟩ := hreceiver
    · rw [hlost]
      exact ⟨hreceived, hpipe, trivial, hclosing⟩
    · exact absurd hrunning hregistration
  · exact h.eofs_rest hqueue
  · exact h.behind_rest hqueue
  · intro hclosed
    rw [show s.closedByWriter = true from hclosed] at hopen
    cases hopen
  · intro hended
    have hclosed := (h.ended hended).1
    rw [hopen] at hclosed
    cases hclosed

/-- An EOF is taken off the queue by a service that has its port. -/
theorem Flow.receiveEof (h : Flow p s) {msg : MultiplexedMessage}
    {rest : List MultiplexedMessage} (hqueue : s.toPhone = msg :: rest)
    (heof : isEof p msg = true) (hoff : onPort p msg = false) (hidle : s.receiver = .idle) :
    Flow p { s with
      toPhone := rest, inputOpen := false, closedByWriter := true, active := false } := by
  have hended : s.thread = .ended := by
    by_contra hthread
    have hnone := (h.eofs hthread).2 msg (by rw [hqueue]; exact List.mem_cons_self)
    rw [heof] at hnone
    cases hnone
  have hlast : framesOf p rest = [] := by
    have hbehind := h.behind
    rw [hqueue] at hbehind
    exact behindMark_head hbehind heof
  have hpopped := h.pop_off hqueue hoff
  obtain ⟨gone, hholds, hgone⟩ := hpopped.bytes
  refine ⟨⟨gone, hholds, ?_⟩, hpopped.unregistered, fun _ => .inr (.inl rfl), fun _ => .inl rfl,
    fun hthread => absurd hended hthread, hpopped.behind, fun _ => ⟨hended, hlast, ?_⟩,
    hpopped.threadEnded, ?_⟩
  · obtain hnone | hclosing | ⟨hlost, -⟩ := hgone
    · exact .inl hnone
    · exact .inr (.inl hclosing)
    · rw [show s.receiver = .ended from hlost] at hidle
      cases hidle
  · rw [hidle]
    trivial
  · intro hend
    exact ⟨rfl, (hpopped.ended hend).2⟩

theorem Flow.deactivate (h : Flow p s) (hwhy : s.closedByWriter = true ∨ s.closing = true) :
    Flow p { s with active := false } :=
  ⟨h.bytes, h.unregistered, fun _ => .inr hwhy, h.inputClosed, h.eofs, h.behind, h.writerClosed,
    h.threadEnded, h.ended⟩

/-- An EOF of an active service that has its port closes the writer; any other status
at most drops the entry of a service whose input is closed. -/
theorem statusReady_eq (s : DownloadState) (status : UInt8) :
    s.active = true ∧ s.registration = .running ∧ status = 3 ∧
        s.statusReady status =
          { s with inputOpen := false, closedByWriter := true, active := false } ∨
      (s.active = true → s.registration = .running → status ≠ 3) ∧
        ∃ active, s.statusReady status = { s with active } ∧
          (active = s.active ∨ active = false ∧ s.inputOpen = false) := by
  unfold DownloadState.statusReady
  by_cases hactive : s.active = true
  · by_cases hrunning : s.registration = .running
    · by_cases hcode : status = 3
      · left
        simp only [hactive, hrunning, hcode, if_true, true_and]
      · right
        refine ⟨fun _ _ => hcode, ?_⟩
        rw [if_pos hactive, if_pos hrunning, if_neg hcode]
        by_cases hinput : s.inputOpen = true
        · exact ⟨s.active, if_pos hinput, .inl rfl⟩
        · exact ⟨false, if_neg hinput, .inr ⟨rfl, Bool.eq_false_iff.mpr hinput⟩⟩
    · right
      refine ⟨fun _ hrunning' => absurd hrunning' hrunning, s.active, ?_, .inl rfl⟩
      rw [if_pos hactive, if_neg hrunning]
  · right
    exact ⟨fun hactive' => absurd hactive' hactive, s.active, if_neg hactive, .inl rfl⟩

/-- A status about the port. -/
theorem Flow.statusReady (h : Flow p s) {msg : MultiplexedMessage}
    {rest : List MultiplexedMessage} (hqueue : s.toPhone = msg :: rest)
    (habout : about p msg = true) (hoff : onPort p msg = false) (hidle : s.receiver = .idle) :
    Flow p ({ s with toPhone := rest }.statusReady (msg.data.getD 2 0)) := by
  have hpopped := h.pop_off hqueue hoff
  obtain ⟨-, hrunning, hcode, heq⟩ | ⟨-, active, heq, hsame | ⟨hinactive, hinput⟩⟩ :=
    statusReady_eq { s with toPhone := rest } (msg.data.getD 2 0)
  · rw [heq]
    have heof : isEof p msg = true := by
      simp only [isEof, habout, hcode, decide_true, Bool.and_self]
    exact h.receiveEof hqueue heof hoff hidle
  · rw [heq, hsame]
    exact hpopped
  · rw [heq, hinactive]
    exact hpopped.deactivate (hpopped.inputClosed hinput)

theorem Flow.receive (h : Flow p s) (ht : s.receive p = some t) (hplace : t.receiver ≠ .lost) :
    Flow p t := by
  unfold DownloadState.receive at ht
  split at ht
  · next msg rest hidle hqueue =>
    cases ht
    unfold dataReady at hplace ⊢
    split
    · next hslot =>
      have hoff : onPort p msg = false := decide_eq_false (by simp [hslot])
      exact (h.pop_off hqueue hoff).stop
    · next i hslot =>
      rw [hslot] at hplace
      split
      · next hi =>
        subst hi
        have hon : onPort i msg = true := decide_eq_true hslot
        simp only [if_true] at hplace
        split
        · next hactive =>
          rw [if_pos hactive] at hplace
          split
          · next hrunning =>
            rw [if_pos hrunning] at hplace
            split
            · exact h.take hqueue hon hidle (.inr ⟨hrunning, rfl⟩)
            · next hclosed =>
              rw [if_neg hclosed] at hplace
              exact absurd rfl hplace
          · exact h.take hqueue hon hidle (.inl rfl)
        · next hactive => exact h.drop hqueue hon hidle (Bool.eq_false_iff.mpr hactive)
      · next hi =>
        have hoff : onPort p msg = false := by
          apply decide_eq_false
          rw [hslot]
          exact fun heq => hi (Option.some.inj heq)
        split
        · next hstatus =>
          have habout : about p msg = true := by simp [about, hslot, hstatus.1, hstatus.2]
          exact h.statusReady hqueue habout hoff hidle
        · exact h.pop_off hqueue hoff
  · cases ht

/-- The receiver ends at a frame of another service. -/
theorem Flow.abandon (h : Flow p s) (ht : s.abandon p .ended = some t) : Flow p t := by
  unfold DownloadState.abandon at ht
  split at ht
  · next msg rest _ hqueue =>
    obtain ⟨hforeign, ht⟩ := Option.ite_none_right_eq_some.mp ht
    cases ht
    exact (h.pop_off hqueue hforeign.off.1).stop
  · cases ht

theorem Flow.readAll (h : Flow p s) (ht : s.readAll = some t) (hplace : t.receiver ≠ .lost) :
    Flow p t := by
  unfold DownloadState.readAll at ht
  split at ht
  · next data hreceiver =>
    have hopen : s.closedByWriter = false := by
      rw [Bool.eq_false_iff]
      intro hclosed
      have hwaits := (h.writerClosed hclosed).2.2
      rw [hreceiver] at hwaits
      exact hwaits
    split at ht
    · cases ht
      obtain ⟨gone, hholds, hgone⟩ := h.bytes
      refine ⟨⟨gone, ?_, ?_⟩, ?_, h.inactive, h.inputClosed, h.eofs, h.behind, ?_, h.threadEnded, h.ended⟩
      · simp only [Holds, hreceiver, DeliveryPc.rest] at hholds ⊢
        exact hholds
      · obtain hnone | hclosing | ⟨hlost, -⟩ := hgone
        · exact .inl hnone
        · exact .inr (.inl hclosing)
        · rw [hreceiver] at hlost
          cases hlost
      · intro hregistration
        have hwaits := (h.unregistered hregistration).2.2.1
        rw [hreceiver] at hwaits
        exact hwaits.elim
      · intro hclosed
        rw [show s.closedByWriter = true from hclosed] at hopen
        cases hopen
    · cases ht
      exact absurd rfl hplace
  · cases ht

/-- `toApp.write` goes on. -/
theorem Flow.intoPipe (h : Flow p s) (hreader : s.closedByReader = true → s.closing = true)
    {n : Nat} (ht : s.intoPipe n = some t) : Flow p t := by
  unfold DownloadState.intoPipe at ht
  split at ht
  · next rest hreceiver =>
    have hopen : s.closedByWriter = false := by
      rw [Bool.eq_false_iff]
      intro hclosed
      have hwaits := (h.writerClosed hclosed).2.2
      rw [hreceiver] at hwaits
      exact hwaits
    have hrunning : s.registration = .running := by
      by_contra hregistration
      have hwaits := (h.unregistered hregistration).2.2.1
      rw [hreceiver] at hwaits
      exact hwaits
    obtain ⟨gone, hholds, hgone⟩ := h.bytes
    rw [Holds, hreceiver] at hholds
    have hgone' : gone = [] ∨ s.closing = true := by
      obtain hnone | hclosing | ⟨hlost, -⟩ := hgone
      · exact .inl hnone
      · exact .inr hclosing
      · rw [hreceiver] at hlost
        cases hlost
    have hkeeps : ∀ u : DownloadState, u.registration = s.registration → u.registration ≠ .running →
        u.received = [] ∧ u.pipe = [] ∧ u.receiver.Waits ∧ u.closing = false := by
      intro u hsame hregistration
      rw [hsame] at hregistration
      exact absurd hrunning hregistration
    have hcontra : ∀ P : Prop, s.closedByWriter = true → P := by
      intro P hclosed
      rw [hopen] at hclosed
      cases hclosed
    split at ht
    · next hdone =>
      cases ht
      refine ⟨⟨gone ++ rest, ?_, ?_⟩, hkeeps _ rfl, h.inactive, h.inputClosed, h.eofs, h.behind,
        fun hclosed => hcontra _ hclosed, h.threadEnded, fun hend => hcontra _ (h.ended hend).1⟩
      · simp only [Holds, DeliveryPc.rest, List.append_assoc, List.nil_append] at hholds ⊢
        exact hholds
      · obtain hempty | hclosed := hdone
        · rw [hempty, List.append_nil]
          exact hgone'.imp id .inl
        · exact .inr (.inl (hreader hclosed))
    · split at ht
      · next hroom =>
        cases ht
        have hnone : gone = [] := by
          obtain hnone | hclosing := hgone'
          · exact hnone
          · rw [hroom.1] at hclosing
            cases hclosing
        refine ⟨⟨gone, ?_, .inl hnone⟩, hkeeps _ rfl, h.inactive, h.inputClosed, h.eofs, h.behind,
          fun hclosed => hcontra _ hclosed, h.threadEnded, fun hend => hcontra _ (h.ended hend).1⟩
        subst hnone
        have hsplit : rest = rest.take n ++ rest.drop n := (List.take_append_drop n rest).symm
        rw [hsplit] at hholds
        simp only [Holds, DeliveryPc.rest, List.append_assoc, List.nil_append] at hholds ⊢
        exact hholds
      · cases ht
  · cases ht

/-! ## The application's side -/

theorem Flow.appRead (h : Flow p s) {n : Nat} (ht : s.appRead n = some t) : Flow p t := by
  unfold DownloadState.appRead at ht
  split at ht
  · next hread =>
    cases ht
    have hpipe : s.pipe ≠ [] := by
      intro hempty
      rw [hempty] at hread
      exact absurd (hread.2.1.trans hread.2.2) (Nat.not_succ_le_zero 0)
    obtain ⟨gone, hholds, hgone⟩ := h.bytes
    refine ⟨⟨gone, ?_, hgone⟩, ?_, h.inactive, h.inputClosed, h.eofs, h.behind, h.writerClosed,
      h.threadEnded, ?_⟩
    · have hsplit : s.pipe = s.pipe.take n ++ s.pipe.drop n := (List.take_append_drop n _).symm
      rw [Holds, hsplit] at hholds
      simp only [Holds, List.append_assoc] at hholds ⊢
      exact hholds
    · intro hregistration
      exact absurd (h.unregistered hregistration).2.1 hpipe
    · intro hended
      exact absurd (h.ended hended).2.1 hpipe
  · cases ht

/-- The application sees the end of the stream. -/
theorem Flow.appEnd (h : Flow p s) (ht : s.appEnd = some t) : Flow p t := by
  unfold DownloadState.appEnd at ht
  split at ht
  · next hend =>
    cases ht
    obtain ⟨hclosing, hpipe, hclosed⟩ := hend
    obtain ⟨hthread, hframes, hwaits⟩ := h.writerClosed hclosed
    obtain ⟨gone, hholds, hgone⟩ := h.bytes
    refine ⟨⟨gone, hholds, hgone⟩, h.unregistered, h.inactive, h.inputClosed, h.eofs, h.behind,
      h.writerClosed, h.threadEnded, fun _ => ⟨hclosed, hpipe, ?_⟩⟩
    have hnone : gone = [] := by
      obtain hnone | hclosing' | ⟨-, hopen⟩ := hgone
      · exact hnone
      · rw [hclosing] at hclosing'
        cases hclosing'
      · rw [hclosed] at hopen
        cases hopen
    obtain hfailed | hearly | ⟨hpayload, hfifo⟩ := h.threadEnded hthread
    · exact .inl hfailed
    · exact .inr (.inl hearly)
    · refine .inr (.inr ⟨hpayload, ?_⟩)
      simp only [Holds, hnone, hpipe, hwaits.rest, dataOf, hframes, hthread, ReadingPc.buffer,
        hfifo, List.flatMap_nil, List.append_nil] at hholds
      exact hholds
  · cases ht

theorem Flow.appClose (h : Flow p s) (ht : s.appClose = some t) : Flow p t := by
  unfold DownloadState.appClose at ht
  split at ht
  · next hrunning =>
    cases ht
    obtain ⟨gone, hholds, -⟩ := h.bytes
    exact ⟨⟨gone, hholds, .inr (.inl rfl)⟩, fun hregistration => absurd hrunning hregistration,
      fun _ => .inr (.inr rfl), fun _ => .inr rfl, h.eofs, h.behind, h.writerClosed, h.threadEnded,
      h.ended⟩
  · cases ht

theorem Flow.appClosed (h : Flow p s) (ht : s.appClosed = some t) : Flow p t := by
  unfold DownloadState.appClosed at ht
  split at ht
  · next hclosing =>
    cases ht
    obtain ⟨gone, hholds, -⟩ := h.bytes
    refine ⟨⟨s.pipe ++ gone, ?_, .inr (.inl hclosing)⟩, ?_, h.inactive, h.inputClosed, h.eofs,
      h.behind, h.writerClosed, h.threadEnded, ?_⟩
    · simp only [Holds, List.append_assoc, List.nil_append] at hholds ⊢
      exact hholds
    · intro hregistration
      have hopen := (h.unregistered hregistration).2.2.2
      rw [hclosing] at hopen
      cases hopen
    · intro hended
      obtain ⟨hclosed, -, hrest⟩ := h.ended hended
      exact ⟨hclosed, rfl, hrest⟩
  · cases ht

/-! ## Any run -/

theorem statusReady_reader (s : DownloadState) (status : UInt8) :
    (s.statusReady status).closedByReader = s.closedByReader ∧
      (s.statusReady status).closing = s.closing := by
  obtain ⟨-, -, -, heq⟩ | ⟨-, active, heq, -⟩ := statusReady_eq s status
  · rw [heq]
    exact ⟨rfl, rfl⟩
  · rw [heq]
    exact ⟨rfl, rfl⟩

/-- The receiver thread closes nothing on behalf of the application. -/
theorem receive_reader (ht : s.receive p = some t) :
    t.closedByReader = s.closedByReader ∧ t.closing = s.closing := by
  unfold DownloadState.receive at ht
  split at ht
  · cases ht
    unfold dataReady
    split
    · exact ⟨rfl, rfl⟩
    · split
      · split
        · split
          · exact ⟨rfl, rfl⟩
          · exact ⟨rfl, rfl⟩
        · exact ⟨rfl, rfl⟩
      · split
        · exact statusReady_reader _ _
        · exact ⟨rfl, rfl⟩
  · cases ht

theorem statusReady_receiver (s : DownloadState) (status : UInt8) :
    (s.statusReady status).receiver = s.receiver := by
  obtain ⟨-, -, -, heq⟩ | ⟨-, active, heq, -⟩ := statusReady_eq s status
  · rw [heq]
  · rw [heq]

theorem abandon_receiver {receiver : DeliveryPc} (ht : s.abandon p receiver = some t) :
    s.receiver = .idle ∧ t.receiver = receiver := by
  unfold abandon at ht
  split at ht
  · next hidle _ =>
    obtain ⟨-, ht⟩ := Option.ite_none_right_eq_some.mp ht
    cases ht
    exact ⟨hidle, rfl⟩
  · cases ht

/-- A place that is lost stays lost. -/
theorem lost_stays (hlost : s.receiver = .lost) {label : DownloadLabel}
    (ht : s.step p label = some t) : t.receiver = .lost := by
  cases label with
  | receive =>
      simp only [DownloadState.step, DownloadState.receive, hlost] at ht
      cases ht
  | stop =>
      have hidle := (abandon_receiver ht).1
      rw [hlost] at hidle
      cases hidle
  | misread => exact (abandon_receiver ht).2
  | readAll =>
      simp only [DownloadState.step, DownloadState.readAll, hlost] at ht
      cases ht
  | pipe n =>
      simp only [DownloadState.step, DownloadState.intoPipe, hlost] at ht
      cases ht
  | strayStatus status =>
      simp only [DownloadState.step, DownloadState.strayStatus, Option.ite_none_right_eq_some] at ht
      obtain ⟨-, ht⟩ := ht
      cases ht
      exact (statusReady_receiver s status).trans hlost
  | writeAllPort =>
      simp only [DownloadState.step, DownloadState.writeAllPort] at ht
      split at ht
      · cases ht
        exact hlost
      · cases ht
  | sendClose =>
      cases ht
      exact hlost
  | _ =>
      simp only [DownloadState.step, DownloadState.read, DownloadState.readNone,
        DownloadState.readFails, DownloadState.sendEof, DownloadState.strayData, DownloadState.register,
        DownloadState.assign, DownloadState.appRead, DownloadState.appEnd, DownloadState.appClose,
        DownloadState.appDrop, DownloadState.appClosed, Option.ite_none_right_eq_some] at ht
      obtain ⟨-, ht⟩ := ht
      cases ht
      exact hlost

structure Sound (p : Slot) (s : DownloadState) : Prop where
  flow : Flow p s
  reader : s.closedByReader = true → s.closing = true

/-- Every step that leaves the receiver in its place. -/
theorem Sound.step (h : s.receiver ≠ .lost → Sound p s) (hp : p ≠ portStatusService)
    {label : DownloadLabel} (ht : s.step p label = some t) (hplace : t.receiver ≠ .lost) :
    Sound p t := by
  obtain ⟨hflow, hreader⟩ := h fun hlost => hplace (lost_stays hlost ht)
  cases label with
  | payloadOpen =>
      simp only [DownloadState.step, Option.ite_none_right_eq_some] at ht
      obtain ⟨hnot, ht⟩ := ht
      cases ht
      refine ⟨hflow.payload ?_, hreader⟩
      intro hclosed
      rw [hnot] at hclosed
      cases hclosed
  | payloadWrite bytes =>
      simp only [DownloadState.step, Option.ite_none_right_eq_some] at ht
      obtain ⟨hopen, ht⟩ := ht
      cases ht
      exact ⟨hflow.payloadWrite hopen bytes, hreader⟩
  | payloadClose =>
      simp only [DownloadState.step, Option.ite_none_right_eq_some] at ht
      obtain ⟨-, ht⟩ := ht
      cases ht
      exact ⟨hflow.payload fun _ => rfl, hreader⟩
  | read n =>
      refine ⟨hflow.read ht, ?_⟩
      simp only [DownloadState.step, DownloadState.read, Option.ite_none_right_eq_some] at ht
      obtain ⟨-, ht⟩ := ht
      cases ht
      exact hreader
  | readNone =>
      simp only [DownloadState.step, DownloadState.readNone, Option.ite_none_right_eq_some] at ht
      obtain ⟨⟨hreading, hfifo, hpayload⟩, ht⟩ := ht
      cases ht
      refine ⟨hflow.sendEof hp hreading id (fun hearly => by simp [hearly]) ?_, hreader⟩
      cases hend : s.payload with
      | notOpened => exact .inr (.inl (by simp))
      | open_ => exact absurd hend hpayload
      | closed => exact .inr (.inr ⟨rfl, hfifo⟩)
  | readFails =>
      simp only [DownloadState.step, DownloadState.readFails, Option.ite_none_right_eq_some] at ht
      obtain ⟨hreading, ht⟩ := ht
      cases ht
      exact ⟨hflow.sendEof hp hreading (fun _ => rfl) id (.inl rfl), hreader⟩
  | writeAllPort =>
      refine ⟨hflow.writeAllPort hp ht, ?_⟩
      simp only [DownloadState.step, DownloadState.writeAllPort] at ht
      split at ht
      · cases ht
        exact hreader
      · cases ht
  | other msg =>
      simp only [DownloadState.step, Option.ite_none_right_eq_some] at ht
      obtain ⟨hforeign, ht⟩ := ht
      cases ht
      exact ⟨hflow.other hforeign.off.1 fun _ => hforeign.off.2, hreader⟩
  | sendClose =>
      cases ht
      exact ⟨hflow.other (statusFrame_off hp _) fun _ => statusFrame_isEof p .close, hreader⟩
  | register =>
      simp only [DownloadState.step, DownloadState.register, Option.ite_none_right_eq_some] at ht
      obtain ⟨hrequested, ht⟩ := ht
      cases ht
      refine ⟨⟨hflow.bytes, fun _ => hflow.unregistered ?_, fun hinactive => Bool.noConfusion hinactive,
        hflow.inputClosed, hflow.eofs, hflow.behind, hflow.writerClosed, hflow.threadEnded, hflow.ended⟩,
        hreader⟩
      rw [hrequested]
      exact fun heq => Registration.noConfusion heq
  | assign =>
      simp only [DownloadState.step, DownloadState.assign, Option.ite_none_right_eq_some] at ht
      obtain ⟨hstored, ht⟩ := ht
      cases ht
      refine ⟨⟨hflow.bytes, fun hnot => absurd rfl hnot, ?_, hflow.inputClosed, hflow.eofs,
        hflow.behind, hflow.writerClosed, hflow.threadEnded, hflow.ended⟩, hreader⟩
      intro hinactive
      obtain hrequested | hrest := hflow.inactive hinactive
      · rw [hstored] at hrequested
        cases hrequested
      · exact .inr hrest
  | receive =>
      obtain ⟨hreaders, hclosing⟩ := receive_reader ht
      refine ⟨hflow.receive ht hplace, ?_⟩
      rw [hreaders, hclosing]
      exact hreader
  | stop =>
      refine ⟨hflow.abandon ht, ?_⟩
      simp only [DownloadState.step, DownloadState.abandon] at ht
      split at ht
      · obtain ⟨-, ht⟩ := Option.ite_none_right_eq_some.mp ht
        cases ht
        exact hreader
      · cases ht
  | misread => exact absurd (abandon_receiver ht).2 hplace
  | strayData data =>
      simp only [DownloadState.step, DownloadState.strayData, Option.ite_none_right_eq_some] at ht
      obtain ⟨hlost, ht⟩ := ht
      cases ht
      exact absurd hlost.1 hplace
  | strayStatus status =>
      simp only [DownloadState.step, DownloadState.strayStatus, Option.ite_none_right_eq_some] at ht
      obtain ⟨hlost, ht⟩ := ht
      cases ht
      exact absurd ((statusReady_receiver s status).trans hlost) hplace
  | readAll =>
      refine ⟨hflow.readAll ht hplace, ?_⟩
      simp only [DownloadState.step, DownloadState.readAll] at ht
      split at ht
      · split at ht
        all_goals
          cases ht
          exact hreader
      · cases ht
  | pipe n =>
      refine ⟨hflow.intoPipe hreader ht, ?_⟩
      simp only [DownloadState.step, DownloadState.intoPipe] at ht
      split at ht
      · split at ht
        · cases ht
          exact hreader
        · simp only [Option.ite_none_right_eq_some] at ht
          obtain ⟨-, ht⟩ := ht
          cases ht
          exact hreader
      · cases ht
  | appRead n =>
      refine ⟨hflow.appRead ht, ?_⟩
      simp only [DownloadState.step, DownloadState.appRead, Option.ite_none_right_eq_some] at ht
      obtain ⟨-, ht⟩ := ht
      cases ht
      exact hreader
  | appEnd =>
      refine ⟨hflow.appEnd ht, ?_⟩
      simp only [DownloadState.step, DownloadState.appEnd, Option.ite_none_right_eq_some] at ht
      obtain ⟨-, ht⟩ := ht
      cases ht
      exact hreader
  | appClose =>
      refine ⟨hflow.appClose ht, ?_⟩
      simp only [DownloadState.step, DownloadState.appClose, Option.ite_none_right_eq_some] at ht
      obtain ⟨-, ht⟩ := ht
      cases ht
      exact fun _ => rfl
  | appDrop =>
      simp only [DownloadState.step, DownloadState.appDrop, Option.ite_none_right_eq_some] at ht
      obtain ⟨hclosing, ht⟩ := ht
      cases ht
      exact ⟨hflow.deactivate (.inr hclosing), hreader⟩
  | appClosed =>
      refine ⟨hflow.appClosed ht, ?_⟩
      simp only [DownloadState.step, DownloadState.appClosed, Option.ite_none_right_eq_some] at ht
      obtain ⟨hclosing, ht⟩ := ht
      cases ht
      exact fun _ => hclosing

theorem Sound.reachable (hp : p ≠ portStatusService) (h : (bulkDownload p).Reachable s)
    (hplace : s.receiver ≠ .lost) : Sound p s := by
  have hinvariant : s.receiver ≠ .lost → Sound p s := by
    apply h.invariant (P := fun s => s.receiver ≠ .lost → Sound p s)
    · intro s hinit _
      cases hinit
      exact ⟨.initial, fun hclosed => Bool.noConfusion hclosed⟩
    · intro s label t hs ht hplace
      exact Sound.step hs hp ht hplace
  exact hinvariant hplace

end DownloadState

/-! ## Results -/

open DownloadState

/-- A frame for a stream that the application has closed is left where it is. -/
private def leftBehind : List DownloadLabel :=
  [.register, .assign, .other ⟨4, 5, [3, 0, 1, 0, 65]⟩, .misread, .strayData [65], .appRead 1]

/-- Behind a frame that was misread the application gets what nobody wrote for it. -/
example : (((bulkDownload firstPort).run .initial leftBehind).map fun s => (s.received, s.written)) =
    some ([65], []) := by
  decide +kernel

/-- The first read comes before the payload opens the fifo; it then writes a byte. -/
private def lateOpen : List DownloadLabel :=
  [.register, .assign, .readNone, .receive, .appEnd, .payloadOpen, .payloadWrite [104]]

/-- Nothing has failed, and the stream ends in front of the payload's first byte. -/
example : (((bulkDownload firstPort).run .initial lateOpen).map fun s =>
    (s.ended, s.failed, s.received, s.written)) = some (true, false, [], [104]) := by
  decide +kernel

end AapBridge.Wire
