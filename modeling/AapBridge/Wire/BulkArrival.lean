import AapBridge.Accessory.BridgeThreads
import AapBridge.Lib.EndMark
import AapBridge.Wire.BulkUpload

/-! # What the payload reads is what the application wrote

However the application cuts its writes, `BufferedOutputStream` and `BulkOutput` send
them in order. A `write` to a fifo takes a frame as a whole, since no frame is longer
than `PIPE_BUF`, or fails, and goes on to fail once nobody reads. Then the payload
reads what was written, and sees the end behind all of it.
-/

namespace AapBridge.Wire

open AapBridge.Lib AapBridge.Accessory
open AapBridge.Android hiding Short

def Behind.bytes : Behind → List UInt8
  | .buffer bytes | .direct bytes => bytes
  | .return_ | .close => []

/-- In `Port.write`, behind its test. -/
def OutputPc.Sends : OutputPc → Prop
  | .send _ _ => True
  | _ => False

theorem PortStatus_eofMessage_concerns (p : Slot) (n : BitVec 16) :
    endsInput p ⟨0, n, PortStatus.eofMessage (BitVec.ofNat 16 p)⟩ =
      decide (p.val % 256 < 128) := by
  have htarget := BridgeConnection.statusTarget_message p 3
  have hcode : (PortStatus.eofMessage (BitVec.ofNat 16 p)).getD 2 0 = streamEof := by
    rw [PortStatus.eofMessage, BridgeConnection.message_bytes]
    rfl
  have hzero : slot? (0 : BitVec 16).toInt = some portStatusService := by decide
  have heof : PortStatus.eofMessage (BitVec.ofNat 16 p) =
      PortStatus.message (BitVec.ofNat 16 p) 3 := rfl
  simp only [endsInput, concerns, hcode, hzero]
  rw [heof, htarget]
  by_cases hlow : p.val % 256 < 128
  · simp [hlow]
  · simp [hlow]

/-- A status is not on the port. -/
theorem concerns_off {p : Slot} (hp : p ≠ portStatusService) {msg : MultiplexedMessage}
    (h : concerns p msg = true) : onPort p msg = false := by
  simp only [concerns, Bool.and_eq_true, decide_eq_true_eq] at h
  apply decide_eq_false
  rw [h.1]
  exact fun heq => hp (Option.some.inj heq).symm

theorem endsInput_on {p : Slot} (hp : p ≠ portStatusService) {msg : MultiplexedMessage}
    (h : onPort p msg = true) : endsInput p msg = false := by
  rw [Bool.eq_false_iff]
  intro hends
  rw [endsInput, Bool.and_eq_true] at hends
  rw [concerns_off hp hends.1] at h
  cases h

/-! ## `write` -/

/-- A `write` of the whole buffer, or one that fails. -/
theorem bulkWrites_whole {fd : Int} {data : List UInt8} {outcomes : List Int}
    {r : List UInt8 × Bool}
    (h : outcomes = [] ∨ outcomes = [-1] ∨ outcomes = [(data.length : Int)])
    (hr : BridgeConnection.bulkWrites fd data data.length outcomes = some r) :
    r = (data, false) ∧ (fd ≠ -1 ∧ outcomes = [(data.length : Int)] ∨ data = []) ∨
      r = ([], true) ∧ (fd = -1 ∨ outcomes = [-1]) := by
  by_cases hsize : (data.length : Int) > 0
  · obtain rfl | rfl | rfl := h
    · simp only [BridgeConnection.bulkWrites, hsize, if_true] at hr
      cases hr
    · have hfails : (if fd = -1 then (-1 : Int) else -1) = -1 := by split <;> rfl
      simp only [BridgeConnection.bulkWrites, hsize, if_true, hfails, Option.some.injEq] at hr
      exact .inr ⟨hr.symm, .inr rfl⟩
    · by_cases hfd : fd = -1
      · simp only [BridgeConnection.bulkWrites, hsize, if_true, hfd, Option.some.injEq] at hr
        exact .inr ⟨hr.symm, .inl hfd⟩
      · have hlength : (data.length : Int) ≠ -1 := by omega
        simp only [BridgeConnection.bulkWrites, hsize, if_true, if_neg hfd, if_neg hlength,
          Int.sub_self, gt_iff_lt, lt_self_iff_false, if_false, Option.map_some, Int.toNat_natCast,
          List.take_length, List.append_nil, Option.some.injEq] at hr
        exact .inl ⟨hr.symm, .inl ⟨hfd, rfl⟩⟩
  · have hdata : data = [] := List.eq_nil_of_length_eq_zero (by omega)
    subst hdata
    have hnil : r = ([], false) := by
      cases outcomes with
      | nil =>
          simp only [BridgeConnection.bulkWrites, hsize, if_false, Option.some.injEq] at hr
          exact hr.symm
      | cons outcome rest =>
          simp only [BridgeConnection.bulkWrites, hsize, if_false, Option.some.injEq] at hr
          exact hr.symm
    exact .inl ⟨hnil, .inr rfl⟩

/-- A `write` of a frame takes it as a whole or fails, and fails once one has failed. -/
def WholeWrites (p : Slot) (s : UploadState) : UploadLabel → Prop
  | .handle outcomes => ∀ msg ∈ s.toAccessory.head?, onPort p msg = true →
      outcomes = [] ∨ outcomes = [-1] ∨ outcomes = [(msg.data.length : Int)] ∧ s.failed = false
  | _ => True

instance (p : Slot) (s : UploadState) (label : UploadLabel) :
    Decidable (WholeWrites p s label) := by
  cases label <;> unfold WholeWrites <;> infer_instance

/-! ## The invariant -/

namespace UploadState

variable {p : Slot} {s t : UploadState}

/-- What has been given to the stream and is on no frame yet. -/
def pending (s : UploadState) : List UInt8 :=
  match s.output with
  | .write remaining behind | .send remaining behind => remaining ++ behind.bytes
  | _ => s.buffer

/-- What was given, in order: read, on the way, and not sent yet. What is `gone` in
between has met a `write` that failed. -/
def Holds (p : Slot) (s : UploadState) (gone rest : List UInt8) : Prop :=
  s.given = s.received ++ (s.fifo ++ (gone ++ (dataOf p s.toAccessory ++ rest)))

structure Flow (p : Slot) (s : UploadState) : Prop where
  bytes : ∃ gone rest, s.Holds p gone rest ∧ (gone = [] ∨ s.failed = true) ∧
    (rest = s.pending ∨ s.thrown = true)
  thrown : s.thrown = true → s.outputOpen = false ∧ ¬s.output.Sends
  ending : s.output = .sendEof → s.outputOpen = false
  behind : behindMark (onPort p) (endsInput p) s.toAccessory = []
  announced : (∃ msg ∈ s.toAccessory, endsInput p msg = true) →
    s.outputOpen = false ∧ ¬s.output.Sends
  fifoClosed : s.fifoOpen = false → s.failed = true ∨
    framesOf p s.toAccessory = [] ∧ s.outputOpen = false ∧ ¬s.output.Sends
  inputClosed : s.inputOpen = false → s.fifoOpen = false ∨ s.failed = true
  listening : s.listening = false → s.fifoOpen = false
  ended : s.ended = true → s.fifo = [] ∧ s.fifoOpen = false

theorem Flow.initial : Flow p .initial where
  bytes := ⟨[], [], rfl, .inl rfl, .inl rfl⟩
  thrown hthrown := Bool.noConfusion hthrown
  ending hending := OutputPc.noConfusion hending
  behind := rfl
  announced hsome := by
    obtain ⟨msg, hmsg, -⟩ := hsome
    exact absurd hmsg List.not_mem_nil
  fifoClosed hclosed := Bool.noConfusion hclosed
  inputClosed hclosed := Bool.noConfusion hclosed
  listening hclosed := Bool.noConfusion hclosed
  ended hended := Bool.noConfusion hended

/-! ## The phone's side -/

/-- The application passes bytes to `write`. -/
theorem Flow.give (h : Flow p s) (bytes : List UInt8) {output : OutputPc} {buffer : List UInt8}
    (hsends : ¬output.Sends) (hending : output ≠ .sendEof)
    (ht : t = { s with given := s.given ++ bytes, output, buffer })
    (hpending : t.pending = s.pending ++ bytes) : Flow p t := by
  obtain ⟨gone, rest, hholds, hgone, hrest⟩ := h.bytes
  subst ht
  refine ⟨⟨gone, rest ++ bytes, ?_, hgone, ?_⟩, ?_, ?_, h.behind, ?_, ?_, h.inputClosed,
    h.listening, h.ended⟩
  · simp only [Holds] at hholds ⊢
    rw [hholds]
    simp only [List.append_assoc]
  · rw [hpending]
    exact hrest.imp (congrArg (· ++ bytes)) id
  · intro hthrown
    exact ⟨(h.thrown hthrown).1, hsends⟩
  · intro heq
    exact absurd heq hending
  · intro hsome
    exact ⟨(h.announced hsome).1, hsends⟩
  · intro hclosed
    obtain hfailed | ⟨hframes, houtput, -⟩ := h.fifoClosed hclosed
    · exact .inl hfailed
    · exact .inr ⟨hframes, houtput, hsends⟩

/-- The stream goes on, and nothing is sent. -/
theorem Flow.goOn (h : Flow p s) {output : OutputPc} {buffer : List UInt8} {thrown : Bool}
    (ht : t = { s with output, buffer, thrown }) (hpending : thrown = true ∨ t.pending = s.pending)
    (hthrown : thrown = true → s.outputOpen = false ∧ ¬output.Sends)
    (hkept : s.thrown = true → thrown = true) (hending : output = .sendEof → s.outputOpen = false)
    (hsends : output.Sends → s.outputOpen = true) : Flow p t := by
  obtain ⟨gone, rest, hholds, hgone, hrest⟩ := h.bytes
  subst ht
  have hquiet : s.outputOpen = false → ¬output.Sends := by
    intro hclosed hsend
    rw [hsends hsend] at hclosed
    cases hclosed
  refine ⟨⟨gone, rest, hholds, hgone, ?_⟩, hthrown, hending, h.behind, ?_, ?_, h.inputClosed,
    h.listening, h.ended⟩
  · obtain hthrow | hsame := hpending
    · exact .inr hthrow
    · rw [hsame]
      exact hrest.imp id hkept
  · intro hsome
    have hclosed := (h.announced hsome).1
    exact ⟨hclosed, hquiet hclosed⟩
  · intro hclosed
    obtain hfailed | ⟨hframes, houtput, -⟩ := h.fifoClosed hclosed
    · exact .inl hfailed
    · exact .inr ⟨hframes, houtput, hquiet houtput⟩

theorem Flow.appWrite (h : Flow p s) {bytes : List UInt8} (ht : s.appWrite bytes = some t) :
    Flow p t := by
  unfold UploadState.appWrite at ht
  split at ht
  · next hidle =>
    have hpending : s.pending = s.buffer := by rw [pending, hidle]
    dsimp only at ht
    split at ht
    · cases ht
      apply h.give bytes id (fun heq => OutputPc.noConfusion heq) rfl
      rw [hpending]
      rfl
    · split at ht
      · cases ht
        apply h.give bytes id (fun heq => OutputPc.noConfusion heq) rfl
        rw [hpending]
        rfl
      · cases ht
        have hquiet : ¬s.output.Sends := by
          rw [hidle]
          exact id
        have hending : s.output ≠ .sendEof := by
          rw [hidle]
          exact fun heq => OutputPc.noConfusion heq
        apply h.give bytes hquiet hending rfl
        rw [hpending]
        simp only [pending, hidle]
  · cases ht

theorem Flow.appFlush (h : Flow p s) {behind : Behind} (hbehind : behind.bytes = [])
    (ht : s.appFlush behind = some t) : Flow p t := by
  unfold UploadState.appFlush at ht
  split at ht
  · next hidle =>
    cases ht
    apply h.goOn rfl _ (fun hthrown => ⟨(h.thrown hthrown).1, id⟩) id
      (fun heq => OutputPc.noConfusion heq) False.elim
    right
    simp only [pending, hidle, hbehind, List.append_nil]
  · cases ht

/-- A frame of the port goes out. -/
theorem Flow.send (h : Flow p s) (hp : p ≠ portStatusService) {remaining : List UInt8}
    {behind : Behind} (hpc : s.output = .send remaining behind) :
    Flow p { s with
      output := .write (remaining.drop 4000) behind
      toAccessory := s.toAccessory ++ [⟨BitVec.ofNat 16 p,
        BitVec.ofNat 16 (remaining.take 4000).length, remaining.take 4000⟩] } := by
  obtain ⟨gone, rest, hholds, hgone, hrest⟩ := h.bytes
  have hsends : s.output.Sends := by
    rw [hpc]
    trivial
  have hunthrown : s.thrown ≠ true := fun hthrown => (h.thrown hthrown).2 hsends
  have hon := dataFrame_on p (BitVec.ofNat 16 (remaining.take 4000).length) (remaining.take 4000)
  have hnew : dataOf p [⟨BitVec.ofNat 16 p, BitVec.ofNat 16 (remaining.take 4000).length,
      remaining.take 4000⟩] = remaining.take 4000 := by
    rw [dataOf_cons_on hon]
    exact List.append_nil _
  refine ⟨⟨gone, remaining.drop 4000 ++ behind.bytes, ?_, hgone, .inl rfl⟩, ?_, ?_, ?_, ?_, ?_,
    h.inputClosed, h.listening, h.ended⟩
  · have hpending : rest = remaining ++ behind.bytes := by
      have hsame := hrest.resolve_right hunthrown
      rwa [pending, hpc] at hsame
    simp only [Holds, dataOf_append, hnew, List.append_assoc] at hholds ⊢
    rw [hholds, hpending, ← List.append_assoc (remaining.take 4000), List.take_append_drop]
  · intro hthrown
    exact absurd hthrown hunthrown
  · intro heq
    cases heq
  · apply behindMark_append h.behind
    intro _ other hother
    rw [Bool.eq_false_iff]
    intro hends
    exact (h.announced ⟨other, hother, hends⟩).2 hsends
  · intro hsome
    obtain ⟨other, hother, hends⟩ := hsome
    obtain hother | hother := List.mem_append.mp hother
    · exact absurd hsends (h.announced ⟨other, hother, hends⟩).2
    · cases List.mem_singleton.mp hother
      rw [endsInput_on hp hon] at hends
      cases hends
  · intro hclosed
    obtain hfailed | ⟨-, -, hquiet⟩ := h.fifoClosed hclosed
    · exact .inl hfailed
    · exact absurd hsends hquiet

/-- A frame of another port goes out, or the EOF once the output is closed. -/
theorem Flow.sendOff (h : Flow p s) {msg : MultiplexedMessage} (hoff : onPort p msg = false)
    {output : OutputPc} {eofSent : Bool} (hpending : output = s.output ∨
      output = .idle ∧ s.output = .sendEof)
    (hends : endsInput p msg = true → s.outputOpen = false ∧ ¬output.Sends) :
    Flow p { s with output, eofSent, toAccessory := s.toAccessory ++ [msg] } := by
  obtain ⟨gone, rest, hholds, hgone, hrest⟩ := h.bytes
  have hframes : framesOf p (s.toAccessory ++ [msg]) = framesOf p s.toAccessory := by
    rw [framesOf_append, framesOf_singleton_off hoff, List.append_nil]
  have hquiet : ¬s.output.Sends → ¬output.Sends := by
    intro hquiet
    obtain hsame | ⟨hidle, -⟩ := hpending
    · rwa [hsame]
    · rw [hidle]
      exact id
  refine ⟨⟨gone, rest, ?_, hgone, ?_⟩, ?_, ?_, ?_, ?_, ?_, h.inputClosed, h.listening, h.ended⟩
  · simp only [Holds, dataOf, hframes] at hholds ⊢
    exact hholds
  · obtain hsame | ⟨hidle, heof⟩ := hpending
    · rw [hsame]
      exact hrest
    · rw [hidle]
      simp only [pending, heof] at hrest ⊢
      exact hrest
  · intro hthrown
    obtain ⟨hclosed, hbefore⟩ := h.thrown hthrown
    exact ⟨hclosed, hquiet hbefore⟩
  · intro heq
    obtain hsame | ⟨hidle, -⟩ := hpending
    · exact h.ending (hsame.symm.trans heq)
    · rw [show output = .sendEof from heq] at hidle
      cases hidle
  · apply behindMark_append h.behind
    intro hon
    rw [hoff] at hon
    cases hon
  · intro hsome
    obtain ⟨other, hother, hmark⟩ := hsome
    obtain hother | hother := List.mem_append.mp hother
    · obtain ⟨hclosed, hbefore⟩ := h.announced ⟨other, hother, hmark⟩
      exact ⟨hclosed, hquiet hbefore⟩
    · cases List.mem_singleton.mp hother
      exact hends hmark
  · intro hclosed
    obtain hfailed | ⟨hnone, houtput, hbefore⟩ := h.fifoClosed hclosed
    · exact .inl hfailed
    · exact .inr ⟨hframes.trans hnone, houtput, hquiet hbefore⟩

/-- The flag of the output is cleared, by `Port.eof` or for a CLOSE. -/
theorem Flow.closeOutput (h : Flow p s) {output : OutputPc} {closesSent : Nat}
    (hpending : output = s.output ∨ output = .sendEof ∧ s.output = .eof) :
    Flow p { s with output, outputOpen := false, closesSent } := by
  obtain ⟨gone, rest, hholds, hgone, hrest⟩ := h.bytes
  have hquiet : ¬s.output.Sends → ¬output.Sends := by
    intro hquiet
    obtain hsame | ⟨heof, -⟩ := hpending
    · rwa [hsame]
    · rw [heof]
      exact id
  refine ⟨⟨gone, rest, hholds, hgone, ?_⟩, ?_, fun _ => rfl, h.behind, ?_, ?_, h.inputClosed,
    h.listening, h.ended⟩
  · obtain hsame | ⟨heof, hbefore⟩ := hpending
    · rw [hsame]
      exact hrest
    · rw [heof]
      simp only [pending, hbefore] at hrest ⊢
      exact hrest
  · intro hthrown
    exact ⟨rfl, hquiet (h.thrown hthrown).2⟩
  · intro hsome
    exact ⟨rfl, hquiet (h.announced hsome).2⟩
  · intro hclosed
    obtain hfailed | ⟨hnone, -, hbefore⟩ := h.fifoClosed hclosed
    · exact .inl hfailed
    · exact .inr ⟨hnone, rfl, hquiet hbefore⟩

theorem Flow.runOutput (h : Flow p s) (hp : p ≠ portStatusService)
    (ht : s.runOutput p = some t) : Flow p t := by
  unfold UploadState.runOutput at ht
  split at ht
  · cases ht
  · next remaining behind hpc =>
    have hidle : s.thrown = true → s.outputOpen = false := fun hthrown => (h.thrown hthrown).1
    split at ht
    · next hempty =>
      cases ht
      have hpending : s.pending = behind.bytes := by
        rw [pending, hpc, hempty]
        rfl
      cases behind with
      | return_ =>
          exact h.goOn rfl (.inr hpending.symm) (fun hthrown => ⟨hidle hthrown, id⟩) id
            (fun heq => OutputPc.noConfusion heq) False.elim
      | buffer bytes =>
          exact h.goOn rfl (.inr hpending.symm) (fun hthrown => ⟨hidle hthrown, id⟩) id
            (fun heq => OutputPc.noConfusion heq) False.elim
      | direct bytes =>
          refine h.goOn rfl (.inr ?_) (fun hthrown => ⟨hidle hthrown, id⟩) id
            (fun heq => OutputPc.noConfusion heq) False.elim
          rw [hpending]
          exact List.append_nil bytes
      | close =>
          exact h.goOn rfl (.inr hpending.symm) (fun hthrown => ⟨hidle hthrown, id⟩) id
            (fun heq => OutputPc.noConfusion heq) False.elim
    · split at ht
      · next hopen =>
        cases ht
        refine h.goOn rfl (.inr ?_) ?_ id (fun heq => OutputPc.noConfusion heq) fun _ => hopen
        · simp only [pending, hpc]
        · intro hthrown
          rw [hidle hthrown] at hopen
          cases hopen
      · next hclosed =>
        rw [Bool.not_eq_true] at hclosed
        cases ht
        unfold UploadState.throw
        split
        · exact h.goOn rfl (.inl rfl) (fun _ => ⟨hclosed, id⟩) (fun _ => rfl)
            (fun heq => OutputPc.noConfusion heq) False.elim
        · exact h.goOn rfl (.inl rfl) (fun _ => ⟨hclosed, id⟩) (fun _ => rfl)
            (fun heq => OutputPc.noConfusion heq) False.elim
  · next remaining behind hpc =>
    cases ht
    exact h.send hp hpc
  · next hpc =>
    split at ht
    · cases ht
      exact h.closeOutput (.inr ⟨rfl, hpc⟩)
    · cases ht
      have hback : Flow p { s with output := .idle } := by
        refine h.goOn rfl (.inr ?_) (fun hthrown => ⟨(h.thrown hthrown).1, id⟩) id
          (fun heq => OutputPc.noConfusion heq) False.elim
        simp only [pending, hpc]
      exact ⟨hback.bytes, hback.thrown, hback.ending, hback.behind, hback.announced, hback.fifoClosed,
        hback.inputClosed, hback.listening, hback.ended⟩
  · next hpc =>
    cases ht
    exact h.sendOff (statusFrame_off hp _) (.inr ⟨rfl, hpc⟩) fun _ => ⟨h.ending hpc, id⟩

/-! ## The accessory's side -/

theorem Flow.cleanupIfClosed (h : Flow p s) : Flow p s.cleanupIfClosed := by
  unfold UploadState.cleanupIfClosed
  split
  · next hclosed =>
    rw [Bool.and_eq_true, Bool.not_eq_true'] at hclosed
    have hfifo : s.failed = true ∨
        framesOf p s.toAccessory = [] ∧ s.outputOpen = false ∧ ¬s.output.Sends := by
      obtain hfifo | hfailed := h.inputClosed hclosed.1
      · exact h.fifoClosed hfifo
      · exact .inl hfailed
    exact ⟨h.bytes, h.thrown, h.ending, h.behind, h.announced, fun _ => hfifo, fun _ => .inl rfl,
      fun _ => rfl, fun hended => ⟨(h.ended hended).1, rfl⟩⟩
  · exact h

/-- The oldest frame is another port's. -/
theorem Flow.pop (h : Flow p s) {msg : MultiplexedMessage} {rest : List MultiplexedMessage}
    (hqueue : s.toAccessory = msg :: rest) (hoff : onPort p msg = false) :
    Flow p { s with toAccessory := rest } := by
  have hframes : framesOf p s.toAccessory = framesOf p rest := by
    rw [hqueue]
    exact framesOf_cons_off hoff
  obtain ⟨gone, left, hholds, hgone, hrest⟩ := h.bytes
  have hbehind := h.behind
  rw [hqueue] at hbehind
  refine ⟨⟨gone, left, ?_, hgone, hrest⟩, h.thrown, h.ending, behindMark_tail hbehind, ?_, ?_,
    h.inputClosed, h.listening, h.ended⟩
  · simp only [Holds, dataOf, hframes] at hholds ⊢
    exact hholds
  · intro hsome
    obtain ⟨other, hother, hends⟩ := hsome
    apply h.announced
    rw [hqueue]
    exact ⟨other, List.mem_cons_of_mem _ hother, hends⟩
  · rw [← hframes]
    exact h.fifoClosed

/-- The oldest frame is the port's, and the fifo takes it or does not. -/
theorem Flow.take (h : Flow p s) {msg : MultiplexedMessage} {rest : List MultiplexedMessage}
    (hqueue : s.toAccessory = msg :: rest) (hon : onPort p msg = true) (bytes : List UInt8)
    (failed : Bool) (hkept : s.failed = true → failed = true)
    (hbytes : bytes = msg.data ∧ (s.failed = false ∧ s.fifoOpen = true ∨ msg.data = []) ∨
      bytes = [] ∧ failed = true) :
    Flow p { s with toAccessory := rest, fifo := s.fifo ++ bytes, failed } := by
  obtain ⟨gone, left, hholds, hgone, hrest⟩ := h.bytes
  have hbehind := h.behind
  rw [hqueue] at hbehind
  rw [Holds, hqueue, dataOf_cons_on hon] at hholds
  have hclosed : s.fifoOpen = false → s.failed = true := by
    intro hfifo
    obtain hfailed | ⟨hnone, -, -⟩ := h.fifoClosed hfifo
    · exact hfailed
    · simp [framesOf, hqueue, hon] at hnone
  refine ⟨?_, h.thrown, h.ending, behindMark_tail hbehind, ?_, ?_, ?_, h.listening, ?_⟩
  · obtain ⟨rfl, htaken | hempty⟩ | ⟨rfl, hfails⟩ := hbytes
    · have hnone : gone = [] := by
        obtain hnone | hfailed := hgone
        · exact hnone
        · rw [htaken.1] at hfailed
          cases hfailed
      refine ⟨[], left, ?_, .inl rfl, hrest⟩
      rw [hnone] at hholds
      simpa only [Holds, List.append_assoc, List.nil_append] using hholds
    · refine ⟨gone, left, ?_, hgone.imp id hkept, hrest⟩
      rw [hempty] at hholds ⊢
      simpa only [Holds, List.append_nil, List.nil_append] using hholds
    · refine ⟨gone ++ msg.data, left, ?_, .inr hfails, hrest⟩
      simpa only [Holds, List.append_assoc, List.append_nil] using hholds
  · intro hsome
    obtain ⟨other, hother, hends⟩ := hsome
    apply h.announced
    rw [hqueue]
    exact ⟨other, List.mem_cons_of_mem _ hother, hends⟩
  · intro hfifo
    exact .inl (hkept (hclosed hfifo))
  · intro hinput
    exact (h.inputClosed hinput).imp id hkept
  · intro hended
    obtain ⟨hfifo, hunopened⟩ := h.ended hended
    refine ⟨?_, hunopened⟩
    obtain ⟨rfl, htaken | hempty⟩ | ⟨rfl, -⟩ := hbytes
    · rw [hunopened] at htaken
      cases htaken.2
    · rw [hfifo, hempty, List.append_nil]
    · rw [hfifo, List.append_nil]

theorem Flow.sendClose (h : Flow p s) (hfailed : s.failed = true) : Flow p s.sendClose := by
  apply Flow.cleanupIfClosed
  exact ⟨h.bytes, h.thrown, h.ending, h.behind, h.announced, h.fifoClosed,
    fun _ => .inr hfailed, h.listening, h.ended⟩

/-- The EOF of the port: nothing of it is left behind. -/
theorem Flow.closeInput (h : Flow p s) {msg : MultiplexedMessage} {rest : List MultiplexedMessage}
    (hqueue : s.toAccessory = msg :: rest) (hoff : onPort p msg = false)
    (hends : endsInput p msg = true) :
    Flow p { s with toAccessory := rest, inputOpen := false, fifoOpen := false } := by
  have hpopped := h.pop hqueue hoff
  have hlast : framesOf p rest = [] := by
    have hbehind := h.behind
    rw [hqueue] at hbehind
    exact behindMark_head hbehind hends
  obtain ⟨hclosed, hquiet⟩ := h.announced ⟨msg, by rw [hqueue]; exact List.mem_cons_self, hends⟩
  exact ⟨hpopped.bytes, hpopped.thrown, hpopped.ending, hpopped.behind, hpopped.announced,
    fun _ => .inr ⟨hlast, hclosed, hquiet⟩, fun _ => .inl rfl, fun _ => rfl,
    fun hended => ⟨(hpopped.ended hended).1, rfl⟩⟩

theorem Flow.stopSending (h : Flow p s) : Flow p { s with sending := false } :=
  ⟨h.bytes, h.thrown, h.ending, h.behind, h.announced, h.fifoClosed, h.inputClosed, h.listening,
    h.ended⟩

/-- `BulkOnBytesReceived`. -/
theorem Flow.bytesReceived (h : Flow p s) {msg : MultiplexedMessage}
    {rest : List MultiplexedMessage} (hqueue : s.toAccessory = msg :: rest)
    (hon : onPort p msg = true) {outcomes : List Int} (hwhole : outcomes = [] ∨ outcomes = [-1] ∨
      outcomes = [(msg.data.length : Int)] ∧ s.failed = false)
    (ht : { s with toAccessory := rest }.bytesReceived msg.data outcomes = some t) : Flow p t := by
  unfold UploadState.bytesReceived at ht
  obtain ⟨r, hr, ht⟩ := Option.map_eq_some_iff.mp ht
  have hcases := bulkWrites_whole (hwhole.imp id (Or.imp id And.left)) hr
  obtain ⟨hr', htaken⟩ | ⟨hr', -⟩ := hcases
  · rw [hr'] at ht
    cases ht
    refine h.take hqueue hon _ _ id (.inl ⟨rfl, ?_⟩)
    obtain ⟨hfd, hlength⟩ | hempty := htaken
    · left
      have hopen : s.fifoOpen = true := by
        by_contra hclosed
        exact hfd (if_neg hclosed)
      refine ⟨?_, hopen⟩
      obtain hnone | hfails | hall := hwhole
      · rw [hnone] at hlength
        cases hlength
      · rw [hfails] at hlength
        have heq := List.head_eq_of_cons_eq hlength
        omega
      · exact hall.2
    · exact .inr hempty
  · rw [hr'] at ht
    cases ht
    have htake := h.take hqueue hon [] true (fun _ => rfl) (.inr ⟨rfl, rfl⟩)
    exact htake.sendClose rfl

/-- A status about the port. -/
theorem Flow.statusReceived (h : Flow p s) (hp : p ≠ portStatusService) {msg : MultiplexedMessage}
    {rest : List MultiplexedMessage} (hqueue : s.toAccessory = msg :: rest)
    (hconcerns : concerns p msg = true) :
    Flow p ({ s with toAccessory := rest }.statusReceived (msg.data.getD 2 0)) := by
  have hoff := concerns_off hp hconcerns
  have hpopped := h.pop hqueue hoff
  unfold UploadState.statusReceived
  split
  · apply Flow.cleanupIfClosed
    split
    · next hcode =>
      have hends : endsInput p msg = true := by
        simp only [endsInput, hconcerns, hcode, decide_true, Bool.and_self]
      exact h.closeInput hqueue hoff hends
    · split
      · exact hpopped.stopSending
      · exact hpopped
  · exact hpopped

theorem Flow.handle (h : Flow p s) (hp : p ≠ portStatusService) {outcomes : List Int}
    (hwhole : WholeWrites p s (.handle outcomes)) (ht : s.handle p outcomes = some t) :
    Flow p t := by
  unfold UploadState.handle at ht
  split at ht
  · cases ht
  · next msg rest hqueue =>
    dsimp only at ht
    split at ht
    · cases ht
    · next i hslot =>
      split at ht
      · next hi =>
        have hon : onPort p msg = true := decide_eq_true (by rw [hslot, hi])
        have hwrites := hwhole msg (by rw [hqueue]; rfl) hon
        split at ht
        · exact h.bytesReceived hqueue hon hwrites ht
        · next hlistening =>
          cases ht
          -- the entry is gone only behind a `write` that failed
          have hfailed : s.failed = true := by
            obtain hfailed | ⟨hnone, -, -⟩ :=
              h.fifoClosed (h.listening (Bool.eq_false_iff.mpr hlistening))
            · exact hfailed
            · simp [framesOf, hqueue, hon] at hnone
          have htake := h.take hqueue hon [] s.failed id (.inr ⟨rfl, hfailed⟩)
          simpa only [List.append_nil] using htake
      · next hi =>
        have hoff : onPort p msg = false := by
          apply decide_eq_false
          rw [hslot]
          exact fun heq => hi (Option.some.inj heq)
        split at ht
        · next hconcerns =>
          cases ht
          exact h.statusReceived hp hqueue hconcerns
        · cases ht
          exact h.pop hqueue hoff

/-! ## Any step -/

theorem Flow.step (h : Flow p s) (hp : p ≠ portStatusService) {label : UploadLabel}
    (hwhole : WholeWrites p s label) (ht : s.step p label = some t) : Flow p t := by
  cases label with
  | appWrite bytes => exact h.appWrite ht
  | appFlush => exact h.appFlush rfl ht
  | appClose => exact h.appFlush rfl ht
  | output => exact h.runOutput hp ht
  | other msg =>
      simp only [UploadState.step, Option.ite_none_right_eq_some] at ht
      obtain ⟨⟨hoff, hconcerns⟩, ht⟩ := ht
      cases ht
      refine h.sendOff hoff (.inl rfl) ?_
      intro hends
      rw [endsInput, hconcerns] at hends
      cases hends
  | handle outcomes => exact h.handle hp hwhole ht
  | sendEof =>
      simp only [UploadState.step, UploadState.sendEof, Option.ite_none_right_eq_some] at ht
      obtain ⟨-, ht⟩ := ht
      cases ht
      exact h.stopSending.cleanupIfClosed
  | receiveClose =>
      simp only [UploadState.step, UploadState.receiveClose, Option.ite_none_right_eq_some] at ht
      obtain ⟨-, ht⟩ := ht
      cases ht
      exact h.closeOutput (.inl rfl)
  | strayClose =>
      cases ht
      exact h.closeOutput (.inl rfl)
  | payloadRead n =>
      simp only [UploadState.step, UploadState.payloadRead, Option.ite_none_right_eq_some] at ht
      obtain ⟨hroom, ht⟩ := ht
      cases ht
      obtain ⟨gone, rest, hholds, hgone, hrest⟩ := h.bytes
      refine ⟨⟨gone, rest, ?_, hgone, hrest⟩, h.thrown, h.ending, h.behind, h.announced,
        h.fifoClosed, h.inputClosed, h.listening, ?_⟩
      · have hsplit : s.fifo = s.fifo.take n ++ s.fifo.drop n := (List.take_append_drop n _).symm
        rw [Holds, hsplit] at hholds
        simpa only [Holds, List.append_assoc] using hholds
      · intro hended
        obtain ⟨hempty, hclosed⟩ := h.ended hended
        refine ⟨?_, hclosed⟩
        rw [hempty]
        exact List.drop_nil
  | payloadEnd =>
      simp only [UploadState.step, UploadState.payloadEnd, Option.ite_none_right_eq_some] at ht
      obtain ⟨hend, ht⟩ := ht
      cases ht
      exact ⟨h.bytes, h.thrown, h.ending, h.behind, h.announced, h.fifoClosed, h.inputClosed,
        h.listening, fun _ => hend⟩

theorem Flow.reachable (hp : p ≠ portStatusService)
    (h : ((bulkUpload p).guard (WholeWrites p)).Reachable s) : Flow p s := by
  apply h.invariant
  · intro s hinit
    cases hinit
    exact .initial
  · intro s label t hs ht
    obtain ⟨hwhole, hstep⟩ := Machine.guard_step.mp ht
    exact hs.step hp hwhole hstep

end UploadState

/-! ## Results -/

open UploadState

/-- Where every `write` to the fifo takes a frame as a whole or fails for good, the
payload reads a prefix of what the application wrote, however it cut its writes.
Until a `write` fails or the stream throws, the rest is on the way. -/
theorem upload_in_order (p : Slot) (hp : p ≠ portStatusService) (s : UploadState)
    (h : ((bulkUpload p).guard (WholeWrites p)).Reachable s) :
    s.received <+: s.given ∧ (s.failed = false → s.thrown = false →
      s.given = s.received ++ s.fifo ++ dataOf p s.toAccessory ++ s.pending) := by
  obtain ⟨gone, rest, hholds, hgone, hrest⟩ := (Flow.reachable hp h).bytes
  constructor
  · rw [hholds]
    exact List.prefix_append _ _
  · intro hfailed hthrown
    have hnone : gone = [] := by
      obtain hnone | hfails := hgone
      · exact hnone
      · rw [hfailed] at hfails
        cases hfails
    have hpending : rest = s.pending := by
      obtain hpending | hthrows := hrest
      · exact hpending
      · rw [hthrown] at hthrows
        cases hthrows
    rw [Holds, hnone, hpending] at hholds
    simpa only [List.append_assoc, List.nil_append] using hholds

/-- The application writes two bytes and closes its stream; the payload reads them. -/
def twoBytesUp : List UploadLabel :=
  [.appWrite [104], .appWrite [105], .appClose, .output, .output, .output, .output, .output,
    .handle [2], .payloadRead 2]

private theorem upwards_ne : firstPort ≠ portStatusService := by decide

private theorem twoBytesUp_isSome :
    (((bulkUpload firstPort).guard (WholeWrites firstPort)).run .initial twoBytesUp).isSome := by
  decide +kernel

theorem upload_in_order_two_bytes : ∃ s,
    ((bulkUpload firstPort).guard (WholeWrites firstPort)).Reachable s ∧ s.received = [104, 105] ∧
      s.received <+: s.given :=
  ⟨_, .of_run rfl twoBytesUp_isSome, by decide +kernel,
    (upload_in_order firstPort upwards_ne _ (.of_run rfl twoBytesUp_isSome)).1⟩

end AapBridge.Wire
