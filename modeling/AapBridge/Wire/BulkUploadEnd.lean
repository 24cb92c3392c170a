import AapBridge.Wire.BulkArrival

/-! # The end of a transfer towards the payload

An application that closes its stream, and does not call it again, has its bytes and
then the end of them delivered, unless a `write` to the fifo fails, or the phone's
receiver thread loses its place and finds a CLOSE nobody sent. The buffer is flushed
in front of the EOF, and what the stream throws it throws because of such a failure.
-/

namespace AapBridge.Wire

open AapBridge.Lib AapBridge.Accessory
open AapBridge.Android hiding Short

/-- The application calls a method of the stream. -/
def UploadLabel.isCall : UploadLabel → Bool
  | .appWrite _ | .appFlush | .appClose => true
  | _ => false

def UploadLabel.isStray : UploadLabel → Bool
  | .strayClose => true
  | _ => false

/-- The writes take whole frames, the phone's receiver finds no CLOSE that was not sent,
and the application does not call the stream again behind its close. -/
def Proper (p : Slot) (s : UploadState) (label : UploadLabel) : Prop :=
  WholeWrites p s label ∧ label.isStray = false ∧ (label.isCall = true → s.eofSent = false)

instance (p : Slot) (s : UploadState) (label : UploadLabel) : Decidable (Proper p s label) :=
  inferInstanceAs (Decidable (_ ∧ _))

namespace UploadState

variable {p : Slot} {s t : UploadState}

/-- What main can change by handling a frame. -/
structure Handled (s t : UploadState) : Prop where
  output : t.output = s.output
  buffer : t.buffer = s.buffer
  thrown : t.thrown = s.thrown
  refused : t.refused = s.refused
  outputOpen : t.outputOpen = s.outputOpen
  eofSent : t.eofSent = s.eofSent
  failed : s.failed = true → t.failed = true
  closes : t.closesSent = s.closesSent ∨ t.failed = true
  fifo : s.fifoOpen = false → t.fifoOpen = false

theorem Handled.refl (s : UploadState) : Handled s s :=
  ⟨rfl, rfl, rfl, rfl, rfl, rfl, id, .inl rfl, id⟩

theorem Handled.trans {u : UploadState} (h : Handled s t) (h' : Handled t u) : Handled s u where
  output := h'.output.trans h.output
  buffer := h'.buffer.trans h.buffer
  thrown := h'.thrown.trans h.thrown
  refused := h'.refused.trans h.refused
  outputOpen := h'.outputOpen.trans h.outputOpen
  eofSent := h'.eofSent.trans h.eofSent
  failed hfailed := h'.failed (h.failed hfailed)
  closes := by
    obtain hsame | hfailed := h.closes
    · exact h'.closes.imp (·.trans hsame) id
    · exact .inr (h'.failed hfailed)
  fifo hclosed := h'.fifo (h.fifo hclosed)

theorem Handled.pending (h : Handled s t) : t.pending = s.pending := by
  simp only [UploadState.pending, h.output, h.buffer]

theorem cleanupIfClosed_handled (s : UploadState) : Handled s s.cleanupIfClosed := by
  unfold UploadState.cleanupIfClosed
  split
  · exact ⟨rfl, rfl, rfl, rfl, rfl, rfl, id, .inl rfl, fun _ => rfl⟩
  · exact .refl s

theorem bytesReceived_handled {data : List UInt8} {outcomes : List Int}
    (ht : s.bytesReceived data outcomes = some t) : Handled s t := by
  unfold UploadState.bytesReceived at ht
  obtain ⟨r, -, ht⟩ := Option.map_eq_some_iff.mp ht
  dsimp only at ht
  split at ht
  · cases ht
    apply Handled.trans _ (cleanupIfClosed_handled _)
    exact ⟨rfl, rfl, rfl, rfl, rfl, rfl, fun _ => rfl, .inr rfl, id⟩
  · cases ht
    exact ⟨rfl, rfl, rfl, rfl, rfl, rfl, id, .inl rfl, id⟩

theorem statusReceived_handled (s : UploadState) (status : UInt8) :
    Handled s (s.statusReceived status) := by
  unfold UploadState.statusReceived
  split
  · apply Handled.trans _ (cleanupIfClosed_handled _)
    split
    · exact ⟨rfl, rfl, rfl, rfl, rfl, rfl, id, .inl rfl, fun _ => rfl⟩
    · split
      · exact ⟨rfl, rfl, rfl, rfl, rfl, rfl, id, .inl rfl, id⟩
      · exact .refl s
  · exact .refl s

theorem handle_handled {outcomes : List Int} (ht : s.handle p outcomes = some t) :
    Handled s t := by
  unfold UploadState.handle at ht
  split at ht
  · cases ht
  · next msg rest _ =>
    have hpop : Handled s { s with toAccessory := rest } :=
      ⟨rfl, rfl, rfl, rfl, rfl, rfl, id, .inl rfl, id⟩
    dsimp only at ht
    split at ht
    · cases ht
    · split at ht
      · split at ht
        · exact hpop.trans (bytesReceived_handled ht)
        · cases ht
          exact hpop
      · split at ht
        · cases ht
          exact hpop.trans (statusReceived_handled _ _)
        · cases ht
          exact hpop

theorem cleanupIfClosed_toAccessory (s : UploadState) :
    s.cleanupIfClosed.toAccessory = s.toAccessory := by
  unfold UploadState.cleanupIfClosed
  split
  · rfl
  · rfl

/-- The EOF of the port closes the fifo; any other frame leaves what is behind it. -/
theorem handle_ends (hp : p ≠ portStatusService)
    (hlistening : s.listening = false → s.fifoOpen = false) {outcomes : List Int}
    (ht : s.handle p outcomes = some t)
    (hwaits : ∃ msg ∈ s.toAccessory, endsInput p msg = true) :
    t.fifoOpen = false ∨ ∃ msg ∈ t.toAccessory, endsInput p msg = true := by
  unfold UploadState.handle at ht
  split at ht
  · cases ht
  · next msg rest hqueue =>
    rw [hqueue] at hwaits
    have hother : endsInput p msg = false → t.toAccessory = rest →
        t.fifoOpen = false ∨ ∃ msg ∈ t.toAccessory, endsInput p msg = true := by
      intro hmsg hrest
      obtain ⟨other, hother, hends⟩ := hwaits
      right
      rw [hrest]
      cases hother with
      | head =>
          rw [hmsg] at hends
          cases hends
      | tail _ hother => exact ⟨other, hother, hends⟩
    dsimp only at ht
    split at ht
    · cases ht
    · next i hslot =>
      split at ht
      · next hi =>
        have hon : onPort p msg = true := decide_eq_true (by rw [hslot, hi])
        apply hother (endsInput_on hp hon)
        split at ht
        · unfold UploadState.bytesReceived at ht
          obtain ⟨r, -, ht⟩ := Option.map_eq_some_iff.mp ht
          dsimp only at ht
          split at ht
          · cases ht
            exact cleanupIfClosed_toAccessory _
          · cases ht
            rfl
        · cases ht
          rfl
      · split at ht
        · next hconcerns =>
          cases ht
          by_cases hends : endsInput p msg = true
          · left
            rw [endsInput, Bool.and_eq_true, decide_eq_true_eq] at hends
            unfold UploadState.statusReceived
            split
            · rw [if_pos hends.2]
              exact (cleanupIfClosed_handled _).fifo rfl
            · next hgone => exact hlistening (Bool.eq_false_iff.mpr hgone)
          · apply hother (Bool.eq_false_iff.mpr hends)
            unfold UploadState.statusReceived
            split
            · rw [cleanupIfClosed_toAccessory]
              split
              · rfl
              · split
                · rfl
                · rfl
            · rfl
        · next hconcerns =>
          cases ht
          apply hother _ rfl
          rw [endsInput, Bool.eq_false_iff.mpr hconcerns, Bool.false_and]

/-! ## The invariant -/

/-- The output is closed by the application, with nothing left to send, or for a CLOSE
that tells of a failure. -/
structure Closing (p : Slot) (s : UploadState) : Prop where
  flow : Flow p s
  closed : s.outputOpen = false → s.failed = true ∨
    (s.output = .sendEof ∨ s.eofSent = true) ∧ s.pending = []
  closes : 0 < s.closesSent → s.failed = true
  lost : s.thrown = true → s.failed = true
  refused : s.refused = true → s.failed = true
  ending : s.output = .eof → s.failed = true ∨ s.pending = []
  sent : s.eofSent = true → s.outputOpen = false ∧ s.output = .idle
  arrived : p.val % 256 < 128 → s.eofSent = true →
    s.fifoOpen = false ∨ ∃ msg ∈ s.toAccessory, endsInput p msg = true

theorem Closing.initial : Closing p .initial where
  flow := .initial
  closed hclosed := Bool.noConfusion hclosed
  closes hcloses := absurd hcloses (Nat.lt_irrefl 0)
  lost hthrown := Bool.noConfusion hthrown
  refused hrefused := Bool.noConfusion hrefused
  ending hending := OutputPc.noConfusion hending
  sent hsent := Bool.noConfusion hsent
  arrived _ hsent := Bool.noConfusion hsent

/-- Nothing is called behind the close. -/
theorem Closing.unsent (h : Closing p s) (hbusy : s.output ≠ .idle) : s.eofSent = false := by
  rw [Bool.eq_false_iff]
  intro hsent
  exact hbusy (h.sent hsent).2

/-- Before `Port.eof` the output is still open, or has been closed for a failure. -/
theorem Closing.failed_of_closed (h : Closing p s) (hunsent : s.eofSent = false)
    (hbefore : s.output ≠ .sendEof) (hclosed : s.outputOpen = false) : s.failed = true := by
  obtain hfailed | ⟨hsending | hsent, -⟩ := h.closed hclosed
  · exact hfailed
  · exact absurd hsending hbefore
  · rw [hunsent] at hsent
    cases hsent

/-- The stream goes on in a call. -/
theorem Closing.goOn (h : Closing p s) (hflow : Flow p t) {output : OutputPc}
    {buffer : List UInt8} (ht : t = { s with output, buffer }) (hunsent : s.eofSent = false)
    (hbefore : s.output ≠ .sendEof) (hending : output = .eof → buffer = []) : Closing p t := by
  subst ht
  refine ⟨hflow, fun hclosed => .inl (h.failed_of_closed hunsent hbefore hclosed), h.closes, h.lost,
    h.refused, ?_, ?_, h.arrived⟩
  · intro heof
    right
    rw [pending, show output = .eof from heof]
    exact hending heof
  · intro hsent
    rw [show s.eofSent = true from hsent] at hunsent
    cases hunsent

/-- Main handles a frame, or the thread of the service sends its EOF. -/
theorem Closing.handled (h : Closing p s) (hflow : Flow p t) (hhandled : Handled s t)
    (hends : (∃ msg ∈ s.toAccessory, endsInput p msg = true) →
      t.fifoOpen = false ∨ ∃ msg ∈ t.toAccessory, endsInput p msg = true) : Closing p t where
  flow := hflow
  closed hclosed := by
    rw [hhandled.outputOpen] at hclosed
    rw [hhandled.output, hhandled.eofSent, hhandled.pending]
    exact (h.closed hclosed).imp hhandled.failed id
  closes hcloses := by
    obtain hsame | hfailed := hhandled.closes
    · rw [hsame] at hcloses
      exact hhandled.failed (h.closes hcloses)
    · exact hfailed
  lost hthrown := by
    rw [hhandled.thrown] at hthrown
    exact hhandled.failed (h.lost hthrown)
  refused hrefused := by
    rw [hhandled.refused] at hrefused
    exact hhandled.failed (h.refused hrefused)
  ending heof := by
    rw [hhandled.output] at heof
    rw [hhandled.pending]
    exact (h.ending heof).imp hhandled.failed id
  sent hsent := by
    rw [hhandled.eofSent] at hsent
    rw [hhandled.outputOpen, hhandled.output]
    exact h.sent hsent
  arrived hlow hsent := by
    rw [hhandled.eofSent] at hsent
    obtain hclosed | hwaits := h.arrived hlow hsent
    · exact .inl (hhandled.fifo hclosed)
    · exact hends hwaits

theorem Closing.appWrite (h : Closing p s) (hflow : Flow p t) {bytes : List UInt8}
    (hunsent : s.eofSent = false) (ht : s.appWrite bytes = some t) : Closing p t := by
  unfold UploadState.appWrite at ht
  split at ht
  · next hidle =>
    have hbefore : s.output ≠ .sendEof := by
      rw [hidle]
      exact fun heq => OutputPc.noConfusion heq
    have hclosed := h.failed_of_closed hunsent hbefore
    have hsent : ∀ P : Prop, s.eofSent = true → P := by
      intro P hsent
      rw [hunsent] at hsent
      cases hsent
    dsimp only at ht
    split at ht
    · cases ht
      exact ⟨hflow, fun houtput => .inl (hclosed houtput), h.closes, h.lost, h.refused,
        fun heq => OutputPc.noConfusion heq, hsent _, h.arrived⟩
    · split at ht
      · cases ht
        exact ⟨hflow, fun houtput => .inl (hclosed houtput), h.closes, h.lost, h.refused,
          fun heq => OutputPc.noConfusion heq, hsent _, h.arrived⟩
      · cases ht
        refine ⟨hflow, fun houtput => .inl (hclosed houtput), h.closes, h.lost, h.refused, ?_, hsent _,
          h.arrived⟩
        intro heq
        rw [show s.output = .eof from heq] at hidle
        cases hidle
  · cases ht

theorem Closing.appFlush (h : Closing p s) (hflow : Flow p t) {behind : Behind}
    (hunsent : s.eofSent = false) (ht : s.appFlush behind = some t) : Closing p t := by
  unfold UploadState.appFlush at ht
  split at ht
  · next hidle =>
    cases ht
    apply h.goOn hflow rfl hunsent _ fun heq => OutputPc.noConfusion heq
    rw [hidle]
    exact fun heq => OutputPc.noConfusion heq
  · cases ht

theorem Closing.runOutput (h : Closing p s) (hflow : Flow p t)
    (ht : s.runOutput p = some t) : Closing p t := by
  have hunsent : s.eofSent = false := by
    apply h.unsent
    intro hidle
    rw [UploadState.runOutput, hidle] at ht
    cases ht
  have hsent : ∀ P : Prop, s.eofSent = true → P := by
    intro P hsent
    rw [hunsent] at hsent
    cases hsent
  unfold UploadState.runOutput at ht
  split at ht
  · cases ht
  · next remaining behind hpc =>
    have hbefore : s.output ≠ .sendEof := by
      rw [hpc]
      exact fun heq => OutputPc.noConfusion heq
    split at ht
    · cases ht
      cases behind with
      | return_ => exact h.goOn hflow rfl hunsent hbefore fun heq => OutputPc.noConfusion heq
      | buffer bytes => exact h.goOn hflow rfl hunsent hbefore fun heq => OutputPc.noConfusion heq
      | direct bytes => exact h.goOn hflow rfl hunsent hbefore fun heq => OutputPc.noConfusion heq
      | close => exact h.goOn hflow rfl hunsent hbefore fun _ => rfl
    · split at ht
      · cases ht
        exact h.goOn hflow rfl hunsent hbefore fun heq => OutputPc.noConfusion heq
      · next hclosed =>
        -- something is left to send, so the output was not closed by the application
        have hfailed := h.failed_of_closed hunsent hbefore (Bool.eq_false_iff.mpr hclosed)
        cases ht
        cases behind with
        | _ =>
            exact ⟨hflow, fun _ => .inl hfailed, h.closes, fun _ => hfailed, h.refused,
              fun _ => .inl hfailed, hsent _, h.arrived⟩
  · next remaining behind hpc =>
    have hbefore : s.output ≠ .sendEof := by
      rw [hpc]
      exact fun heq => OutputPc.noConfusion heq
    cases ht
    exact ⟨hflow, fun hclosed => .inl (h.failed_of_closed hunsent hbefore hclosed), h.closes, h.lost,
      h.refused, fun heq => OutputPc.noConfusion heq, hsent _, fun _ => hsent _⟩
  · next hpc =>
    have hbefore : s.output ≠ .sendEof := by
      rw [hpc]
      exact fun heq => OutputPc.noConfusion heq
    split at ht
    · cases ht
      refine ⟨hflow, ?_, h.closes, h.lost, h.refused, fun heq => OutputPc.noConfusion heq, hsent _,
        h.arrived⟩
      intro _
      obtain hfailed | hnone := h.ending hpc
      · exact .inl hfailed
      · rw [pending, hpc] at hnone
        exact .inr ⟨.inl rfl, hnone⟩
    · next hclosed =>
      have hfailed := h.failed_of_closed hunsent hbefore (Bool.eq_false_iff.mpr hclosed)
      cases ht
      exact ⟨hflow, fun _ => .inl hfailed, h.closes, h.lost, fun _ => hfailed,
        fun heq => OutputPc.noConfusion heq, hsent _, h.arrived⟩
  · next hpc =>
    cases ht
    refine ⟨hflow, ?_, h.closes, h.lost, h.refused, fun heq => OutputPc.noConfusion heq,
      fun _ => ⟨h.flow.ending hpc, rfl⟩, ?_⟩
    · intro hclosed
      obtain hfailed | ⟨-, hnone⟩ := h.closed hclosed
      · exact .inl hfailed
      · rw [pending, hpc] at hnone
        exact .inr ⟨.inr rfl, hnone⟩
    · intro hlow _
      refine .inr ⟨_, List.mem_append_right _ (List.mem_singleton.mpr rfl), ?_⟩
      rw [PortStatus_eofMessage_concerns]
      exact decide_eq_true hlow

theorem Closing.step (h : Closing p s) (hp : p ≠ portStatusService) {label : UploadLabel}
    (hproper : Proper p s label) (ht : s.step p label = some t) : Closing p t := by
  have hflow := h.flow.step hp hproper.1 ht
  cases label with
  | appWrite bytes => exact h.appWrite hflow (hproper.2.2 rfl) ht
  | appFlush => exact h.appFlush hflow (hproper.2.2 rfl) ht
  | appClose => exact h.appFlush hflow (hproper.2.2 rfl) ht
  | output => exact h.runOutput hflow ht
  | other msg =>
      simp only [UploadState.step, Option.ite_none_right_eq_some] at ht
      obtain ⟨-, ht⟩ := ht
      cases ht
      refine ⟨hflow, h.closed, h.closes, h.lost, h.refused, h.ending, h.sent, ?_⟩
      intro hlow hsent
      obtain hfifo | ⟨other, hother, hends⟩ := h.arrived hlow hsent
      · exact .inl hfifo
      · exact .inr ⟨other, List.mem_append_left _ hother, hends⟩
  | handle outcomes =>
      exact h.handled hflow (handle_handled ht) (handle_ends hp h.flow.listening ht)
  | sendEof =>
      simp only [UploadState.step, UploadState.sendEof, Option.ite_none_right_eq_some] at ht
      obtain ⟨-, ht⟩ := ht
      cases ht
      have hstop : Handled s { s with sending := false } :=
        ⟨rfl, rfl, rfl, rfl, rfl, rfl, id, .inl rfl, id⟩
      refine h.handled hflow (hstop.trans (cleanupIfClosed_handled _)) ?_
      intro hwaits
      rw [cleanupIfClosed_toAccessory]
      exact .inr hwaits
  | receiveClose =>
      simp only [UploadState.step, UploadState.receiveClose, Option.ite_none_right_eq_some] at ht
      obtain ⟨hcloses, ht⟩ := ht
      cases ht
      have hfailed := h.closes hcloses
      exact ⟨hflow, fun _ => .inl hfailed, fun _ => hfailed, h.lost, h.refused, fun _ => .inl hfailed,
        fun hsent => ⟨rfl, (h.sent hsent).2⟩, h.arrived⟩
  | strayClose => exact Bool.noConfusion hproper.2.1
  | payloadRead n =>
      simp only [UploadState.step, UploadState.payloadRead, Option.ite_none_right_eq_some] at ht
      obtain ⟨-, ht⟩ := ht
      cases ht
      exact ⟨hflow, h.closed, h.closes, h.lost, h.refused, h.ending, h.sent, h.arrived⟩
  | payloadEnd =>
      simp only [UploadState.step, UploadState.payloadEnd, Option.ite_none_right_eq_some] at ht
      obtain ⟨-, ht⟩ := ht
      cases ht
      exact ⟨hflow, h.closed, h.closes, h.lost, h.refused, h.ending, h.sent, h.arrived⟩

theorem Closing.reachable (hp : p ≠ portStatusService)
    (h : ((bulkUpload p).guard (Proper p)).Reachable s) : Closing p s := by
  apply h.invariant
  · intro s hinit
    cases hinit
    exact .initial
  · intro s label t hs ht
    obtain ⟨hproper, hstep⟩ := Machine.guard_step.mp ht
    exact hs.step hp hproper hstep

end UploadState

/-! ## Results -/

open UploadState

/-- Unless a `write` to the fifo fails, neither `write` nor `flush` nor the first `close`
throws, the payload sees the end only behind all bytes of an application that has closed
its stream, and it does see it: once the frames are handled and the fifo is read, the
next read returns none. The accessory takes the EOF of a port whose low byte is below 128. -/
theorem upload_complete (p : Slot) (hp : p ≠ portStatusService) (s : UploadState)
    (h : ((bulkUpload p).guard (Proper p)).Reachable s) (hfailed : s.failed = false) :
    s.thrown = false ∧ s.refused = false ∧ (s.ended = true → s.received = s.given ∧ s.outputOpen = false) ∧
      (p.val % 256 < 128 → s.eofSent = true → s.toAccessory = [] → s.fifo = [] →
        s.received = s.given ∧ s.payloadEnd.isSome = true) := by
  have hclosing := Closing.reachable hp h
  have hflow := hclosing.flow
  have hthrown : s.thrown = false := by
    rw [Bool.eq_false_iff]
    intro hthrows
    rw [hclosing.lost hthrows] at hfailed
    cases hfailed
  obtain ⟨gone, rest, hholds, hgone, hrest⟩ := hflow.bytes
  have hnone : gone = [] := by
    obtain hnone | hfails := hgone
    · exact hnone
    · rw [hfailed] at hfails
      cases hfails
  have hpending : rest = s.pending := by
    obtain hpending | hthrows := hrest
    · exact hpending
    · rw [hthrown] at hthrows
      cases hthrows
  have hsent : s.outputOpen = false → s.pending = [] := by
    intro hclosed
    obtain hfails | ⟨-, hnone⟩ := hclosing.closed hclosed
    · rw [hfailed] at hfails
      cases hfails
    · exact hnone
  have hrefused : s.refused = false := by
    rw [Bool.eq_false_iff]
    intro hrefuses
    rw [hclosing.refused hrefuses] at hfailed
    cases hfailed
  refine ⟨hthrown, hrefused, ?_, ?_⟩
  · intro hended
    obtain ⟨hfifo, hclosed⟩ := hflow.ended hended
    obtain hfails | ⟨hframes, houtput, -⟩ := hflow.fifoClosed hclosed
    · rw [hfailed] at hfails
      cases hfails
    · rw [Holds, hnone, hpending, hsent houtput, hfifo, dataOf, hframes] at hholds
      simp only [List.flatMap_nil, List.append_nil] at hholds
      exact ⟨hholds.symm, houtput⟩
  · intro hlow heof hqueue hfifo
    have houtput := (hclosing.sent heof).1
    constructor
    · rw [Holds, hnone, hpending, hsent houtput, hfifo, hqueue] at hholds
      simp only [dataOf, framesOf, List.filter_nil, List.flatMap_nil, List.append_nil] at hholds
      exact hholds.symm
    · obtain hclosed | ⟨msg, hmsg, -⟩ := hclosing.arrived hlow heof
      · unfold payloadEnd
        rw [if_pos ⟨hfifo, hclosed⟩]
        rfl
      · rw [hqueue] at hmsg
        exact absurd hmsg List.not_mem_nil

private def twoBytesUpToTheEnd : List UploadLabel := twoBytesUp ++ [.handle [], .payloadEnd]

private theorem twoBytesUpToTheEnd_isSome :
    (((bulkUpload firstPort).guard (Proper firstPort)).run .initial twoBytesUpToTheEnd).isSome := by
  decide +kernel

theorem upload_complete_two_bytes : ∃ s,
    ((bulkUpload firstPort).guard (Proper firstPort)).Reachable s ∧ s.ended = true ∧
      s.refused = false ∧ s.received = s.given ∧ s.given = [104, 105] :=
  have h := upload_complete firstPort (by decide) _ (.of_run rfl twoBytesUpToTheEnd_isSome)
    (by decide +kernel)
  have hended := by decide +kernel
  ⟨_, .of_run rfl twoBytesUpToTheEnd_isSome, hended, h.2.1, (h.2.2.1 hended).1, by decide +kernel⟩

end AapBridge.Wire
