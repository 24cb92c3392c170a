import AapBridge.Wire.BulkDelivery

/-! # A transfer that nobody disturbs arrives completely

A payload that opens the fifo before the first read, a fifo that can be read, a
service that is stored before its first frame is handled, and an application that
reads to the end: then nothing is dropped, and behind the last byte the application
sees the end of the stream.
-/

namespace AapBridge.Wire

open AapBridge.Lib AapBridge.Accessory
open AapBridge.Android hiding Short

/-- The next frame for the phone concerns the port. -/
def nextConcerns (p : Slot) (s : DownloadState) : Bool :=
  s.toPhone.head?.any fun msg => onPort p msg || about p msg

/-- `read` finds no writer only behind a close, and does not fail; the service has its
port before a frame for it is handled, and the receiver takes the frames of other services
whole; the application does not close the stream. -/
def Orderly (p : Slot) (s : DownloadState) : DownloadLabel → Prop
  | .readNone => s.payload = .closed
  | .readFails | .appClose | .stop | .misread => False
  | .other msg => (slot? msg.port.toInt).isSome = true
  | .receive => nextConcerns p s = true → s.registration = .running
  | _ => True

instance (p : Slot) (s : DownloadState) (label : DownloadLabel) : Decidable (Orderly p s label) := by
  cases label <;> unfold Orderly <;> infer_instance

theorem isEof_of_off {p : Slot} {msg : MultiplexedMessage} (h : about p msg = false) :
    isEof p msg = false := by
  rw [isEof, h, Bool.false_and]

theorem eof_in_rest {p : Slot} {msg : MultiplexedMessage} {rest : List MultiplexedMessage}
    (hwaits : ∃ other ∈ msg :: rest, isEof p other = true) (hmsg : isEof p msg = false) :
    ∃ other ∈ rest, isEof p other = true := by
  obtain ⟨other, hother, heof⟩ := hwaits
  cases hother with
  | head =>
      rw [hmsg] at heof
      cases heof
  | tail _ hother => exact ⟨other, hother, heof⟩

namespace DownloadState

variable {p : Slot} {s t : DownloadState}

/-- Nothing has gone wrong, and an EOF that has been sent waits or has been handled. -/
structure Complete (p : Slot) (s : DownloadState) : Prop where
  sound : Sound p s
  open_ : s.closing = false
  placed : s.receiver ≠ .lost
  goes : s.receiver ≠ .ended
  dropped : s.dropped = []
  failed : s.failed = false
  early : s.early = false
  ports : ∀ msg ∈ s.toPhone, (slot? msg.port.toInt).isSome = true
  eof : s.thread = .ended → s.closedByWriter = true ∨ ∃ msg ∈ s.toPhone, isEof p msg = true

/-- The receiver thread takes a frame. -/
theorem Complete.receive (h : Complete p s) (hp : p ≠ portStatusService)
    (hregistered : nextConcerns p s = true → s.registration = .running)
    (hsound : t.receiver ≠ .lost → Sound p t) (ht : s.receive p = some t) : Complete p t := by
  unfold DownloadState.receive at ht
  split at ht
  · next msg rest hidle hqueue =>
    cases ht
    have hhead : s.toPhone.head? = some msg := by rw [hqueue]; rfl
    have hports : ∀ other ∈ rest, (slot? other.port.toInt).isSome = true := by
      intro other hother
      apply h.ports
      rw [hqueue]
      exact List.mem_cons_of_mem _ hother
    have heof : isEof p msg = false → s.thread = .ended →
        s.closedByWriter = true ∨ ∃ other ∈ rest, isEof p other = true := by
      intro hmsg hended
      obtain hclosed | hwaits := h.eof hended
      · exact .inl hclosed
      · rw [hqueue] at hwaits
        exact .inr (eof_in_rest hwaits hmsg)
    obtain ⟨i, hslot⟩ := Option.isSome_iff_exists.mp
      (h.ports msg (by rw [hqueue]; exact List.mem_cons_self))
    simp only [dataReady, hslot] at hsound ⊢
    by_cases hi : i = p
    · have hon : onPort p msg = true := decide_eq_true (by rw [hslot, hi])
      have hstatus : isEof p msg = false := by
        apply isEof_of_off
        simp [about, hslot, hi, hp]
      have hrunning : s.registration = .running := by
        apply hregistered
        simp [nextConcerns, hhead, hon]
      have hunclosed := (h.sound.flow.pop_on hqueue hon).2
      have hactive : s.active = true := by
        by_contra hinactive
        obtain hrequested | hclosed | hclosing :=
          h.sound.flow.inactive (Bool.eq_false_iff.mpr hinactive)
        · rw [hrunning] at hrequested
          cases hrequested
        · rw [hunclosed] at hclosed
          cases hclosed
        · rw [h.open_] at hclosing
          cases hclosing
      have hinput : s.inputOpen = true := by
        by_contra hinput
        obtain hclosed | hclosing := h.sound.flow.inputClosed (Bool.eq_false_iff.mpr hinput)
        · rw [hunclosed] at hclosed
          cases hclosed
        · rw [h.open_] at hclosing
          cases hclosing
      simp only [if_pos hi, hactive, hrunning, hinput, if_true] at hsound ⊢
      exact ⟨hsound fun heq => DeliveryPc.noConfusion heq, h.open_, fun heq => DeliveryPc.noConfusion heq,
        fun heq => DeliveryPc.noConfusion heq, h.dropped, h.failed, h.early, hports, heof hstatus⟩
    · simp only [if_neg hi] at hsound ⊢
      split
      · next hnamed =>
        rw [if_pos hnamed] at hsound
        have habout : about p msg = true := by simp [about, hslot, hnamed.1, hnamed.2]
        have hrunning : s.registration = .running := by
          apply hregistered
          simp [nextConcerns, hhead, habout]
        obtain ⟨-, -, -, heq⟩ | ⟨hcode, active, heq, -⟩ :=
          statusReady_eq { s with toPhone := rest } (msg.data.getD 2 0)
        · rw [heq] at hsound ⊢
          exact ⟨hsound h.placed, h.open_, h.placed, h.goes, h.dropped, h.failed, h.early, hports,
            fun _ => .inl rfl⟩
        · rw [heq] at hsound ⊢
          refine ⟨hsound h.placed, h.open_, h.placed, h.goes, h.dropped, h.failed, h.early, hports,
            fun hended => ?_⟩
          by_cases hactive : s.active = true
          · apply heof _ hended
            rw [isEof, decide_eq_false (hcode hactive hrunning), Bool.and_false]
          · obtain hrequested | hclosed | hclosing :=
              h.sound.flow.inactive (Bool.eq_false_iff.mpr hactive)
            · rw [hrunning] at hrequested
              cases hrequested
            · exact .inl hclosed
            · rw [h.open_] at hclosing
              cases hclosing
      · next hnamed =>
        rw [if_neg hnamed] at hsound
        have habout : about p msg = false := by
          simp only [about, Bool.and_eq_false_iff, decide_eq_false_iff_not, hslot, Option.some.injEq]
          exact not_and_or.mp hnamed
        exact ⟨hsound h.placed, h.open_, h.placed, h.goes, h.dropped, h.failed, h.early, hports,
          heof (isEof_of_off habout)⟩
  · cases ht

/-- The accessory sends a frame while nothing else about the transfer changes. -/
theorem Complete.sent (h : Complete p s) {msg : MultiplexedMessage} {thread : ReadingPc}
    (hport : (slot? msg.port.toInt).isSome = true) (hsound : t.receiver ≠ .lost → Sound p t)
    (hthread : thread = .ended → s.thread = .ended ∨ isEof p msg = true)
    {payload : PayloadEnd} {fifo : List UInt8}
    (ht : t = { s with payload, fifo, thread, toPhone := s.toPhone ++ [msg] }) : Complete p t := by
  subst ht
  refine ⟨hsound h.placed, h.open_, h.placed, h.goes, h.dropped, h.failed, h.early, ?_, ?_⟩
  · intro other hother
    obtain hother | hother := List.mem_append.mp hother
    · exact h.ports other hother
    · cases List.mem_singleton.mp hother
      exact hport
  · intro hended
    obtain hbefore | heof := hthread hended
    · obtain hclosed | ⟨other, hother, heof⟩ := h.eof hbefore
      · exact .inl hclosed
      · exact .inr ⟨other, List.mem_append_left _ hother, heof⟩
    · exact .inr ⟨msg, List.mem_append_right _ (List.mem_singleton.mpr rfl), heof⟩

/-- The receiver thread goes on with the frame it has taken. -/
theorem Complete.delivers (h : Complete p s) {receiver : DeliveryPc} {pipe : List UInt8}
    (hplaced : receiver ≠ .lost) (hgoes : receiver ≠ .ended) (hsound : t.receiver ≠ .lost → Sound p t)
    (ht : t = { s with receiver, pipe }) : Complete p t := by
  subst ht
  exact ⟨hsound hplaced, h.open_, hplaced, hgoes, h.dropped, h.failed, h.early, h.ports, h.eof⟩

theorem Complete.step (h : Complete p s) (hp : p ≠ portStatusService) {label : DownloadLabel}
    (horderly : Orderly p s label) (ht : s.step p label = some t) : Complete p t := by
  have hsound := Sound.step (fun _ => h.sound) hp ht
  have hstatus : (slot? (0 : BitVec 16).toInt).isSome = true := by decide
  cases label with
  | payloadOpen =>
      simp only [DownloadState.step, Option.ite_none_right_eq_some] at ht
      obtain ⟨-, ht⟩ := ht
      cases ht
      exact ⟨hsound h.placed, h.open_, h.placed, h.goes, h.dropped, h.failed, h.early, h.ports, h.eof⟩
  | payloadWrite bytes =>
      simp only [DownloadState.step, Option.ite_none_right_eq_some] at ht
      obtain ⟨-, ht⟩ := ht
      cases ht
      exact ⟨hsound h.placed, h.open_, h.placed, h.goes, h.dropped, h.failed, h.early, h.ports, h.eof⟩
  | payloadClose =>
      simp only [DownloadState.step, Option.ite_none_right_eq_some] at ht
      obtain ⟨-, ht⟩ := ht
      cases ht
      exact ⟨hsound h.placed, h.open_, h.placed, h.goes, h.dropped, h.failed, h.early, h.ports, h.eof⟩
  | read n =>
      simp only [DownloadState.step, DownloadState.read, Option.ite_none_right_eq_some] at ht
      obtain ⟨-, ht⟩ := ht
      cases ht
      exact ⟨hsound h.placed, h.open_, h.placed, h.goes, h.dropped, h.failed, h.early, h.ports,
        fun hended => ReadingPc.noConfusion hended⟩
  | readNone =>
      simp only [DownloadState.step, DownloadState.readNone, Option.ite_none_right_eq_some] at ht
      obtain ⟨-, ht⟩ := ht
      have hclosed : s.payload = .closed := horderly
      have hearly : (s.early || decide (s.payload = .notOpened)) = s.early := by
        rw [hclosed]
        exact Bool.or_false _
      rw [hearly] at ht
      cases ht
      exact h.sent hstatus hsound (fun _ => .inr (statusFrame_isEof p .eof)) rfl
  | readFails => exact horderly.elim
  | writeAllPort =>
      simp only [DownloadState.step, DownloadState.writeAllPort] at ht
      split at ht
      · next buffer _ =>
        cases ht
        have hport : slot? (BitVec.ofNat 16 p.val).toInt = some p := (slot_of_short p _).mpr rfl
        exact h.sent (by rw [hport]; rfl) hsound (fun hended => ReadingPc.noConfusion hended) rfl
      · cases ht
  | other msg =>
      simp only [DownloadState.step, Option.ite_none_right_eq_some] at ht
      obtain ⟨-, ht⟩ := ht
      cases ht
      exact h.sent horderly hsound .inl rfl
  | sendClose =>
      cases ht
      exact h.sent hstatus hsound .inl rfl
  | register =>
      simp only [DownloadState.step, DownloadState.register, Option.ite_none_right_eq_some] at ht
      obtain ⟨-, ht⟩ := ht
      cases ht
      exact ⟨hsound h.placed, h.open_, h.placed, h.goes, h.dropped, h.failed, h.early, h.ports, h.eof⟩
  | assign =>
      simp only [DownloadState.step, DownloadState.assign, Option.ite_none_right_eq_some] at ht
      obtain ⟨-, ht⟩ := ht
      cases ht
      exact ⟨hsound h.placed, h.open_, h.placed, h.goes, h.dropped, h.failed, h.early, h.ports, h.eof⟩
  | receive => exact h.receive hp horderly hsound ht
  | stop => exact horderly.elim
  | misread => exact horderly.elim
  | strayData data =>
      simp only [DownloadState.step, DownloadState.strayData, Option.ite_none_right_eq_some] at ht
      exact absurd ht.1.1 h.placed
  | strayStatus status =>
      simp only [DownloadState.step, DownloadState.strayStatus, Option.ite_none_right_eq_some] at ht
      exact absurd ht.1 h.placed
  | readAll =>
      simp only [DownloadState.step, DownloadState.readAll] at ht
      split at ht
      · next data hreceiver =>
        -- the input is closed only behind the last frame of the port
        have hinput : s.inputOpen = true := by
          by_contra hinput
          obtain hclosed | hclosing := h.sound.flow.inputClosed (Bool.eq_false_iff.mpr hinput)
          · have hwaits := (h.sound.flow.writerClosed hclosed).2.2
            rw [hreceiver] at hwaits
            exact hwaits
          · rw [h.open_] at hclosing
            cases hclosing
        rw [if_pos hinput] at ht
        cases ht
        exact h.delivers (fun heq => DeliveryPc.noConfusion heq) (fun heq => DeliveryPc.noConfusion heq)
          hsound rfl
      · cases ht
  | pipe n =>
      simp only [DownloadState.step, DownloadState.intoPipe] at ht
      split at ht
      · split at ht
        · cases ht
          exact h.delivers (fun heq => DeliveryPc.noConfusion heq)
            (fun heq => DeliveryPc.noConfusion heq) hsound rfl
        · simp only [Option.ite_none_right_eq_some] at ht
          obtain ⟨-, ht⟩ := ht
          cases ht
          exact h.delivers (fun heq => DeliveryPc.noConfusion heq)
            (fun heq => DeliveryPc.noConfusion heq) hsound rfl
      · cases ht
  | appRead n =>
      simp only [DownloadState.step, DownloadState.appRead, Option.ite_none_right_eq_some] at ht
      obtain ⟨-, ht⟩ := ht
      cases ht
      exact ⟨hsound h.placed, h.open_, h.placed, h.goes, h.dropped, h.failed, h.early, h.ports, h.eof⟩
  | appEnd =>
      simp only [DownloadState.step, DownloadState.appEnd, Option.ite_none_right_eq_some] at ht
      obtain ⟨-, ht⟩ := ht
      cases ht
      exact ⟨hsound h.placed, h.open_, h.placed, h.goes, h.dropped, h.failed, h.early, h.ports, h.eof⟩
  | appClose => exact horderly.elim
  | appDrop =>
      simp only [DownloadState.step, DownloadState.appDrop, Option.ite_none_right_eq_some] at ht
      obtain ⟨hclosing, -⟩ := ht
      rw [h.open_] at hclosing
      cases hclosing
  | appClosed =>
      simp only [DownloadState.step, DownloadState.appClosed, Option.ite_none_right_eq_some] at ht
      obtain ⟨hclosing, -⟩ := ht
      rw [h.open_] at hclosing
      cases hclosing

theorem Complete.reachable (hp : p ≠ portStatusService)
    (h : ((bulkDownload p).guard (Orderly p)).Reachable s) : Complete p s := by
  apply h.invariant
  · intro s hinit
    cases hinit
    exact ⟨⟨.initial, fun hclosed => Bool.noConfusion hclosed⟩, rfl,
      fun heq => DeliveryPc.noConfusion heq, fun heq => DeliveryPc.noConfusion heq, rfl, rfl, rfl,
      fun _ hmsg => absurd hmsg List.not_mem_nil, fun hended => ReadingPc.noConfusion hended⟩
  · intro s label t hs ht
    obtain ⟨horderly, hstep⟩ := Machine.guard_step.mp ht
    exact hs.step hp horderly hstep

end DownloadState

/-! ## Results -/

open DownloadState

end AapBridge.Wire
