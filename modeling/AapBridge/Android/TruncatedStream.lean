import AapBridge.Android.FrameAtHand

/-! # A stream that ends too early

What is lost of the stream changes no step that the receiver still can take: it
takes the same step with the lost bytes behind what is left. So alignment is
stated about the stream as it was sent.
-/

namespace AapBridge.Android

open AapBridge.Lib
open AapBridge.Accessory (Slot slot? MultiplexedMessage)

variable {Tid Sid P : Type*}

namespace ReceivingState

/-- With the lost bytes. -/
def extend (s : ReceivingState Tid Sid P) (lost : List UInt8) : ReceivingState Tid Sid P :=
  { s with unread := s.unread ++ lost }

variable {s t : ReceivingState Tid Sid P} {lost : List UInt8}

@[simp] theorem extend_nil : s.extend [] = s := by
  simp [extend]

@[simp] theorem extend_receiver : (s.extend lost).receiver = s.receiver := rfl

@[simp] theorem extend_activeServices : (s.extend lost).activeServices = s.activeServices := rfl

@[simp] theorem extend_kind : (s.extend lost).kind = s.kind := rfl

@[simp] theorem extend_port : (s.extend lost).port = s.port := rfl

@[simp] theorem extend_ports : (s.extend lost).ports = s.ports := rfl

@[simp] theorem extend_spawner : (s.extend lost).spawner = s.spawner := rfl

@[simp] theorem extend_coming : (s.extend lost).coming = s.coming := rfl

@[simp] theorem extend_portAt (i : Slot) : (s.extend lost).portAt i = s.portAt i := rfl

theorem read_extend {n requested : Nat} {r : List UInt8 × ReceivingState Tid Sid P}
    (h : s.read n requested = some r) : (s.extend lost).read n requested = some (r.1, r.2.extend lost) := by
  unfold ReceivingState.read at h ⊢
  obtain ⟨⟨hpos, hle, hlength⟩, h⟩ := Option.ite_none_right_eq_some.mp h
  cases h
  have hmore : n ≤ (s.unread ++ lost).length := by
    rw [List.length_append]
    omega
  rw [if_pos ⟨hpos, hle, hmore⟩]
  show some ((s.unread ++ lost).take n, { s with unread := (s.unread ++ lost).drop n }) = _
  rw [List.take_append_of_le_length hlength, List.drop_append_of_le_length hlength]
  rfl

theorem onDataReady_extend (service : Sid) (length : Short) :
    (s.extend lost).onDataReady service length = (s.onDataReady service length).extend lost := by
  unfold ReceivingState.onDataReady
  rw [extend_kind]
  cases s.kind service with
  | portStatus => dsimp only; split <;> rfl
  | serviceSpawner => rfl
  | keepalive => rfl
  | dbusMethods | dbusSignals | bulkTransfer => dsimp only; split <;> rfl

theorem handle_extend (service : Sid) (bytes : List UInt8) :
    (s.extend lost).handle service bytes = (s.handle service bytes).extend lost := by
  unfold ReceivingState.handle
  rw [extend_kind]
  cases s.kind service with
  | portStatus =>
      dsimp only
      split
      · split <;> rfl
      · rfl
  | serviceSpawner =>
      dsimp only [spawnerResponse]
      split
      · split <;> rfl
      · rfl
  | dbusMethods | dbusSignals =>
      dsimp only
      split <;> rfl
  | keepalive | bulkTransfer => rfl

theorem readThrows_extend (service : Sid) (bytes : List UInt8) :
    (s.extend lost).readThrows service bytes = (s.readThrows service bytes).extend lost := by
  unfold readThrows
  rw [extend_kind]
  cases s.kind service <;> rfl

/-- A step that the receiver can take with what is left, it takes with the lost bytes too. -/
theorem receive_extend [DecidableEq P] {n : Nat} (h : s.receive n = some t) :
    (s.extend lost).receive n = some (t.extend lost) := by
  have hread : ∀ {requested : Nat} {f : List UInt8 × ReceivingState Tid Sid P → ReceivingState Tid Sid P},
      (∀ bytes u, f (bytes, u.extend lost) = (f (bytes, u)).extend lost) →
      (s.read n requested).map f = some t →
        ((s.extend lost).read n requested).map f = some (t.extend lost) := by
    intro requested f hf h
    obtain ⟨r, hr, rfl⟩ := Option.map_eq_some_iff.mp h
    rw [read_extend hr]
    exact congrArg some (hf r.1 r.2)
  unfold ReceivingState.receive at h ⊢
  rw [extend_receiver]
  cases hpc : s.receiver with
  | header bytes =>
      simp only [hpc] at h ⊢
      apply hread _ h
      intro bytes' u
      dsimp only
      split <;> rfl
  | lookup port dataLength =>
      simp only [hpc, extend_activeServices] at h ⊢
      cases hslot : slot? port.toInt with
      | none =>
          simp only [hslot] at h ⊢
          cases h
          rfl
      | some i =>
          simp only [hslot] at h ⊢
          cases hservice : s.activeServices i <;> simp only [hservice] at h ⊢ <;> cases h <;> rfl
  | skip mustSkip =>
      simp only [hpc] at h ⊢
      split at h
      · next hpos =>
        rw [if_pos hpos]
        exact hread (fun _ _ => rfl) h
      · next hpos =>
        rw [if_neg hpos]
        cases h
        rfl
  | test service dataLength =>
      simp only [hpc, extend_port, extend_ports] at h ⊢
      cases hport : s.port service with
      | none =>
          simp only [hport] at h ⊢
          cases h
          rfl
      | some x =>
          simp only [hport] at h ⊢
          rw [onDataReady_extend]
          split at h <;> next hopen => simp only [hopen]; cases h; rfl
  | readAll service bytes remaining =>
      simp only [hpc, extend_port, extend_ports] at h ⊢
      by_cases hzero : remaining = 0
      · rw [if_pos hzero] at h ⊢
        cases h
        rfl
      · rw [if_neg hzero] at h ⊢
        cases hport : s.port service with
        | none =>
            simp only [hport] at h ⊢
            cases h
            rfl
        | some x =>
            simp only [hport] at h ⊢
            by_cases hopen : (s.ports x).inputOpen = true
            · simp only [hopen] at h ⊢
              exact hread (fun _ _ => rfl) h
            · simp only [hopen] at h ⊢
              cases h
              exact congrArg some (readThrows_extend service bytes)
  | skipRead i =>
      simp only [hpc] at h ⊢
      split at h
      · next hpos =>
        rw [if_pos hpos]
        exact hread (fun _ _ => rfl) h
      · next hpos =>
        rw [if_neg hpos]
        cases h
        rfl
  | handle service bytes =>
      simp only [hpc] at h ⊢
      cases h
      rw [handle_extend]
  | statusTest port status =>
      simp only [hpc, extend_activeServices] at h ⊢
      cases hservice : s.activeServices port <;> simp only [hservice] at h ⊢ <;> cases h <;> rfl
  | statusSwitch port status =>
      simp only [hpc, extend_portAt] at h ⊢
      split at h
      · next hstatus =>
        rw [if_pos hstatus]
        cases hport : s.portAt port <;> simp only [hport] at h ⊢ <;> cases h <;> rfl
      · next hstatus =>
        rw [if_neg hstatus]
        cases h
        rfl
  | statusCleanup port =>
      simp only [hpc, extend_portAt, extend_ports] at h ⊢
      cases hport : s.portAt port with
      | none =>
          simp only [hport] at h ⊢
          cases h
          rfl
      | some x =>
          simp only [hport] at h ⊢
          split at h <;> next htest => simp only [htest]; cases h; rfl
  | awaitDone =>
      simp only [hpc] at h ⊢
      obtain ⟨hdone, h⟩ := Option.ite_none_right_eq_some.mp h
      cases h
      exact if_pos hdone
  | stopped =>
      simp only [hpc] at h
      cases h

theorem runApp_extend [DecidableEq Tid] [DecidableEq P] {tid : Tid} (h : s.runApp tid = some t) :
    (s.extend lost).runApp tid = some (t.extend lost) := by
  have hdrop : ∀ x : P, (s.extend lost).dropService x = (s.dropService x).extend lost := by
    intro x
    unfold dropService
    rw [extend_ports]
    split
    · rfl
    · split <;> rfl
  have hwrite : ∀ pc, (s.extend lost).writeStatus tid pc = (s.writeStatus tid pc).extend lost := by
    intro pc
    unfold writeStatus
    show (if (s.ports s.statusPort).outputOpen = true then _ else _) = _
    split <;> rfl
  unfold ReceivingState.runApp at h ⊢
  rw [show (s.extend lost).app = s.app from rfl]
  cases happ : s.app tid with
  | idle =>
      simp only [happ] at h
      cases h
  | closeClear x | eofClear x =>
      simp only [happ] at h ⊢
      cases h
      rfl
  | closeWrite x | eofWrite x =>
      simp only [happ] at h ⊢
      cases h
      exact congrArg some (hwrite _)
  | closeCleanup x | eofCleanup x =>
      simp only [happ] at h ⊢
      cases h
      exact congrArg (fun u => some (u.at tid .idle)) (hdrop x)

theorem step_extend [DecidableEq Tid] [DecidableEq Sid] [DecidableEq P] {label : ReceivingLabel Tid Sid P}
    (harrive : ∀ msg, label ≠ .arrive msg) (h : s.step label = some t) :
    (s.extend lost).step label = some (t.extend lost) := by
  cases label with
  | arrive msg => exact absurd rfl (harrive msg)
  | receive n => exact receive_extend h
  | run tid => exact runApp_extend h
  | startClose tid x | startEof tid x =>
      simp only [ReceivingState.step] at h ⊢
      rw [show (s.extend lost).app = s.app from rfl]
      split at h
      · obtain ⟨hopen, h⟩ := Option.ite_none_right_eq_some.mp h
        cases h
        exact if_pos hopen
      · cases h
  | takeResponse | register i service | assignPort service x =>
      obtain ⟨hguard, h⟩ := Option.ite_none_right_eq_some.mp h
      cases h
      exact if_pos hguard

/-- A step on a stream that has been cut keeps the alignment of the stream as it was sent. -/
theorem Alignment.step_cut [DecidableEq Tid] [DecidableEq Sid] [DecidableEq P]
    {label : ReceivingLabel Tid Sid P} (h : (s.extend lost).Alignment) (hc : s.InputTested label)
    (harrive : ∀ msg, label ≠ .arrive msg) (hs : s.step label = some t) : (t.extend lost).Alignment :=
  h.step hc (step_extend harrive hs)

end ReceivingState

end AapBridge.Android
