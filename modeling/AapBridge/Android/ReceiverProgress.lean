import AapBridge.Android.DecodingEnds
import AapBridge.Android.LostConnection

/-! # How far the receiver has to go

Every step of the receiver that finds what it needs brings it nearer to the end
of its stream, and so does a read behind the last byte; only a skip stays where it
is there. What `onDataReady` does with a payload takes as long as the decoder, or
the pipe of a `BulkTransfer`, takes.
-/

namespace AapBridge.Android

open AapBridge.Lib
open AapBridge.Accessory (Slot slot?)

namespace DbusMessage

/-- The constructor has ended when `fuel` steps are over. -/
def ended (bytes : List UInt8) (fuel : Nat) : Bool :=
  match new bytes fuel with
  | .runs => false
  | _ => true

theorem ended_iff (bytes : List UInt8) : (∃ fuel, ended bytes fuel = true) ↔ ¬Stalls bytes := by
  rw [← constructor_ends_iff]
  apply exists_congr
  intro fuel
  unfold ended
  split
  · next hruns => exact iff_of_false nofun fun h => h hruns
  · next hends => exact iff_of_true rfl hends

end DbusMessage

/-! ## What happens to a payload -/

/-- `onDataReady` is through with a payload that has been read; `written` tells
when a write to the pipe of a `BulkTransfer` is, which waits for the application. -/
def ServiceKind.handled (written : List UInt8 → Nat → Bool) (kind : ServiceKind)
    (bytes : List UInt8) (n : Nat) : Bool :=
  match kind with
  | .dbusMethods | .dbusSignals => DbusMessage.ended bytes n
  | .bulkTransfer => written bytes n
  | .portStatus | .serviceSpawner | .keepalive => true

/-- The decoder does not go round in the payload, and the pipe takes it. -/
def ServiceKind.Handles (written : List UInt8 → Nat → Bool) (kind : ServiceKind)
    (bytes : List UInt8) : Prop :=
  match kind with
  | .dbusMethods | .dbusSignals => ¬DbusMessage.Stalls bytes
  | .bulkTransfer => ∃ n, written bytes n = true
  | .portStatus | .serviceSpawner | .keepalive => True

theorem handled_iff (written : List UInt8 → Nat → Bool) (kind : ServiceKind) (bytes : List UInt8) :
    (∃ n, kind.handled written bytes n = true) ↔ kind.Handles written bytes := by
  cases kind with
  | dbusMethods | dbusSignals => exact DbusMessage.ended_iff bytes
  | bulkTransfer => exact Iff.rfl
  | portStatus | serviceSpawner | keepalive => exact iff_of_true ⟨0, rfl⟩ trivial

variable {Tid Sid P : Type*}

/-! ## One step of the receiver -/

/-- How many steps there are, at most, to the next header, apart from those that
read the stream. -/
def ReceiverThreadPc.rank : ReceiverThreadPc Sid → Nat
  | .stopped => 0
  | .header _ => 1
  | .awaitDone | .statusCleanup _ => 2
  | .statusSwitch _ _ => 3
  | .statusTest _ _ => 4
  | .handle _ _ => 5
  | .readAll _ bytes _ => 6 + bytes.length
  | .skipRead i => 2 + i.toNat
  | .skip mustSkip => 2 + mustSkip.toNat
  | .test _ dataLength => 7 + dataLength.toInt.toNat
  | .lookup _ dataLength => 8 + dataLength.toInt.toNat

namespace ReceivingState

section

variable (s : ReceivingState Tid Sid P) (written : Nat → List UInt8 → Nat → Bool)

/-- A byte of the stream pays for the longest payload that its header can announce. -/
def stepsLeft : Nat := 2 ^ 16 * s.unread.length + s.receiver.rank

/-- The step leads to a place that the receiver leaves again: a payload that is to
be skipped is still in the stream, one that has been read is going to be handled,
and a response finds a call that gives its permit back. -/
def Completes (gives : Prop) : Prop :=
  match s.receiver with
  | .lookup port dataLength => ∀ i, slot? port.toInt = some i → s.activeServices i = none →
      dataLength.toInt ≤ s.unread.length
  | .readAll service bytes remaining => remaining = 0 →
      (s.kind service).Handles (written s.iterations) bytes
  | .handle _ _ => s.answering = true → gives
  | _ => True

/-- The receiver does not stand where it would stay. -/
def Proceeds (given : Prop) : Prop :=
  match s.receiver with
  | .header bytes => bytes.length < 4
  | .skip mustSkip => mustSkip ≤ s.unread.length
  | .handle service bytes => (s.kind service).Handles (written s.iterations) bytes
  | .awaitDone => given
  | _ => True

end

variable {s t : ReceivingState Tid Sid P} {written : Nat → List UInt8 → Nat → Bool}

@[simp] theorem stepsLeft_enter (s : ReceivingState Tid Sid P) (pc : ReceiverThreadPc Sid) :
    (s.enter pc).stepsLeft = 2 ^ 16 * s.unread.length + pc.rank := rfl

@[simp] theorem stepsLeft_next (s : ReceivingState Tid Sid P) :
    s.next.stepsLeft = 2 ^ 16 * s.unread.length + 1 := rfl

theorem onDataReady_stepsLeft (s : ReceivingState Tid Sid P) (service : Sid) (length : Short) :
    (s.onDataReady service length).stepsLeft < 2 ^ 16 * s.unread.length + (7 + length.toInt.toNat) := by
  unfold onDataReady
  cases s.kind service with
  | portStatus =>
      dsimp only
      split <;> simp only [stepsLeft_enter, ReceiverThreadPc.rank, List.length_nil] <;> omega
  | serviceSpawner | keepalive =>
      simp only [stepsLeft_enter, ReceiverThreadPc.rank, List.length_nil]
      omega
  | dbusMethods | dbusSignals | bulkTransfer =>
      dsimp only
      split
      · rw [stepsLeft_next]
        omega
      · simp only [stepsLeft_enter, ReceiverThreadPc.rank, List.length_nil]
        omega

theorem handle_stepsLeft (s : ReceivingState Tid Sid P) (service : Sid) (bytes : List UInt8) :
    (s.handle service bytes).stepsLeft < 2 ^ 16 * s.unread.length + 5 := by
  have hnext : s.next.stepsLeft < 2 ^ 16 * s.unread.length + 5 := by
    rw [stepsLeft_next]
    omega
  unfold ReceivingState.handle
  cases s.kind service with
  | portStatus =>
      dsimp only
      split
      · split
        · exact hnext
        · simp only [stepsLeft_enter, ReceiverThreadPc.rank]
          omega
      · exact hnext
  | serviceSpawner =>
      dsimp only [spawnerResponse]
      split
      · split
        · exact hnext
        · show 2 ^ 16 * s.unread.length + 2 < _
          omega
      · exact hnext
  | dbusMethods | dbusSignals =>
      dsimp only
      split
      · rw [stepsLeft_enter, ReceiverThreadPc.rank]
        omega
      · exact hnext
  | keepalive | bulkTransfer => exact hnext

theorem readThrows_stepsLeft (s : ReceivingState Tid Sid P) (service : Sid) (bytes : List UInt8) :
    (s.readThrows service bytes).stepsLeft < 2 ^ 16 * s.unread.length + 6 := by
  unfold readThrows
  cases s.kind service with
  | serviceSpawner =>
      show 2 ^ 16 * s.unread.length + 5 < _
      omega
  | _ =>
      dsimp only
      rw [stepsLeft_next]
      omega

theorem read_length {n requested : Nat} {r : List UInt8 × ReceivingState Tid Sid P}
    (h : s.read n requested = some r) :
    1 ≤ n ∧ n ≤ requested ∧ r.1.length = n ∧ s.unread.length = n + r.2.unread.length := by
  obtain ⟨hpos, hle, hlen, hsplit, -⟩ := read_spec h
  have hlength := congrArg List.length hsplit
  rw [List.length_append, hlen] at hlength
  exact ⟨hpos, hle, hlen, hlength⟩

/-- Every step of the receiver that finds what it needs brings it nearer to its end. -/
theorem receive_stepsLeft [DecidableEq P] {n : Nat} (h : s.receive n = some t) : t.stepsLeft < s.stepsLeft := by
  unfold ReceivingState.receive at h
  rw [show s.stepsLeft = 2 ^ 16 * s.unread.length + s.receiver.rank from rfl]
  cases hpc : s.receiver with
  | header bytes =>
      simp only [hpc] at h
      obtain ⟨r, hr, rfl⟩ := Option.map_eq_some_iff.mp h
      obtain ⟨hpos, -, -, hlength⟩ := read_length hr
      rw [hlength]
      split
      · next l0 l1 _ =>
        rw [stepsLeft_enter, ReceiverThreadPc.rank, ReceiverThreadPc.rank]
        have hshort := (getShort l0 l1).toInt_lt
        omega
      · rw [stepsLeft_enter, ReceiverThreadPc.rank, ReceiverThreadPc.rank]
        omega
  | lookup port dataLength =>
      simp only [hpc] at h
      rw [ReceiverThreadPc.rank]
      split at h
      · cases h
        rw [stepsLeft_enter, ReceiverThreadPc.rank]
        omega
      · split at h <;> cases h <;> rw [stepsLeft_enter, ReceiverThreadPc.rank] <;> omega
  | skip mustSkip =>
      simp only [hpc] at h
      rw [ReceiverThreadPc.rank]
      split at h
      · obtain ⟨r, hr, rfl⟩ := Option.map_eq_some_iff.mp h
        obtain ⟨hpos, -, -, hlength⟩ := read_length hr
        rw [hlength, stepsLeft_enter, ReceiverThreadPc.rank]
        omega
      · cases h
        rw [stepsLeft_next]
        omega
  | test service dataLength =>
      simp only [hpc] at h
      rw [ReceiverThreadPc.rank]
      split at h
      · cases h
        rw [stepsLeft_enter, ReceiverThreadPc.rank]
        omega
      · split at h <;> cases h
        · exact onDataReady_stepsLeft s service dataLength
        · rw [stepsLeft_next]
          omega
  | readAll service bytes remaining =>
      simp only [hpc] at h
      rw [ReceiverThreadPc.rank]
      split at h
      · cases h
        rw [stepsLeft_enter, ReceiverThreadPc.rank]
        omega
      · split at h
        · cases h
          rw [stepsLeft_next]
          omega
        · split at h
          · obtain ⟨r, hr, rfl⟩ := Option.map_eq_some_iff.mp h
            obtain ⟨hpos, -, hbytes, hlength⟩ := read_length hr
            rw [hlength, stepsLeft_enter, ReceiverThreadPc.rank, List.length_append, hbytes]
            omega
          · cases h
            have hthrows := readThrows_stepsLeft s service bytes
            omega
  | skipRead i =>
      simp only [hpc] at h
      rw [ReceiverThreadPc.rank]
      split at h
      · obtain ⟨r, hr, rfl⟩ := Option.map_eq_some_iff.mp h
        obtain ⟨hpos, -, -, hlength⟩ := read_length hr
        rw [hlength, stepsLeft_enter, ReceiverThreadPc.rank]
        omega
      · cases h
        rw [stepsLeft_next]
        omega
  | handle service bytes =>
      simp only [hpc] at h
      cases h
      exact handle_stepsLeft s service bytes
  | statusTest port status =>
      simp only [hpc] at h
      rw [ReceiverThreadPc.rank]
      split at h <;> cases h
      · rw [stepsLeft_next]
        omega
      · rw [stepsLeft_enter, ReceiverThreadPc.rank]
        omega
  | statusSwitch port status =>
      simp only [hpc] at h
      rw [ReceiverThreadPc.rank]
      split at h
      · split at h <;> cases h
        · rw [stepsLeft_next]
          omega
        · show 2 ^ 16 * s.unread.length + 2 < _
          omega
      · cases h
        rw [stepsLeft_enter, ReceiverThreadPc.rank]
        omega
  | statusCleanup port =>
      simp only [hpc] at h
      rw [ReceiverThreadPc.rank]
      split at h
      · cases h
        rw [stepsLeft_next]
        omega
      · split at h <;> cases h <;> show 2 ^ 16 * s.unread.length + 1 < _ <;> omega
  | awaitDone =>
      simp only [hpc] at h
      obtain ⟨-, h⟩ := Option.ite_none_right_eq_some.mp h
      cases h
      rw [ReceiverThreadPc.rank]
      show 2 ^ 16 * s.unread.length + 1 < _
      omega
  | stopped =>
      simp only [hpc] at h
      cases h

/-- So does a read behind the last byte: the header ends the thread, and a buffer
is moved back byte by byte. Only the skip stays where it is. -/
theorem failRead_stepsLeft (h : s.failRead .endOfFile = some t) (hskip : ∀ mustSkip, s.receiver ≠ .skip mustSkip) :
    t.stepsLeft < s.stepsLeft := by
  unfold failRead at h
  rw [show s.stepsLeft = 2 ^ 16 * s.unread.length + s.receiver.rank from rfl]
  cases hpc : s.receiver with
  | skip mustSkip => exact absurd hpc (hskip mustSkip)
  | header bytes =>
      simp only [hpc] at h
      cases h
      rw [stepsLeft_enter, ReceiverThreadPc.rank, ReceiverThreadPc.rank]
      omega
  | readAll service bytes remaining =>
      simp only [hpc] at h
      rw [ReceiverThreadPc.rank]
      obtain ⟨-, h⟩ := Option.ite_none_left_eq_some.mp h
      split at h
      · cases h
        rw [stepsLeft_next]
        omega
      · next hbytes =>
        cases h
        have hkeep : (s.keepBytes service bytes).unread = s.unread := by
          unfold keepBytes
          split <;> rfl
        have hpos := List.length_pos_of_ne_nil hbytes
        rw [stepsLeft_enter, hkeep, ReceiverThreadPc.rank, List.length_dropLast]
        omega
  | skipRead i =>
      simp only [hpc] at h
      obtain ⟨hpos, h⟩ := Option.ite_none_right_eq_some.mp h
      cases h
      rw [stepsLeft_enter, ReceiverThreadPc.rank, ReceiverThreadPc.rank]
      omega
  | _ =>
      simp only [hpc] at h
      cases h

theorem receive_running [DecidableEq P] {n : Nat} (h : s.receive n = some t) : s.receiver ≠ .stopped := by
  intro hstopped
  simp only [ReceivingState.receive, hstopped] at h
  cases h

theorem failRead_running {loss : Loss} (h : s.failRead loss = some t) : s.receiver ≠ .stopped := by
  intro hstopped
  simp only [failRead, hstopped] at h
  cases h

/-! ## Where the receiver would stay -/

theorem onDataReady_proceeds (service : Sid) (length : Short) {given : Prop} :
    (s.onDataReady service length).Proceeds written given := by
  unfold onDataReady
  cases s.kind service with
  | portStatus =>
      dsimp only
      split <;> trivial
  | serviceSpawner | keepalive => trivial
  | dbusMethods | dbusSignals | bulkTransfer =>
      dsimp only
      split
      · exact Nat.zero_lt_succ 3
      · trivial

theorem handle_proceeds {service : Sid} {bytes : List UInt8} (hpc : s.receiver = .handle service bytes)
    {given : Prop} (hgiven : s.answering = true → given) : (s.handle service bytes).Proceeds written given := by
  have hnext : s.next.Proceeds written given := Nat.zero_lt_succ 3
  unfold ReceivingState.handle
  cases hkind : s.kind service with
  | portStatus =>
      dsimp only
      split
      · split
        · exact hnext
        · trivial
      · exact hnext
  | serviceSpawner =>
      dsimp only [spawnerResponse]
      split
      · next msgType low high success errorCode =>
        split
        · exact hnext
        · next htype =>
          apply hgiven
          rw [answering, hpc]
          simpa [hkind, isResponse] using htype
      · exact hnext
  | dbusMethods | dbusSignals =>
      dsimp only
      split
      · trivial
      · exact hnext
  | keepalive | bulkTransfer => exact hnext

theorem readThrows_proceeds (service : Sid) (bytes : List UInt8) {given : Prop} :
    (s.readThrows service bytes).Proceeds written given := by
  unfold readThrows
  cases hkind : s.kind service with
  | serviceSpawner =>
      show (s.kind service).Handles _ _
      rw [hkind]
      trivial
  | _ => exact Nat.zero_lt_succ 3

/-- A step that completes what it begins leads to a place that is left again. -/
theorem Proceeds.receive [DecidableEq P] {n : Nat} {before gives given : Prop} (h : s.Proceeds written before)
    (hc : s.Completes written gives) (hgiven : s.answering = true → gives → given) (hs : s.receive n = some t) :
    t.Proceeds written given := by
  have hnext : s.next.Proceeds written given := Nat.zero_lt_succ 3
  unfold Proceeds at h
  unfold Completes at hc
  unfold ReceivingState.receive at hs
  cases hpc : s.receiver with
  | header bytes =>
      simp only [hpc] at h hs
      obtain ⟨r, hr, rfl⟩ := Option.map_eq_some_iff.mp hs
      obtain ⟨-, hle, hlength, -⟩ := read_length hr
      split
      · trivial
      · next hother =>
        show (bytes ++ r.1).length < 4
        have hmost : (bytes ++ r.1).length ≤ 4 := by
          rw [List.length_append]
          omega
        apply lt_of_le_of_ne hmost
        intro hfour
        obtain ⟨p0, p1, l0, l1, hbytes⟩ := List.length_eq_four.mp hfour
        exact hother p0 p1 l0 l1 hbytes
  | lookup port dataLength =>
      simp only [hpc] at hs hc
      split at hs
      · cases hs
        trivial
      · next i hslot =>
        split at hs
        · next hnone =>
          cases hs
          exact hc i hslot hnone
        · cases hs
          trivial
  | skip mustSkip =>
      simp only [hpc] at h hs
      split at hs
      · obtain ⟨r, hr, rfl⟩ := Option.map_eq_some_iff.mp hs
        obtain ⟨-, -, -, hlength⟩ := read_length hr
        show mustSkip - n ≤ r.2.unread.length
        omega
      · cases hs
        exact hnext
  | test service dataLength =>
      simp only [hpc] at hs
      split at hs
      · cases hs
        trivial
      · split at hs <;> cases hs
        · exact onDataReady_proceeds service dataLength
        · exact hnext
  | readAll service bytes remaining =>
      simp only [hpc] at hs hc
      split at hs
      · next hzero =>
        cases hs
        exact hc hzero
      · split at hs
        · cases hs
          exact hnext
        · split at hs
          · obtain ⟨r, -, rfl⟩ := Option.map_eq_some_iff.mp hs
            trivial
          · cases hs
            exact readThrows_proceeds service bytes
  | skipRead i =>
      simp only [hpc] at hs
      split at hs
      · obtain ⟨r, -, rfl⟩ := Option.map_eq_some_iff.mp hs
        trivial
      · cases hs
        exact hnext
  | handle service bytes =>
      simp only [hpc] at hs hc
      cases hs
      exact handle_proceeds hpc fun hanswering => hgiven hanswering (hc hanswering)
  | statusTest port status =>
      simp only [hpc] at hs
      split at hs <;> cases hs
      · exact hnext
      · trivial
  | statusSwitch port status =>
      simp only [hpc] at hs
      split at hs
      · split at hs <;> cases hs
        · exact hnext
        · trivial
      · cases hs
        trivial
  | statusCleanup port =>
      simp only [hpc] at hs
      split at hs
      · cases hs
        exact hnext
      · split at hs <;> cases hs <;> exact Nat.zero_lt_succ 3
  | awaitDone =>
      simp only [hpc] at hs
      obtain ⟨-, hs⟩ := Option.ite_none_right_eq_some.mp hs
      cases hs
      exact Nat.zero_lt_succ 3
  | stopped =>
      simp only [hpc] at hs
      cases hs

theorem Proceeds.failRead {before given : Prop} (h : s.Proceeds written before)
    (hs : s.failRead .endOfFile = some t) : t.Proceeds written given := by
  unfold ReceivingState.failRead at hs
  cases hpc : s.receiver with
  | header bytes =>
      simp only [hpc] at hs
      cases hs
      trivial
  | skip mustSkip =>
      rw [Proceeds, hpc] at h
      simp only [hpc] at hs
      obtain ⟨-, hs⟩ := Option.ite_none_right_eq_some.mp hs
      cases hs
      rw [Proceeds, hpc]
      exact h
  | readAll service bytes remaining =>
      simp only [hpc] at hs
      obtain ⟨-, hs⟩ := Option.ite_none_left_eq_some.mp hs
      split at hs <;> cases hs
      · exact Nat.zero_lt_succ 3
      · trivial
  | skipRead i =>
      simp only [hpc] at hs
      obtain ⟨-, hs⟩ := Option.ite_none_right_eq_some.mp hs
      cases hs
      trivial
  | _ =>
      simp only [hpc] at hs
      cases hs

/-! ## The receiver has a step -/

theorem read_one {requested : Nat} (hunread : s.unread ≠ []) (hpos : 1 ≤ requested) :
    ∃ r, s.read 1 requested = some r :=
  ⟨_, if_pos ⟨le_refl 1, hpos, List.length_pos_of_ne_nil hunread⟩⟩

variable (s written) in
/-- A step with a label that leaves the payload the time it takes, or one behind
the last byte. -/
inductive Moves [DecidableEq P] : Prop
  | receive {n : Nat} {t : ReceivingState Tid Sid P} (step : s.receive n = some t)
      (handled : ∀ service bytes, s.receiver = .handle service bytes →
        (s.kind service).handled (written s.iterations) bytes n = true)
  | fail {t : ReceivingState Tid Sid P} (unread : s.unread = []) (step : s.failRead .endOfFile = some t)

/-- Where a step takes place that reads nothing. -/
theorem Moves.idle [DecidableEq P] (h : s.receive 0 = some t)
    (hpc : ∀ service bytes, s.receiver ≠ .handle service bytes) : s.Moves written :=
  .receive h fun service bytes hhandle => absurd hhandle (hpc service bytes)

/-- Where bytes are read, there are some, or none are left. -/
theorem Moves.reads [DecidableEq P] {requested : Nat}
    {f : List UInt8 × ReceivingState Tid Sid P → ReceivingState Tid Sid P}
    (hreceive : s.receive 1 = (s.read 1 requested).map f) (hpos : 1 ≤ requested)
    (hfail : s.unread = [] → ∃ t, s.failRead .endOfFile = some t)
    (hpc : ∀ service bytes, s.receiver ≠ .handle service bytes) : s.Moves written := by
  by_cases hunread : s.unread = []
  · obtain ⟨t, ht⟩ := hfail hunread
    exact .fail hunread ht
  · obtain ⟨r, hr⟩ := read_one hunread hpos
    rw [hr] at hreceive
    exact .receive hreceive fun service bytes hhandle => absurd hhandle (hpc service bytes)

theorem Proceeds.moves [DecidableEq P] {given : Prop} (h : s.Proceeds written given)
    (hstopped : s.receiver ≠ .stopped)
    (hdone : s.receiver = .awaitDone → 0 < s.spawner.openRequestResponsesDone) : s.Moves written := by
  unfold Proceeds at h
  cases hpc : s.receiver with
  | header bytes =>
      rw [hpc] at h
      have hreceive : ∃ f, s.receive 1 = (s.read 1 (4 - bytes.length)).map f := by
        simp only [ReceivingState.receive, hpc]
        exact ⟨_, rfl⟩
      have hfail : ∃ t, s.failRead .endOfFile = some t := by
        simp only [ReceivingState.failRead, hpc]
        exact ⟨_, rfl⟩
      obtain ⟨f, hf⟩ := hreceive
      exact .reads hf (Nat.sub_pos_of_lt h) (fun _ => hfail) (by rw [hpc]; simp)
  | lookup port dataLength =>
      have hstep : ∃ t, s.receive 0 = some t := by
        simp only [ReceivingState.receive, hpc]
        split
        · exact ⟨_, rfl⟩
        · split <;> exact ⟨_, rfl⟩
      obtain ⟨t, ht⟩ := hstep
      exact .idle ht (by rw [hpc]; simp)
  | skip mustSkip =>
      simp only [hpc] at h
      by_cases hpos : mustSkip > 0
      · have hreceive : ∃ f, s.receive 1 = (s.read 1 mustSkip.toNat).map f := by
          simp only [ReceivingState.receive, hpc, if_pos hpos]
          exact ⟨_, rfl⟩
        obtain ⟨f, hf⟩ := hreceive
        apply Moves.reads hf (by omega) _ (by rw [hpc]; simp)
        intro hunread
        rw [hunread, List.length_nil] at h
        omega
      · have hstep : s.receive 0 = some s.next := by
          simp only [ReceivingState.receive, hpc, if_neg hpos]
        exact .idle hstep (by rw [hpc]; simp)
  | test service dataLength =>
      have hstep : ∃ t, s.receive 0 = some t := by
        simp only [ReceivingState.receive, hpc]
        split
        · exact ⟨_, rfl⟩
        · split <;> exact ⟨_, rfl⟩
      obtain ⟨t, ht⟩ := hstep
      exact .idle ht (by rw [hpc]; simp)
  | readAll service bytes remaining =>
      have hidle : ∀ t, s.receive 0 = some t → s.Moves written :=
        fun t ht => .idle ht (by rw [hpc]; simp)
      by_cases hzero : remaining = 0
      · apply hidle
        simp only [ReceivingState.receive, hpc, if_pos hzero]
        rfl
      · cases hport : s.port service with
        | none =>
            apply hidle
            simp only [ReceivingState.receive, hpc, if_neg hzero, hport]
            rfl
        | some x =>
            by_cases hopen : (s.ports x).inputOpen = true
            · have hreceive : ∃ f, s.receive 1 = (s.read 1 remaining).map f := by
                simp only [ReceivingState.receive, hpc, if_neg hzero, hport, if_pos hopen]
                exact ⟨_, rfl⟩
              have hguard : ¬(remaining = 0 ∨ s.inputClosed = true ∨ s.port service = none) := by
                simp [hzero, inputClosed, hpc, hport, hopen]
              have hfail : ∃ t, s.failRead .endOfFile = some t := by
                simp only [ReceivingState.failRead, hpc, if_neg hguard]
                split <;> exact ⟨_, rfl⟩
              obtain ⟨f, hf⟩ := hreceive
              exact .reads hf (Nat.one_le_iff_ne_zero.mpr hzero) (fun _ => hfail) (by rw [hpc]; simp)
            · apply hidle
              simp only [ReceivingState.receive, hpc, if_neg hzero, hport, if_neg hopen]
              rfl
  | skipRead i =>
      by_cases hpos : i > 0
      · have hreceive : ∃ f, s.receive 1 = (s.read 1 1).map f := by
          simp only [ReceivingState.receive, hpc, if_pos hpos]
          exact ⟨_, rfl⟩
        have hfail : ∃ t, s.failRead .endOfFile = some t := by
          simp only [ReceivingState.failRead, hpc, if_pos hpos]
          exact ⟨_, rfl⟩
        obtain ⟨f, hf⟩ := hreceive
        exact .reads hf (le_refl 1) (fun _ => hfail) (by rw [hpc]; simp)
      · have hstep : s.receive 0 = some s.next := by
          simp only [ReceivingState.receive, hpc, if_neg hpos]
        exact .idle hstep (by rw [hpc]; simp)
  | handle service bytes =>
      simp only [hpc] at h
      obtain ⟨n, hn⟩ := (handled_iff _ _ _).mpr h
      have hstep : s.receive n = some (s.handle service bytes) := by
        simp only [ReceivingState.receive, hpc]
      apply Moves.receive hstep
      intro service' bytes' hhandle
      rw [hpc] at hhandle
      cases hhandle
      exact hn
  | statusTest port status =>
      have hstep : ∃ t, s.receive 0 = some t := by
        simp only [ReceivingState.receive, hpc]
        split <;> exact ⟨_, rfl⟩
      obtain ⟨t, ht⟩ := hstep
      exact .idle ht (by rw [hpc]; simp)
  | statusSwitch port status =>
      have hstep : ∃ t, s.receive 0 = some t := by
        simp only [ReceivingState.receive, hpc]
        split
        · split <;> exact ⟨_, rfl⟩
        · exact ⟨_, rfl⟩
      obtain ⟨t, ht⟩ := hstep
      exact .idle ht (by rw [hpc]; simp)
  | statusCleanup port =>
      have hstep : ∃ t, s.receive 0 = some t := by
        simp only [ReceivingState.receive, hpc]
        split
        · exact ⟨_, rfl⟩
        · split <;> exact ⟨_, rfl⟩
      obtain ⟨t, ht⟩ := hstep
      exact .idle ht (by rw [hpc]; simp)
  | awaitDone =>
      have hstep : ∃ t, s.receive 0 = some t := by
        simp only [ReceivingState.receive, hpc, if_pos (hdone hpc)]
        exact ⟨_, rfl⟩
      obtain ⟨t, ht⟩ := hstep
      exact .idle ht (by rw [hpc]; simp)
  | stopped => exact absurd hpc hstopped

variable (s t) in
/-- Where a step leads that does not complete what it begins. -/
inductive Stays (written : Nat → List UInt8 → Nat → Bool) (gives : Prop) : Prop
  | skip {mustSkip : Int} (receiver : t.receiver = .skip mustSkip) (short : t.unread.length < mustSkip)
  | handle {service : Sid} {bytes : List UInt8} (receiver : t.receiver = .handle service bytes)
      (unhandled : ¬(t.kind service).Handles (written t.iterations) bytes)
  | awaitDone (receiver : t.receiver = .awaitDone) (answering : s.answering = true) (alone : ¬gives)

theorem stays_of_not_completes [DecidableEq P] {n : Nat} {gives : Prop} (h : ¬s.Completes written gives)
    (hs : s.receive n = some t) : Stays s t written gives := by
  unfold Completes at h
  unfold ReceivingState.receive at hs
  cases hpc : s.receiver with
  | lookup port dataLength =>
      simp only [hpc] at h hs
      push Not at h
      obtain ⟨i, hslot, hnone, hshort⟩ := h
      simp only [hslot, hnone] at hs
      cases hs
      exact .skip rfl hshort
  | readAll service bytes remaining =>
      simp only [hpc] at h hs
      push Not at h
      obtain ⟨hzero, hunhandled⟩ := h
      rw [if_pos hzero] at hs
      cases hs
      exact .handle rfl hunhandled
  | handle service bytes =>
      simp only [hpc] at h hs
      push Not at h
      obtain ⟨hanswering, halone⟩ := h
      cases hs
      apply Stays.awaitDone _ hanswering halone
      rw [answering, hpc, Bool.and_eq_true, decide_eq_true_iff] at hanswering
      obtain ⟨hkind, hresponse⟩ := hanswering
      unfold ReceivingState.handle
      rw [hkind]
      dsimp only [spawnerResponse]
      unfold isResponse at hresponse
      split
      · next msgType low high success errorCode =>
        rw [if_neg (by simpa using hresponse)]
      · next hother =>
        split at hresponse
        · exact absurd rfl (hother _ _ _ _ _)
        · cases hresponse
  | _ =>
      simp only [hpc] at h
      exact absurd trivial h

end ReceivingState

end AapBridge.Android
