import AapBridge.Lib.Keyed
import AapBridge.Accessory.Service

/-! # What one operation does to one slot

During an operation a slot that was occupied at its start is `Live` (its flags
are those of the start, minus the directions closed so far, and no cleanup ran)
or `Ended` (reset, both directions closed, the cleanup is its last event). The
both-closed test is harmless on an ended slot because the reset reopens the
flags, which is why the repeated tests of re-entrant calls do not clean up twice.
-/

namespace AapBridge.Accessory

open AapBridge.Lib

namespace BridgeConnection

def eventsOf (b : BridgeConnection) (i : Slot) : List Event := keyed i b.events

/-! ## Primitive updates, slot by slot -/

@[simp] theorem modify_services_self (b : BridgeConnection) (i : Slot)
    (f : BridgeService → BridgeService) : (b.modify i f).services i = f (b.services i) := by
  simp [modify]

theorem modify_services_ne (b : BridgeConnection) {i j : Slot} (h : j ≠ i)
    (f : BridgeService → BridgeService) : (b.modify i f).services j = b.services j := by
  simp [modify, h]

@[simp] theorem modify_eventsOf (b : BridgeConnection) (i j : Slot)
    (f : BridgeService → BridgeService) : (b.modify i f).eventsOf j = b.eventsOf j := rfl

@[simp] theorem log_services (b : BridgeConnection) (i : Slot) (e : Event) :
    (b.log i e).services = b.services := rfl

@[simp] theorem log_eventsOf_self (b : BridgeConnection) (i : Slot) (e : Event) :
    (b.log i e).eventsOf i = b.eventsOf i ++ [e] := by
  simp [log, eventsOf]

theorem log_eventsOf_ne (b : BridgeConnection) {i j : Slot} (h : j ≠ i) (e : Event) :
    (b.log i e).eventsOf j = b.eventsOf j := by
  simp [log, eventsOf, keyed_singleton_of_ne (Ne.symm h)]

@[simp] theorem writeAllPort_services (b : BridgeConnection) (i : Slot) (buffer : List UInt8) :
    (b.writeAllPort i buffer).services = b.services := rfl

@[simp] theorem writeAllPort_eventsOf (b : BridgeConnection) (i j : Slot) (buffer : List UInt8) :
    (b.writeAllPort i buffer).eventsOf j = b.eventsOf j := rfl

/-! ## Frames: an operation on slot `i` leaves the others alone -/

def Frame (i : Slot) (b b' : BridgeConnection) : Prop :=
  ∀ j, j ≠ i → b'.services j = b.services j ∧ b'.eventsOf j = b.eventsOf j

theorem Frame.refl (i : Slot) (b : BridgeConnection) : Frame i b b := fun _ _ => ⟨rfl, rfl⟩

theorem Frame.trans {i : Slot} {a b c : BridgeConnection} (h₁ : Frame i a b) (h₂ : Frame i b c) :
    Frame i a c := by
  intro j hj
  obtain ⟨hs₁, he₁⟩ := h₁ j hj
  obtain ⟨hs₂, he₂⟩ := h₂ j hj
  exact ⟨hs₂.trans hs₁, he₂.trans he₁⟩

theorem frame_modify (b : BridgeConnection) (i : Slot) (f : BridgeService → BridgeService) :
    Frame i b (b.modify i f) := fun _ hj => ⟨b.modify_services_ne hj f, rfl⟩

theorem frame_log (b : BridgeConnection) (i : Slot) (e : Event) : Frame i b (b.log i e) :=
  fun _ hj => ⟨rfl, b.log_eventsOf_ne hj e⟩

theorem frame_writeAllPort (b : BridgeConnection) (i j : Slot) (buffer : List UInt8) :
    Frame i b (b.writeAllPort j buffer) := fun _ _ => ⟨rfl, rfl⟩

theorem frame_cleanupService (b : BridgeConnection) (i : Slot) :
    Frame i b (b.cleanupService i) := by
  unfold cleanupService
  cases (b.services i).onCleanupService with
  | none => exact frame_modify b i _
  | some f => exact (frame_log b i _).trans (frame_modify _ i _)

theorem frame_cleanupIfClosed (b : BridgeConnection) (i : Slot) :
    Frame i b (b.cleanupIfClosed i) := by
  unfold cleanupIfClosed
  split
  · exact frame_cleanupService b i
  · exact .refl i b

theorem frame_closeInput (b : BridgeConnection) (i : Slot) : Frame i b (b.closeInput i) :=
  (frame_modify b i _).trans (frame_log _ i _)

theorem frame_closeOutput (b : BridgeConnection) (i : Slot) : Frame i b (b.closeOutput i) :=
  (frame_modify b i _).trans (frame_log _ i _)

theorem frame_sendEof (b : BridgeConnection) (i : Slot) : Frame i b (b.sendEof i) :=
  ((frame_closeOutput b i).trans (frame_writeAllPort _ i _ _)).trans (frame_cleanupIfClosed _ i)

theorem frame_sendClose (b : BridgeConnection) (i : Slot) : Frame i b (b.sendClose i) :=
  ((frame_closeInput b i).trans (frame_writeAllPort _ i _ _)).trans (frame_cleanupIfClosed _ i)

theorem frame_callOnEof {b b' : BridgeConnection} {i : Slot} (h : b.callOnEof i = some b') :
    Frame i b b' := by
  unfold callOnEof at h
  cases hf : (b.services i).onEof with
  | none => simp [hf] at h
  | some f =>
      simp only [hf] at h
      apply (frame_log b i (.onEof f)).trans
      cases f with
      | methodOnEof =>
          cases h
          exact frame_sendEof _ i
      | bulkOnEof =>
          simp only [runOnEof, bulkOnEof] at h
          split at h
          · cases h
            exact frame_modify _ i _
          · cases h
      | _ =>
          cases h
          exact .refl i _

theorem frame_portStatusCase {b b' : BridgeConnection} {i : Slot} {status : UInt8}
    {buffer : List UInt8} (h : b.portStatusCase i status buffer = some b') : Frame i b b' := by
  unfold portStatusCase at h
  split at h
  · exact (frame_closeInput b i).trans (frame_callOnEof h)
  · split at h
    · cases h
      exact frame_closeOutput b i
    · obtain ⟨-, -, rfl⟩ := Option.map_eq_some_iff.mp h
      exact .refl i b

theorem portStatusSwitch_eq_some {b b' : BridgeConnection} {i : Slot} {buffer : List UInt8} :
    b.portStatusSwitch i buffer = some b' ↔ ∃ status c, buffer[2]? = some status ∧
      b.portStatusCase i status buffer = some c ∧ c.cleanupIfClosed i = b' := by
  simp [portStatusSwitch, Option.bind_eq_some_iff]

theorem frame_portStatusSwitch {b b' : BridgeConnection} {i : Slot} {buffer : List UInt8}
    (h : b.portStatusSwitch i buffer = some b') : Frame i b b' := by
  obtain ⟨status, c, -, hc, rfl⟩ := portStatusSwitch_eq_some.mp h
  exact (frame_portStatusCase hc).trans (frame_cleanupIfClosed c i)

theorem frame_bulkOnBytesReceived {b b' : BridgeConnection} {i : Slot} {buffer : List UInt8}
    {outcomes : List Int} (h : b.bulkOnBytesReceived i buffer outcomes = some b') :
    Frame i b b' := by
  unfold bulkOnBytesReceived at h
  split at h
  · obtain ⟨r, -, rfl⟩ := Option.map_eq_some_iff.mp h
    split
    · exact frame_sendClose b i
    · exact .refl i b
  · cases h

end BridgeConnection

/-! ## The course of one slot during an operation -/

/-- The callbacks of a started service, and the data its callbacks dereference. -/
structure BridgeService.Started (service : BridgeService) : Prop where
  onBytesReceived : service.onBytesReceived.isSome
  onEof : service.onEof.isSome
  onCleanupService : service.onCleanupService.isSome
  bulkEof : service.onEof = some .bulkOnEof → ∃ fd, service.serviceData = some (.bulk fd)
  bulkBytes : service.onBytesReceived = some .bulkOnBytesReceived →
    ∃ fd, service.serviceData = some (.bulk fd)

/-- No callback to `onCleanupService` among these events. -/
def NoCleanup (es : List Event) : Prop := ∀ f, .onCleanupService f ∉ es

/-- The cleanup ran once, and was the last thing to happen. -/
def CleanedUpLast (es : List Event) : Prop :=
  ∃ before f, es = before ++ [.onCleanupService f] ∧ NoCleanup before

/-- Slot `i`, whose entry was `start`, has not been cleaned up so far. -/
structure Live (i : Slot) (start : BridgeService) (b : BridgeConnection) : Prop where
  port : (b.services i).port = i
  input : (b.services i).inputOpen = (start.inputOpen && !decide (.inputClosed ∈ b.eventsOf i))
  output : (b.services i).outputOpen = (start.outputOpen && !decide (.outputClosed ∈ b.eventsOf i))
  started : (b.services i).Started
  noCleanup : NoCleanup (b.eventsOf i)

/-- Slot `i`, whose entry was `start`, has been cleaned up. -/
structure Ended (i : Slot) (start : BridgeService) (b : BridgeConnection) : Prop where
  unused : b.services i = .unused
  input : start.inputOpen = false ∨ .inputClosed ∈ b.eventsOf i
  output : start.outputOpen = false ∨ .outputClosed ∈ b.eventsOf i
  last : CleanedUpLast (b.eventsOf i)

/-- Where an operation leaves a slot that was occupied when it began. -/
def Settled (i : Slot) (start : BridgeService) (b : BridgeConnection) : Prop :=
  (Live i start b ∧ ((b.services i).inputOpen = true ∨ (b.services i).outputOpen = true)) ∨
    Ended i start b

theorem closed_of_flag {before : Bool} {P : Prop} [Decidable P]
    (h : false = (before && !decide P)) : before = false ∨ P := by
  cases before with
  | false => exact .inl rfl
  | true => exact .inr (by simpa using h)

theorem Settled.live_or_ended {i : Slot} {start : BridgeService} {b : BridgeConnection}
    (h : Settled i start b) : Live i start b ∨ Ended i start b :=
  h.imp And.left id

theorem BridgeService.Started.closeInput {b : BridgeConnection} {i : Slot}
    (h : (b.services i).Started) : ((b.closeInput i).services i).Started := by
  constructor
  · simpa [BridgeConnection.closeInput] using h.onBytesReceived
  · simpa [BridgeConnection.closeInput] using h.onEof
  · simpa [BridgeConnection.closeInput] using h.onCleanupService
  · simpa [BridgeConnection.closeInput] using h.bulkEof
  · simpa [BridgeConnection.closeInput] using h.bulkBytes

theorem BridgeService.Started.closeOutput {b : BridgeConnection} {i : Slot}
    (h : (b.services i).Started) : ((b.closeOutput i).services i).Started := by
  constructor
  · simpa [BridgeConnection.closeOutput] using h.onBytesReceived
  · simpa [BridgeConnection.closeOutput] using h.onEof
  · simpa [BridgeConnection.closeOutput] using h.onCleanupService
  · simpa [BridgeConnection.closeOutput] using h.bulkEof
  · simpa [BridgeConnection.closeOutput] using h.bulkBytes

/-- The callbacks of a started service run without touching `NULL`. -/
theorem BridgeService.Started.callOnEof_isSome {b : BridgeConnection} {i : Slot}
    (h : (b.services i).Started) : (b.callOnEof i).isSome := by
  obtain ⟨f, hf⟩ := Option.isSome_iff_exists.mp h.onEof
  simp only [BridgeConnection.callOnEof, hf]
  cases f with
  | bulkOnEof =>
      obtain ⟨fd, hfd⟩ := h.bulkEof hf
      simp [BridgeConnection.runOnEof, BridgeConnection.bulkOnEof, hfd]
  | _ => rfl

namespace Live

variable {i : Slot} {start : BridgeService} {b : BridgeConnection}

theorem frame {j : Slot} (h : Live i start b) {b' : BridgeConnection} (hij : i ≠ j)
    (hf : b.Frame j b') : Live i start b' := by
  obtain ⟨hs, he⟩ := hf i hij
  constructor
  · rw [hs]; exact h.port
  · rw [hs, he]; exact h.input
  · rw [hs, he]; exact h.output
  · rw [hs]; exact h.started
  · rw [he]; exact h.noCleanup

/-- A callback other than the cleanup, and a message. -/
theorem log_onBytesReceived (h : Live i start b) (f : OnBytesReceived) :
    Live i start (b.log i (.onBytesReceived f)) := by
  constructor
  · exact h.port
  · simpa using h.input
  · simpa using h.output
  · exact h.started
  · simpa [NoCleanup] using h.noCleanup

theorem log_onEof (h : Live i start b) (f : OnEof) : Live i start (b.log i (.onEof f)) := by
  constructor
  · exact h.port
  · simpa using h.input
  · simpa using h.output
  · exact h.started
  · simpa [NoCleanup] using h.noCleanup

theorem write (h : Live i start b) (j : Slot) (buffer : List UInt8) :
    Live i start (b.writeAllPort j buffer) :=
  ⟨h.port, h.input, h.output, h.started, h.noCleanup⟩

theorem closeInput (h : Live i start b) : Live i start (b.closeInput i) := by
  constructor
  · simpa [BridgeConnection.closeInput] using h.port
  · simp [BridgeConnection.closeInput]
  · simpa [BridgeConnection.closeInput] using h.output
  · exact h.started.closeInput
  · simpa [BridgeConnection.closeInput, NoCleanup] using h.noCleanup

theorem closeOutput (h : Live i start b) : Live i start (b.closeOutput i) := by
  constructor
  · simpa [BridgeConnection.closeOutput] using h.port
  · simpa [BridgeConnection.closeOutput] using h.input
  · simp [BridgeConnection.closeOutput]
  · exact h.started.closeOutput
  · simpa [BridgeConnection.closeOutput, NoCleanup] using h.noCleanup

/-- The both-closed test on a slot that is still in use. -/
theorem settle (h : Live i start b) : Settled i start (b.cleanupIfClosed i) := by
  unfold BridgeConnection.cleanupIfClosed
  by_cases hclosed : (b.services i).inputOpen = false ∧ (b.services i).outputOpen = false
  · rw [if_pos (by simp [hclosed])]
    obtain ⟨f, hf⟩ := Option.isSome_iff_exists.mp h.started.onCleanupService
    have hi := h.input
    have ho := h.output
    rw [hclosed.1] at hi
    rw [hclosed.2] at ho
    have hevents : (b.cleanupService i).eventsOf i = b.eventsOf i ++ [.onCleanupService f] := by
      simp [BridgeConnection.cleanupService, hf]
    refine .inr ⟨?_, ?_, ?_, b.eventsOf i, f, hevents, h.noCleanup⟩
    · simp [BridgeConnection.cleanupService, hf]
    · rw [hevents]
      exact (closed_of_flag hi).imp id (List.mem_append_left _)
    · rw [hevents]
      exact (closed_of_flag ho).imp id (List.mem_append_left _)
  · have hopen : (b.services i).inputOpen = true ∨ (b.services i).outputOpen = true := by
      cases hin : (b.services i).inputOpen <;> cases hout : (b.services i).outputOpen <;> simp_all
    rw [if_neg (by rcases hopen with ho | ho <;> simp [ho])]
    exact .inl ⟨h, hopen⟩

theorem sendEof (h : Live i start b) : Settled i start (b.sendEof i) :=
  (h.closeOutput.write _ _).settle

theorem sendClose (h : Live i start b) : Settled i start (b.sendClose i) :=
  (h.closeInput.write _ _).settle

/-- Setting the fifo descriptor keeps everything the invariant speaks of. -/
theorem setFd (h : Live i start b) (fd : Int) :
    Live i start (b.modify i fun service => { service with serviceData := some (.bulk fd) }) := by
  constructor
  · simpa using h.port
  · rw [BridgeConnection.modify_services_self]
    exact h.input
  · rw [BridgeConnection.modify_services_self]
    exact h.output
  · have hs := h.started
    constructor
    · simpa using hs.onBytesReceived
    · simpa using hs.onEof
    · simpa using hs.onCleanupService
    · simp
    · simp
  · exact h.noCleanup

theorem callOnEof (h : Live i start b) {b' : BridgeConnection} (hb : b.callOnEof i = some b') :
    Live i start b' ∨ Ended i start b' := by
  unfold BridgeConnection.callOnEof at hb
  cases hf : (b.services i).onEof with
  | none => simp [hf] at hb
  | some f =>
      simp only [hf] at hb
      have hlog := h.log_onEof f
      cases f with
      | methodOnEof =>
          cases hb
          exact hlog.sendEof.live_or_ended
      | bulkOnEof =>
          simp only [BridgeConnection.runOnEof, BridgeConnection.bulkOnEof] at hb
          split at hb
          · cases hb
            exact .inl (hlog.setFd _)
          · cases hb
      | _ =>
          cases hb
          exact .inl hlog

end Live

/-- On an ended slot the test finds the flags the reset has reopened. -/
theorem Ended.settle {i : Slot} {start : BridgeService} {b : BridgeConnection}
    (h : Ended i start b) : Settled i start (b.cleanupIfClosed i) := by
  rw [BridgeConnection.cleanupIfClosed, if_neg (by simp [h.unused, BridgeService.unused])]
  exact .inr h

theorem Settled.frame {i j : Slot} {start : BridgeService} {b b' : BridgeConnection}
    (h : Settled i start b) (hij : i ≠ j) (hf : b.Frame j b') : Settled i start b' := by
  obtain ⟨hs, he⟩ := hf i hij
  rcases h with ⟨hl, ho⟩ | hend
  · exact .inl ⟨hl.frame hij hf, by rw [hs]; exact ho⟩
  · refine .inr ⟨?_, ?_, ?_, ?_⟩
    · rw [hs]; exact hend.unused
    · rw [he]; exact hend.input
    · rw [he]; exact hend.output
    · rw [he]; exact hend.last

theorem Live.portStatusSwitch {i : Slot} {start : BridgeService} {b b' : BridgeConnection}
    {buffer : List UInt8} (h : Live i start b) (hb : b.portStatusSwitch i buffer = some b') :
    Settled i start b' := by
  obtain ⟨status, c, -, hc, rfl⟩ := BridgeConnection.portStatusSwitch_eq_some.mp hb
  have hcourse : Live i start c ∨ Ended i start c := by
    unfold BridgeConnection.portStatusCase at hc
    split at hc
    · exact h.closeInput.callOnEof hc
    · split at hc
      · cases hc
        exact .inl h.closeOutput
      · obtain ⟨-, -, rfl⟩ := Option.map_eq_some_iff.mp hc
        exact .inl h
  rcases hcourse with hl | hend
  · exact hl.settle
  · exact hend.settle

end AapBridge.Accessory
