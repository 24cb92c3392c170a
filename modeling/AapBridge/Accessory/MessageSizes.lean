import AapBridge.Accessory.ThreadSteps

/-! # The size of what the accessory queues

`writeAllPort` stores an `int` length in a `short`, and the protocol allows 4000
bytes. Every buffer the code fills itself is far smaller and a method reply is
tested; a signal is passed on whatever its size. The invariant is about every
buffer and message a thread carries between the call and the queue.
-/

namespace AapBridge.Accessory

open AapBridge.Lib AapBridge.Lib.HalfClose

structure Fits (msg : MultiplexedMessage) : Prop where
  nonneg : 0 ≤ msg.size.toInt
  limit : msg.size.toInt ≤ 4000
  stored : msg.size.toInt = msg.data.length

/-- The condition: no signal is longer than the limit, nor the error that
replaces a reply longer than the limit. -/
def WithinLimit : ThreadsLabel → Prop
  | .pop _ (some marshalled) => marshalled.length ≤ 4000
  | .reply (some marshalled) messageTooLong =>
      marshalled.length ≤ 4000 ∨ messageTooLong.length ≤ 4000
  | _ => True

def MainPc.Fits : MainPc → Prop
  | .write _ buffer _ _ | .sendClear _ _ buffer => buffer.length ≤ 4000
  | .addWait msg _ _ | .addStore msg _ _ => ∀ m ∈ msg, Accessory.Fits m
  | _ => True

def ServicePc.Fits : ServicePc → Prop
  | .write buffer | .eofClear buffer | .eofWrite buffer => buffer.length ≤ 4000
  | .addWait msg _ | .addStore msg _ => Accessory.Fits msg
  | _ => True

namespace ThreadsState

variable {s t : ThreadsState}

structure Sized (s : ThreadsState) : Prop where
  added : ∀ origin msg, (origin, some msg) ∈ s.added → Fits msg
  main : s.main.Fits
  thread : ∀ k, (s.pc k).Fits

/-- The narrowing to a `short` keeps a length up to the limit, and no other
length is in order. -/
theorem message_fits_iff (s : ThreadsState) (i : Slot) (buffer : List UInt8) :
    Fits (s.message i buffer) ↔ buffer.length ≤ 4000 := by
  constructor
  · intro h
    have hle := h.limit
    rw [h.stored] at hle
    exact Int.ofNat_le.mp hle
  · intro h
    have hmod : buffer.length % 65536 = buffer.length := Nat.mod_eq_of_lt (by omega)
    have hsize : (s.message i buffer).size.toInt = buffer.length := by
      show (BitVec.ofNat 16 buffer.length).toInt = buffer.length
      rw [BitVec.toInt_eq_toNat_cond, BitVec.toNat_ofNat]
      simp only [Nat.reducePow, hmod]
      rw [if_pos (by omega)]
    exact ⟨by omega, by omega, hsize⟩

theorem methodReply_length {reply : Option (List UInt8)} {tooLong marshalled : List UInt8}
    (h : methodReply reply tooLong = some marshalled) (hlimit : WithinLimit (.reply reply tooLong)) :
    marshalled.length ≤ 4000 := by
  obtain ⟨bytes, rfl, rfl⟩ := Option.map_eq_some_iff.mp h
  split
  · next hlong => exact hlimit.resolve_left (Nat.not_le.mpr hlong)
  · next hshort => exact Nat.le_of_not_lt hshort

theorem MainMove.fits {label : ThreadsLabel} {pc pc' : MainPc} (h : MainMove s label pc pc')
    (hpc : pc.Fits) (hlimit : WithinLimit label) : pc'.Fits := by
  cases h with
  | replied hreply => exact methodReply_length hreply hlimit
  | message =>
      rintro m ⟨⟩
      exact (message_fits_iff s _ _).mpr hpc
  | deInitEnd => exact fun m hm => nomatch hm
  | keepalive | noPort | denied | build =>
      show List.length _ ≤ 4000
      simp [deniedResponse, statusBuffer]
  | _ => trivial

theorem ServiceMove.fits {k : Nat} {label : ThreadsLabel} {pc pc' : ServicePc}
    (h : ServiceMove s k label pc pc') (hpc : pc.Fits) (hlimit : WithinLimit label) : pc'.Fits := by
  cases h with
  | read hdata => exact Nat.le_trans hdata (by decide)
  | signal => exact hlimit
  | write => exact (message_fits_iff s _ _).mpr hpc
  | eofWrite => exact (message_fits_iff s _ _).mpr hpc
  | eofBuild =>
      show List.length _ ≤ 4000
      simp [statusBuffer]
  | _ => trivial

theorem MainUpdate.fits {pc pc' : MainPc} {i : Slot} {f : BridgeService → BridgeService}
    (h : MainUpdate s pc i f pc') (hpc : pc.Fits) : pc'.Fits := by
  cases h with
  | send => exact hpc
  | _ => trivial

/-- Moving one thread to a place that fits. -/
theorem Sized.place (h : Sized s) {k : Nat} {pc : ServicePc} (hpc : pc.Fits) :
    Sized (s.place k pc) := by
  refine ⟨h.added, h.main, fun j => ?_⟩
  by_cases hj : j = k
  · subst hj
    rw [place_pc_self]
    exact hpc
  · rw [place_pc_ne s hj]
    exact h.thread j

theorem Sized.store (h : Sized s) {msg : Option MultiplexedMessage} (hmsg : ∀ m ∈ msg, Fits m)
    (origin : Origin) : Sized (s.store msg origin) := by
  refine ⟨fun o m hm => ?_, h.main, h.thread⟩
  obtain hm | hm := List.mem_append.mp hm
  · exact h.added o m hm
  · cases List.mem_singleton.mp hm
    exact hmsg m rfl

theorem Sized.step {label : ThreadsLabel} (h : Sized s) (hlimit : WithinLimit label)
    (ht : s.step label = some t) : Sized t := by
  have hmain := h.main
  cases step_cases ht with
  | ignored => exact h
  | main hpc hm => exact ⟨h.added, hm.fits (hpc ▸ hmain) hlimit, h.thread⟩
  | mainUpdate hpc hu => exact ⟨h.added, hu.fits (hpc ▸ hmain), h.thread⟩
  | create hpc =>
      refine ⟨h.added, trivial, fun k => ?_⟩
      by_cases hk : k = s.started
      · subst hk
        obtain hnew | hnew := create_pc_self s _ _ <;> rw [hnew] <;> trivial
      · rw [create_pc_ne s hk]
        exact h.thread k
  | install hpc =>
      refine ⟨h.added, ?_, h.thread⟩
      show List.length _ ≤ 4000
      simp [openResponse]
  | mainWait hpc =>
      rw [hpc] at hmain
      exact ⟨h.added, hmain, h.thread⟩
  | @mainStore _ origin _ hpc =>
      rw [hpc] at hmain
      have hstored := h.store hmain origin
      exact ⟨hstored.added, trivial, hstored.thread⟩
  | signalsCleanup hpc hs =>
      refine ⟨h.added, trivial, fun k => ?_⟩
      show ((s.stopWork _).pc k).Fits
      rw [stopWork_pc]
      exact h.thread k
  | spawnLock | allocate | spawnUnlock | mainCleanupLock | mainReset | mainCleanupUnlock =>
      exact ⟨h.added, trivial, h.thread⟩
  | @service k _ _ _ hpc hm => exact h.place (hm.fits (hpc ▸ h.thread k) hlimit)
  | @eofClear k _ hpc =>
      have hbuffer := h.thread k
      rw [hpc] at hbuffer
      apply Sized.place
      · exact ⟨h.added, h.main, h.thread⟩
      · exact hbuffer
  | @serviceWait k _ _ hpc =>
      have hmsg := h.thread k
      rw [hpc] at hmsg
      apply Sized.place
      · exact ⟨h.added, h.main, h.thread⟩
      · exact hmsg
  | @serviceStore k _ _ hpc =>
      have hmsg := h.thread k
      rw [hpc] at hmsg
      have hstored := h.store (fun m hm => Option.some.inj hm ▸ hmsg) (.service k)
      exact hstored.place trivial
  | startLock | startUnlock | serviceCleanupLock | serviceReset | serviceCleanupUnlock =>
      apply Sized.place
      · exact ⟨h.added, h.main, h.thread⟩
      · trivial
  | senderTest | senderPoll | wrote | receiverNull | receiverEnds =>
      exact ⟨h.added, h.main, h.thread⟩

theorem Sized.initial : Sized .initial :=
  ⟨fun _ _ h => absurd h List.not_mem_nil, trivial, fun _ => trivial⟩

instance (label : ThreadsLabel) : Decidable (WithinLimit label) := by
  unfold WithinLimit
  split <;> infer_instance

end ThreadsState

open ThreadsState

/-- Any interleaving of all threads, any replies, signals and data. In a run in
which every signal, and every error in place of a reply, is within the limit,
every message added to the send queue has a size of 0 to 4000, the number of its
bytes; and the message made of a buffer is in order exactly when the buffer is
within the limit. -/
theorem messages_fit (s : ThreadsState)
    (h : (bridgeThreads.guard fun _ label => WithinLimit label).Reachable s) :
    (∀ origin msg, (origin, some msg) ∈ s.added → Fits msg) ∧
      ∀ i buffer, Fits (s.message i buffer) ↔ buffer.length ≤ 4000 := by
  have hsized : Sized s := by
    apply h.invariant
    · rintro s rfl
      exact .initial
    · intro s label t hs ht
      obtain ⟨hlimit, hstep⟩ := Machine.guard_step.mp ht
      exact hs.step hlimit hstep
  exact ⟨hsized.added, message_fits_iff s⟩

/-- A signals service is opened on port 3, and its thread pops `marshalled`. -/
private def forwardSignal (marshalled : List UInt8) : List ThreadsLabel :=
  [.frame spawnerService [0, 3, 0, 0], .main, .main, .openNewPort (some firstPort), .init true, .main, .main, .main,
    .main, .main, .service 0, .service 0, .service 0, .pop 0 (some marshalled), .service 0,
    .service 0, .service 0]

theorem forwardSignal_added (marshalled : List UInt8) :
    ∃ s, bridgeThreads.run .initial (forwardSignal marshalled) = some s ∧
      s.added = [(.opened 0, some ⟨1, 8, openResponse 3⟩),
        (.service 0, some ⟨3, BitVec.ofNat 16 marshalled.length, marshalled⟩)] := ⟨_, rfl, rfl⟩

private theorem forwardSignal_isSome :
    ((bridgeThreads.guard fun _ label => WithinLimit label).run .initial
      (forwardSignal [0x6c, 4, 1, 1])).isSome := by decide +kernel

theorem messages_fit_signal :
    ∃ s, (bridgeThreads.guard fun _ label => WithinLimit label).Reachable s ∧
      s.added.length = 2 ∧ ∀ origin msg, (origin, some msg) ∈ s.added → Fits msg :=
  ⟨_, .of_run rfl forwardSignal_isSome, by decide +kernel,
    (messages_fit _ (.of_run rfl forwardSignal_isSome)).1⟩

/-- A signal over the limit goes to the send queue as it is. -/
theorem forwardSignal_unfit {marshalled : List UInt8} (h : 4000 < marshalled.length) :
    ∃ s, bridgeThreads.run .initial (forwardSignal marshalled) = some s ∧
      ∃ origin msg, (origin, some msg) ∈ s.added ∧ ¬Fits msg := by
  obtain ⟨s, hrun, hadded⟩ := forwardSignal_added marshalled
  have hmem : (.service 0, some ⟨3, BitVec.ofNat 16 marshalled.length, marshalled⟩) ∈ s.added := by
    rw [hadded]
    exact List.mem_cons_of_mem _ (List.mem_singleton.mpr rfl)
  refine ⟨s, hrun, .service 0, _, hmem, fun hfits => ?_⟩
  have hlimit := hfits.limit
  rw [hfits.stored] at hlimit
  exact Nat.not_le.mpr h (Int.ofNat_le.mp hlimit)

theorem oversized_signal_added :
    ∃ s, bridgeThreads.run .initial (forwardSignal (List.replicate 4001 0)) = some s ∧
      ∃ origin msg, (origin, some msg) ∈ s.added ∧ ¬Fits msg :=
  forwardSignal_unfit (by rw [List.length_replicate]; omega)

end AapBridge.Accessory
