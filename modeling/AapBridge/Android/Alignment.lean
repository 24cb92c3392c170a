import AapBridge.Android.ReceiverThread

/-! # Frame alignment of the receiver thread

Where the stream stands at each place of the loop: a header is read in front of
a frame, and behind the header as many bytes of the payload are left as the code
is going to take. The one step that breaks it is a test of `inputOpen` that
fails with a payload on the stream; nothing skips that payload.
-/

namespace AapBridge.Android

open AapBridge.Lib
open AapBridge.Accessory (Slot slot? MultiplexedMessage senderBytes senderHeader short_of_bytes)

variable {Tid Sid P : Type*}

/-- What the sender puts on the stream for some frames. -/
def streamOf (msgs : List MultiplexedMessage) : List UInt8 := (msgs.map senderBytes).flatten

namespace ReceivingState

variable (s : ReceivingState Tid Sid P)

/-- The frames whose headers the loop has still to read, or whose payload it is in. -/
def coming : List MultiplexedMessage := s.sent.drop s.iterations

/-- Iteration `iterations` of the loop reads its header where frame `iterations` starts. -/
def Aligned : Prop :=
  match s.receiver with
  | .header bytes => bytes ++ s.unread = streamOf s.coming
  | _ => True

instance : Decidable s.Aligned := by
  unfold Aligned
  split <;> infer_instance

/-- The condition: a flag found cleared has no payload behind it. -/
def InputTested : ReceivingLabel Tid Sid P → Prop
  | .receive _ =>
      match s.receiver with
      | .test service dataLength =>
          dataLength = 0 ∨ ∀ x ∈ s.port service, (s.ports x).inputOpen = true
      | .readAll service _ remaining =>
          remaining = 0 ∨ ∀ x ∈ s.port service, (s.ports x).inputOpen = true
      | _ => True
  | _ => True

instance (label : ReceivingLabel Tid Sid P) : Decidable (s.InputTested label) := by
  unfold InputTested
  split
  · split <;> infer_instance
  · infer_instance

/-! ## Places of the stream -/

/-- `n` bytes of a payload are left before the next frame. -/
def Pending (n : Nat) : Prop :=
  ∃ msg rest data, s.coming = msg :: rest ∧ data.length = n ∧ s.unread = data ++ streamOf rest

/-- The whole payload is left of a frame with this header. -/
def Payload (port size : Short) : Prop :=
  ∃ msg rest, s.coming = msg :: rest ∧ msg.port = port ∧ msg.size = size ∧
    s.unread = msg.data ++ streamOf rest

/-- Only the port status service has four-byte frames, only the spawner eight. -/
def Serves (service : Sid) (port : Short) : Prop :=
  (s.kind service = .portStatus → port = 0) ∧ (s.kind service = .serviceSpawner → port = 1)

def Place : Prop :=
  match s.receiver with
  | .header bytes => bytes ++ s.unread = streamOf s.coming
  | .lookup port dataLength => s.Payload port dataLength
  | .skip mustSkip => s.Pending mustSkip.toNat
  | .test service dataLength => ∃ port, s.Payload port dataLength ∧ s.Serves service port
  | .readAll service _ remaining => s.Pending remaining ∧ (s.port service).isSome
  | .skipRead i => s.Pending i.toNat
  | .handle _ _ | .statusTest _ _ | .statusSwitch _ _ | .statusCleanup _ | .awaitDone => s.Pending 0
  | .stopped => True

structure Alignment : Prop where
  frames : ∀ msg ∈ s.sent, GoodFrame msg
  iterations : s.iterations ≤ s.sent.length
  services : ∀ i service, s.activeServices i = some service →
    (s.kind service = .portStatus → i.val = 0) ∧ (s.kind service = .serviceSpawner → i.val = 1)
  place : s.Place

variable {s}

theorem Place.aligned (h : s.Place) : s.Aligned := by
  unfold Place at h
  unfold Aligned
  split at h <;> simp_all

/-! ## Headers -/

theorem streamOf_cons (msg : MultiplexedMessage) (rest : List MultiplexedMessage) :
    streamOf (msg :: rest) = senderHeader msg ++ (msg.data ++ streamOf rest) := by
  simp [streamOf, senderBytes]

theorem streamOf_append (msgs rest : List MultiplexedMessage) :
    streamOf (msgs ++ rest) = streamOf msgs ++ streamOf rest := by
  simp [streamOf]

/-- `getShort` undoes the two casts of the sender. -/
theorem getShort_bytes (v : Short) :
    getShort (Accessory.lowByte v.toInt) (Accessory.highByte v.toInt) = v := by
  apply BitVec.eq_of_toNat_eq
  have hbytes := short_of_bytes v
  have hlt := v.isLt
  show (BitVec.ofNat 16 (ByteOrder.littleEndian.get [_, _])).toNat = v.toNat
  rw [BitVec.toNat_ofNat]
  simp only [ByteOrder.get, ByteOrder.arrange, valueOf, List.foldr]
  omega

/-! ## Reading -/

theorem read_spec {n requested : Nat} {r : List UInt8 × ReceivingState Tid Sid P}
    (h : s.read n requested = some r) :
    1 ≤ n ∧ n ≤ requested ∧ r.1.length = n ∧ s.unread = r.1 ++ r.2.unread ∧
      r.2 = { s with unread := r.2.unread } := by
  unfold read at h
  split at h
  · rename_i hn
    cases h
    refine ⟨hn.1, hn.2.1, ?_, (List.take_append_drop n s.unread).symm, rfl⟩
    show (s.unread.take n).length = n
    rw [List.length_take]
    omega
  · cases h

theorem Pending.read {k n requested : Nat} {r : List UInt8 × ReceivingState Tid Sid P}
    (h : s.Pending k) (hr : s.read n requested = some r) (hk : requested ≤ k) :
    r.2.Pending (k - n) := by
  obtain ⟨msg, rest, data, hcoming, hdata, hunread⟩ := h
  obtain ⟨-, hle, hlen, hsplit, hframe⟩ := read_spec hr
  have htake : r.1 = data.take n := by
    rw [hunread] at hsplit
    have := congrArg (List.take n) hsplit
    rw [List.take_append_of_le_length (by omega), ← hlen, List.take_left] at this
    rw [← this, hlen]
  have hrest : r.2.unread = data.drop n ++ streamOf rest := by
    rw [hunread] at hsplit
    have := congrArg (List.drop n) hsplit
    rw [List.drop_append_of_le_length (by omega)] at this
    rw [this, ← hlen, List.drop_left]
  refine ⟨msg, rest, data.drop n, ?_, by rw [List.length_drop, hdata], hrest⟩
  rw [hframe]
  exact hcoming

theorem Payload.pending {port size : Short} (h : s.Payload port size)
    (hframes : ∀ msg ∈ s.sent, GoodFrame msg) :
    s.Pending size.toInt.toNat ∧ 0 ≤ size.toInt ∧ size.toInt ≤ 4000 ∧
      (port = 0 → size.toInt = 4) ∧ (port = 1 → size.toInt = 8) := by
  obtain ⟨msg, rest, hcoming, rfl, rfl, hunread⟩ := h
  have hmem : msg ∈ s.sent := by
    apply List.mem_of_mem_drop (i := s.iterations)
    show msg ∈ s.coming
    rw [hcoming]
    exact List.mem_cons_self
  obtain ⟨-, hsize, hmax, hstatus, hspawner⟩ := hframes msg hmem
  refine ⟨⟨msg, rest, msg.data, hcoming, by omega, hunread⟩, by omega, by omega, ?_, ?_⟩
  · intro hport
    have := hstatus hport
    omega
  · intro hport
    have := hspawner hport
    omega

theorem next_coming {msg : MultiplexedMessage} {rest : List MultiplexedMessage}
    (h : s.coming = msg :: rest) : s.next.coming = rest := by
  show s.sent.drop (s.iterations + 1) = rest
  rw [← List.drop_drop]
  show s.coming.drop 1 = rest
  rw [h]
  rfl

/-- Behind a payload the loop starts again, in front of the next frame. -/
theorem Pending.next (h : s.Pending 0) :
    s.next.Place ∧ s.next.iterations ≤ s.next.sent.length := by
  obtain ⟨msg, rest, data, hcoming, hdata, hunread⟩ := h
  have hnil : data = [] := List.eq_nil_of_length_eq_zero hdata
  have hlt : s.iterations < s.sent.length := by
    by_contra hge
    have : s.coming = [] := List.drop_eq_nil_of_le (by omega)
    rw [this] at hcoming
    cases hcoming
  have hrest := next_coming hcoming
  constructor
  · show [] ++ s.unread = streamOf s.next.coming
    rw [hrest, hunread, hnil]
    rfl
  · show s.iterations + 1 ≤ s.sent.length
    omega

/-! ## Steps of other threads -/

/-- A place is about what is to come on the stream and about the services. -/
theorem Place.mono {t : ReceivingState Tid Sid P} (h : s.Place) (hreceiver : t.receiver = s.receiver)
    (hkind : t.kind = s.kind) (hport : ∀ service, (s.port service).isSome → (t.port service).isSome)
    (hstream : ∀ bytes, bytes ++ s.unread = streamOf s.coming → bytes ++ t.unread = streamOf t.coming)
    (hpending : ∀ n, s.Pending n → t.Pending n)
    (hpayload : ∀ port size, s.Payload port size → t.Payload port size) : t.Place := by
  unfold Place at h ⊢
  rw [hreceiver]
  split at h
  · exact hstream _ h
  · exact hpayload _ _ h
  · exact hpending _ h
  · obtain ⟨port, hp, hserves⟩ := h
    unfold Serves
    rw [hkind]
    exact ⟨port, hpayload _ _ hp, hserves⟩
  · exact ⟨hpending _ h.1, hport _ h.2⟩
  all_goals first | exact hpending _ h | trivial

/-- Starting again with a payload on the stream reads a header from it. -/
theorem Pending.misaligned {n : Nat} (h : s.Pending n) (hn : 0 < n) : ¬s.next.Aligned := by
  obtain ⟨msg, rest, data, hcoming, hdata, hunread⟩ := h
  intro haligned
  have hnext := next_coming hcoming
  have hstream : s.unread = streamOf s.next.coming := haligned
  have hlen := congrArg List.length hstream
  rw [hnext, hunread, List.length_append] at hlen
  omega

theorem Place.frame {t : ReceivingState Tid Sid P} (h : s.Place) (hreceiver : t.receiver = s.receiver)
    (hkind : t.kind = s.kind) (hport : ∀ service, (s.port service).isSome → (t.port service).isSome)
    (hunread : t.unread = s.unread) (hcoming : t.coming = s.coming) : t.Place := by
  apply h.mono hreceiver hkind hport
  · intro bytes hbytes
    rw [hunread, hcoming]
    exact hbytes
  · intro n hn
    unfold Pending
    rw [hunread, hcoming]
    exact hn
  · intro port size hp
    unfold Payload
    rw [hunread, hcoming]
    exact hp

/-- A new frame comes behind all that is there. -/
theorem Place.arrive {msg : MultiplexedMessage} (h : s.Place) (hle : s.iterations ≤ s.sent.length) :
    (s.arrive msg).Place := by
  have hunread : (s.arrive msg).unread = s.unread ++ streamOf [msg] := by
    simp [ReceivingState.arrive, streamOf]
  have hcoming : (s.arrive msg).coming = s.coming ++ [msg] := List.drop_append_of_le_length hle
  apply h.mono (t := s.arrive msg) rfl rfl (fun _ h => h)
  · intro bytes hbytes
    rw [hunread, hcoming, streamOf_append, ← hbytes, List.append_assoc]
  · intro n hn
    obtain ⟨first, rest, data, hfirst, hdata, hrest⟩ := hn
    refine ⟨first, rest ++ [msg], data, by rw [hcoming, hfirst]; rfl, hdata, ?_⟩
    rw [hunread, hrest, streamOf_append, List.append_assoc]
  · intro port size hp
    obtain ⟨first, rest, hfirst, hport, hsize, hrest⟩ := hp
    refine ⟨first, rest ++ [msg], by rw [hcoming, hfirst]; rfl, hport, hsize, ?_⟩
    rw [hunread, hrest, streamOf_append, List.append_assoc]

/-! ## Steps of the receiver -/

theorem Alignment.move {t : ReceivingState Tid Sid P} (h : s.Alignment) (hsent : t.sent = s.sent)
    (hkind : t.kind = s.kind)
    (hservices : ∀ i service, t.activeServices i = some service → s.activeServices i = some service)
    (hiterations : t.iterations ≤ t.sent.length) (hplace : t.Place) : t.Alignment where
  frames := by
    rw [hsent]
    exact h.frames
  iterations := hiterations
  services := by
    intro i service hi
    rw [hkind]
    exact h.services i service (hservices i service hi)
  place := hplace

theorem Alignment.enter {pc : ReceiverThreadPc Sid} (h : s.Alignment) (hplace : (s.enter pc).Place) :
    (s.enter pc).Alignment :=
  h.move rfl rfl (fun _ _ hi => hi) h.iterations hplace

theorem Alignment.next (h : s.Alignment) (hp : s.Pending 0) : s.next.Alignment :=
  h.move rfl rfl (fun _ _ hi => hi) hp.next.2 hp.next.1

theorem Alignment.read {n requested : Nat} {r : List UInt8 × ReceivingState Tid Sid P}
    {pc : ReceiverThreadPc Sid} (h : s.Alignment) (hr : s.read n requested = some r)
    (hplace : (r.2.enter pc).Place) : (r.2.enter pc).Alignment := by
  obtain ⟨-, -, -, -, hframe⟩ := read_spec hr
  rw [hframe] at hplace ⊢
  exact h.move rfl rfl (fun _ _ hi => hi) h.iterations hplace

theorem Alignment.header {bytes : List UInt8} {n : Nat} {r : List UInt8 × ReceivingState Tid Sid P}
    (h : s.Alignment) (hpc : s.receiver = .header bytes)
    (hr : s.read n (4 - bytes.length) = some r) :
    (match bytes ++ r.1 with
      | [p0, p1, l0, l1] => r.2.enter (.lookup (getShort p0 p1) (getShort l0 l1))
      | bytes => r.2.enter (.header bytes)).Alignment := by
  have hplace := h.place
  unfold Place at hplace
  simp only [hpc] at hplace
  obtain ⟨-, -, -, hsplit, hframe⟩ := read_spec hr
  have hcoming : r.2.coming = s.coming := by rw [hframe]; rfl
  have hstream : (bytes ++ r.1) ++ r.2.unread = streamOf r.2.coming := by
    rw [hcoming, ← hplace, hsplit, List.append_assoc]
  split
  · rename_i p0 p1 l0 l1 hbytes
    rw [hbytes] at hstream
    apply h.read hr
    show r.2.Payload (getShort p0 p1) (getShort l0 l1)
    cases hmsgs : r.2.coming with
    | nil =>
        rw [hmsgs] at hstream
        cases hstream
    | cons msg rest =>
        rw [hmsgs, streamOf_cons] at hstream
        obtain ⟨hheader, hrest⟩ := List.append_inj hstream (by simp)
        simp only [senderHeader, List.cons.injEq, and_true] at hheader
        obtain ⟨rfl, rfl, rfl, rfl⟩ := hheader
        exact ⟨msg, rest, hmsgs, (getShort_bytes _).symm, (getShort_bytes _).symm, hrest⟩
  · exact h.read hr hstream

theorem Alignment.lookup {port dataLength : Short} {i : Slot} (h : s.Alignment)
    (hp : s.Payload port dataLength) (hi : slot? port.toInt = some i) :
    (match s.activeServices i with
      | none => s.enter (.skip dataLength.toInt)
      | some service => s.enter (.test service dataLength)).Alignment := by
  split
  · exact h.enter (hp.pending h.frames).1
  · rename_i service hservice
    obtain ⟨hstatus, hspawner⟩ := h.services i service hservice
    have hport := (slot_of_short i port).mp hi
    refine h.enter ⟨port, hp, ?_, ?_⟩
    · intro hkind
      rw [hport, hstatus hkind]
      rfl
    · intro hkind
      rw [hport, hspawner hkind]
      rfl

theorem Alignment.onDataReady {service : Sid} {port length : Short} (h : s.Alignment)
    (hp : s.Payload port length) (hserves : s.Serves service port) (hsome : (s.port service).isSome) :
    (s.onDataReady service length).Alignment := by
  obtain ⟨hpending, hnonneg, hmax, hfour, height⟩ := hp.pending h.frames
  unfold ReceivingState.onDataReady
  cases hkind : s.kind service with
  | portStatus =>
      have hlen := hfour (hserves.1 hkind)
      rw [hlen] at hpending
      rw [if_neg (by omega)]
      exact h.enter ⟨hpending, hsome⟩
  | serviceSpawner =>
      rw [height (hserves.2 hkind)] at hpending
      exact h.enter ⟨hpending, hsome⟩
  | keepalive => exact h.enter hpending
  | dbusMethods | dbusSignals | bulkTransfer =>
      show (if _ then _ else _ : ReceivingState Tid Sid P).Alignment
      rw [if_neg (by omega)]
      exact h.enter ⟨hpending, hsome⟩

theorem Alignment.handle {service : Sid} {bytes : List UInt8} (h : s.Alignment)
    (hp : s.Pending 0) : (s.handle service bytes).Alignment := by
  unfold ReceivingState.handle
  split
  · split
    · split
      · exact h.next hp
      · exact h.enter hp
    · exact h.next hp
  · unfold spawnerResponse
    split
    · split
      · exact h.move rfl rfl (fun _ _ hi => hi) hp.next.2 hp.next.1
      · exact h.move rfl rfl (fun _ _ hi => hi) h.iterations hp
    · exact h.move rfl rfl (fun _ _ hi => hi) hp.next.2 hp.next.1
  all_goals first
    | exact h.next hp
    | split
      · exact h.enter trivial
      · exact h.next hp

/-- Taking the entry of a service out of the table. -/
theorem Alignment.dropEntry (h : s.Alignment) (i : Slot) : (s.dropEntry i).Alignment := by
  apply h.move (t := s.dropEntry i) rfl rfl ?_ h.iterations
  · exact h.place.frame rfl rfl (fun _ hs => hs) rfl rfl
  · intro j service hj
    by_cases hij : j = i
    · subst hij
      rw [show (s.dropEntry j).activeServices j = none from Function.update_self ..] at hj
      cases hj
    · rwa [show (s.dropEntry i).activeServices j = s.activeServices j from
        Function.update_of_ne hij ..] at hj

theorem Alignment.receive [DecidableEq P] {t : ReceivingState Tid Sid P} {n : Nat} (h : s.Alignment)
    (hc : s.InputTested (.receive n)) (hs : s.receive n = some t) : t.Alignment := by
  have hplace := h.place
  unfold Place at hplace
  unfold InputTested at hc
  unfold ReceivingState.receive at hs
  cases hpc : s.receiver with
  | header bytes =>
      simp only [hpc] at hs
      obtain ⟨r, hr, rfl⟩ := Option.map_eq_some_iff.mp hs
      exact h.header hpc hr
  | lookup port dataLength =>
      simp only [hpc] at hplace hs
      split at hs
      · cases hs
        exact h.enter trivial
      · rename_i i hi
        have hlookup := h.lookup hplace hi
        split at hs <;> rename_i hservice <;> cases hs <;> simp only [hservice] at hlookup
        · exact hlookup
        · exact hlookup
  | skip mustSkip =>
      simp only [hpc] at hplace hs
      split at hs
      · obtain ⟨r, hr, rfl⟩ := Option.map_eq_some_iff.mp hs
        apply h.read hr
        have hrest := hplace.read hr (Nat.le_refl _)
        rwa [show mustSkip.toNat - n = (mustSkip - n).toNat by omega] at hrest
      · cases hs
        rw [show mustSkip.toNat = 0 by omega] at hplace
        exact h.next hplace
  | test service dataLength =>
      simp only [hpc] at hplace hs hc
      obtain ⟨port, hp, hserves⟩ := hplace
      split at hs
      · cases hs
        exact h.enter trivial
      · rename_i x hx
        split at hs
        · cases hs
          exact h.onDataReady hp hserves (by rw [hx]; rfl)
        · rename_i hclosed
          cases hs
          obtain rfl | hopen := hc
          · exact h.next (hp.pending h.frames).1
          · exact absurd (hopen x hx) hclosed
  | readAll service bytes remaining =>
      simp only [hpc] at hplace hs hc
      obtain ⟨hpending, hsome⟩ := hplace
      split at hs
      · rename_i hzero
        cases hs
        rw [hzero] at hpending
        exact h.enter hpending
      · rename_i hmore
        split at hs
        · rename_i hnull
          rw [hnull] at hsome
          cases hsome
        · rename_i x hx
          split at hs
          · obtain ⟨r, hr, rfl⟩ := Option.map_eq_some_iff.mp hs
            apply h.read hr
            refine ⟨hpending.read hr (Nat.le_refl _), ?_⟩
            rw [(read_spec hr).2.2.2.2]
            exact hsome
          · rename_i hclosed
            exact absurd (hc.resolve_left hmore x hx) hclosed
  | skipRead i =>
      simp only [hpc] at hplace hs
      split at hs
      · obtain ⟨r, hr, rfl⟩ := Option.map_eq_some_iff.mp hs
        apply h.read hr
        obtain ⟨hpos, hle, -⟩ := read_spec hr
        have hrest := hplace.read hr (by omega)
        rwa [show i.toNat - n = (i - 1).toNat by omega] at hrest
      · cases hs
        rw [show i.toNat = 0 by omega] at hplace
        exact h.next hplace
  | handle service bytes =>
      simp only [hpc] at hplace hs
      cases hs
      exact h.handle hplace
  | statusTest port status =>
      simp only [hpc] at hplace hs
      split at hs <;> cases hs
      · exact h.next hplace
      · exact h.enter hplace
  | statusSwitch port status =>
      simp only [hpc] at hplace hs
      split at hs
      · split at hs <;> cases hs
        · exact h.next hplace
        · exact h.move rfl rfl (fun _ _ hi => hi) h.iterations hplace
      · cases hs
        exact h.enter hplace
  | statusCleanup port =>
      simp only [hpc] at hplace hs
      split at hs
      · cases hs
        exact h.next hplace
      · split at hs <;> cases hs
        · exact (h.dropEntry port).next hplace
        · exact h.next hplace
  | awaitDone =>
      simp only [hpc] at hplace hs
      split at hs
      · cases hs
        exact h.move rfl rfl (fun _ _ hi => hi) hplace.next.2 hplace.next.1
      · cases hs
  | stopped =>
      simp only [hpc] at hs
      cases hs

/-- A test that fails the condition leaves the payload; only the spawner goes on
to `handle` and comes back to the loop later. -/
theorem Alignment.misaligned [DecidableEq P] {t : ReceivingState Tid Sid P} {n : Nat}
    (h : s.Alignment) (hc : ¬s.InputTested (.receive n)) (hs : s.receive n = some t) :
    ¬t.Aligned ∨ ∃ service bytes, t.receiver = .handle service bytes := by
  have hplace := h.place
  unfold Place at hplace
  unfold InputTested at hc
  unfold ReceivingState.receive at hs
  cases hpc : s.receiver with
  | test service dataLength =>
      simp only [hpc, not_or, not_forall] at hplace hs hc
      obtain ⟨hlen, x, hx, hclosed⟩ := hc
      obtain ⟨port, hp, -⟩ := hplace
      obtain ⟨hpending, hnonneg, -⟩ := hp.pending h.frames
      rw [hx] at hs
      simp only [hclosed] at hs
      cases hs
      have hne : dataLength.toInt ≠ 0 := fun h0 => hlen (BitVec.eq_of_toInt_eq h0)
      exact .inl (hpending.misaligned (by omega))
  | readAll service bytes remaining =>
      simp only [hpc, not_or, not_forall] at hplace hs hc
      obtain ⟨hmore, x, hx, hclosed⟩ := hc
      rw [if_neg hmore, hx] at hs
      simp only [hclosed] at hs
      cases hs
      unfold readThrows
      split
      · exact .inr ⟨_, _, rfl⟩
      · exact .inl (hplace.1.misaligned (Nat.pos_of_ne_zero hmore))
  | _ => simp [hpc] at hc

/-! ## Steps -/

/-- What an application thread does leaves stream and receiver alone. -/
theorem Alignment.runApp [DecidableEq Tid] [DecidableEq P] {t : ReceivingState Tid Sid P} {tid : Tid}
    (h : s.Alignment) (hs : s.runApp tid = some t) : t.Alignment := by
  have hplace := h.place
  have hat : ∀ u : ReceivingState Tid Sid P, u.Alignment → ∀ pc, (u.at tid pc).Alignment := by
    intro u hu pc
    exact hu.move rfl rfl (fun _ _ hi => hi) hu.iterations
      (hu.place.frame rfl rfl (fun _ hp => hp) rfl rfl)
  have hclear : ∀ x f, (s.modifyPort x f).Alignment := by
    intro x f
    exact h.move rfl rfl (fun _ _ hi => hi) h.iterations
      (hplace.frame rfl rfl (fun _ hp => hp) rfl rfl)
  have hwrite : ∀ pc, (s.writeStatus tid pc).Alignment := by
    intro pc
    unfold writeStatus
    split <;> exact hat s h _
  have hdrop : ∀ x, (s.dropService x).Alignment := by
    intro x
    unfold dropService
    split
    · exact h
    · split
      · exact h.dropEntry _
      · exact h
  unfold ReceivingState.runApp at hs
  cases happ : s.app tid with
  | idle =>
      simp only [happ] at hs
      cases hs
  | closeClear x | eofClear x =>
      simp only [happ] at hs
      cases hs
      exact hat _ (hclear x _) _
  | closeWrite x | eofWrite x =>
      simp only [happ] at hs
      cases hs
      exact hwrite _
  | closeCleanup x | eofCleanup x =>
      simp only [happ] at hs
      cases hs
      exact hat _ (hdrop x) _

theorem Alignment.initial (h : ReceivingInit s) : s.Alignment where
  frames := by
    rw [h.sent]
    exact fun _ hmem => absurd hmem List.not_mem_nil
  iterations := by
    rw [h.iterations]
    exact Nat.zero_le _
  services i service hi := (h.services i service hi).2
  place := by
    unfold Place coming
    rw [h.receiver, h.unread, h.sent, List.drop_nil]
    rfl

theorem Alignment.step [DecidableEq Tid] [DecidableEq Sid] [DecidableEq P]
    {t : ReceivingState Tid Sid P} {label : ReceivingLabel Tid Sid P} (h : s.Alignment)
    (hc : s.InputTested label) (hs : s.step label = some t) : t.Alignment := by
  have hframe : ∀ u : ReceivingState Tid Sid P, u.receiver = s.receiver → u.kind = s.kind →
      (∀ service, (s.port service).isSome → (u.port service).isSome) → u.unread = s.unread →
      u.sent = s.sent → u.iterations = s.iterations → u.activeServices = s.activeServices →
      u.Alignment := by
    intro u hreceiver hkind hport hunread hsent hiterations hservices
    apply h.move hsent hkind
    · intro i service hi
      rwa [hservices] at hi
    · rw [hiterations, hsent]
      exact h.iterations
    · apply h.place.frame hreceiver hkind hport hunread
      unfold coming
      rw [hsent, hiterations]
  cases label with
  | arrive msg =>
      obtain ⟨hgood, hs⟩ := Option.ite_none_right_eq_some.mp hs
      cases hs
      constructor
      · intro m hm
        obtain hm | hm := List.mem_append.mp hm
        · exact h.frames m hm
        · rw [List.mem_singleton.mp hm]
          exact hgood
      · show s.iterations ≤ (s.sent ++ [msg]).length
        rw [List.length_append]
        exact Nat.le_add_right_of_le h.iterations
      · exact h.services
      · exact h.place.arrive h.iterations
  | receive n => exact h.receive hc hs
  | startClose tid x | startEof tid x =>
      unfold ReceivingState.step at hs
      simp only at hs
      split at hs
      · split at hs
        · cases hs
          exact hframe _ rfl rfl (fun _ hp => hp) rfl rfl rfl rfl
        · cases hs
      · cases hs
  | run tid => exact h.runApp hs
  | takeResponse =>
      obtain ⟨-, hs⟩ := Option.ite_none_right_eq_some.mp hs
      cases hs
      exact hframe _ rfl rfl (fun _ hp => hp) rfl rfl rfl rfl
  | register i service =>
      obtain ⟨hnew, hs⟩ := Option.ite_none_right_eq_some.mp hs
      cases hs
      refine ⟨h.frames, h.iterations, ?_, h.place.frame rfl rfl (fun _ hp => hp) rfl rfl⟩
      intro j other hj
      change Function.update s.activeServices i (some service) j = some other at hj
      by_cases hij : j = i
      · rw [hij, Function.update_self] at hj
        cases hj
        constructor <;>
        · intro hkind
          have hkind' : s.kind service = _ := hkind
          simp [hkind'] at hnew
      · rw [Function.update_of_ne hij] at hj
        exact h.services j other hj
  | assignPort service x =>
      obtain ⟨-, hs⟩ := Option.ite_none_right_eq_some.mp hs
      cases hs
      refine hframe _ rfl rfl ?_ rfl rfl rfl rfl
      intro other hother
      show (Function.update s.port service (some x) other).isSome
      by_cases heq : other = service
      · subst heq
        rw [Function.update_self]
        rfl
      · rwa [Function.update_of_ne heq]

end ReceivingState

section

variable [DecidableEq Tid] [DecidableEq Sid] [DecidableEq P]

/-- The receiver thread in runs whose steps all meet the condition. -/
def tested : Machine (ReceivingState Tid Sid P) (ReceivingLabel Tid Sid P) :=
  receiverThread.guard ReceivingState.InputTested

/-- Every header is read at the start of a frame, the frame of this iteration. -/
theorem headers_at_frames {s : ReceivingState Tid Sid P} (h : tested.Reachable s) : s.Aligned := by
  have hinv : s.Alignment := by
    apply h.invariant
    · intro t ht
      exact .initial ht
    · intro t a u ht hstep
      obtain ⟨hc, hs⟩ := Machine.guard_step.mp hstep
      exact ht.step hc hs
  exact hinv.place.aligned

end

/-- The bridge with its three services; the fourth is yet to be requested. -/
def bridgeStarted : ReceivingState (Fin 1) (Fin 4) (Fin 4) where
  activeServices i :=
    if i.val = 0 then some 0 else if i.val = 1 then some 1 else if i.val = 2 then some 2 else none
  kind := ![.portStatus, .serviceSpawner, .keepalive, .dbusMethods]
  port := ![some 0, some 1, some 2, none]
  ports i := ⟨BitVec.ofNat 16 i, ByteBuffer.allocate 4, true, true⟩
  statusPort := 0
  spawner := ⟨List.replicate 8 0, 0, 0, []⟩
  app _ := .idle
  receiver := .header []
  unread := []
  sent := []
  iterations := 0

theorem bridgeStarted_init : ReceivingInit bridgeStarted := by
  constructor
  · intro i service hi
    simp only [bridgeStarted] at hi
    split at hi
    · cases hi
      simp [bridgeStarted, *]
    · split at hi
      · cases hi
        simp [bridgeStarted, *]
      · split at hi <;> cases hi
        simp [bridgeStarted, *]
  all_goals first | rfl | exact fun _ => ⟨rfl, rfl⟩ | exact fun _ => rfl

private def response : MultiplexedMessage := ⟨1, 8, [0x73, 3, 0, 1, 0, 0, 0, 0]⟩

private def port3 : Slot := ⟨3, Accessory.three_inside⟩

/-- The service is requested and registered on port 3; a message of one byte comes for it. -/
private def requested : List (ReceivingLabel (Fin 1) (Fin 4) (Fin 4)) :=
  [.arrive response, .receive 4, .receive 0, .receive 0, .receive 8, .receive 0, .receive 0,
    .takeResponse, .receive 0, .register port3 3, .assignPort 3 3, .arrive ⟨3, 1, [0x6c]⟩]

private def readMessage : List (ReceivingLabel (Fin 1) (Fin 4) (Fin 4)) :=
  [.receive 4, .receive 0, .receive 0, .receive 1, .receive 0, .receive 0, .startClose 0 3, .run 0]

private theorem read_isSome : (tested.run bridgeStarted (requested ++ readMessage)).isSome := by decide +kernel

/-- The message is taken before the application closes the input. -/
theorem headers_at_frames_read : ∃ s : ReceivingState (Fin 1) (Fin 4) (Fin 4),
    s.iterations = 2 ∧ (s.ports 3).inputOpen = false ∧ s.Aligned :=
  ⟨_, by decide +kernel, by decide +kernel,
    headers_at_frames (Machine.Reachable.of_run (M := tested) bridgeStarted_init read_isSome)⟩

private def closed : List (ReceivingLabel (Fin 1) (Fin 4) (Fin 4)) :=
  [.startClose 0 3, .run 0, .receive 4, .receive 0, .receive 0]

private theorem closed_isSome : (receiverThread.run bridgeStarted (requested ++ closed)).isSome := by
  decide +kernel

/-- The application clears the flag with the message on the stream, and the next
header is read from its payload. -/
theorem headers_lost_on_close :
    ¬∀ s : ReceivingState (Fin 1) (Fin 4) (Fin 4), receiverThread.Reachable s → s.Aligned := by
  intro h
  have hreach := Machine.Reachable.of_run (M := receiverThread) bridgeStarted_init closed_isSome
  exact absurd (h _ hreach) (by decide +kernel)

end AapBridge.Android
