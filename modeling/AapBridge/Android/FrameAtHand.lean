import AapBridge.Android.Requests

/-! # The frame the receiver has at hand

In aligned runs the loop is always in one frame of the stream: the bytes a
service has read are the beginning of its payload, what is left of it is next on
the stream, and the entry found at its port says which service it goes to. Who
owns which port is a parameter; the looked-up entry has to agree with it.
-/

namespace AapBridge.Android

open AapBridge.Lib
open AapBridge.Accessory (Slot slot? MultiplexedMessage)

variable {Tid Sid P : Type*}

/-- The service that is at the frame. -/
def ReceiverThreadPc.serving : ReceiverThreadPc Sid → Option Sid
  | .test service _ | .readAll service _ _ | .handle service _ => some service
  | _ => none

namespace ReceivingState

variable (s : ReceivingState Tid Sid P) (owner : Option Sid → Short → Prop)

/-- The frame at hand is `msg`, and `service` has its port. -/
structure Owned (service : Option Sid) (msg : MultiplexedMessage) : Prop where
  current : s.coming.head? = some msg
  owner : owner service msg.port

/-- `bytes` have been read of the payload, `remaining` bytes are left. -/
def Filling (msg : MultiplexedMessage) (bytes : List UInt8) (remaining : Nat) : Prop :=
  ∃ data, msg.data = bytes ++ data ∧ data.length = remaining ∧
    s.unread = data ++ streamOf s.coming.tail

def AtHand : Prop :=
  match s.receiver with
  | .header _ | .lookup _ _ | .stopped => True
  | .skip _ => ∃ msg, s.Owned owner none msg
  | .test service _ => ∃ msg, s.Owned owner (some service) msg
  | .readAll service bytes remaining =>
      ∃ msg, s.Owned owner (some service) msg ∧ s.Filling msg bytes remaining
  | .handle service bytes => ∃ msg, s.Owned owner (some service) msg ∧ msg.data = bytes
  | .skipRead _ => ∃ service msg, s.kind service = .keepalive ∧ s.Owned owner (some service) msg
  | .statusTest _ _ | .statusSwitch _ _ | .statusCleanup _ =>
      ∃ service msg, s.kind service = .portStatus ∧ s.Owned owner (some service) msg
  | .awaitDone =>
      ∃ service msg, s.kind service = .serviceSpawner ∧ s.Owned owner (some service) msg

/-- How the receiver comes to the end of a frame. -/
inductive Finishing (msg : MultiplexedMessage) : Option Sid → Prop
  | skipped {mustSkip : Int} (receiver : s.receiver = .skip mustSkip) : Finishing msg none
  | empty {service : Sid} (receiver : s.receiver = .test service 0) (data : msg.data = []) :
      Finishing msg (some service)
  | handled {service : Sid} (receiver : s.receiver = .handle service msg.data)
      (answering : s.answering = false) : Finishing msg (some service)
  | status {service : Sid} (kind : s.kind service = .portStatus) : Finishing msg (some service)
  | ping {service : Sid} (kind : s.kind service = .keepalive) : Finishing msg (some service)
  | answered {service : Sid} (receiver : s.receiver = .awaitDone)
      (kind : s.kind service = .serviceSpawner) : Finishing msg (some service)

/-- A step of the receiver stays in the frame at hand or ends it. -/
inductive Progress (t : ReceivingState Tid Sid P) : Prop
  | stays (iterations : t.iterations = s.iterations) (place : t.AtHand owner)
      (awaitDone : t.receiver = .awaitDone → s.answering = true)
      (serving : ∀ service, t.receiver.serving = some service →
        s.receiver.serving = some service ∨ ∃ i, s.activeServices i = some service)
  | ends {service : Option Sid} {msg : MultiplexedMessage} (iterations : t.iterations = s.iterations + 1)
      (receiver : t.receiver = .header []) (owned : s.Owned owner service msg)
      (finishing : s.Finishing msg service)

variable {s owner}

/-- The frame at hand is the one whose header has been read. -/
theorem Payload.current {port size : Short} (h : s.Payload port size) :
    ∃ msg, s.coming.head? = some msg ∧ msg.port = port ∧ msg.size = size ∧
      s.unread = msg.data ++ streamOf s.coming.tail := by
  obtain ⟨msg, rest, hcoming, hport, hsize, hunread⟩ := h
  refine ⟨msg, ?_, hport, hsize, ?_⟩
  · rw [hcoming]
    rfl
  · rw [hcoming]
    exact hunread

theorem Filling.read {msg : MultiplexedMessage} {bytes : List UInt8} {remaining n : Nat}
    {r : List UInt8 × ReceivingState Tid Sid P} (h : s.Filling msg bytes remaining)
    (hr : s.read n remaining = some r) : r.2.Filling msg (bytes ++ r.1) (remaining - n) := by
  obtain ⟨data, hdata, hlength, hunread⟩ := h
  obtain ⟨-, hle, hlen, hsplit, hframe⟩ := read_spec hr
  rw [hunread] at hsplit
  have hn : n ≤ data.length := by omega
  have htake : data.take n = r.1 := by
    have hprefix := congrArg (List.take n) hsplit
    rwa [List.take_append_of_le_length hn, ← hlen, List.take_left, hlen] at hprefix
  have hdrop : data.drop n ++ streamOf s.coming.tail = r.2.unread := by
    have hsuffix := congrArg (List.drop n) hsplit
    rwa [List.drop_append_of_le_length hn, ← hlen, List.drop_left, hlen] at hsuffix
  have hcoming : r.2.coming = s.coming := by
    rw [hframe]
    rfl
  refine ⟨data.drop n, ?_, ?_, ?_⟩
  · rw [hdata, ← htake, List.append_assoc, List.take_append_drop]
  · rw [List.length_drop, hlength]
  · rw [hcoming]
    exact hdrop.symm

/-- With nothing left the buffer holds the whole payload. -/
theorem Filling.full {msg : MultiplexedMessage} {bytes : List UInt8} (h : s.Filling msg bytes 0) :
    msg.data = bytes := by
  obtain ⟨data, hdata, hlength, -⟩ := h
  rw [hdata, List.eq_nil_of_length_eq_zero hlength, List.append_nil]

/-- The end of `onDataReady` is the end of the frame. -/
theorem Progress.ends_next {service : Option Sid} {msg : MultiplexedMessage}
    (howned : s.Owned owner service msg) (hfinishing : s.Finishing msg service) :
    s.Progress owner s.next :=
  .ends rfl rfl howned hfinishing

theorem Progress.enters {pc : ReceiverThreadPc Sid} (hplace : (s.enter pc).AtHand owner)
    (hawait : pc ≠ .awaitDone) (hserving : ∀ service, pc.serving = some service →
      s.receiver.serving = some service ∨ ∃ i, s.activeServices i = some service) :
    s.Progress owner (s.enter pc) :=
  .stays rfl hplace (fun h => absurd h hawait) hserving

/-! ## Steps of the receiver -/

theorem Progress.read {n requested : Nat} {r : List UInt8 × ReceivingState Tid Sid P}
    {pc : ReceiverThreadPc Sid} (hr : s.read n requested = some r)
    (hplace : (r.2.enter pc).AtHand owner) (hawait : pc ≠ .awaitDone)
    (hserving : ∀ service, pc.serving = some service → s.receiver.serving = some service) :
    s.Progress owner (r.2.enter pc) := by
  obtain ⟨-, -, -, -, hframe⟩ := read_spec hr
  apply Progress.stays _ hplace (fun h => absurd h hawait) fun service h => .inl (hserving service h)
  rw [hframe]
  rfl

theorem onDataReady_progress {service : Sid} {port length : Short} {msg : MultiplexedMessage}
    (halign : s.Alignment) (hp : s.Payload port length) (hserves : s.Serves service port)
    (howned : s.Owned owner (some service) msg) (hserving : s.receiver.serving = some service) :
    s.Progress owner (s.onDataReady service length) := by
  obtain ⟨-, hnonneg, hmax, hfour, height⟩ := hp.pending halign.frames
  obtain ⟨current, hcurrent, -, hsize, hunread⟩ := hp.current
  obtain rfl : current = msg := Option.some.inj (hcurrent.symm.trans howned.current)
  have hmem : current ∈ s.sent := by
    apply List.mem_of_mem_drop (i := s.iterations)
    exact List.mem_of_head? hcurrent
  have hgood := (halign.frames current hmem).2.1
  rw [hsize] at hgood
  have hfill : ∀ k, k = length.toInt.toNat → s.Progress owner (s.enter (.readAll service [] k)) := by
    intro k hk
    have hplace : (s.enter (.readAll service [] k)).AtHand owner := by
      refine ⟨current, ⟨hcurrent, howned.owner⟩, ⟨current.data, rfl, ?_, hunread⟩⟩
      omega
    exact .enters hplace nofun fun _ h => .inl (hserving.trans h)
  unfold ReceivingState.onDataReady
  cases hkind : s.kind service with
  | portStatus =>
      have hlen := hfour (hserves.1 hkind)
      rw [if_neg (not_not_intro hlen)]
      exact hfill 4 (by omega)
  | serviceSpawner =>
      have hlen := height (hserves.2 hkind)
      exact hfill 8 (by omega)
  | keepalive => exact .enters ⟨service, current, hkind, hcurrent, howned.owner⟩ nofun nofun
  | dbusMethods | dbusSignals | bulkTransfer =>
      show s.Progress owner (if _ then _ else _)
      rw [if_neg (by omega)]
      exact hfill _ rfl

theorem handle_progress {service : Sid} {msg : MultiplexedMessage}
    (hpc : s.receiver = .handle service msg.data) (howned : s.Owned owner (some service) msg) :
    s.Progress owner (s.handle service msg.data) := by
  have hanswering : s.answering = (s.kind service = .serviceSpawner && isResponse msg.data) := by
    rw [answering, hpc]
  have hother : s.kind service ≠ .serviceSpawner → s.answering = false := by
    intro hkind
    rw [hanswering, decide_eq_false hkind, Bool.false_and]
  unfold ReceivingState.handle
  cases hkind : s.kind service with
  | portStatus =>
      have hends := Progress.ends_next howned (.status hkind)
      dsimp only
      split
      · split
        · exact hends
        · exact .enters ⟨service, msg, hkind, howned.current, howned.owner⟩ (by rintro ⟨⟩) (by rintro sid ⟨⟩)
      · exact hends
  | serviceSpawner =>
      rw [hkind] at hanswering
      show s.Progress owner (s.spawnerResponse msg.data)
      unfold spawnerResponse
      split
      · next msgType low high success errorCode hdata =>
        have hresponse : isResponse msg.data = decide (msgType = 0x73) := by
          rw [hdata]
          rfl
        rw [hresponse] at hanswering
        split
        · next htype =>
          have hfalse : s.answering = false := by simpa [htype] using hanswering
          exact .ends rfl rfl howned (.handled hpc hfalse)
        · next htype =>
          have htrue : s.answering = true := by simpa [not_not.mp htype] using hanswering
          exact .stays rfl ⟨service, msg, hkind, howned.current, howned.owner⟩ (fun _ => htrue) (by rintro sid ⟨⟩)
      · next hshort =>
        have hresponse : isResponse msg.data = false := by
          unfold isResponse
          split
          · next msgType low high success hdata => exact absurd hdata (hshort _ _ _ _ _)
          · rfl
        rw [hresponse] at hanswering
        have hfalse : s.answering = false := by simpa using hanswering
        exact .ends rfl rfl howned (.handled hpc hfalse)
  | dbusMethods | dbusSignals =>
      have hends := Progress.ends_next howned (.handled hpc (hother (by rw [hkind]; simp)))
      dsimp only
      split
      · exact .enters trivial (by rintro ⟨⟩) (by rintro sid ⟨⟩)
      · exact hends
  | keepalive | bulkTransfer =>
      exact .ends_next howned (.handled hpc (hother (by rw [hkind]; simp)))

/-- In aligned runs every step stays in the frame at hand or ends it, when the
entry found at its port agrees with the owner. -/
theorem AtHand.receive [DecidableEq P] {t : ReceivingState Tid Sid P} {n : Nat} (h : s.AtHand owner)
    (halign : s.Alignment) (hc : s.InputTested (.receive n))
    (hlookup : ∀ port dataLength i, s.receiver = .lookup port dataLength →
      slot? port.toInt = some i → owner (s.activeServices i) port)
    (hs : s.receive n = some t) : s.Progress owner t := by
  have hplace := halign.place
  unfold AtHand at h
  unfold Place at hplace
  unfold InputTested at hc
  unfold ReceivingState.receive at hs
  cases hpc : s.receiver with
  | header bytes =>
      simp only [hpc] at hs
      obtain ⟨r, hr, rfl⟩ := Option.map_eq_some_iff.mp hs
      split
      · exact .read hr trivial nofun nofun
      · exact .read hr trivial nofun nofun
  | lookup port dataLength =>
      simp only [hpc] at hplace hs
      obtain ⟨msg, hcurrent, hport, -⟩ := hplace.current
      split at hs
      · cases hs
        exact .enters trivial nofun nofun
      · next i hi =>
        have howner := hlookup port dataLength i hpc hi
        rw [← hport] at howner
        split at hs
        · next hservice =>
          cases hs
          rw [hservice] at howner
          exact .enters ⟨msg, hcurrent, howner⟩ nofun nofun
        · next hservice =>
          cases hs
          rw [hservice] at howner
          exact .enters ⟨msg, hcurrent, howner⟩ nofun fun _ h => .inr ⟨i, hservice.trans h⟩
  | skip mustSkip =>
      simp only [hpc] at h hs
      obtain ⟨msg, howned⟩ := h
      split at hs
      · obtain ⟨r, hr, rfl⟩ := Option.map_eq_some_iff.mp hs
        have hrest : (r.2.enter (.skip (mustSkip - n))).AtHand owner := by
          rw [(read_spec hr).2.2.2.2]
          exact ⟨msg, howned.current, howned.owner⟩
        exact .read hr hrest nofun nofun
      · cases hs
        exact .ends_next howned (.skipped hpc)
  | test service dataLength =>
      simp only [hpc] at h hplace hs hc
      obtain ⟨msg, howned⟩ := h
      obtain ⟨port, hp, hserves⟩ := hplace
      split at hs
      · cases hs
        exact .enters trivial nofun nofun
      · next x hx =>
        split at hs
        · cases hs
          exact onDataReady_progress halign hp hserves howned (by rw [hpc]; rfl)
        · next hclosed =>
          cases hs
          obtain rfl | hopen := hc
          · apply Progress.ends_next howned (.empty hpc _)
            obtain ⟨current, hcurrent, -, hsize, -⟩ := hp.current
            obtain rfl : current = msg := Option.some.inj (hcurrent.symm.trans howned.current)
            have hmem : current ∈ s.sent := by
              apply List.mem_of_mem_drop (i := s.iterations)
              exact List.mem_of_head? hcurrent
            have hgood := (halign.frames current hmem).2.1
            rw [hsize] at hgood
            apply List.eq_nil_of_length_eq_zero
            exact Int.ofNat_eq_zero.mp hgood.symm
          · exact absurd (hopen x hx) hclosed
  | readAll service bytes remaining =>
      simp only [hpc] at h hplace hs hc
      obtain ⟨msg, howned, hfilling⟩ := h
      split at hs
      · next hzero =>
        cases hs
        rw [hzero] at hfilling
        exact .enters ⟨msg, ⟨howned.current, howned.owner⟩, hfilling.full⟩ nofun fun _ h => .inl (by rwa [hpc])
      · next hmore =>
        split at hs
        · next hnull =>
          rw [hnull] at hplace
          cases hplace.2
        · next x hx =>
          split at hs
          · obtain ⟨r, hr, rfl⟩ := Option.map_eq_some_iff.mp hs
            have hfilling := hfilling.read hr
            have hrest : (r.2.enter (.readAll service (bytes ++ r.1) (remaining - n))).AtHand owner := by
              rw [(read_spec hr).2.2.2.2] at hfilling ⊢
              exact ⟨msg, ⟨howned.current, howned.owner⟩, hfilling⟩
            exact .read hr hrest nofun fun _ h => by rwa [hpc]
          · next hclosed => exact absurd (hc.resolve_left hmore x hx) hclosed
  | skipRead i =>
      simp only [hpc] at h hs
      obtain ⟨service, msg, hkind, howned⟩ := h
      split at hs
      · obtain ⟨r, hr, rfl⟩ := Option.map_eq_some_iff.mp hs
        have hrest : (r.2.enter (.skipRead (i - 1))).AtHand owner := by
          rw [(read_spec hr).2.2.2.2]
          exact ⟨service, msg, hkind, howned.current, howned.owner⟩
        exact .read hr hrest nofun nofun
      · cases hs
        exact .ends_next howned (.ping hkind)
  | handle service bytes =>
      simp only [hpc] at h hs
      obtain ⟨msg, howned, rfl⟩ := h
      cases hs
      exact handle_progress hpc howned
  | statusTest port status =>
      simp only [hpc] at h hs
      obtain ⟨service, msg, hkind, howned⟩ := h
      split at hs <;> cases hs
      · exact .ends_next howned (.status hkind)
      · exact .enters ⟨service, msg, hkind, howned.current, howned.owner⟩ nofun nofun
  | statusSwitch port status =>
      simp only [hpc] at h hs
      obtain ⟨service, msg, hkind, howned⟩ := h
      split at hs
      · split at hs <;> cases hs
        · exact .ends_next howned (.status hkind)
        · exact .stays rfl ⟨service, msg, hkind, howned.current, howned.owner⟩ nofun nofun
      · cases hs
        exact .enters ⟨service, msg, hkind, howned.current, howned.owner⟩ nofun nofun
  | statusCleanup port =>
      simp only [hpc] at h hs
      obtain ⟨service, msg, hkind, howned⟩ := h
      have hends := Progress.ends_next howned (.status hkind)
      split at hs
      · cases hs
        exact hends
      · split at hs <;> cases hs
        · exact .ends rfl rfl howned (.status hkind)
        · exact hends
  | awaitDone =>
      simp only [hpc] at h hs
      obtain ⟨service, msg, hkind, howned⟩ := h
      split at hs
      · cases hs
        exact .ends rfl rfl howned (.answered hpc hkind)
      · cases hs
  | stopped =>
      simp only [hpc] at hs
      cases hs

/-! ## Steps of the other threads -/

variable {t : ReceivingState Tid Sid P}

/-- The receiver, the stream and the spawner are as they were; only services that
were requested are registered. -/
structure Aside (s t : ReceivingState Tid Sid P) : Prop where
  entries : ∀ i service, t.activeServices i = some service → s.activeServices i = some service ∨
    s.kind service ∈ [.dbusMethods, .dbusSignals, .bulkTransfer]
  receiver : t.receiver = s.receiver
  kind : t.kind = s.kind
  unread : t.unread = s.unread
  sent : t.sent = s.sent
  iterations : t.iterations = s.iterations
  spawner : t.spawner = s.spawner

theorem Aside.same (entries : t.activeServices = s.activeServices) (receiver : t.receiver = s.receiver)
    (kind : t.kind = s.kind) (unread : t.unread = s.unread) (sent : t.sent = s.sent)
    (iterations : t.iterations = s.iterations) (spawner : t.spawner = s.spawner) : Aside s t := by
  refine ⟨?_, receiver, kind, unread, sent, iterations, spawner⟩
  intro i service hi
  rw [entries] at hi
  exact .inl hi

theorem Aside.coming (h : Aside s t) : t.coming = s.coming := by
  rw [ReceivingState.coming, h.sent, h.iterations]
  rfl

theorem aside_runApp [DecidableEq Tid] [DecidableEq P] {tid : Tid} (h : s.runApp tid = some t) :
    Aside s t := by
  have hdrop : ∀ x : P, Aside s ((s.dropService x).at tid .idle) := by
    intro x
    unfold dropService
    split
    · exact .same rfl rfl rfl rfl rfl rfl rfl
    · next i hi =>
      split
      · refine ⟨?_, rfl, rfl, rfl, rfl, rfl, rfl⟩
        intro j service hj
        change Function.update s.activeServices i none j = some service at hj
        by_cases hji : j = i
        · rw [hji, Function.update_self] at hj
          cases hj
        · rw [Function.update_of_ne hji] at hj
          exact .inl hj
      · exact .same rfl rfl rfl rfl rfl rfl rfl
  have hwrite : ∀ pc, Aside s (s.writeStatus tid pc) := by
    intro pc
    unfold writeStatus
    split <;> exact .same rfl rfl rfl rfl rfl rfl rfl
  unfold ReceivingState.runApp at h
  cases happ : s.app tid with
  | idle =>
      simp only [happ] at h
      cases h
  | closeClear x | eofClear x =>
      simp only [happ] at h
      cases h
      exact .same rfl rfl rfl rfl rfl rfl rfl
  | closeWrite x | eofWrite x =>
      simp only [happ] at h
      cases h
      exact hwrite _
  | closeCleanup x | eofCleanup x =>
      simp only [happ] at h
      cases h
      exact hdrop x

theorem aside_step [DecidableEq Tid] [DecidableEq Sid] [DecidableEq P] {label : ReceivingLabel Tid Sid P}
    (hreceive : ∀ n, label ≠ .receive n) (harrive : ∀ msg, label ≠ .arrive msg)
    (htake : label ≠ .takeResponse) (h : s.step label = some t) : Aside s t := by
  cases label with
  | receive n => exact absurd rfl (hreceive n)
  | arrive msg => exact absurd rfl (harrive msg)
  | takeResponse => exact absurd rfl htake
  | startClose tid x | startEof tid x =>
      simp only [ReceivingState.step] at h
      split at h
      · obtain ⟨-, h⟩ := Option.ite_none_right_eq_some.mp h
        cases h
        exact .same rfl rfl rfl rfl rfl rfl rfl
      · cases h
  | run tid => exact aside_runApp h
  | register i service =>
      obtain ⟨hnew, h⟩ := Option.ite_none_right_eq_some.mp h
      cases h
      refine ⟨?_, rfl, rfl, rfl, rfl, rfl, rfl⟩
      intro j other hj
      change Function.update s.activeServices i (some service) j = some other at hj
      by_cases hji : j = i
      · rw [hji, Function.update_self] at hj
        cases hj
        exact .inr hnew.1
      · rw [Function.update_of_ne hji] at hj
        exact .inl hj
  | assignPort service x =>
      obtain ⟨-, h⟩ := Option.ite_none_right_eq_some.mp h
      cases h
      exact .same rfl rfl rfl rfl rfl rfl rfl

/-- The frame at hand is the same where the stream and the receiver are. -/
theorem AtHand.frame (h : s.AtHand owner) (hreceiver : t.receiver = s.receiver)
    (hkind : t.kind = s.kind) (hunread : t.unread = s.unread) (hcoming : t.coming = s.coming) :
    t.AtHand owner := by
  have howned : ∀ {service msg}, s.Owned owner service msg → t.Owned owner service msg := by
    intro service msg h
    refine ⟨?_, h.owner⟩
    rw [hcoming]
    exact h.current
  unfold AtHand at h ⊢
  rw [hreceiver, hkind]
  split at h
  any_goals exact h
  · exact h.imp fun msg hmsg => howned hmsg
  · exact h.imp fun msg hmsg => howned hmsg
  · obtain ⟨msg, hmsg, hfilling⟩ := h
    refine ⟨msg, howned hmsg, ?_⟩
    unfold Filling
    rw [hunread, hcoming]
    exact hfilling
  · obtain ⟨msg, hmsg, hdata⟩ := h
    exact ⟨msg, howned hmsg, hdata⟩
  all_goals
    obtain ⟨service, msg, hservice, hmsg⟩ := h
    exact ⟨service, msg, hservice, howned hmsg⟩

theorem AtHand.weaken {owner' : Option Sid → Short → Prop} (h : s.AtHand owner)
    (howner : ∀ service port, owner service port → owner' service port) : s.AtHand owner' := by
  have howned : ∀ {service msg}, s.Owned owner service msg → s.Owned owner' service msg :=
    fun h => ⟨h.current, howner _ _ h.owner⟩
  unfold AtHand at h ⊢
  split at h
  any_goals exact h
  · exact h.imp fun msg hmsg => howned hmsg
  · exact h.imp fun msg hmsg => howned hmsg
  · exact h.imp fun msg hmsg => ⟨howned hmsg.1, hmsg.2⟩
  · exact h.imp fun msg hmsg => ⟨howned hmsg.1, hmsg.2⟩
  all_goals exact h.imp fun service hservice => hservice.imp fun msg hmsg => ⟨hmsg.1, howned hmsg.2⟩

/-- A new frame comes behind the one at hand. -/
theorem AtHand.arrive {msg : MultiplexedMessage} (h : s.AtHand owner) (hle : s.iterations ≤ s.sent.length) :
    (s.arrive msg).AtHand owner := by
  have hcoming : (s.arrive msg).coming = s.coming ++ [msg] := List.drop_append_of_le_length hle
  have howned : ∀ {service current}, s.Owned owner service current →
      (s.arrive msg).Owned owner service current := by
    intro service current h
    refine ⟨?_, h.owner⟩
    rw [hcoming, List.head?_append, h.current]
    rfl
  unfold AtHand at h ⊢
  rw [show (s.arrive msg).receiver = s.receiver from rfl]
  split at h
  any_goals exact h
  · exact h.imp fun current hcurrent => howned hcurrent
  · exact h.imp fun current hcurrent => howned hcurrent
  · obtain ⟨current, hcurrent, data, hdata, hlength, hunread⟩ := h
    refine ⟨current, howned hcurrent, data, hdata, hlength, ?_⟩
    obtain ⟨rest, hrest⟩ := List.head?_eq_some_iff.mp hcurrent.current
    rw [hcoming, hrest]
    rw [hrest] at hunread
    show s.unread ++ Accessory.senderBytes msg = data ++ streamOf (rest ++ [msg])
    rw [hunread, streamOf_append, ← List.append_assoc]
    simp [streamOf]
  · obtain ⟨current, hcurrent, hdata⟩ := h
    exact ⟨current, howned hcurrent, hdata⟩
  all_goals
    obtain ⟨service, current, hservice, hcurrent⟩ := h
    exact ⟨service, current, hservice, howned hcurrent⟩

end ReceivingState

end AapBridge.Android
