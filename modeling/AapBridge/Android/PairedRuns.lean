import AapBridge.Android.PairedAnswers

/-! # Answers over whole runs

The receiver puts the answers into the queue in the order of their frames, one at
a time, until the spawner loses its entry or a read finds that the connection is
lost; from then on no answer is put there. So in every run in which the calls
take turns each call gets the answer to its own request.
-/

namespace AapBridge.Android

open AapBridge.Lib
open AapBridge.Accessory (Slot slot? MultiplexedMessage)

variable {Tid Sid P C : Type*}

namespace RequestingState

variable {s t : RequestingState Tid Sid P C} {request : C → ServiceRequest}

/-! ## The receiver -/

/-- What a step of the receiver or of the accessory has to show. -/
theorem Taking.below (h : s.Taking request) (hcall : t.call = s.call)
    (hbuffer : t.portRequest = s.portRequest) (houtgoing : t.outgoing = s.outgoing)
    (hsent : s.base.sent <+: t.base.sent)
    (hresponses : ∀ msg ∈ t.base.sent, isAnswer msg = true → isResponse msg.data = true)
    (hmode : t.Working ∨ t.Silent) : t.Taking request := by
  have hgrows : s.Grows t := ⟨hsent, by rw [houtgoing]⟩
  refine ⟨?_, ?_, h.paired.grows hgrows ?_ ?_, hresponses, hmode⟩
  · rw [hcall, hbuffer]
    exact h.filled
  · rw [hcall]
    exact h.alone
  · rw [houtgoing]
    exact h.paired.frame
  · intro c response hc
    rw [hcall] at hc
    exact .inl hc

theorem failRead_spent [DecidableEq P] {loss : Loss} {base : ReceivingState Tid Sid P}
    (hstep : s.base.failRead loss = some base) (hlost : s.lost = some loss) (hunread : s.base.unread = [])
    (hkept : s.lost = some .ioException → isResponse s.keptResponse = false) (failures : Nat) :
    base.sent = s.base.sent ∧ ({ s with base, failures } : RequestingState Tid Sid P C).Spent := by
  have hsome : s.lost ≠ none := by
    rw [hlost]
    nofun
  cases hpc : s.base.receiver with
  | header bytes =>
      simp only [ReceivingState.failRead, hpc] at hstep
      cases hstep
      exact ⟨rfl, hsome, hunread, trivial⟩
  | skip mustSkip =>
      simp only [ReceivingState.failRead, hpc] at hstep
      split at hstep
      · cases loss with
        | endOfFile =>
            cases hstep
            refine ⟨rfl, hsome, hunread, ?_⟩
            rw [hpc]
            trivial
        | ioException =>
            cases hstep
            exact ⟨rfl, hsome, hunread, trivial⟩
      · cases hstep
  | skipRead i =>
      simp only [ReceivingState.failRead, hpc] at hstep
      split at hstep
      · cases loss <;> cases hstep <;> exact ⟨rfl, hsome, hunread, trivial⟩
      · cases hstep
  | readAll service bytes remaining =>
      simp only [ReceivingState.failRead, hpc] at hstep
      split at hstep
      · cases hstep
      · cases loss with
        | endOfFile =>
            dsimp only at hstep
            split at hstep
            · cases hstep
              exact ⟨rfl, hsome, hunread, trivial⟩
            · cases hstep
              have hkeep : (s.base.keepBytes service bytes).sent = s.base.sent ∧
                  (s.base.keepBytes service bytes).unread = s.base.unread := by
                unfold ReceivingState.keepBytes
                split <;> exact ⟨rfl, rfl⟩
              exact ⟨hkeep.1, hsome, hkeep.2.trans hunread, Nat.succ_pos remaining⟩
        | ioException =>
            cases hstep
            unfold ReceivingState.readThrows
            split
            · next hkind =>
              refine ⟨rfl, hsome, hunread, hkind, ?_⟩
              have hbuffer := hkept hlost
              rw [keptResponse, hpc] at hbuffer
              dsimp only at hbuffer
              rwa [if_pos hkind] at hbuffer
            · exact ⟨rfl, hsome, hunread, trivial⟩
  | _ =>
      simp only [ReceivingState.failRead, hpc] at hstep
      cases hstep

theorem atHand_header {u : ReceivingState Tid Sid P} {owner : Option Sid → Short → Prop}
    (h : u.receiver = .header []) : u.AtHand owner := by
  unfold ReceivingState.AtHand
  rw [h]
  trivial

theorem serving_not_answering (h : ∀ service, s.base.receiver.serving = some service →
    s.base.kind service ≠ .serviceSpawner) : s.base.answering = false := by
  unfold ReceivingState.answering
  split
  · next service bytes hpc =>
    have hkind := h service (by rw [hpc]; rfl)
    rw [decide_eq_false hkind, Bool.false_and]
  · rfl

theorem Spent.not_answering (h : s.Spent) : s.base.answering = false := by
  have hreceiver := h.receiver
  unfold ReceivingState.answering
  split
  · next service bytes hpc =>
    rw [hpc] at hreceiver
    rw [hreceiver.2, Bool.and_false]
  · rfl

theorem Hand.idle_of (h : s.Hand) (hawait : s.base.receiver ≠ .awaitDone) :
    s.base.spawner.openRequestResponsesReady = 0 ∧ s.base.spawner.openRequestResponsesDone = 0 ∧
      s.base.spawner.openRequestResponses = [] ∧ ∀ c, ¬(s.call c).holds := by
  cases h with
  | idle _ ready done responses calls => exact ⟨ready, done, responses, calls⟩
  | offered receiver | acquired receiver | polled receiver | done receiver => exact absurd receiver hawait

theorem not_polled (h : ∀ c, ¬(s.call c).holds) (c : C) (response : OpenRequestResponse) :
    s.call c ≠ .polled (some response) := by
  intro hc
  apply h c
  rw [hc]
  trivial

/-- While the spawner has its entry, what is looked up agrees with who owns the port. -/
theorem spawner_owns {lost : List UInt8} (halign : (s.base.extend lost).Alignment)
    (hentry : ∃ j service, s.base.activeServices j = some service ∧
      s.base.kind service = .serviceSpawner) {port : Short} {i : Slot}
    (hi : slot? port.toInt = some i) :
    spawnerOwner s.base.kind (s.base.activeServices i) port := by
  obtain ⟨j, spawner, hj, hspawner⟩ := hentry
  have hjone : j.val = 1 := (halign.services j spawner hj).2 hspawner
  have hport := (slot_of_short i port).mp hi
  have hone : port = 1 → i = j := by
    intro hport'
    have hslot : slot? port.toInt = some j := by
      rw [slot_of_short, hport', hjone]
      rfl
    exact Option.some.inj (hi.symm.trans hslot)
  cases hservice : s.base.activeServices i with
  | none =>
      show port ≠ 1
      intro hport'
      rw [hone hport', hj] at hservice
      cases hservice
  | some service =>
      show s.base.kind service = .serviceSpawner ↔ port = 1
      constructor
      · intro hkind
        rw [hport, (halign.services i service hservice).2 hkind]
        rfl
      · intro hport'
        rw [hone hport', hj] at hservice
        cases hservice
        exact hspawner

/-- The frame at hand is the next one whose answer is not behind the receiver. -/
theorem answersSent_current {msg : MultiplexedMessage} (hcurrent : s.base.coming.head? = some msg)
    (hanswer : isAnswer msg = true) : s.answersSent[s.passed.length]? = some msg := by
  obtain ⟨rest, hrest⟩ := List.head?_eq_some_iff.mp hcurrent
  have hsplit : s.answersSent = s.passed ++ s.base.coming.filter isAnswer := by
    rw [answersSent, passed, ReceivingState.coming, ← List.filter_append, List.take_append_drop]
  rw [hsplit, hrest, List.filter_cons_of_pos hanswer, List.getElem?_append_right (Nat.le_refl _),
    Nat.sub_self]
  rfl

theorem passed_next {msg : MultiplexedMessage} (hcurrent : s.base.coming.head? = some msg)
    (hsent : t.base.sent = s.base.sent) (hiterations : t.base.iterations = s.base.iterations + 1) :
    t.passed.length = s.passed.length + if isAnswer msg then 1 else 0 := by
  rw [ReceivingState.coming, List.head?_drop] at hcurrent
  rw [passed, hsent, hiterations, List.take_add_one, hcurrent, List.filter_append, List.length_append]
  cases hanswer : isAnswer msg <;> simp [passed, hanswer]

/-- A frame that ends without an answer is not a frame of the spawner. -/
theorem port_of_finishing {u : ReceivingState Tid Sid P} {service : Option Sid}
    {msg : MultiplexedMessage} (howner : spawnerOwner u.kind service msg.port) (hgood : GoodFrame msg)
    (hresponse : isAnswer msg = true → isResponse msg.data = true)
    (hfinishing : u.Finishing msg service) (hawait : u.receiver ≠ .awaitDone) :
    isAnswer msg = false := by
  apply decide_eq_false
  intro hport
  cases hfinishing with
  | skipped _ => exact howner hport
  | empty _ hdata =>
      have hlength := hgood.2.2.2.2 hport
      rw [hdata] at hlength
      cases hlength
  | handled receiver answering =>
      rw [ReceivingState.answering, receiver] at answering
      simp [howner.mpr hport, hresponse (decide_eq_true hport)] at answering
  | status kind | ping kind =>
      rw [howner.mpr hport] at kind
      cases kind
  | answered receiver _ => exact hawait receiver

/-- Without an entry and without a frame of its own the spawner is out of the game. -/
theorem Working.gone (h : s.Working) (hentries : ∀ i service,
      s.base.activeServices i = some service → s.base.kind service ≠ .serviceSpawner)
    (hserving : s.base.receiver.serving = none) (hawait : s.base.receiver ≠ .awaitDone) : s.Silent := by
  obtain ⟨lost, hlast, halign, hat⟩ := h.stream
  obtain ⟨-, -, hnone, hcalls⟩ := h.hand.idle_of hawait
  refine ⟨hnone, not_polled hcalls, .inl ⟨⟨lost, hlast, halign, ?_⟩, hentries, ?_, hawait⟩⟩
  · exact hat.weaken fun _ _ _ => trivial
  · intro service hservice
    rw [hserving] at hservice
    cases hservice

theorem Stream.arrive {owner : Option Sid → Short → Prop} {msg : MultiplexedMessage}
    (h : s.Stream owner) (hlost : s.lost = none) (hgood : GoodFrame msg) :
    ({ s with base := s.base.arrive msg } : RequestingState Tid Sid P C).Stream owner ∧
      s.base.iterations ≤ s.base.sent.length := by
  obtain ⟨lost, hlast, halign, hat⟩ := h
  rw [hlast hlost, ReceivingState.extend_nil] at halign hat
  refine ⟨⟨[], fun _ => rfl, ?_, ?_⟩, halign.iterations⟩
  · rw [ReceivingState.extend_nil]
    refine ⟨?_, ?_, halign.services, halign.place.arrive halign.iterations⟩
    · intro m hm
      rcases List.mem_append.mp hm with hold | hnew
      · exact halign.frames m hold
      · rw [List.mem_singleton.mp hnew]
        exact hgood
    · show s.base.iterations ≤ (s.base.sent ++ [msg]).length
      rw [List.length_append]
      exact Nat.le_add_right_of_le halign.iterations
  · rw [ReceivingState.extend_nil]
    exact hat.arrive halign.iterations

theorem Stream.lose {owner : Option Sid → Short → Prop} {loss : Loss} {kept : Nat} (h : s.Stream owner) :
    ({ s with lost := some loss, base := { s.base with unread := s.base.unread.take kept } } :
      RequestingState Tid Sid P C).Stream owner := by
  obtain ⟨lost, -, halign, hat⟩ := h
  have hwhole : ({ s.base with unread := s.base.unread.take kept } : ReceivingState Tid Sid P).extend
      (s.base.unread.drop kept ++ lost) = s.base.extend lost := by
    simp only [ReceivingState.extend, ← List.append_assoc, List.take_append_drop]
  refine ⟨s.base.unread.drop kept ++ lost, (by simp), ?_, ?_⟩
  · rw [hwhole]
    exact halign
  · rw [hwhole]
    exact hat

theorem Taking.arrive {msg : MultiplexedMessage} (h : s.Taking request) (hlost : s.lost = none)
    (hgood : GoodFrame msg) (horder : s.InOrder (.base (.arrive msg))) :
    ({ s with base := s.base.arrive msg } : RequestingState Tid Sid P C).Taking request := by
  have hsent : s.base.sent <+: (s.base.arrive msg).sent := List.prefix_append _ _
  refine h.below rfl rfl rfl hsent ?_ ?_
  · intro m hm hanswer
    rcases List.mem_append.mp hm with hold | hnew
    · exact h.responses m hold hanswer
    · rw [List.mem_singleton.mp hnew] at hanswer ⊢
      exact (horder hanswer).2
  · rcases h.mode with hmode | hmode
    · obtain ⟨hstream, hle⟩ := hmode.stream.arrive hlost hgood
      refine .inl ⟨hstream, ?_, hmode.come, hmode.taken, hmode.queue, ?_⟩
      · rw [hmode.counted]
        congr 2
        show _ = (((s.base.sent ++ [msg]).take s.base.iterations).filter isAnswer)
        rw [List.take_append_of_le_length hle]
        rfl
      · exact hmode.hand.frame rfl rfl rfl ⟨hsent, List.prefix_rfl⟩ fun _ _ => rfl
    · refine .inr ⟨hmode.responses, hmode.calls, ?_⟩
      rcases hmode.receiver with hgone | hspent
      · exact .inl ⟨(hgone.stream.arrive hlost hgood).1, hgone.entries, hgone.serving, hgone.receiver⟩
      · exact absurd hlost hspent.lost

theorem Taking.lose {loss : Loss} {kept : Nat} (h : s.Taking request) (hlost : s.lost = none) :
    ({ s with lost := some loss, base := { s.base with unread := s.base.unread.take kept } } :
      RequestingState Tid Sid P C).Taking request := by
  refine h.below rfl rfl rfl List.prefix_rfl h.responses ?_
  rcases h.mode with hmode | hmode
  · refine .inl ⟨hmode.stream.lose, hmode.counted, hmode.come, hmode.taken, hmode.queue, ?_⟩
    exact hmode.hand.frame rfl rfl rfl ⟨List.prefix_rfl, List.prefix_rfl⟩ fun _ _ => rfl
  · refine .inr ⟨hmode.responses, hmode.calls, ?_⟩
    rcases hmode.receiver with hgone | hspent
    · exact .inl ⟨hgone.stream.lose, hgone.entries, hgone.serving, hgone.receiver⟩
    · exact absurd hlost hspent.lost

theorem Taking.initial (h : RequestingInit s) : s.Taking request := by
  obtain ⟨hcome, hanswers, -⟩ := h.counters
  have hfree : ∀ c, ¬(s.call c).holds := by
    intro c
    rw [h.call c]
    exact id
  have hsent : s.base.sent = [] := h.base.sent
  refine ⟨?_, ?_, ⟨?_, ?_⟩, ?_, .inl ⟨⟨[], fun _ => rfl, ?_, ?_⟩, ?_, ?_, ?_, ?_, ?_⟩⟩
  · intro c hc
    rw [h.call c] at hc
    cases hc
  · intro c d hc
    rw [h.call c] at hc
    cases hc
  · rw [h.outgoing]
    simp
  · intro c response hc
    rw [h.call c] at hc
    cases hc
  · rw [hsent]
    simp
  · rw [ReceivingState.extend_nil]
    exact .initial h.base
  · exact atHand_header h.base.receiver
  · rw [hanswers, h.base.receiver, passed, hsent, List.take_nil]
    rfl
  · rw [hcome]
    exact Nat.zero_le _
  · rw [hanswers]
    exact (Nat.sub_le _ _).trans (Nat.zero_le _)
  · rw [h.queue, hcome]
    exact (List.drop_nil ..).symm
  · refine .idle ?_ (by rw [h.spawner]) (by rw [h.spawner]) (by rw [h.spawner]) hfree
    rw [h.base.receiver]
    simp

variable [DecidableEq P] {n : Nat} {base : ReceivingState Tid Sid P}

/-- A spawner without an entry gets no frame any more. -/
theorem Gone.receive (h : s.Gone) (hc : s.base.InputTested (.receive n))
    (hstep : s.base.receive n = some base) (answers failures : Nat) :
    ({ s with base, answers, failures } : RequestingState Tid Sid P C).Gone := by
  obtain ⟨lost, hlast, halign, hat⟩ := h.stream
  have hextended : (s.base.extend lost).receive n = some (base.extend lost) :=
    ReceivingState.receive_extend hstep
  have hanswering := serving_not_answering h.serving
  have hfades := ReceivingState.fades_receive hstep
  have hentries : ∀ i service, base.activeServices i = some service →
      base.kind service ≠ .serviceSpawner := by
    intro i service hi
    rw [hfades.kind]
    rcases hfades.entries i with hsame | ⟨hnone, -⟩
    · rw [hsame] at hi
      exact h.entries i service hi
    · rw [hnone] at hi
      cases hi
  have halign' := halign.receive hc hextended
  cases hat.receive halign hc (fun _ _ _ _ _ => trivial) hextended with
  | stays iterations place awaitDone serving =>
      refine ⟨⟨lost, hlast, halign', place⟩, hentries, ?_, ?_⟩
      · intro service hservice
        show base.kind service ≠ .serviceSpawner
        rw [hfades.kind]
        rcases serving service hservice with hbefore | ⟨i, hi⟩
        · exact h.serving service hbefore
        · exact h.entries i service hi
      · intro hawait
        have hanswers : s.base.answering = true := awaitDone hawait
        rw [hanswering] at hanswers
        cases hanswers
  | ends iterations receiver owned finishing =>
      change base.receiver = .header [] at receiver
      refine ⟨⟨lost, hlast, halign', atHand_header receiver⟩, hentries, ?_, ?_⟩
      · intro service hservice
        change base.receiver.serving = some service at hservice
        rw [receiver] at hservice
        cases hservice
      · show base.receiver ≠ .awaitDone
        rw [receiver]
        nofun

/-- Behind the end of the stream nothing is read. -/
theorem Spent.receive (h : s.Spent) (hc : s.base.InputTested (.receive n))
    (hstep : s.base.receive n = some base) (answers failures : Nat) :
    ({ s with base, answers, failures } : RequestingState Tid Sid P C).Spent := by
  have hunread := h.unread
  have hreceiver := h.receiver
  have hread : ∀ requested, s.base.read n requested = none := by
    intro requested
    unfold ReceivingState.read
    rw [hunread, if_neg]
    rintro ⟨hpos, -, hle⟩
    exact Nat.not_succ_le_zero 0 (hpos.trans hle)
  unfold ReceivingState.InputTested at hc
  cases hpc : s.base.receiver with
  | header bytes =>
      simp only [ReceivingState.receive, hpc, hread] at hstep
      cases hstep
  | skip mustSkip | skipRead i =>
      simp only [ReceivingState.receive, hpc, hread] at hstep
      split at hstep
      · cases hstep
      · cases hstep
        exact ⟨h.lost, hunread, trivial⟩
  | readAll service bytes remaining =>
      simp only [hpc] at hc hreceiver
      simp only [ReceivingState.receive, hpc, hread] at hstep
      rw [if_neg hreceiver.ne'] at hstep
      split at hstep
      · cases hstep
        exact ⟨h.lost, hunread, trivial⟩
      · next x hport =>
        rw [if_pos (hc.resolve_left hreceiver.ne' x hport)] at hstep
        cases hstep
  | handle service bytes =>
      simp only [hpc] at hreceiver
      obtain ⟨hkind, hresponse⟩ := hreceiver
      simp only [ReceivingState.receive, hpc, ReceivingState.handle, hkind] at hstep
      cases hstep
      unfold ReceivingState.spawnerResponse
      split
      · split
        · exact ⟨h.lost, hunread, trivial⟩
        · next htype =>
          simp [isResponse, not_not.mp htype] at hresponse
      · exact ⟨h.lost, hunread, trivial⟩
  | stopped =>
      simp only [ReceivingState.receive, hpc] at hstep
      cases hstep
  | _ =>
      simp only [hpc] at hreceiver

theorem Silent.receive (h : s.Silent) (hc : s.base.InputTested (.receive n))
    (hstep : s.base.receive n = some base) (answers failures : Nat) :
    ({ s with base, answers, failures } : RequestingState Tid Sid P C).Silent := by
  have hspawner := ReceivingState.receive_spawner hstep
  have hresponses : s.base.answering = false → base.spawner.openRequestResponses = [] :=
    fun hanswering => (hspawner.responses hanswering).trans h.responses
  rcases h.receiver with hgone | hspent
  · exact ⟨hresponses (serving_not_answering hgone.serving), h.calls,
      .inl (hgone.receive hc hstep answers failures)⟩
  · exact ⟨hresponses hspent.not_answering, h.calls, .inr (hspent.receive hc hstep answers failures)⟩

/-! ## Answers in the order of their frames -/

/-- The answer to the next request goes into the queue, with a permit. -/
theorem Working.answers (h : s.Working) (hc : s.base.InputTested (.receive n))
    (hstep : s.base.receive n = some base) (hanswering : s.base.answering = true) (failures : Nat) :
    ({ s with base, answers := s.answers + 1, failures } : RequestingState Tid Sid P C).Working := by
  obtain ⟨service, bytes, response, hpc, hkind, hresponse, rfl⟩ :=
    ReceivingState.receive_answers hstep hanswering
  obtain ⟨lost, hlast, halign, hat⟩ := h.stream
  have halign' := halign.receive hc (ReceivingState.receive_extend hstep)
  have hplace := hat
  unfold ReceivingState.AtHand at hplace
  rw [ReceivingState.extend_receiver, hpc] at hplace
  obtain ⟨msg, howned, hdata⟩ := hplace
  have hcurrent : s.base.coming.head? = some msg := howned.current
  have hport : msg.port = 1 := howned.owner.mp hkind
  have hcounted := h.counted
  rw [hpc] at hcounted
  change s.answers = s.passed.length at hcounted
  obtain ⟨hready, hdone, hnone, hcalls⟩ := h.hand.idle_of (by rw [hpc]; nofun)
  refine ⟨⟨lost, hlast, halign', ?_⟩, ?_, h.come, ?_, ?_, ?_⟩
  · exact ⟨service, msg, hkind, hcurrent, howned.owner⟩
  · exact congrArg (· + 1) hcounted
  · show s.answers + 1 - (s.base.spawner.openRequestResponsesReady + 1) ≤ s.come
    rw [Nat.add_sub_add_right]
    exact h.taken
  · show s.queue = (s.writers.take s.come).drop
      (s.answers + 1 - (s.base.spawner.openRequestResponsesReady + 1))
    rw [Nat.add_sub_add_right]
    exact h.queue
  · refine .offered rfl (congrArg (· + 1) hready) hdone (congrArg (· ++ [response]) hnone) hcalls ?_
    refine ⟨msg, ?_, by rw [hdata]; exact hresponse⟩
    show s.answersSent[s.answers + 1 - 1]? = some msg
    rw [Nat.add_sub_cancel, hcounted]
    exact answersSent_current hcurrent (decide_eq_true hport)

/-- A call has taken the answer, and the receiver goes on. -/
theorem Working.awaits (h : s.Working) (hc : s.base.InputTested (.receive n))
    (hstep : s.base.receive n = some base) (hpc : s.base.receiver = .awaitDone) (failures : Nat) :
    ({ s with base, failures } : RequestingState Tid Sid P C).Working := by
  obtain ⟨lost, hlast, halign, hat⟩ := h.stream
  have halign' := halign.receive hc (ReceivingState.receive_extend hstep)
  have hplace := hat
  unfold ReceivingState.AtHand at hplace
  rw [ReceivingState.extend_receiver, hpc] at hplace
  obtain ⟨service, msg, hkind, howned⟩ := hplace
  have hcurrent : s.base.coming.head? = some msg := howned.current
  have hanswer : isAnswer msg = true := decide_eq_true (howned.owner.mp hkind)
  have hcounted := h.counted
  rw [hpc] at hcounted
  simp only [ReceivingState.receive, hpc] at hstep
  obtain ⟨hpermit, hbase⟩ := Option.ite_none_right_eq_some.mp hstep
  have hbase := Option.some.inj hbase
  have hreceiver : base.receiver = .header [] := by
    rw [← hbase]
    rfl
  have hpassed : ({ s with base, failures } : RequestingState Tid Sid P C).passed.length =
      s.passed.length + 1 := by
    rw [passed_next hcurrent (by rw [← hbase]; rfl) (by rw [← hbase]; rfl), hanswer]
    rfl
  cases h.hand with
  | idle receiver => exact absurd hpc receiver
  | offered _ _ done | acquired _ _ done | polled _ _ done =>
      rw [done] at hpermit
      cases hpermit
  | done _ ready done responses calls =>
      have hready : base.spawner.openRequestResponsesReady =
          s.base.spawner.openRequestResponsesReady := by
        rw [← hbase]
        rfl
      refine ⟨⟨lost, hlast, halign', atHand_header hreceiver⟩, ?_, h.come, ?_, ?_, ?_⟩
      · rw [hpassed, hreceiver]
        exact hcounted
      · show s.answers - base.spawner.openRequestResponsesReady ≤ s.come
        rw [hready]
        exact h.taken
      · show s.queue = (s.writers.take s.come).drop (s.answers - base.spawner.openRequestResponsesReady)
        rw [hready]
        exact h.queue
      · refine .idle ?_ (hready.trans ready) ?_ ?_ calls
        · rw [hreceiver]
          simp
        · rw [← hbase]
          exact congrArg (· - 1) done
        · rw [← hbase]
          exact responses

/-- Without an answer the queue stays empty, and the frame at hand is not the spawner's. -/
theorem Working.passes (h : s.Working) (hresponses : ∀ msg ∈ s.base.sent, isAnswer msg = true →
      isResponse msg.data = true) (hc : s.base.InputTested (.receive n))
    (hentry : (∃ j service, s.base.activeServices j = some service ∧
      s.base.kind service = .serviceSpawner) ∨ ∃ service, s.base.receiver.serving = some service)
    (hstep : s.base.receive n = some base) (hanswering : s.base.answering = false)
    (hawait : s.base.receiver ≠ .awaitDone) (failures : Nat) :
    ({ s with base, failures } : RequestingState Tid Sid P C).Working := by
  obtain ⟨lost, hlast, halign, hat⟩ := h.stream
  have hextended : (s.base.extend lost).receive n = some (base.extend lost) :=
    ReceivingState.receive_extend hstep
  have halign' := halign.receive hc hextended
  have hspawner := ReceivingState.receive_spawner hstep
  have hkind := (ReceivingState.fades_receive hstep).kind
  obtain ⟨hready, hdone, hnone, hcalls⟩ := h.hand.idle_of hawait
  obtain ⟨hready', hdone'⟩ := hspawner.permits hanswering (ReceivingState.InputTested.reads hc) hawait
  have hresponses' := hspawner.responses hanswering
  have hlookup : ∀ port dataLength i, s.base.receiver = .lookup port dataLength →
      slot? port.toInt = some i → spawnerOwner s.base.kind (s.base.activeServices i) port := by
    intro port dataLength i hpc hi
    rcases hentry with hentry | ⟨service, hservice⟩
    · exact spawner_owns halign hentry hi
    · rw [hpc] at hservice
      cases hservice
  have hcounted := h.counted
  have hnot : s.base.receiver.awaits = false := by
    unfold ReceiverThreadPc.awaits
    split
    · next hpc => exact absurd hpc hawait
    · rfl
  rw [hnot] at hcounted
  have hlater : ∀ u : RequestingState Tid Sid P C, u = { s with base, failures } →
      (base.extend lost).AtHand (spawnerOwner s.base.kind) → base.receiver ≠ .awaitDone →
      s.answers = u.passed.length → u.Working := by
    rintro u rfl hplace hafter hlength
    have hnot' : base.receiver.awaits = false := by
      unfold ReceiverThreadPc.awaits
      split
      · next hpc => exact absurd hpc hafter
      · rfl
    refine ⟨⟨lost, hlast, halign', ?_⟩, ?_, h.come, ?_, ?_, ?_⟩
    · show (base.extend lost).AtHand (spawnerOwner base.kind)
      rw [hkind]
      exact hplace
    · show s.answers = _ + if base.receiver.awaits then 1 else 0
      rw [hnot']
      exact hlength
    · show s.answers - base.spawner.openRequestResponsesReady ≤ s.come
      rw [hready']
      exact h.taken
    · show s.queue = (s.writers.take s.come).drop (s.answers - base.spawner.openRequestResponsesReady)
      rw [hready']
      exact h.queue
    · exact .idle hafter (hready'.trans hready) (hdone'.trans hdone) (hresponses'.trans hnone) hcalls
  cases hat.receive halign hc hlookup hextended with
  | stays iterations place awaitDone _ =>
      apply hlater _ rfl place
      · intro hafter
        have hanswers : s.base.answering = true := awaitDone hafter
        rw [hanswering] at hanswers
        cases hanswers
      · rw [hcounted]
        show s.passed.length = ((base.sent.take base.iterations).filter isAnswer).length
        rw [show base.iterations = s.base.iterations from iterations, ReceivingState.receive_sent hstep]
        rfl
  | @ends service msg iterations receiver owned finishing =>
      change base.receiver = .header [] at receiver
      have hcurrent : s.base.coming.head? = some msg := owned.current
      have hmem : msg ∈ s.base.sent :=
        List.mem_of_mem_drop (i := s.base.iterations) (List.mem_of_head? hcurrent)
      have hport : isAnswer msg = false :=
        port_of_finishing (u := s.base.extend lost) owned.owner (halign.frames msg hmem)
          (hresponses msg hmem) finishing hawait
      apply hlater _ rfl (atHand_header receiver)
      · rw [receiver]
        nofun
      · rw [passed_next hcurrent (ReceivingState.receive_sent hstep) iterations, hport]
        exact hcounted

theorem Taking.receive (h : s.Taking request) (hc : s.base.InputTested (.receive n))
    (hstep : s.base.receive n = some base) (failures : Nat) :
    ({ s with
      base
      answers := if s.base.answering then s.answers + 1 else s.answers
      failures } : RequestingState Tid Sid P C).Taking request := by
  have hsent := ReceivingState.receive_sent hstep
  refine h.below rfl rfl rfl (by rw [hsent]) (by rw [hsent]; exact h.responses) ?_
  rcases h.mode with hmode | hmode
  · cases hanswering : s.base.answering with
    | true => exact .inl (hmode.answers hc hstep hanswering failures)
    | false =>
        by_cases hawait : s.base.receiver = .awaitDone
        · exact .inl (hmode.awaits hc hstep hawait failures)
        · by_cases hentry : ∃ j service, s.base.activeServices j = some service ∧
              s.base.kind service = .serviceSpawner
          · exact .inl (hmode.passes h.responses hc (.inl hentry) hstep hanswering hawait failures)
          · cases hserving : s.base.receiver.serving with
            | some service =>
                exact .inl (hmode.passes h.responses hc (.inr ⟨service, hserving⟩) hstep hanswering
                  hawait failures)
            | none =>
                have hentries : ∀ i service, s.base.activeServices i = some service →
                    s.base.kind service ≠ .serviceSpawner :=
                  fun i service hi hkind => hentry ⟨i, service, hi, hkind⟩
                exact .inr ((hmode.gone hentries hserving hawait).receive hc hstep _ failures)
  · exact .inr (hmode.receive hc hstep _ failures)

/-! ## The stream and the other threads -/

theorem Taking.fail {loss : Loss} (h : s.Taking request) (hlost : s.lost = some loss)
    (hunread : s.base.unread = []) (hkept : s.lost = some .ioException → isResponse s.keptResponse = false)
    (hstep : s.base.failRead loss = some base) (failures : Nat) :
    ({ s with base, failures } : RequestingState Tid Sid P C).Taking request := by
  obtain ⟨hsent, hspent⟩ := failRead_spent hstep hlost hunread hkept failures
  refine h.below rfl rfl rfl (by rw [hsent]) (by rw [hsent]; exact h.responses) (.inr ?_)
  have hsame : base.spawner.openRequestResponses = s.base.spawner.openRequestResponses := by
    rcases ReceivingState.failRead_spawner hstep with ⟨-, hspawner⟩ | ⟨-, bytes, hspawner⟩
    · rw [hspawner]
    · rw [hspawner]
  rcases h.mode with hmode | hmode
  · have hawait : s.base.receiver ≠ .awaitDone := by
      intro hpc
      simp only [ReceivingState.failRead, hpc] at hstep
      cases hstep
    obtain ⟨-, -, hnone, hcalls⟩ := hmode.hand.idle_of hawait
    exact ⟨hsame.trans hnone, not_polled hcalls, .inr hspent⟩
  · exact ⟨hsame.trans hmode.responses, hmode.calls, .inr hspent⟩

variable [DecidableEq Tid] [DecidableEq Sid]

theorem Stream.aside {owner : Option Sid → Short → Prop} {label : ReceivingLabel Tid Sid P}
    (h : s.Stream owner) (hreceive : ∀ n, label ≠ .receive n) (harrive : ∀ msg, label ≠ .arrive msg)
    (haside : ReceivingState.Aside s.base base) (hstep : s.base.step label = some base) :
    ({ s with base } : RequestingState Tid Sid P C).Stream owner := by
  obtain ⟨lost, hlast, halign, hat⟩ := h
  have htested : s.base.InputTested label := by
    unfold ReceivingState.InputTested
    cases label with
    | receive n => exact absurd rfl (hreceive n)
    | _ => trivial
  have hunread : (base.extend lost).unread = (s.base.extend lost).unread :=
    congrArg (· ++ lost) haside.unread
  have hat' : (base.extend lost).AtHand owner :=
    hat.frame haside.receiver haside.kind hunread haside.coming
  exact ⟨lost, hlast, halign.step_cut htested harrive hstep, hat'⟩

/-- The threads that close ports and register services leave the answers alone. -/
theorem Taking.aside {label : ReceivingLabel Tid Sid P} (h : s.Taking request)
    (hstep : s.base.step label = some base) (hreceive : ∀ n, label ≠ .receive n)
    (harrive : ∀ msg, label ≠ .arrive msg) (htake : label ≠ .takeResponse) :
    ({ s with base } : RequestingState Tid Sid P C).Taking request := by
  have haside := ReceivingState.aside_step hreceive harrive htake hstep
  refine h.below rfl rfl rfl (by rw [haside.sent]) (by rw [haside.sent]; exact h.responses) ?_
  rcases h.mode with hmode | hmode
  · have hgrows : s.Grows { s with base } := ⟨by rw [haside.sent], List.prefix_rfl⟩
    refine .inl ⟨?_, ?_, hmode.come, ?_, ?_, ?_⟩
    · show Stream _ (spawnerOwner base.kind)
      rw [haside.kind]
      exact hmode.stream.aside hreceive harrive haside hstep
    · rw [haside.receiver, passed, haside.sent, haside.iterations]
      exact hmode.counted
    · rw [haside.spawner]
      exact hmode.taken
    · rw [haside.spawner]
      exact hmode.queue
    · exact hmode.hand.frame haside.receiver haside.spawner rfl hgrows fun _ _ => rfl
  · refine .inr ⟨?_, hmode.calls, ?_⟩
    · rw [haside.spawner]
      exact hmode.responses
    · rcases hmode.receiver with hgone | hspent
      · refine .inl ⟨hgone.stream.aside hreceive harrive haside hstep, ?_, ?_, ?_⟩
        · intro i service hi
          rw [haside.kind]
          rcases haside.entries i service hi with hold | hnew
          · exact hgone.entries i service hold
          · intro hkind
            rw [hkind] at hnew
            simp at hnew
        · rw [haside.receiver, haside.kind]
          exact hgone.serving
        · rw [haside.receiver]
          exact hgone.receiver
      · refine .inr ⟨hspent.lost, ?_, ?_⟩
        · rw [haside.unread]
          exact hspent.unread
        · rw [haside.receiver, haside.kind]
          exact hspent.receiver

/-! ## Runs -/

variable [DecidableEq C]

theorem Taking.step {label : RequestingLabel Tid Sid P C} (h : s.Taking request)
    (horder : s.InOrder label) (hturn : s.TakesTurns label) (hstep : s.step request label = some t) :
    t.Taking request := by
  cases label with
  | base label =>
      cases label with
      | takeResponse => cases hstep
      | arrive msg =>
          obtain ⟨hlost, hstep⟩ := Option.ite_none_right_eq_some.mp hstep
          obtain ⟨base, hbase, rfl⟩ := Option.map_eq_some_iff.mp hstep
          obtain ⟨hgood, hbase⟩ := Option.ite_none_right_eq_some.mp hbase
          cases hbase
          exact h.arrive hlost hgood horder
      | receive n =>
          obtain ⟨base, hbase, rfl⟩ := Option.map_eq_some_iff.mp hstep
          exact h.receive hturn hbase _
      | startClose tid x | startEof tid x | run tid | register i service | assignPort service x =>
          obtain ⟨base, hbase, rfl⟩ := Option.map_eq_some_iff.mp hstep
          exact h.aside hbase (by simp) (by simp) (by simp)
  | lose loss kept =>
      obtain ⟨hlost, hstep⟩ := Option.ite_none_right_eq_some.mp hstep
      cases hstep
      exact h.lose hlost
  | fail =>
      obtain ⟨loss, hlost, hstep⟩ := Option.bind_eq_some_iff.mp hstep
      obtain ⟨hunread, hstep⟩ := Option.ite_none_right_eq_some.mp hstep
      obtain ⟨base, hbase, rfl⟩ := Option.map_eq_some_iff.mp hstep
      exact h.fail hlost hunread hturn hbase _
  | fill c =>
      simp only [RequestingState.step] at hstep
      split at hstep
      · next hcall =>
        cases hstep
        exact h.fill hturn hcall
      · cases hstep
  | write c =>
      simp only [RequestingState.step] at hstep
      split at hstep
      · next hcall =>
        split at hstep
        · cases hstep
        · cases hstep
          exact h.write hcall
      · cases hstep
  | writeThrows c =>
      simp only [RequestingState.step] at hstep
      split at hstep
      · next hcall =>
        obtain ⟨-, hstep⟩ := Option.ite_none_right_eq_some.mp hstep
        cases hstep
        exact h.writeThrows hcall
      · cases hstep
  | wait c =>
      simp only [RequestingState.step] at hstep
      split at hstep
      · next hcall =>
        cases hstep
        exact h.wait hturn hcall
      · cases hstep
  | acquire c =>
      obtain ⟨⟨hhead, hready⟩, hstep⟩ := Option.ite_none_right_eq_some.mp hstep
      cases hstep
      refine h.setCall rfl (by simp) ⟨List.prefix_rfl, List.prefix_rfl⟩ rfl h.paired.frame (by simp)
        (fun _ => .inl rfl) ?_
      rcases h.mode with hmode | hmode
      · exact .inl (hmode.acquire hhead hready)
      · exact .inr (hmode.take (by simp) hmode.responses)
  | poll c =>
      simp only [RequestingState.step] at hstep
      split at hstep
      · next hcall =>
        cases hstep
        refine h.setCall rfl (by simp) ⟨List.prefix_rfl, List.prefix_rfl⟩ rfl h.paired.frame (by simp)
          (fun _ => .inl rfl) ?_
        rcases h.mode with hmode | hmode
        · exact .inl (hmode.poll hcall)
        · refine .inr (hmode.take ?_ ?_)
          · rw [hmode.responses]
            simp
          · show s.base.spawner.openRequestResponses.tail = []
            rw [hmode.responses]
            rfl
      · cases hstep
  | release c =>
      simp only [RequestingState.step] at hstep
      split at hstep
      · next polled hcall =>
        cases hstep
        rcases h.mode with hmode | hmode
        · obtain ⟨hanswered, hworking⟩ := hmode.release hcall
          refine h.setCall rfl ?_ ⟨List.prefix_rfl, List.prefix_rfl⟩ rfl h.paired.frame (by simp)
            (fun _ => .inl rfl) (.inl hworking)
          intro response hresponse
          exact hanswered response (RequestPc.finished.inj hresponse)
        · refine h.setCall rfl ?_ ⟨List.prefix_rfl, List.prefix_rfl⟩ rfl h.paired.frame (by simp)
            (fun _ => .inl rfl) (.inr (hmode.take (by simp) hmode.responses))
          intro response hresponse
          rw [RequestPc.finished.inj hresponse] at hcall
          exact absurd hcall (hmode.calls c response)
      · cases hstep

end RequestingState

section

variable [DecidableEq Tid] [DecidableEq Sid] [DecidableEq P] [DecidableEq C]

/-- The calls next to an accessory that answers their requests in order. -/
def answered (request : C → ServiceRequest) :
    Machine (RequestingState Tid Sid P C) (RequestingLabel Tid Sid P C) :=
  (requesting request).guard RequestingState.InOrder

/-- In every run in which the calls take turns each request is the call's own, and
so is the answer it returns with. -/
theorem requests_paired (request : C → ServiceRequest)
    [∀ (s : RequestingState Tid Sid P C) label, Decidable (s.TakesTurns label)]
    {s : RequestingState Tid Sid P C}
    (h : ((answered request).guard RequestingState.TakesTurns).Reachable s) : s.Paired request := by
  have hinv : s.Taking request := by
    apply h.invariant
    · intro s hs
      exact .initial hs
    · intro s label t hs hstep
      obtain ⟨hturn, hstep⟩ := Machine.guard_step.mp hstep
      obtain ⟨horder, hstep⟩ := Machine.guard_step.mp hstep
      exact hs.step horder hturn hstep
  exact hinv.paired

end

attribute [local instance] two_neZero four_neZero

/-- The two calls ask for different services. -/
def differentRequests : Fin 2 → ServiceRequest := ![⟨2, []⟩, ⟨3, [0x61]⟩]

/-- The port that a call returns. -/
def RequestPc.returned : RequestPc → Option Short
  | .finished response => response.map (·.port)
  | _ => none

private def inTurn : List (RequestingLabel (Fin 1) (Fin 4) (Fin 4) (Fin 2)) :=
  [.fill 0, .write 0, .fill 1, .write 1, .wait 0, .wait 1,
    .base (.arrive ⟨1, 8, [0x73, 5, 0, 1, 0, 0, 0, 0]⟩), .base (.receive 4), .base (.receive 0),
    .base (.receive 0), .base (.receive 8), .base (.receive 0), .base (.receive 0), .acquire 0,
    .poll 0, .release 0]

private theorem inTurn_isSome :
    (((answered differentRequests).guard RequestingState.TakesTurns).run beforeRequests inTurn).isSome := by
  decide +kernel

/-- The first call returns with port 5, while the second still waits. -/
theorem requests_paired_inTurn : ∃ s : RequestingState (Fin 1) (Fin 4) (Fin 4) (Fin 2),
    (s.call 0).returned = some 5 ∧ (s.call 1).isWaiting = true ∧ s.Paired differentRequests :=
  ⟨_, by decide +kernel, by decide +kernel, requests_paired differentRequests
    (Machine.Reachable.of_run (M := (answered differentRequests).guard RequestingState.TakesTurns)
      beforeRequests_init inTurn_isSome)⟩

private def fillTwice : List (RequestingLabel (Fin 1) (Fin 4) (Fin 4) (Fin 2)) :=
  [.fill 0, .fill 1, .write 0]

private theorem fillTwice_isSome : ((answered differentRequests).run beforeRequests fillTwice).isSome := by
  decide +kernel

private theorem fillTwice_outgoing :
    (((answered differentRequests).run beforeRequests fillTwice).get fillTwice_isSome).outgoing =
      [(0, (differentRequests 1).bytes)] := by
  decide +kernel

/-- A second call fills the buffer before the first has written it; the first then
asks for the service of the second. -/
theorem requests_mixed_up :
    ¬∀ s : RequestingState (Fin 1) (Fin 4) (Fin 4) (Fin 2),
      (answered differentRequests).Reachable s → s.Paired differentRequests := by
  intro h
  have hreach := Machine.Reachable.of_run (M := answered differentRequests) beforeRequests_init
    fillTwice_isSome
  have hframe := (h _ hreach).frame (0, (differentRequests 1).bytes) (by
    rw [fillTwice_outgoing]
    exact List.mem_singleton_self _)
  exact absurd hframe (by decide)

end AapBridge.Android
