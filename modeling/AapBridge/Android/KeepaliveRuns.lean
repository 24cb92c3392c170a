import AapBridge.Accessory.Incarnation
import AapBridge.Android.KeepaliveTraffic

/-! # What the keepalive service can tell

The flag is set by a reply and cleared once per task, so a task that finds it
cleared has sent a ping no reply has come for since, and there are never more
tasks than replies and two. The one false alarm is that of a first task that
runs before the constructor of the bridge has stored the stream.
-/

namespace AapBridge.Android

open AapBridge.Lib
open AapBridge.Accessory (BridgeConnection MultiplexedMessage)

namespace Keepalive

variable {Tid : Type*} [DecidableEq Tid]

/-- Before the write to the stream, in the task or in `sendKeepalive`. -/
def SendPc.Writes : SendPc → Prop
  | .rewind | .write | .stream _ => True
  | .idle | .clear | .leave _ => False

namespace State

variable {s u : State Tid}

/-! ## The flag -/

/-- A reply sets the flag, a task whose test passes clears it and sends one ping, as
does the task that finds it cleared. The last clause is why an alarm has a cause. -/
structure Ticking (s : State Tid) : Prop where
  others : ∀ t, s.pc (some t) ≠ .clear
  clear : s.pc none = .clear → s.keepAliveReceived = true
  ticks : s.ticks + s.keepAliveReceived.toNat ≤ s.handled + 1
  pinged : s.pinged ≤ s.ticks + s.cancelled.toNat
  writing : (s.pc none).Writes → s.pinged + 1 ≤ s.ticks + s.cancelled.toNat
  unanswered : s.keepAliveReceived = false → (s.pc none).Writes ∨
    s.handled + s.missed < s.pinged + s.called ∨ s.failed = true ∨ s.early = true
  alarm : 0 ∈ s.posted ↔ s.cancelled = true
  exception : 1 ∈ s.posted → s.failed = true ∨ s.early = true
  posted : ∀ what ∈ s.posted, what = 0 ∨ what = 1
  messages : ∀ what ∈ s.messages, what ∈ s.posted
  taken : s.closed = true ∨ s.uncaught = true → s.posted ≠ []

/-- What leaves the pinger and the flag alone. -/
structure Beside (s u : State Tid) : Prop where
  pc : u.pc none = s.pc none
  others : ∀ t, u.pc (some t) = .clear → s.pc (some t) = .clear
  keepAliveReceived : u.keepAliveReceived = s.keepAliveReceived
  ticks : u.ticks = s.ticks
  cancelled : u.cancelled = s.cancelled
  pinged : u.pinged = s.pinged
  called : s.called ≤ u.called
  handled : u.handled = s.handled
  missed : u.missed = s.missed
  failed : s.failed = true → u.failed = true
  early : s.early = true → u.early = true
  posted : u.posted = s.posted
  messages : u.messages = s.messages
  closed : u.closed = s.closed
  uncaught : u.uncaught = s.uncaught

omit [DecidableEq Tid] in
theorem Ticking.beside (h : Ticking s) (hsame : Beside s u) : Ticking u := by
  constructor
  · intro t ht
    exact h.others t (hsame.others t ht)
  · rw [hsame.pc, hsame.keepAliveReceived]
    exact h.clear
  · rw [hsame.ticks, hsame.keepAliveReceived, hsame.handled]
    exact h.ticks
  · rw [hsame.ticks, hsame.pinged, hsame.cancelled]
    exact h.pinged
  · rw [hsame.pc, hsame.ticks, hsame.pinged, hsame.cancelled]
    exact h.writing
  · rw [hsame.keepAliveReceived, hsame.pc, hsame.handled, hsame.missed, hsame.pinged]
    intro hcleared
    have hcalled := hsame.called
    obtain hwrites | hless | hfailed | hearly := h.unanswered hcleared
    · exact .inl hwrites
    · exact .inr (.inl (by omega))
    · exact .inr (.inr (.inl (hsame.failed hfailed)))
    · exact .inr (.inr (.inr (hsame.early hearly)))
  · rw [hsame.posted, hsame.cancelled]
    exact h.alarm
  · rw [hsame.posted]
    intro hone
    exact (h.exception hone).imp hsame.failed hsame.early
  · rw [hsame.posted]
    exact h.posted
  · rw [hsame.posted, hsame.messages]
    exact h.messages
  · rw [hsame.posted, hsame.closed, hsame.uncaught]
    exact h.taken

/-- Another thread than the pinger goes on. -/
theorem beside_place (s : State Tid) (t : Tid) (pc : SendPc) (hpc : pc ≠ .clear) :
    Beside s (s.place (some t) pc) := by
  refine ⟨?_, ?_, rfl, rfl, rfl, rfl, Nat.le_refl _, rfl, rfl, id, id, rfl, rfl, rfl, rfl⟩
  · exact place_pc_ne (Option.some_ne_none t).symm pc
  · intro r hr
    by_cases hrt : r = t
    · subst hrt
      rw [place_pc_self] at hr
      exact absurd hr hpc
    · rwa [place_pc_ne fun heq => hrt (Option.some.inj heq)] at hr

/-- The test passes. -/
theorem Ticking.pass (h : Ticking s) (hflag : s.keepAliveReceived = true) :
    Ticking (s.place none .clear) := by
  refine ⟨?_, fun _ => hflag, h.ticks, h.pinged, ?_, ?_, h.alarm, h.exception, h.posted,
    h.messages, h.taken⟩
  · intro t
    rw [place_pc_ne (Option.some_ne_none t)]
    exact h.others t
  · rw [place_pc_self]
    exact False.elim
  · intro hcleared
    have hset : s.keepAliveReceived = false := hcleared
    rw [hflag] at hset
    cases hset

/-- The alarm: the timer is cancelled, and one more ping follows. -/
theorem Ticking.cancel (h : Ticking s) (hbefore : s.cancelled = false) :
    Ticking (({ s with cancelled := true }.post 0).place none .rewind) := by
  have hpinged := h.pinged
  rw [hbefore] at hpinged
  refine ⟨?_, ?_, h.ticks, Nat.le_succ_of_le hpinged, fun _ => Nat.succ_le_succ hpinged, ?_, ?_,
    ?_, ?_, ?_, ?_⟩
  · intro t
    rw [place_pc_ne (Option.some_ne_none t)]
    exact h.others t
  · rw [place_pc_self]
    exact fun hpc => SendPc.noConfusion hpc
  · rw [place_pc_self]
    exact fun _ => .inl trivial
  · exact iff_of_true (List.mem_append_right _ List.mem_cons_self) rfl
  · intro hone
    obtain hone | hone := List.mem_append.mp hone
    · exact h.exception hone
    · exact absurd (List.mem_singleton.mp hone) Nat.one_ne_zero
  · intro what hwhat
    obtain hwhat | hwhat := List.mem_append.mp hwhat
    · exact h.posted what hwhat
    · exact .inl (List.mem_singleton.mp hwhat)
  · intro what hwhat
    obtain hwhat | hwhat := List.mem_append.mp hwhat
    · exact List.mem_append_left _ (h.messages what hwhat)
    · exact List.mem_append_right _ hwhat
  · intro _
    exact List.append_ne_nil_of_right_ne_nil _ (List.cons_ne_nil _ _)

/-- The task ends in an exception, whose cause is recorded. -/
theorem Ticking.raise (h : Ticking s) (hcause : s.failed = true ∨ s.early = true) :
    Ticking (s.raise none) := by
  refine ⟨?_, ?_, h.ticks, h.pinged, ?_, ?_, ?_, fun _ => hcause, ?_, ?_, ?_⟩
  · intro t
    exact (place_pc_ne (Option.some_ne_none t) _).trans_ne (h.others t)
  · intro hpc
    exact SendPc.noConfusion ((place_pc_self none SendPc.idle).symm.trans hpc)
  · intro hwrites
    have hidle : (s.raise none).pc none = .idle := place_pc_self none _
    rw [hidle] at hwrites
    exact hwrites.elim
  · intro _
    exact .inr (.inr hcause)
  · show 0 ∈ s.posted ++ [1] ↔ s.cancelled = true
    rw [← h.alarm]
    simp
  · intro what hwhat
    obtain hwhat | hwhat := List.mem_append.mp (hwhat : what ∈ s.posted ++ [1])
    · exact h.posted what hwhat
    · exact .inr (List.mem_singleton.mp hwhat)
  · intro what hwhat
    obtain hwhat | hwhat := List.mem_append.mp (hwhat : what ∈ s.messages ++ [1])
    · exact List.mem_append_left _ (h.messages what hwhat)
    · exact List.mem_append_right _ hwhat
  · intro _
    exact List.append_ne_nil_of_right_ne_nil s.posted (List.cons_ne_nil 1 [])

/-- The pinger goes on without touching the flag. -/
theorem Ticking.move (h : Ticking s) {pc : SendPc} (hpc : pc ≠ .clear)
    (hwrites : pc.Writes ↔ (s.pc none).Writes) : Ticking (s.place none pc) := by
  refine ⟨?_, ?_, h.ticks, h.pinged, ?_, ?_, h.alarm, h.exception, h.posted, h.messages, h.taken⟩
  · intro t
    rw [place_pc_ne (Option.some_ne_none t)]
    exact h.others t
  · rw [place_pc_self]
    exact fun heq => absurd heq hpc
  · rw [place_pc_self, hwrites]
    exact h.writing
  · rw [place_pc_self, hwrites]
    exact h.unanswered

/-- A step of the pinger. -/
theorem Ticking.pinger (h : Ticking s) (htraffic : Traffic s) (hran : Ran s none u) :
    Ticking u := by
  cases hran with
  | clear hpc =>
      have hflag := h.clear hpc
      have hticks := h.ticks
      rw [hflag] at hticks
      refine ⟨?_, ?_, ?_, ?_, ?_, ?_, h.alarm, h.exception, h.posted, h.messages, h.taken⟩
      · intro t
        rw [place_pc_ne (Option.some_ne_none t)]
        exact h.others t
      · rw [place_pc_self]
        exact fun heq => SendPc.noConfusion heq
      · exact hticks
      · have hpinged := h.pinged
        show s.pinged ≤ s.ticks + 1 + s.cancelled.toNat
        omega
      · intro _
        have hpinged := h.pinged
        show s.pinged + 1 ≤ s.ticks + 1 + s.cancelled.toNat
        omega
      · rw [place_pc_self]
        exact fun _ => .inl trivial
  | rewind hpc =>
      have hrewound : Ticking { s with ping := s.ping.rewind } :=
        h.beside ⟨rfl, fun _ => id, rfl, rfl, rfl, rfl, Nat.le_refl _, rfl, rfl, id, id, rfl, rfl,
          rfl, rfl⟩
      exact hrewound.move SendPc.noConfusion (by rw [hpc]; exact Iff.rfl)
  | write hpc _ =>
      have hentered : Ticking { s with monitor := some none } :=
        h.beside ⟨rfl, fun _ => id, rfl, rfl, rfl, rfl, Nat.le_refl _, rfl, rfl, id, id, rfl, rfl,
          rfl, rfl⟩
      exact hentered.move SendPc.noConfusion (by rw [hpc]; exact Iff.rfl)
  | @stream amount payload hpc _ =>
      -- everything sent so far has at most been answered, and this one has not
      have hwriting := h.writing (by rw [hpc]; trivial)
      have hconserved := htraffic.conserved
      refine ⟨?_, ?_, h.ticks, hwriting, ?_, ?_, h.alarm, h.exception, h.posted, h.messages,
        h.taken⟩
      · intro t
        rw [place_pc_ne (Option.some_ne_none t)]
        exact h.others t
      · rw [place_pc_self]
        exact fun heq => SendPc.noConfusion heq
      · rw [place_pc_self]
        exact False.elim
      · intro _
        refine .inr (.inl ?_)
        show s.handled + s.missed < s.pinged + 1 + s.called
        omega
  | fails _ =>
      have hfailed : Ticking { s with failed := true } :=
        h.beside ⟨rfl, fun _ => id, rfl, rfl, rfl, rfl, Nat.le_refl _, rfl, rfl, fun _ => rfl, id,
          rfl, rfl, rfl, rfl⟩
      exact hfailed.raise (.inl rfl)
  | early _ _ =>
      have hearly : Ticking { s with early := true } :=
        h.beside ⟨rfl, fun _ => id, rfl, rfl, rfl, rfl, Nat.le_refl _, rfl, rfl, id, fun _ => rfl,
          rfl, rfl, rfl, rfl⟩
      exact hearly.raise (.inr rfl)
  | @leave _ buffer hpc _ =>
      have hleft : Ticking { s with ping := buffer, monitor := none } :=
        h.beside ⟨rfl, fun _ => id, rfl, rfl, rfl, rfl, Nat.le_refl _, rfl, rfl, id, id, rfl, rfl,
          rfl, rfl⟩
      exact hleft.move SendPc.noConfusion (by rw [hpc]; exact Iff.rfl)

/-- A step of a thread that calls `sendKeepalive`. -/
theorem Ticking.caller (h : Ticking s) {t : Tid} (hran : Ran s (some t) u) : Ticking u := by
  cases hran with
  | clear hpc => exact absurd hpc (h.others t)
  | rewind _ =>
      exact (h.beside (beside_place s t .write SendPc.noConfusion)).beside
        ⟨rfl, fun _ => id, rfl, rfl, rfl, rfl, Nat.le_refl _, rfl, rfl, id, id, rfl, rfl, rfl, rfl⟩
  | write _ _ =>
      exact (h.beside (beside_place s t (.stream _) SendPc.noConfusion)).beside
        ⟨rfl, fun _ => id, rfl, rfl, rfl, rfl, Nat.le_refl _, rfl, rfl, id, id, rfl, rfl, rfl, rfl⟩
  | stream _ _ =>
      exact (h.beside (beside_place s t (.leave _) SendPc.noConfusion)).beside
        ⟨rfl, fun _ => id, rfl, rfl, rfl, rfl, Nat.le_succ _, rfl, rfl, id, id, rfl, rfl, rfl, rfl⟩
  | fails _ =>
      exact (h.beside (beside_place s t .idle SendPc.noConfusion)).beside
        ⟨rfl, fun _ => id, rfl, rfl, rfl, rfl, Nat.le_refl _, rfl, rfl, fun _ => rfl, id, rfl, rfl,
          rfl, rfl⟩
  | early _ _ =>
      exact (h.beside (beside_place s t .idle SendPc.noConfusion)).beside
        ⟨rfl, fun _ => id, rfl, rfl, rfl, rfl, Nat.le_refl _, rfl, rfl, id, fun _ => rfl, rfl, rfl,
          rfl, rfl⟩
  | leave _ _ =>
      exact (h.beside (beside_place s t .idle SendPc.noConfusion)).beside
        ⟨rfl, fun _ => id, rfl, rfl, rfl, rfl, Nat.le_refl _, rfl, rfl, id, id, rfl, rfl, rfl, rfl⟩

omit [DecidableEq Tid] in
theorem Ticking.receive (h : Ticking s) {msg : MultiplexedMessage}
    {rest : List MultiplexedMessage} (hu : Received s msg rest u) : Ticking u := by
  cases hu with
  | reply _ =>
      have hticks := h.ticks
      refine ⟨h.others, fun _ => rfl, ?_, h.pinged, h.writing, ?_, h.alarm, h.exception,
        h.posted, h.messages, h.taken⟩
      · show s.ticks + 1 ≤ s.handled + 1 + 1
        omega
      · intro hcleared
        cases hcleared
  | missed _ =>
      exact ⟨h.others, h.clear, h.ticks, h.pinged, h.writing, fun _ => .inr (.inr (.inl rfl)),
        h.alarm, fun _ => .inl rfl, h.posted, h.messages, h.taken⟩
  | other _ =>
      exact h.beside ⟨rfl, fun _ => id, rfl, rfl, rfl, rfl, Nat.le_refl _, rfl, rfl, id, id, rfl,
        rfl, rfl, rfl⟩

omit [DecidableEq Tid] in
theorem Ticking.take (h : Ticking s) {what : Nat} {rest : List Nat} {closed uncaught : Bool}
    (hqueue : s.messages = what :: rest) :
    Ticking { s with messages := rest, closed, uncaught } := by
  have hmem : ∀ other ∈ rest, other ∈ s.posted := by
    intro other hother
    apply h.messages
    rw [hqueue]
    exact List.mem_cons_of_mem _ hother
  have hposted : s.posted ≠ [] := by
    apply List.ne_nil_of_mem (h.messages what _)
    rw [hqueue]
    exact List.mem_cons_self
  exact ⟨h.others, h.clear, h.ticks, h.pinged, h.writing, h.unanswered, h.alarm, h.exception,
    h.posted, hmem, fun _ => hposted⟩

/-! ## Any run -/

structure Sound (s : State Tid) : Prop where
  buffered : Buffered s
  traffic : Traffic s
  ticking : Ticking s

theorem Sound.step (h : Sound s) {label : Label Tid} (hu : s.step label = some u) : Sound u := by
  obtain ⟨hbuffered, htraffic, hticking⟩ := h
  cases label with
  | construct succeeds =>
      obtain ⟨construction, connection, outputStream, rfl⟩ := construct_eq hu
      exact ⟨hbuffered.congr rfl rfl rfl, htraffic.congr rfl rfl rfl rfl rfl rfl,
        hticking.beside ⟨rfl, fun _ => id, rfl, rfl, rfl, rfl, Nat.le_refl _, rfl, rfl, id, id, rfl,
          rfl, rfl, rfl⟩⟩
  | tick =>
      obtain ⟨-, hbefore, ⟨hflag, rfl⟩ | ⟨-, rfl⟩⟩ := tick_eq hu
      · exact ⟨hbuffered.place (fun _ => SendPc.noConfusion) (fun _ => SendPc.noConfusion),
          htraffic.congr rfl rfl rfl rfl rfl rfl, hticking.pass hflag⟩
      · have hposted : Buffered ({ s with cancelled := true }.post 0) := hbuffered.congr rfl rfl rfl
        exact ⟨hposted.place (fun _ => SendPc.noConfusion) (fun _ => SendPc.noConfusion),
          htraffic.congr rfl rfl rfl rfl rfl rfl, hticking.cancel hbefore⟩
  | call t =>
      simp only [State.step, State.call] at hu
      split at hu
      · cases hu
        exact ⟨hbuffered.place (fun _ => SendPc.noConfusion) (fun _ => SendPc.noConfusion),
          htraffic.congr rfl rfl rfl rfl rfl rfl,
          hticking.beside (beside_place s t .rewind SendPc.noConfusion)⟩
      · cases hu
  | run t succeeds =>
      have hran := hbuffered.ran hu
      refine ⟨hbuffered.run hran, htraffic.run hbuffered hran, ?_⟩
      cases t with
      | none => exact hticking.pinger htraffic hran
      | some t => exact hticking.caller hran
  | handle =>
      obtain ⟨what, rest, closed, uncaught, hqueue, rfl⟩ := handle_eq hu
      exact ⟨hbuffered.congr rfl rfl rfl, htraffic.congr rfl rfl rfl rfl rfl rfl,
        hticking.take hqueue⟩
  | answer =>
      refine ⟨?_, htraffic.answer hu, ?_⟩
      all_goals
        simp only [State.step, State.answer] at hu
        split at hu
        · cases hu
        · obtain ⟨b, -, rfl⟩ := Option.map_eq_some_iff.mp hu
          first
            | exact hbuffered.congr rfl rfl rfl
            | exact hticking.beside ⟨rfl, fun _ => id, rfl, rfl, rfl, rfl, Nat.le_refl _, rfl, rfl,
                id, id, rfl, rfl, rfl, rfl⟩
  | operate op =>
      simp only [State.step] at hu
      split at hu
      · next hop =>
        have htraffic' := htraffic.operate hop hu
        obtain ⟨b, -, rfl⟩ := Option.map_eq_some_iff.mp hu
        exact ⟨hbuffered.congr rfl rfl rfl, htraffic', hticking.beside ⟨rfl, fun _ => id, rfl, rfl,
          rfl, rfl, Nat.le_refl _, rfl, rfl, id, id, rfl, rfl, rfl, rfl⟩⟩
      · cases hu
  | receive succeeds =>
      obtain ⟨msg, rest, hsent, hreceived⟩ := receive_eq hu
      refine ⟨?_, htraffic.receive hsent hreceived, hticking.receive hreceived⟩
      cases hreceived with
      | reply _ => exact hbuffered.congr rfl rfl rfl
      | missed _ => exact hbuffered.congr rfl rfl rfl
      | other _ => exact hbuffered.congr rfl rfl rfl

omit [DecidableEq Tid] in
theorem Sound.initial {buffer : ByteBuffer} (hbuffer : Keepalive.ping = some buffer) :
    Sound (State.initial buffer : State Tid) := by
  have hbytes : Keepalive.ping = some
      ⟨pingBytes, 0, 4, 4, 4, none, Nat.le_refl 4, Nat.le_refl 4, Nat.le_refl 4⟩ := rfl
  rw [hbytes] at hbuffer
  cases hbuffer
  refine ⟨⟨rfl, rfl, rfl, .inr rfl, ?_⟩, ⟨Accessory.LifecycleState.initial_table, rfl, rfl, ?_⟩, ?_⟩
  · intro t amount hpc
    obtain hpc | hpc := hpc
    · cases hpc
    · cases hpc
  · intro payload hpayload
    cases hpayload
  · refine ⟨?_, fun _ => rfl, Nat.le_refl 1, Nat.le_refl 0, False.elim, ?_, ?_, ?_, ?_, ?_, ?_⟩
    · intro t
      exact SendPc.noConfusion
    · intro hcleared
      cases hcleared
    · exact iff_of_false List.not_mem_nil Bool.false_ne_true
    · intro hone
      cases hone
    · intro what hwhat
      cases hwhat
    · intro what hwhat
      cases hwhat
    · intro htaken
      obtain htaken | htaken := htaken
      · cases htaken
      · cases htaken

theorem Sound.reachable (h : (keepalive Tid).Reachable s) : Sound s := by
  apply h.invariant
  · intro s hinit
    obtain ⟨buffer, hbuffer, rfl⟩ := hinit
    exact .initial hbuffer
  · intro s label u hs hu
    exact hs.step hu

/-! ## How many tasks there can be -/

/-- The tasks that can begin before the next reply. -/
def budget (s : State Tid) : Nat :=
  if s.cancelled then 0
  else if s.keepAliveReceived = true ∧ s.pc none ≠ .clear then 2
  else 1

end State

def Label.isTick : Label Tid → Bool
  | .tick => true
  | _ => false

namespace State

variable {s u : State Tid}

omit [DecidableEq Tid] in
theorem budget_congr (hcancelled : u.cancelled = s.cancelled)
    (hflag : u.keepAliveReceived = s.keepAliveReceived) (hpc : u.pc none = s.pc none) :
    u.budget = s.budget := by
  simp only [budget, hcancelled, hflag, hpc]

omit [DecidableEq Tid] in
theorem budget_le (s : State Tid) : s.budget ≤ 2 := by
  unfold budget
  split
  · exact Nat.zero_le 2
  · split
    · exact Nat.le_refl 2
    · exact Nat.le_succ 1

theorem budget_run (h : Sound s) {t : Option Tid} (hran : Ran s t u) :
    u.budget ≤ s.budget ∧ u.handled = s.handled := by
  cases t with
  | some t =>
      cases hran with
      | clear hpc => exact absurd hpc (h.ticking.others t)
      | _ =>
          refine ⟨le_of_eq ?_, rfl⟩
          simp [State.budget, State.place, State.sent, State.raise]
  | none =>
      cases hran with
      | clear hpc =>
          refine ⟨?_, rfl⟩
          simp only [State.budget, State.place, hpc, h.ticking.clear hpc]
          split <;> simp_all
      | rewind hpc | write hpc _ | stream hpc _ | fails hpc | early hpc _ | leave hpc _ =>
          refine ⟨le_of_eq ?_, rfl⟩
          simp [State.budget, State.place, State.sent, State.raise, hpc]

/-- A task costs one, a reply pays for one. -/
theorem budget_step (h : Sound s) {label : Label Tid} (hu : s.step label = some u) :
    (if label.isTick then 1 else 0) + u.budget + s.handled ≤ s.budget + u.handled := by
  cases label with
  | tick =>
      obtain ⟨hidle, hbefore, ⟨hflag, rfl⟩ | ⟨hflag, rfl⟩⟩ := tick_eq hu
      · simp [State.budget, State.place, Label.isTick, hidle, hbefore, hflag]
      · simp [State.budget, State.place, State.post, Label.isTick, hbefore, hflag]
  | run t succeeds =>
      obtain ⟨hle, hsame⟩ := budget_run h (h.buffered.ran hu)
      simp only [Label.isTick, Bool.false_eq_true, if_false]
      omega
  | receive succeeds =>
      obtain ⟨msg, rest, -, hreceived⟩ := receive_eq hu
      simp only [Label.isTick, Bool.false_eq_true, if_false]
      cases hreceived with
      | reply _ =>
          simp only [State.budget]
          split
          · omega
          · split <;> split <;> omega
      | missed _ => exact (Nat.zero_add _).symm ▸ Nat.le_refl _
      | other _ => exact (Nat.zero_add _).symm ▸ Nat.le_refl _
  | construct succeeds =>
      obtain ⟨construction, connection, outputStream, rfl⟩ := construct_eq hu
      exact (Nat.zero_add _).symm ▸ Nat.le_refl _
  | call t =>
      simp only [State.step, State.call] at hu
      split at hu
      · cases hu
        have hsame := budget_congr (s := s) (u := s.place (some t) .rewind) rfl rfl
          (place_pc_ne (Option.some_ne_none t).symm _)
        rw [hsame]
        exact (Nat.zero_add _).symm ▸ Nat.le_refl _
      · cases hu
  | handle =>
      obtain ⟨what, rest, closed, uncaught, -, rfl⟩ := handle_eq hu
      exact (Nat.zero_add _).symm ▸ Nat.le_refl _
  | answer =>
      simp only [State.step, State.answer] at hu
      split at hu
      · cases hu
      · obtain ⟨b, -, rfl⟩ := Option.map_eq_some_iff.mp hu
        exact (Nat.zero_add _).symm ▸ Nat.le_refl _
  | operate op =>
      simp only [State.step] at hu
      split at hu
      · obtain ⟨b, -, rfl⟩ := Option.map_eq_some_iff.mp hu
        exact (Nat.zero_add _).symm ▸ Nat.le_refl _
      · cases hu

theorem budget_along (h : Sound s) {labels : List (Label Tid)}
    (hu : (keepalive Tid).run s labels = some u) :
    labels.countP Label.isTick + u.budget + s.handled ≤ s.budget + u.handled := by
  induction labels generalizing s with
  | nil =>
      cases hu
      simp
  | cons label labels ih =>
      rw [Machine.run_cons] at hu
      obtain ⟨w, hw, hrest⟩ := Option.bind_eq_some_iff.mp hu
      have hhead := budget_step h hw
      have htail := ih (h.step hw) hrest
      rw [List.countP_cons]
      omega

end State

open State

/-! ## Results -/

/-- Every ping is on its way, answered, or its reply has been taken; a frame carries
the whole text or nothing, whoever rewinds the buffer meanwhile; and apart from those
an application asks for there are never more than two of them unanswered. -/
theorem pings_accounted_for (s : State Tid) (h : (keepalive Tid).Reachable s) :
    s.pinged + s.called = s.outstanding + s.handled + s.missed ∧
      (∀ payload ∈ s.toAccessory, payload = [] ∨ payload = pingBytes) ∧
      s.outstanding ≤ s.called + 2 := by
  have hsound := Sound.reachable h
  have hconserved := hsound.traffic.conserved
  have hpinged := hsound.ticking.pinged
  have hticks := hsound.ticking.ticks
  refine ⟨hconserved, hsound.traffic.payloads, ?_⟩
  have hcancelled : s.cancelled.toNat ≤ 1 := Bool.toNat_le s.cancelled
  omega

/-- Tasks whose test passes come one for each reply, and one more; a task that finds the
flag cleared gives the alarm, once, and is the last. -/
theorem silence_is_noticed (s : State Tid) (h : (keepalive Tid).Reachable s)
    (labels : List (Label Tid)) (u : State Tid) (hu : (keepalive Tid).run s labels = some u) :
    labels.countP Label.isTick ≤ u.handled - s.handled + 2 ∧
      (u.handled - s.handled + 2 ≤ labels.countP Label.isTick →
        u.cancelled = true ∧ 0 ∈ u.posted) := by
  have hsound := Sound.reachable h
  have halong := budget_along hsound hu
  have hbudget := s.budget_le
  refine ⟨by omega, ?_⟩
  intro hmany
  have hspent : u.budget = 0 := by omega
  have hcancelled : u.cancelled = true := by
    unfold State.budget at hspent
    split at hspent
    · next hyes => exact hyes
    · split at hspent <;> cases hspent
  exact ⟨hcancelled, (Sound.reachable (h.run hu)).ticking.alarm.mpr hcancelled⟩

/-- Before the write to the stream, with the monitor. -/
def SendPc.atStream : SendPc → Bool
  | .stream _ => true
  | _ => false

/-- A task begins when every ping has been answered, the streams do not throw, and
nothing is written before the constructor has stored the stream. -/
def Calm (s : State Tid) : Label Tid → Prop
  | .tick => s.outstanding = 0
  | .run t succeeds => (s.pc t).atStream = true → succeeds = true ∧ s.outputStream = true
  | .receive succeeds => succeeds = true
  | _ => True

instance (s : State Tid) (label : Label Tid) : Decidable (Calm s label) := by
  cases label <;> unfold Calm <;> infer_instance

/-- No message has been posted for any reason. -/
structure Quiet (s : State Tid) : Prop where
  sound : Sound s
  failed : s.failed = false
  early : s.early = false
  cancelled : s.cancelled = false

omit [DecidableEq Tid] in
/-- A task that finds the flag cleared has a ping outstanding, or something failed. -/
theorem outstanding_of_cleared {s : State Tid} (h : Sound s) (hidle : s.pc none = .idle)
    (hcleared : s.keepAliveReceived = false) :
    0 < s.outstanding ∨ s.failed = true ∨ s.early = true := by
  obtain hwrites | hless | hcause := h.ticking.unanswered hcleared
  · rw [hidle] at hwrites
    exact hwrites.elim
  · have hconserved := h.traffic.conserved
    exact .inl (by omega)
  · exact .inr hcause

theorem Quiet.run {s u : State Tid} (h : Quiet s) {t : Option Tid} {succeeds : Bool}
    (hcalm : Calm s (.run t succeeds)) (hu : s.step (.run t succeeds) = some u) : Quiet u := by
  have hsound := h.sound.step hu
  cases hpc : s.pc t with
  | stream amount =>
      obtain ⟨hsucceeds, hout⟩ := hcalm (by rw [hpc]; rfl)
      obtain ⟨payload, hload, -⟩ := h.sound.buffered.load hpc
      simp only [State.step, State.run, hpc, hout, hsucceeds, hload, if_true,
        Option.some.injEq] at hu
      subst hu
      exact ⟨hsound, h.failed, h.early, h.cancelled⟩
  | _ =>
      have hran := h.sound.buffered.ran hu
      cases hran with
      | fails hstream => rw [hpc] at hstream; cases hstream
      | early hstream _ => rw [hpc] at hstream; cases hstream
      | _ => exact ⟨hsound, h.failed, h.early, h.cancelled⟩

theorem Quiet.step {s u : State Tid} (h : Quiet s) {label : Label Tid} (hcalm : Calm s label)
    (hu : s.step label = some u) : Quiet u := by
  have hsound := h.sound.step hu
  cases label with
  | tick =>
      obtain ⟨hidle, hbefore, ⟨-, rfl⟩ | ⟨hflag, -⟩⟩ := tick_eq hu
      · exact ⟨hsound, h.failed, h.early, hbefore⟩
      · have hnone : s.outstanding = 0 := hcalm
        obtain hsome | hfailed | hearly := outstanding_of_cleared h.sound hidle hflag
        · omega
        · exact absurd hfailed (by rw [h.failed]; exact Bool.false_ne_true)
        · exact absurd hearly (by rw [h.early]; exact Bool.false_ne_true)
  | run t succeeds => exact h.run hcalm hu
  | receive succeeds =>
      have hsucceeds : succeeds = true := hcalm
      simp only [State.step, State.receive, hsucceeds, if_true] at hu
      split at hu
      · split at hu
        all_goals
          cases hu
          exact ⟨hsound, h.failed, h.early, h.cancelled⟩
      · cases hu
  | construct succeeds =>
      obtain ⟨construction, connection, outputStream, rfl⟩ := construct_eq hu
      exact ⟨hsound, h.failed, h.early, h.cancelled⟩
  | call t =>
      simp only [State.step, State.call] at hu
      split at hu
      · cases hu
        exact ⟨hsound, h.failed, h.early, h.cancelled⟩
      · cases hu
  | handle =>
      obtain ⟨what, rest, closed, uncaught, -, rfl⟩ := handle_eq hu
      exact ⟨hsound, h.failed, h.early, h.cancelled⟩
  | answer =>
      simp only [State.step, State.answer] at hu
      split at hu
      · cases hu
      · obtain ⟨b, -, rfl⟩ := Option.map_eq_some_iff.mp hu
        exact ⟨hsound, h.failed, h.early, h.cancelled⟩
  | operate op =>
      simp only [State.step] at hu
      split at hu
      · obtain ⟨b, -, rfl⟩ := Option.map_eq_some_iff.mp hu
        exact ⟨hsound, h.failed, h.early, h.cancelled⟩
      · cases hu

omit [DecidableEq Tid] in
theorem Quiet.posted {s : State Tid} (h : Quiet s) : s.posted = [] := by
  rw [List.eq_nil_iff_forall_not_mem]
  intro what hwhat
  obtain rfl | rfl := h.sound.ticking.posted what hwhat
  · have hcancelled := h.sound.ticking.alarm.mp hwhat
    rw [h.cancelled] at hcancelled
    cases hcancelled
  · obtain hfailed | hearly := h.sound.ticking.exception hwhat
    · rw [h.failed] at hfailed
      cases hfailed
    · rw [h.early] at hearly
      cases hearly

/-- A connection on which nothing fails and each task finds its predecessors' pings
answered is left alone, provided no ping is written before the stream is stored. -/
theorem no_false_alarm (s : State Tid) (h : ((keepalive Tid).guard Calm).Reachable s) :
    s.posted = [] ∧ s.cancelled = false ∧ s.closed = false ∧ s.uncaught = false := by
  have hquiet : Quiet s := by
    apply h.invariant
    · intro s hinit
      obtain ⟨buffer, hbuffer, rfl⟩ := hinit
      exact ⟨.initial hbuffer, rfl, rfl, rfl⟩
    · intro s label u hs hu
      obtain ⟨hcalm, hstep⟩ := Machine.guard_step.mp hu
      exact hs.step hcalm hstep
  have hnone : ¬(s.closed = true ∨ s.uncaught = true) := fun htaken =>
    hquiet.sound.ticking.taken htaken hquiet.posted
  rw [not_or, Bool.not_eq_true, Bool.not_eq_true] at hnone
  exact ⟨hquiet.posted, hquiet.cancelled, hnone⟩

/-! ## Runs of one phone -/

theorem ping_isSome : ping.isSome := rfl

private def start : State Unit := .initial (ping.get ping_isSome)

private theorem start_init : (keepalive Unit).init start :=
  ⟨_, (Option.some_get ping_isSome).symm, rfl⟩

/-- The task's four steps behind its test. -/
private def pingOut : List (Label Unit) := .tick :: List.replicate 5 (.run none true)

private def constructed : List (Label Unit) := List.replicate 3 (.construct true)

/-- Two pings, the first answered. -/
private def twoPings : List (Label Unit) :=
  constructed ++ pingOut ++ [.answer, .receive true] ++ pingOut

private theorem twoPings_init : ((keepalive Unit).guard Calm).init start := start_init

private theorem twoPings_isSome : (((keepalive Unit).guard Calm).run start twoPings).isSome := by
  decide +kernel

theorem no_false_alarm_two_pings : ∃ s, ((keepalive Unit).guard Calm).Reachable s ∧
    s.pinged = 2 ∧ s.posted = [] ∧ s.cancelled = false ∧ s.closed = false ∧ s.uncaught = false :=
  ⟨_, .of_run twoPings_init twoPings_isSome, by decide +kernel,
    no_false_alarm _ (.of_run twoPings_init twoPings_isSome)⟩

/-- A third task with the second ping unanswered. -/
private def silence : List (Label Unit) := twoPings ++ [.tick]

private theorem silence_isSome : ((keepalive Unit).run start silence).isSome := by decide +kernel

theorem pings_accounted_for_silence : ∃ s, (keepalive Unit).Reachable s ∧ s.outstanding = 1 ∧
    s.pinged + s.called = s.outstanding + s.handled + s.missed ∧
      (∀ payload ∈ s.toAccessory, payload = [] ∨ payload = pingBytes) ∧
      s.outstanding ≤ s.called + 2 :=
  ⟨_, .of_run start_init silence_isSome, by decide +kernel,
    pings_accounted_for _ (.of_run start_init silence_isSome)⟩

theorem silence_is_noticed_third_task : ∃ u, (keepalive Unit).run start silence = some u ∧
    u.cancelled = true ∧ 0 ∈ u.posted :=
  ⟨_, (Option.some_get silence_isSome).symm,
    (silence_is_noticed start (.initial start_init) silence _
      (Option.some_get silence_isSome).symm).2 (by decide +kernel)⟩

/-- The first task comes before the stream is stored. -/
private def earlyTask : List (Label Unit) :=
  [.construct true, .tick, .run none true, .run none true, .run none true, .run none true,
    .construct true, .construct true, .handle]

/-- Nothing has failed, no ping is unanswered, and the bridge is closed. -/
example : (((keepalive Unit).run start earlyTask).map fun s =>
    (s.closed, s.failed, s.outstanding, decide (s.construction = .built))) =
      some (true, false, 0, true) := by
  decide +kernel

end Keepalive

end AapBridge.Android
