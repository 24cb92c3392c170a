import AapBridge.Accessory.PayloadBounds
import AapBridge.Android.DecodingEnds
import AapBridge.Android.MethodCalls
import AapBridge.Wire.MethodCall

/-! # The ids of replies

`methodCall` returns the value of one counter and `onDataReady` passes that of
another on to the handler. No id goes over the wire: a reply belongs to the call
whose turn it is. The counters stay in step as long as the accessory answers every
call and the phone decodes every answer.
-/

namespace AapBridge.Wire

open AapBridge.Lib AapBridge.Lib.CMemory
open AapBridge.Accessory AapBridge.Android

/-! ## The accessory -/

/-- What comes back for the calls: the marshalled answer, a reply or an error, to
the call with this number, and the marshalled error that stands in for one of
this size. -/
structure Bus where
  reply : Nat → List UInt8
  messageTooLong : Nat → Nat → List UInt8
  short : ∀ n marshalled_size, (messageTooLong n marshalled_size).length ≤ 4000

/-- A frame on the port, and the number of the call it answers. -/
structure Reply where
  call : Nat
  bytes : List UInt8
deriving DecidableEq

/-- What `MethodOnBytesReceived` writes for a complete call. -/
def Bus.answer (bus : Bus) (n : Nat) : Reply where
  call := n
  bytes :=
    if (bus.reply n).length > 4000 then bus.messageTooLong n (bus.reply n).length else bus.reply n

section

variable {Message : Type*} (target : Target) (lib : Libdbus Message)

/-- `MethodOnBytesReceived` for one payload after the other, with whatever is
behind it in memory. A call that libdbus does not take is passed over in silence;
nothing comes any more once the process has ended or has read elsewhere. -/
def serve (bus : Bus) (trailing : Nat → List UInt8) : Nat → List (List UInt8) → List Reply
  | _, [] => []
  | n, payload :: payloads =>
      match MethodOnBytesReceived target lib (payload ++ trailing n) with
      | some (.built _ _) => bus.answer n :: serve bus trailing (n + 1) payloads
      | some .refused => serve bus trailing (n + 1) payloads
      | some .exited | none => []

/-- The next `n` arguments are there, and libdbus appends them. -/
def ArgumentsTaken : Nat → Message → List UInt8 → Prop
  | 0, _, _ => True
  | _ + 1, _, [] => False
  | n + 1, message, type :: rest =>
      ValueInside type rest ∧
        match lib.appendBasic message type (wireArgument target type rest).1 with
        | none => False
        | some message => ArgumentsTaken n message (rest.drop (wireArgument target type rest).2)

/-- Four names that libdbus takes, a count, and as many arguments as its first
byte says. -/
def CallTaken (payload : List UInt8) : Prop :=
  4 ≤ payload.count 0 ∧
    let objectpath := afterZero payload
    let interfacename := afterZero objectpath
    let function_name := afterZero interfacename
    match lib.newMethodCall (chars payload) (chars objectpath) (chars interfacename)
        (chars function_name) with
    | none => False
    | some message =>
        match afterZero function_name with
        | [] => False
        | count :: rest =>
            ArgumentsTaken target lib (target.charValue count).toNat message (rest.drop 3)

end

/-! ## The phone -/

/-- A `Message` for the `DbusHandler`. -/
structure Delivered where
  arg1 : BitVec 32
  call : Nat
  dbusMessage : DbusMessage

/-- `DbusMethods.onDataReady` for one frame after the other; `fuel` is what each
decoding is given. An exception leaves `return_id` as it is, an error ends the thread
that reads the frames. -/
def onDataReady (fuel : Nat) : BitVec 32 → List Reply → List Delivered
  | _, [] => []
  | return_id, reply :: replies =>
      match DbusMessage.new reply.bytes fuel with
      | .returns dbusMessage _ =>
          ⟨return_id, reply.call, dbusMessage⟩ :: onDataReady fuel (return_id + 1) replies
      | .throws _ => onDataReady fuel return_id replies
      | .error _ | .runs => []

def CallOutcome.id? : CallOutcome → Option (BitVec 32)
  | .returned id => some id
  | .thrown => none

/-- The constructor has thrown an exception. -/
def threw (fuel : Nat) (reply : Reply) : Bool :=
  match DbusMessage.new reply.bytes fuel with
  | .throws _ => true
  | _ => false

/-- The constructor has returned. -/
def decoded (fuel : Nat) (reply : Reply) : Bool :=
  match DbusMessage.new reply.bytes fuel with
  | .returns _ _ => true
  | _ => false

/-- In front of the first error, no reply that is decoded comes behind one that an
exception is thrown on, or it comes behind so many that the counter has gone round. -/
def InStep (replies : List Reply) : Prop :=
  ∀ fuel before reply behind, replies = before ++ reply :: behind →
    (∀ r ∈ before, threw fuel r = true ∨ decoded fuel r = true) → decoded fuel reply = true →
      2 ^ 32 ∣ before.countP (threw fuel)

/-! ## One frame for each call -/

section

variable {Message : Type*} {target : Target} {lib : Libdbus Message} {bus : Bus}
  {trailing : Nat → List UInt8}

theorem Bus.answer_length_le (bus : Bus) (n : Nat) : (bus.answer n).bytes.length ≤ 4000 := by
  show (ite _ _ _ : List UInt8).length ≤ 4000
  split
  · exact bus.short n _
  · omega

theorem appendArguments_built {mem : List UInt8} {n : Nat} {message : Message} {arg_pointer : Nat} :
    (∃ message' arg_pointer',
        appendArguments target lib mem n message arg_pointer = some (.built message' arg_pointer')) ↔
      ArgumentsTaken target lib n message (mem.drop arg_pointer) := by
  induction n generalizing message arg_pointer with
  | zero => exact iff_of_true ⟨message, arg_pointer, rfl⟩ trivial
  | succ n ih =>
      rw [appendArguments, load_one]
      cases hview : mem.drop arg_pointer with
      | nil => simp [ArgumentsTaken]
      | cons type rest =>
          have hrest : mem.drop (arg_pointer + 1) = rest := by
            rw [← List.drop_drop, hview]
            rfl
          simp only [Option.bind_some, List.headD_cons, ArgumentsTaken]
          by_cases hinside : ValueInside type rest
          · rw [← hrest] at hinside
            obtain ⟨dbusVal, hread, hvalue⟩ := argument_inside target hinside
            rw [hrest] at hread hvalue hinside
            rw [hread, Option.bind_some, hvalue, Option.bind_some]
            cases lib.appendBasic message type (wireArgument target type rest).1 with
            | none => simp
            | some message' =>
                simp only [hinside, true_and]
                rw [ih, ← List.drop_drop, hrest]
          · rw [argument_outside_bind (by rw [hrest]; exact hinside)]
            simp [hinside]

/-- A complete call is made of exactly the payloads that are taken. -/
theorem method_built {mem : List UInt8} :
    (∃ message arg_pointer, MethodOnBytesReceived target lib mem = some (.built message arg_pointer)) ↔
      CallTaken target lib mem := by
  by_cases hcount : 4 ≤ mem.count 0
  · have hview := method_view target lib hcount
    unfold CallTaken
    simp only [hcount, true_and]
    generalize lib.newMethodCall _ _ _ _ = made at hview ⊢
    cases made with
    | none =>
        rw [hview]
        exact iff_of_false nofun id
    | some message =>
        dsimp only at hview ⊢
        cases harguments : afterZero (afterZero (afterZero (afterZero mem))) with
        | nil =>
            rw [harguments] at hview
            rw [hview]
            exact iff_of_false nofun id
        | cons count rest =>
            rw [harguments] at hview
            obtain ⟨arg_pointer, hdrop, heq⟩ := hview
            rw [heq, appendArguments_built, hdrop]
  · apply iff_of_false
    · rintro ⟨message, arg_pointer, hbuilt⟩
      exact hcount (method_count (by rw [hbuilt]; rfl))
    · intro h
      exact hcount h.1

theorem serve_length_le (n : Nat) (payloads : List (List UInt8)) :
    (serve target lib bus trailing n payloads).length ≤ payloads.length := by
  induction payloads generalizing n with
  | nil => exact Nat.le_refl _
  | cons payload payloads ih =>
      have hrest := ih (n + 1)
      rw [serve]
      split
      · rw [List.length_cons, List.length_cons]
        omega
      · rw [List.length_cons]
        omega
      · exact Nat.zero_le _
      · exact Nat.zero_le _

/-- Every payload is taken, with what lies behind it. -/
def AllTaken (target : Target) (lib : Libdbus Message) (trailing : Nat → List UInt8) (n : Nat)
    (payloads : List (List UInt8)) : Prop :=
  ∀ k payload, payloads[k]? = some payload → CallTaken target lib (payload ++ trailing (n + k))

theorem allTaken_cons {n : Nat} {payload : List UInt8} {payloads : List (List UInt8)} :
    AllTaken target lib trailing n (payload :: payloads) ↔
      CallTaken target lib (payload ++ trailing n) ∧ AllTaken target lib trailing (n + 1) payloads := by
  constructor
  · intro h
    refine ⟨h 0 payload rfl, ?_⟩
    intro k payload' hk
    rw [Nat.add_right_comm]
    exact h (k + 1) payload' hk
  · rintro ⟨hfirst, hrest⟩ k payload' hk
    cases k with
    | zero =>
        cases hk
        exact hfirst
    | succ k =>
        have htaken := hrest k payload' hk
        rwa [Nat.add_right_comm] at htaken

variable (bus) in
/-- If every payload is taken, the answers come one by one. -/
theorem serve_taken {n : Nat} {payloads : List (List UInt8)}
    (h : AllTaken target lib trailing n payloads) :
    serve target lib bus trailing n payloads = (List.range' n payloads.length).map bus.answer := by
  induction payloads generalizing n with
  | nil => rfl
  | cons payload payloads ih =>
      obtain ⟨hfirst, hrest⟩ := allTaken_cons.mp h
      obtain ⟨message, arg_pointer, hbuilt⟩ := method_built.mpr hfirst
      rw [serve, hbuilt, List.length_cons, List.range'_succ, List.map_cons]
      show bus.answer n :: serve target lib bus trailing (n + 1) payloads = _
      rw [ih hrest]

/-- One that is not is missing among the answers. -/
theorem allTaken_of_serve {n : Nat} {payloads : List (List UInt8)}
    (h : (serve target lib bus trailing n payloads).map Reply.call = List.range' n payloads.length) :
    AllTaken target lib trailing n payloads := by
  induction payloads generalizing n with
  | nil => exact nofun
  | cons payload payloads ih =>
      -- without a frame for this call there are too few
      have hfew : ∀ replies : List Reply, replies.length ≤ payloads.length →
          replies.map Reply.call ≠ List.range' n (payload :: payloads).length := by
        intro replies hle heq
        have hlength := congrArg List.length heq
        rw [List.length_map, List.length_range', List.length_cons] at hlength
        omega
      rw [serve] at h
      split at h
      · next message arg_pointer hbuilt =>
        rw [List.map_cons, List.length_cons, List.range'_succ, List.cons.injEq] at h
        exact allTaken_cons.mpr ⟨method_built.mp ⟨message, arg_pointer, hbuilt⟩, ih h.2⟩
      · exact absurd h (hfew _ (serve_length_le (n + 1) payloads))
      · exact absurd h (hfew [] (Nat.zero_le _))
      · exact absurd h (hfew [] (Nat.zero_le _))

end

/-! ## The two counters -/

theorem exists_split_cons {α : Type*} {x : α} {xs : List α} {P : List α → α → Prop} :
    (∃ before y behind, x :: xs = before ++ y :: behind ∧ P before y) ↔
      P [] x ∨ ∃ before y behind, xs = before ++ y :: behind ∧ P (x :: before) y := by
  constructor
  · rintro ⟨before, y, behind, heq, h⟩
    cases before with
    | nil =>
        cases heq
        exact .inl h
    | cons z before =>
        cases heq
        exact .inr ⟨before, y, behind, rfl, h⟩
  · rintro (h | ⟨before, y, behind, rfl, h⟩)
    · exact ⟨[], x, xs, rfl, h⟩
    · exact ⟨x :: before, y, behind, rfl, h⟩

/-- What is delivered: a reply that is decoded behind others that are through, with
the number of those that were decoded. -/
theorem mem_onDataReady_iff {fuel : Nat} {id : BitVec 32} {replies : List Reply} {d : Delivered} :
    d ∈ onDataReady fuel id replies ↔ ∃ before reply behind, replies = before ++ reply :: behind ∧
      (∀ r ∈ before, threw fuel r = true ∨ decoded fuel r = true) ∧
      (∃ p, DbusMessage.new reply.bytes fuel = .returns d.dbusMessage p) ∧ d.call = reply.call ∧
      d.arg1 = id + BitVec.ofNat 32 (before.countP (decoded fuel)) := by
  induction replies generalizing id with
  | nil =>
      apply iff_of_false List.not_mem_nil
      rintro ⟨before, reply, behind, heq, -⟩
      cases before <;> cases heq
  | cons first replies ih =>
      rw [exists_split_cons, onDataReady]
      cases hnew : DbusMessage.new first.bytes fuel with
      | returns dbusMessage p =>
          have hdecoded : decoded fuel first = true := by rw [decoded, hnew]
          dsimp only
          rw [List.mem_cons, ih]
          apply or_congr
          · obtain ⟨arg1, call, message⟩ := d
            simp only [Delivered.mk.injEq, List.not_mem_nil, IsEmpty.forall_iff, implies_true, true_and,
              List.countP_nil, DbusMessage.Constructed.returns.injEq, BitVec.add_zero]
            constructor
            · rintro ⟨rfl, rfl, rfl⟩
              exact ⟨⟨p, rfl, rfl⟩, rfl, rfl⟩
            · rintro ⟨⟨-, rfl, -⟩, rfl, rfl⟩
              exact ⟨rfl, rfl, rfl⟩
          · -- one more was decoded before
            have hcount : ∀ before : List Reply,
                id + 1 + BitVec.ofNat 32 (before.countP (decoded fuel)) =
                  id + BitVec.ofNat 32 ((first :: before).countP (decoded fuel)) := by
              intro before
              rw [List.countP_cons_of_pos hdecoded, Nat.add_comm _ 1, BitVec.ofNat_add,
                BitVec.add_assoc]
              rfl
            simp only [List.forall_mem_cons, hdecoded, or_true, true_and, hcount]
      | throws p =>
          have hthrew : threw fuel first = true := by rw [threw, hnew]
          have hskipped : ¬ decoded fuel first = true := by
            rw [decoded, hnew]
            exact Bool.false_ne_true
          dsimp only
          rw [ih]
          simp only [List.forall_mem_cons, hthrew, true_or, true_and,
            List.countP_cons_of_neg hskipped]
          constructor
          · intro hlater
            exact .inr hlater
          · rintro (⟨-, ⟨q, hq⟩, -⟩ | hlater)
            · cases hq
            · exact hlater
      | error _ | runs =>
          apply iff_of_false List.not_mem_nil
          rintro (⟨-, ⟨q, hq⟩, -⟩ | ⟨before, reply, behind, -, hbefore, -⟩)
          · cases hq
          · have hfirst := hbefore first List.mem_cons_self
            rw [threw, decoded, hnew] at hfirst
            exact hfirst.elim Bool.false_ne_true Bool.false_ne_true

theorem countP_through {fuel : Nat} {replies : List Reply}
    (h : ∀ r ∈ replies, threw fuel r = true ∨ decoded fuel r = true) :
    replies.countP (decoded fuel) + replies.countP (threw fuel) = replies.length := by
  induction replies with
  | nil => rfl
  | cons reply replies ih =>
      have hrest := ih fun r hr => h r (List.mem_cons_of_mem _ hr)
      have hone : (if decoded fuel reply then 1 else 0) + (if threw fuel reply then 1 else 0) = 1 := by
        have hends := h reply List.mem_cons_self
        unfold decoded threw at hends ⊢
        cases hnew : DbusMessage.new reply.bytes fuel with
        | error _ | runs => simp [hnew] at hends
        | _ => rfl
      rw [List.countP_cons, List.countP_cons, List.length_cons]
      omega

/-- The ids that `methodCall` returns count the calls that were sent. -/
theorem expected_ids (id : BitVec 32) (calls : List Invocation) :
    (expected id calls).filterMap CallOutcome.id? =
      (List.range (calls.filterMap Invocation.payload).length).map fun k => id + BitVec.ofNat 32 k := by
  induction calls generalizing id with
  | nil => rfl
  | cons c calls ih =>
      cases hpayload : c.payload with
      | none =>
          rw [List.filterMap_cons_none hpayload, expected, hpayload]
          exact ih id
      | some payload =>
          rw [List.filterMap_cons_some hpayload, expected, hpayload, List.length_cons,
            List.range_succ_eq_map, List.map_cons, List.map_map]
          show id :: (expected (id + 1) calls).filterMap CallOutcome.id? = _
          rw [ih (id + 1)]
          apply congrArg₂ List.cons (BitVec.add_zero id).symm
          apply List.map_congr_left
          intro k _
          show id + 1 + BitVec.ofNat 32 k = id + BitVec.ofNat 32 (k + 1)
          rw [BitVec.add_assoc, Nat.add_comm k 1, BitVec.ofNat_add]
          rfl

/-! ## Replies and ids -/

/-- On an object: the frames go out, each is answered by one frame, and whatever
reaches the handler has the id that the call it answers returned. -/
def RepliesCarryIds {Message : Type*} (target : Target) (lib : Libdbus Message) (bus : Bus)
    (trailing : Nat → List UInt8) (s : MethodsState) (calls : List Invocation) : Prop :=
  ∃ outcomes t, s.methodCalls calls = some (outcomes, t) ∧
    let requests := calls.filterMap Invocation.payload
    let replies := serve target lib bus trailing 0 requests
    t.sent = s.sent ++ (requests.map (frameBytes s.port.portNr)).flatten ∧
      replies.map Reply.call = List.range requests.length ∧
      (∀ reply ∈ replies, reply.bytes.length ≤ 4000) ∧
      ∀ fuel, ∀ d ∈ onDataReady fuel 0 replies,
        (outcomes.filterMap CallOutcome.id?)[d.call]? = some d.arg1

/-- Two counters that differ by the replies that were lost. -/
theorem ofNat_eq_iff_dvd {m n lost : Nat} (h : m + lost = n) :
    BitVec.ofNat 32 n = BitVec.ofNat 32 m ↔ 2 ^ 32 ∣ lost := by
  rw [← BitVec.toNat_inj, BitVec.toNat_ofNat, BitVec.toNat_ofNat, ← h]
  constructor
  · intro heq
    omega
  · intro hdvd
    omega

/-- The call that a frame answers is as far behind as the frame itself. -/
theorem answers_split {bus : Bus} {n : Nat} {before behind : List Reply} {reply : Reply}
    (h : (List.range n).map bus.answer = before ++ reply :: behind) :
    reply.call = before.length ∧ before.length < n := by
  have hget : ((List.range n).map bus.answer)[before.length]? = some reply := by
    rw [h, List.getElem?_append_right (Nat.le_refl _), Nat.sub_self]
    rfl
  rw [List.getElem?_map] at hget
  obtain ⟨k, hk, rfl⟩ := Option.map_eq_some_iff.mp hget
  obtain ⟨hlt, heq⟩ := List.getElem?_eq_some_iff.mp hk
  rw [List.getElem_range] at heq
  rw [List.length_range] at hlt
  exact ⟨heq.symm, hlt⟩

theorem delivered_ids_iff (bus : Bus) (n : Nat) :
    (∀ fuel, ∀ d ∈ onDataReady fuel 0 ((List.range n).map bus.answer),
        ((List.range n).map fun k => 0 + BitVec.ofNat 32 k)[d.call]? = some d.arg1) ↔
      InStep ((List.range n).map bus.answer) := by
  -- the id of the call in front of which this much was answered
  have hid : ∀ {fuel before reply behind}, (List.range n).map bus.answer = before ++ reply :: behind →
      (∀ r ∈ before, threw fuel r = true ∨ decoded fuel r = true) →
      (((List.range n).map fun k => 0 + BitVec.ofNat 32 k)[reply.call]? =
          some (0 + BitVec.ofNat 32 (before.countP (decoded fuel))) ↔
        2 ^ 32 ∣ before.countP (threw fuel)) := by
    intro fuel before reply behind hsplit hbefore
    obtain ⟨hcall, hlt⟩ := answers_split hsplit
    rw [List.getElem?_map, hcall, List.getElem?_range hlt, Option.map_some, Option.some.injEq,
      zero_add, zero_add]
    exact ofNat_eq_iff_dvd (countP_through hbefore)
  constructor
  · intro h fuel before reply behind hsplit hbefore hdecoded
    apply (hid hsplit hbefore).mp
    rw [decoded] at hdecoded
    split at hdecoded
    · next dbusMessage p hreturns =>
      exact h fuel ⟨0 + BitVec.ofNat 32 (before.countP (decoded fuel)), reply.call, dbusMessage⟩
        (mem_onDataReady_iff.mpr
          ⟨before, reply, behind, hsplit, hbefore, ⟨p, hreturns⟩, rfl, rfl⟩)
    · cases hdecoded
  · intro h fuel d hd
    obtain ⟨before, reply, behind, hsplit, hbefore, ⟨p, hreturns⟩, hcall, harg⟩ :=
      mem_onDataReady_iff.mp hd
    rw [hcall, harg]
    apply (hid hsplit hbefore).mpr
    apply h fuel before reply behind hsplit hbefore
    rw [decoded, hreturns]

section

variable {Message : Type*}

/-- On a new object whose port stays open, every reply carries the id of its call
exactly if every call is taken and no reply is decoded behind others that were not. -/
theorem replies_carry_ids_iff (target : Target) (lib : Libdbus Message) (bus : Bus)
    (trailing : Nat → List UInt8) (s : MethodsState) (h : s.Open) (hnew : s.call_id = 0)
    (calls : List Invocation) :
    RepliesCarryIds target lib bus trailing s calls ↔
      AllTaken target lib trailing 0 (calls.filterMap Invocation.payload) ∧
        InStep ((List.range (calls.filterMap Invocation.payload).length).map bus.answer) := by
  obtain ⟨t, hcalls, hsent, -⟩ := h.methodCalls calls
  rw [hnew] at hcalls
  have hids := expected_ids 0 calls
  generalize hrequests : calls.filterMap Invocation.payload = requests at hids hsent
  constructor
  · rintro ⟨outcomes, t', hcalls', -, hanswered, -, hdelivered⟩
    cases hcalls.symm.trans hcalls'
    rw [hrequests] at hanswered hdelivered
    rw [List.range_eq_range'] at hanswered
    have htaken := allTaken_of_serve hanswered
    rw [serve_taken bus htaken, ← List.range_eq_range', hids] at hdelivered
    exact ⟨htaken, (delivered_ids_iff bus requests.length).mp hdelivered⟩
  · rintro ⟨htaken, hstep⟩
    have hserved := serve_taken bus htaken
    rw [← List.range_eq_range'] at hserved
    refine ⟨expected 0 calls, t, hcalls, ?_⟩
    rw [hrequests]
    dsimp only
    rw [hserved, hids]
    refine ⟨hsent, ?_, ?_, (delivered_ids_iff bus requests.length).mpr hstep⟩
    · rw [List.map_map]
      exact List.map_id _
    · intro reply hreply
      obtain ⟨k, -, rfl⟩ := List.mem_map.mp hreply
      exact bus.answer_length_le k

/-- A call whose names have no NUL and whose arguments can be counted is taken
exactly if libdbus accepts the names. -/
theorem callTaken_iff {target : Target} {lib : Libdbus Message} {call : Message → Call}
    {busname objectpath interfaceName functionName : List CodeUnit} {arguments : List JavaObject}
    {trailing : List UInt8} (hlib : Documented lib call)
    (hnames : 0 ∉ busname ∧ 0 ∉ objectpath ∧ 0 ∉ interfaceName ∧ 0 ∉ functionName)
    (hargs : ∀ object ∈ arguments, Sendable object) (hle : arguments.length ≤ charMax target) :
    CallTaken target lib
        (callBytes busname objectpath interfaceName functionName arguments ++ trailing) ↔
      (lib.newMethodCall (utf8 busname) (utf8 objectpath) (utf8 interfaceName)
        (utf8 functionName)).isSome := by
  have hmax : arguments.length ≤ 4000 := by
    have hchar : charMax target ≤ 255 := by
      unfold charMax
      split <;> omega
    omega
  constructor
  · intro htaken
    obtain ⟨message, arg_pointer, hbuilt⟩ := method_built.mpr htaken
    rw [received_call hnames] at hbuilt
    cases hnew : lib.newMethodCall (utf8 busname) (utf8 objectpath) (utf8 interfaceName)
        (utf8 functionName) with
    | none =>
        rw [hnew] at hbuilt
        cases hbuilt
    | some message => rfl
  · intro hnew
    have hbecomes : BecomesCall target lib call
        (callBytes busname objectpath interfaceName functionName arguments) trailing
        (· = requested busname objectpath interfaceName functionName arguments) :=
      becomesCall_of_count hlib hnames hargs ((count_iff target hmax).mpr hle) hle hnew
    obtain ⟨message, hbuilt, -⟩ := hbecomes
    exact method_built.mp ⟨message, _, hbuilt⟩

end

/-- A libdbus that writes down what it is asked for, on a path that begins with a slash. -/
private def strict : Libdbus Call where
  newMethodCall busname objectpath interfacename function_name :=
    if objectpath.head? = some 0x2F then
      some ⟨busname, objectpath, interfacename, function_name, []⟩
    else none
  appendBasic call type value := some { call with arguments := call.arguments ++ [(type, value)] }

/-- An empty reply to everything. -/
private def emptyReplies : Bus where
  reply _ := [0x6C, 2, 1, 1, 0, 0, 0, 0, 1, 0, 0, 0, 0, 0, 0, 0]
  messageTooLong _ _ := []
  short _ _ := Nat.zero_le _

private def unsigned : Target := ⟨false, id⟩

private def newObject (port : Port) : MethodsState := ⟨0, .allocate 4000, port, []⟩

/-- A call of `a.b.c` on the path. -/
private def callOn (objectpath : List CodeUnit) : Invocation :=
  ⟨[0x61, 0x2E, 0x62], objectpath, [0x61, 0x2E, 0x62], [0x63], some [.supported (.byte 7)]⟩

/-- All answers are alike, so none is decoded behind one that is not. -/
private theorem emptyReplies_inStep (n : Nat) : InStep ((List.range n).map emptyReplies.answer) := by
  intro fuel before reply behind hsplit _ hdecoded
  have hbytes : ∀ r ∈ before ++ reply :: behind, r.bytes = emptyReplies.reply 0 := by
    rw [← hsplit]
    intro r hr
    obtain ⟨k, -, rfl⟩ := List.mem_map.mp hr
    rfl
  have hnone : before.countP (threw fuel) = 0 := by
    apply List.countP_eq_zero.mpr
    intro r hr hthrew
    unfold threw at hthrew
    unfold decoded at hdecoded
    rw [hbytes r (List.mem_append_left _ hr)] at hthrew
    rw [hbytes reply (List.mem_append_right _ List.mem_cons_self)] at hdecoded
    cases hnew : DbusMessage.new (emptyReplies.reply 0) fuel with
    | returns _ _ =>
        rw [hnew] at hthrew
        cases hthrew
    | _ =>
        rw [hnew] at hdecoded
        cases hdecoded
  rw [hnone]
  exact Nat.dvd_zero _

/-- A call that throws, and two that are taken and answered: the replies come with the ids
0 and 1. -/
theorem replies_carry_ids_two : ∃ port, Port.create 5 = some port ∧
    RepliesCarryIds unsigned strict emptyReplies (fun _ => []) (newObject port)
      [⟨[0x61], [0x2F], [0x61], [0x63], some [.unsupported]⟩, callOn [0x2F], callOn [0x2F]] ∧
    (onDataReady 100 0 (serve unsigned strict emptyReplies (fun _ => []) 0
      ([callOn [0x2F], callOn [0x2F]].filterMap Invocation.payload))).map
        (fun d => (d.call, d.arg1)) = [(0, 0), (1, 1)] := by
  obtain ⟨port, hport⟩ : ∃ port, Port.create 5 = some port := ⟨_, rfl⟩
  refine ⟨port, hport, ?_, by decide +kernel⟩
  apply (replies_carry_ids_iff unsigned strict emptyReplies (fun _ => []) (newObject port)
    ⟨Port.create_ready hport, rfl⟩ rfl _).mpr
  refine ⟨?_, emptyReplies_inStep _⟩
  intro k payload hk
  rcases k with _ | _ | k
  · cases hk
    exact method_built.mp ⟨_, _, rfl⟩
  · cases hk
    exact method_built.mp ⟨_, _, rfl⟩
  · cases hk

/-- The first call is refused and gets no frame; the reply to the second one, whose
id is 1, reaches the handler with the id of the first one. -/
theorem reply_with_other_id : ∃ port, Port.create 5 = some port ∧
    ¬RepliesCarryIds unsigned strict emptyReplies (fun _ => []) (newObject port)
      [callOn [0x61], callOn [0x2F]] ∧
    (onDataReady 100 0 (serve unsigned strict emptyReplies (fun _ => []) 0
      ([callOn [0x61], callOn [0x2F]].filterMap Invocation.payload))).map
        (fun d => (d.call, d.arg1)) = [(1, 0)] := by
  refine ⟨_, rfl, ?_, ?_⟩
  · rintro ⟨outcomes, t, -, -, hanswered, -⟩
    revert hanswered
    decide +kernel
  · decide +kernel

end AapBridge.Wire
