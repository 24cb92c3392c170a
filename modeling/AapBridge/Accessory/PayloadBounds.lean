import AapBridge.Accessory.Dispatch

/-! # Which payloads are read inside their bounds

For every parser of a payload the exact condition on the payload, and on the
table where it decides what is read, under which all accesses are in range. A
payload is looked at from the cursor on: a string ends in a zero byte, an
argument is a known type code and a value that is there.
-/

namespace AapBridge.Accessory

open AapBridge.Lib AapBridge.Lib.CMemory

/-! ## Strings -/

theorem afterString_view {mem : List UInt8} {s : Nat} :
    afterString mem s =
      if 0 ∈ mem.drop s then some (s + (chars (mem.drop s)).length + 1) else none := by
  rw [afterString, strlen, scan_eq]
  split <;> rfl

/-- A name is read and skipped; what follows sees the rest of the payload. -/
theorem afterString_eq {mem : List UInt8} {s : Nat} (h : 1 ≤ (mem.drop s).count 0) :
    ∃ next, afterString mem s = some next ∧ cstring mem s = some (chars (mem.drop s)) ∧
      mem.drop next = afterZero (mem.drop s) ∧
      (mem.drop s).count 0 = (mem.drop next).count 0 + 1 := by
  rw [← zero_mem_iff] at h
  have hview : mem.drop (s + (chars (mem.drop s)).length + 1) = afterZero (mem.drop s) := by
    rw [Nat.add_assoc, ← List.drop_drop]
    exact drop_chars h
  refine ⟨_, by rw [afterString_view, if_pos h], by rw [cstring_view, if_pos h], hview, ?_⟩
  rw [hview]
  exact count_afterZero h

/-- A string is skipped if a zero byte is left. -/
theorem afterString_bind {α : Type*} {mem : List UInt8} {s : Nat} {k : Nat → Option α} {n : Nat}
    (hk : ∀ next, (k next).isSome ↔ n ≤ (mem.drop next).count 0) :
    ((afterString mem s).bind k).isSome ↔ n + 1 ≤ (mem.drop s).count 0 := by
  by_cases hs : 1 ≤ (mem.drop s).count 0
  · obtain ⟨next, hnext, -, -, hcount⟩ := afterString_eq hs
    rw [hnext, Option.bind_some, hk next]
    omega
  · have hnone : 0 ∉ mem.drop s := fun h => hs (zero_mem_iff.mp h)
    rw [afterString_view, if_neg hnone]
    simp only [Option.bind_none, Option.isSome_none, Bool.false_eq_true, false_iff]
    omega

theorem strlen_map {α : Type*} {mem : List UInt8} {s : Nat} {f : Nat → α} :
    ((strlen mem s).map f).isSome ↔ 1 ≤ (mem.drop s).count 0 := by
  rw [Option.isSome_map, strlen_isSome, zero_mem_iff]

/-- Two strings, and a third one for the payload program if there is one to tell. -/
theorem bulkInit_isSome (mem : List UInt8) (busname : Nat) (env : Environment) :
    (bulkInit mem busname env).isSome ↔
      (if env.fifos && env.notified then 3 else 2) ≤ (mem.drop busname).count 0 := by
  unfold bulkInit
  cases env.fifos && env.notified with
  | true =>
      apply afterString_bind
      intro objectpath
      apply afterString_bind
      intro arguments_for_payload
      exact strlen_map
  | false =>
      apply afterString_bind
      intro objectpath
      apply afterString_bind
      intro arguments_for_payload
      simp

/-- Four strings, once there is a connection. -/
theorem signalsInit_isSome (mem : List UInt8) (compressed_rule : Nat) (env : Environment) :
    (signalsInit mem compressed_rule env).isSome ↔
      (if env.bus then 4 else 0) ≤ (mem.drop compressed_rule).count 0 := by
  unfold signalsInit
  cases env.bus with
  | true =>
      apply afterString_bind
      intro objectpath
      apply afterString_bind
      intro interfacename
      apply afterString_bind
      intro signalname
      exact strlen_map
  | false => simp

/-! ## Arguments of a method call -/

/-- The value at the cursor is there; `'o'` and `'g'` go through an unset pointer. -/
def ValueInside (type : UInt8) (rest : List UInt8) : Prop :=
  match Char.ofNat type.toNat with
  | 'y' | 'b' => 1 ≤ rest.length
  | 'n' | 'q' => 2 ≤ rest.length
  | 'i' | 'u' => 4 ≤ rest.length
  | 'x' | 't' | 'd' => 8 ≤ rest.length
  | 's' => 0 ∈ rest
  | 'o' | 'g' => False
  | _ => True

instance (type : UInt8) (rest : List UInt8) : Decidable (ValueInside type rest) := by
  unfold ValueInside
  split <;> infer_instance

/-- The value itself, and how far the cursor moves. -/
def wireArgument (target : Target) (type : UInt8) (rest : List UInt8) :
    DBusBasicValue (List UInt8) × Nat :=
  let word (n : Nat) := ByteOrder.littleEndian.get (rest.take n)
  match Char.ofNat type.toNat with
  | 'y' => (.byt (UInt8.ofNat (word 1)), 1)
  | 'b' => (.bool_val (target.charValue (UInt8.ofNat (word 1))), 1)
  | 'n' => (.i16 (BitVec.ofNat 16 (word 2)), 2)
  | 'q' => (.u16 (BitVec.ofNat 16 (word 2)), 2)
  | 'i' => (.i32 (BitVec.ofNat 32 (word 4)), 4)
  | 'u' => (.u32 (BitVec.ofNat 32 (word 4)), 4)
  | 'x' => (.i64 (BitVec.ofNat 64 (word 8)), 8)
  | 't' => (.u64 (BitVec.ofNat 64 (word 8)), 8)
  | 'd' => (.dbl (target.le64tohDouble (BitVec.ofNat 64 (word 8))), 8)
  | 's' => (.str (chars rest), (chars rest).length + 1)
  | _ => (.unset, 4294967295)

theorem loadWord_view {mem : List UInt8} {p n : Nat} (hn : 0 < n) :
    loadWord mem p n = if n ≤ (mem.drop p).length then
      some (ByteOrder.littleEndian.get ((mem.drop p).take n)) else none := by
  rw [loadWord, load_view hn]
  split <;> rfl

theorem strlen_view {mem : List UInt8} {p : Nat} :
    strlen mem p = if 0 ∈ mem.drop p then some (chars (mem.drop p)).length else none := by
  rw [strlen, scan_eq]

/-- An argument that is there is read. -/
theorem argument_inside (target : Target) {mem : List UInt8} {type : UInt8} {p : Nat}
    (h : ValueInside type (mem.drop p)) :
    ∃ dbusVal, bytesToDbus target mem type p =
        some (dbusVal, (wireArgument target type (mem.drop p)).2) ∧
      dereference mem type dbusVal = some (wireArgument target type (mem.drop p)).1 := by
  revert h
  unfold bytesToDbus ValueInside wireArgument dereference
  generalize Char.ofNat type.toNat = c
  intro h
  split at h
  case h_10 =>
    -- a string
    refine ⟨.str p, ?_, ?_⟩
    · simp only [strlen_view, if_pos h]
      rfl
    · simp only [cstring_view, if_pos h]
      rfl
  case h_11 | h_12 => exact h.elim
  case h_13 => exact ⟨.unset, by simp, by simp_all⟩
  all_goals
    simp only [loadWord_view (Nat.succ_pos _), if_pos h]
    exact ⟨_, rfl, rfl⟩

/-- One that is not, is not. -/
theorem argument_outside {target : Target} {mem : List UInt8} {type : UInt8} {p : Nat}
    (h : ¬ValueInside type (mem.drop p)) {dbusVal : DBusBasicValue Nat × Nat}
    (hread : bytesToDbus target mem type p = some dbusVal) :
    dereference mem type dbusVal.1 = none := by
  revert h hread
  unfold bytesToDbus ValueInside dereference
  generalize Char.ofNat type.toNat = c
  intro h hread
  split at h
  case h_10 =>
    simp only [strlen_view, if_neg h] at hread
    cases hread
  case h_11 | h_12 =>
    cases hread
    rfl
  case h_13 => exact absurd trivial h
  all_goals
    simp only [loadWord_view (Nat.succ_pos _), if_neg h] at hread
    cases hread

theorem argument_outside_bind {target : Target} {mem : List UInt8} {type : UInt8} {p : Nat}
    {α : Type*} {k : DBusBasicValue Nat × Nat → DBusBasicValue (List UInt8) → Option α}
    (h : ¬ValueInside type (mem.drop p)) :
    ((bytesToDbus target mem type p).bind fun dbusVal =>
      (dereference mem type dbusVal.1).bind (k dbusVal)) = none := by
  rw [Option.bind_eq_none_iff]
  intro dbusVal hread
  rw [argument_outside h hread]
  rfl

section

variable {Message : Type*} (target : Target) (lib : Libdbus Message)

/-- The next `n` arguments are there, or those up to one that libdbus refuses. -/
def ArgumentsInside : Nat → Message → List UInt8 → Prop
  | 0, _, _ => True
  | _ + 1, _, [] => False
  | n + 1, message, type :: rest =>
      ValueInside type rest ∧
        match lib.appendBasic message type (wireArgument target type rest).1 with
        | none => True
        | some message => ArgumentsInside n message (rest.drop (wireArgument target type rest).2)

/-- Four names, and if libdbus takes them a count and as many arguments as its
first byte says. -/
def CallInside (payload : List UInt8) : Prop :=
  4 ≤ payload.count 0 ∧
    let objectpath := afterZero payload
    let interfacename := afterZero objectpath
    let function_name := afterZero interfacename
    match lib.newMethodCall (chars payload) (chars objectpath) (chars interfacename)
        (chars function_name) with
    | none => True
    | some message =>
        match afterZero function_name with
        | [] => False
        | count :: rest =>
            ArgumentsInside target lib (target.charValue count).toNat message (rest.drop 3)

variable {target lib}

theorem load_one {mem : List UInt8} {p : Nat} :
    load mem p 1 = match mem.drop p with
      | [] => none
      | b :: _ => some [b] := by
  rw [load_view Nat.one_pos]
  cases mem.drop p <;> simp

theorem appendArguments_isSome {mem : List UInt8} {n : Nat} {message : Message} {arg_pointer : Nat} :
    (appendArguments target lib mem n message arg_pointer).isSome ↔
      ArgumentsInside target lib n message (mem.drop arg_pointer) := by
  induction n generalizing message arg_pointer with
  | zero => exact iff_of_true rfl trivial
  | succ n ih =>
      rw [appendArguments, load_one]
      cases hview : mem.drop arg_pointer with
      | nil => simp [ArgumentsInside]
      | cons type rest =>
          have hrest : mem.drop (arg_pointer + 1) = rest := by
            rw [← List.drop_drop, hview]
            rfl
          simp only [Option.bind_some, List.headD_cons, ArgumentsInside]
          by_cases hinside : ValueInside type rest
          · rw [← hrest] at hinside
            obtain ⟨dbusVal, hread, hvalue⟩ := argument_inside target hinside
            rw [hrest] at hread hvalue hinside
            rw [hread, Option.bind_some, hvalue, Option.bind_some]
            cases lib.appendBasic message type (wireArgument target type rest).1 with
            | none => simp [hinside]
            | some message' =>
                simp only [hinside, true_and]
                rw [ih, ← List.drop_drop, hrest]
          · rw [argument_outside_bind (by rw [hrest]; exact hinside)]
            simp [hinside]

/-- Each name that is skipped takes a zero byte. -/
theorem afterString_count {α : Type*} {mem : List UInt8} {s n : Nat} {k : Nat → Option α}
    (hk : ∀ next, (k next).isSome → n ≤ (mem.drop next).count 0)
    (h : ((afterString mem s).bind k).isSome) : n + 1 ≤ (mem.drop s).count 0 := by
  by_cases hs : 1 ≤ (mem.drop s).count 0
  · obtain ⟨next, hnext, -, -, hcount⟩ := afterString_eq hs
    rw [hnext, Option.bind_some] at h
    have hrest := hk next h
    omega
  · rw [← zero_mem_iff] at hs
    rw [afterString_view, if_neg hs] at h
    cases h

theorem method_count {mem : List UInt8} (h : (MethodOnBytesReceived target lib mem).isSome) :
    4 ≤ mem.count 0 := by
  unfold MethodOnBytesReceived at h
  rw [show mem = mem.drop 0 from List.drop_zero.symm]
  apply afterString_count (n := 3) _ h
  intro objectpath h
  apply afterString_count (n := 2) _ h
  intro interfacename h
  apply afterString_count (n := 1) _ h
  intro function_name h
  exact afterString_count (n := 0) (fun _ _ => Nat.zero_le _) h

variable (target lib) in
/-- What comes of four names: a message is asked for, and the arguments are read
from behind the count on. -/
theorem method_view {mem : List UInt8} (hcount : 4 ≤ mem.count 0) :
    match lib.newMethodCall (chars mem) (chars (afterZero mem)) (chars (afterZero (afterZero mem)))
        (chars (afterZero (afterZero (afterZero mem)))) with
    | none => MethodOnBytesReceived target lib mem = some .refused
    | some message =>
        match afterZero (afterZero (afterZero (afterZero mem))) with
        | [] => MethodOnBytesReceived target lib mem = none
        | count :: rest => ∃ arg_pointer, mem.drop arg_pointer = rest.drop 3 ∧
            MethodOnBytesReceived target lib mem =
              appendArguments target lib mem (target.charValue count).toNat message arg_pointer := by
  obtain ⟨objectpath, h₀, hname₀, hview₁, hcount₁⟩ :=
    afterString_eq (show 1 ≤ (mem.drop 0).count 0 by rw [List.drop_zero]; omega)
  rw [List.drop_zero] at hname₀ hview₁ hcount₁
  obtain ⟨interfacename, h₁, hname₁, hview₂, hcount₂⟩ :=
    afterString_eq (show 1 ≤ (mem.drop objectpath).count 0 by omega)
  obtain ⟨function_name, h₂, hname₂, hview₃, hcount₃⟩ :=
    afterString_eq (show 1 ≤ (mem.drop interfacename).count 0 by omega)
  obtain ⟨arg_pointer, h₃, hname₃, hview₄, -⟩ :=
    afterString_eq (show 1 ≤ (mem.drop function_name).count 0 by omega)
  rw [hview₁] at hname₁ hview₂
  rw [hview₂] at hname₂ hview₃
  rw [hview₃] at hname₃ hview₄
  unfold MethodOnBytesReceived
  simp only [h₀, h₁, h₂, h₃, hname₀, hname₁, hname₂, hname₃, Option.bind_some]
  cases lib.newMethodCall _ _ _ _ with
  | none => rfl
  | some message =>
      simp only [countedRounds, load_one]
      rw [← hview₄]
      cases hview : mem.drop arg_pointer with
      | nil => rfl
      | cons count rest =>
          refine ⟨arg_pointer + 4, ?_, rfl⟩
          rw [← List.drop_drop, hview]
          rfl

theorem method_isSome {mem : List UInt8} :
    (MethodOnBytesReceived target lib mem).isSome ↔ CallInside target lib mem := by
  by_cases hcount : 4 ≤ mem.count 0
  · have hview := method_view target lib hcount
    unfold CallInside
    simp only [hcount, true_and]
    generalize lib.newMethodCall _ _ _ _ = made at hview ⊢
    cases made with
    | none =>
        rw [hview]
        exact iff_of_true rfl trivial
    | some message =>
        dsimp only at hview ⊢
        cases harguments : afterZero (afterZero (afterZero (afterZero mem))) with
        | nil =>
            rw [harguments] at hview
            rw [hview]
            exact iff_of_false Bool.false_ne_true id
        | cons count rest =>
            rw [harguments] at hview
            obtain ⟨arg_pointer, hdrop, heq⟩ := hview
            rw [heq, appendArguments_isSome, hdrop]
  · exact iff_of_false (fun h => hcount (method_count h)) (fun h => hcount h.1)

end

end AapBridge.Accessory
