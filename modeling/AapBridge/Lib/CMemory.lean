import Mathlib

/-! # Partial accesses to a C object

An object is the list of its bytes. A read or write outside it has no value, and
`strlen` has none when no terminator follows inside the object. The lemmas at
the end describe an object that starts with a terminated string.
-/

namespace AapBridge.Lib.CMemory

/-- The `n` bytes from offset `i` on, if all of them lie inside the object. -/
def load (mem : List UInt8) (i n : Nat) : Option (List UInt8) :=
  if i + n ≤ mem.length then some ((mem.drop i).take n) else none

/-- The object after a write of `bs` at offset `i`, if all of it lies inside. -/
def store (mem : List UInt8) (i : Nat) (bs : List UInt8) : Option (List UInt8) :=
  if i + bs.length ≤ mem.length then some (mem.take i ++ bs ++ mem.drop (i + bs.length)) else none

/-- The distance from the start to the first zero byte. -/
def scan : List UInt8 → Option Nat
  | [] => none
  | b :: bs => if b = 0 then some 0 else (scan bs).map (· + 1)

def strlen (mem : List UInt8) (i : Nat) : Option Nat := scan (mem.drop i)

/-- The characters of the string at offset `i`, without its terminator. -/
def cstring (mem : List UInt8) (i : Nat) : Option (List UInt8) :=
  (strlen mem i).map fun n => (mem.drop i).take n

/-- An object of four bytes or more. -/
theorem exists_four_cons {bytes : List UInt8} (h : 4 ≤ bytes.length) :
    ∃ a b c d rest, bytes = a :: b :: c :: d :: rest := by
  rcases bytes with _ | ⟨a, _ | ⟨b, _ | ⟨c, _ | ⟨d, rest⟩⟩⟩⟩
  case cons.cons.cons.cons => exact ⟨a, b, c, d, rest, rfl⟩
  all_goals
    simp only [List.length_nil, List.length_cons] at h
    omega

theorem store_length {mem mem' bs : List UInt8} {i : Nat} (h : store mem i bs = some mem') :
    mem'.length = mem.length := by
  unfold store at h
  split at h
  · next hle =>
    cases h
    simp
    omega
  · cases h

/-- A write extends what is known of the beginning of the object. -/
theorem store_take {mem mem' bs : List UInt8} {i : Nat} (h : store mem i bs = some mem') :
    mem'.take (i + bs.length) = mem.take i ++ bs := by
  unfold store at h
  split at h
  · next hle =>
    cases h
    have hlen : (mem.take i ++ bs).length = i + bs.length := by
      simp
      omega
    rw [← hlen, List.take_left]
  · cases h

theorem store_of_le {mem bs : List UInt8} {i : Nat} (h : i + bs.length ≤ mem.length) :
    ∃ mem', store mem i bs = some mem' := ⟨_, if_pos h⟩

theorem load_zero_of_le {mem : List UInt8} {n : Nat} (h : n ≤ mem.length) :
    load mem 0 n = some (mem.take n) := by
  simp [load, h]

theorem load_append (pre word rest : List UInt8) :
    load (pre ++ (word ++ rest)) pre.length word.length = some word := by
  simp [load]

theorem scan_terminated (s rest : List UInt8) (hs : 0 ∉ s) :
    scan (s ++ 0 :: rest) = some s.length := by
  induction s with
  | nil => simp [scan]
  | cons b s ih =>
      have hb : b ≠ 0 := fun h => hs (by simp [h])
      have hrest : 0 ∉ s := fun h => hs (List.mem_cons_of_mem b h)
      simp [scan, hb, ih hrest]

theorem scan_isSome {bs : List UInt8} : (scan bs).isSome ↔ 0 ∈ bs := by
  induction bs with
  | nil => simp [scan]
  | cons b bs ih =>
      by_cases hb : b = 0
      · simp [scan, hb]
      · simp [scan, hb, ih, Ne.symm hb]

theorem strlen_isSome {mem : List UInt8} {i : Nat} :
    (strlen mem i).isSome ↔ 0 ∈ mem.drop i := scan_isSome

theorem strlen_append (pre s rest : List UInt8) (hs : 0 ∉ s) :
    strlen (pre ++ (s ++ 0 :: rest)) pre.length = some s.length := by
  rw [strlen, List.drop_left]
  exact scan_terminated s rest hs

theorem cstring_append (pre s rest : List UInt8) (hs : 0 ∉ s) :
    cstring (pre ++ (s ++ 0 :: rest)) pre.length = some s := by
  rw [cstring, strlen_append pre s rest hs, List.drop_left]
  simp

/-! ## What lies behind a pointer

`mem.drop p` is all that can be read from `p` on; the accesses at `p` in its terms.
-/

/-- The characters in front of the first zero byte. -/
def chars (view : List UInt8) : List UInt8 := view.takeWhile (· ≠ 0)

/-- What follows the first zero byte. -/
def afterZero (view : List UInt8) : List UInt8 := (view.dropWhile (· ≠ 0)).tail

theorem load_view {mem : List UInt8} {p n : Nat} (hn : 0 < n) :
    load mem p n = if n ≤ (mem.drop p).length then some ((mem.drop p).take n) else none := by
  have hiff : p + n ≤ mem.length ↔ n ≤ (mem.drop p).length := by
    rw [List.length_drop]
    omega
  simp only [load, hiff]

theorem scan_eq (view : List UInt8) :
    scan view = if 0 ∈ view then some (chars view).length else none := by
  induction view with
  | nil => rfl
  | cons b view ih =>
      by_cases hb : b = 0
      · simp [scan, chars, hb]
      · rw [scan, if_neg hb, ih]
        by_cases hmem : 0 ∈ view
        · simp [chars, hb, hmem]
        · simp [hmem, Ne.symm hb]

theorem view_split {view : List UInt8} (h : 0 ∈ view) : view = chars view ++ 0 :: afterZero view := by
  induction view with
  | nil => cases h
  | cons b view ih =>
      by_cases hb : b = 0
      · simp [chars, afterZero, hb]
      · have hmem : 0 ∈ view := (List.mem_cons.mp h).resolve_left (Ne.symm hb)
        have hchars : chars (b :: view) = b :: chars view := by simp [chars, hb]
        have hafter : afterZero (b :: view) = afterZero view := by simp [afterZero, hb]
        rw [hchars, hafter, List.cons_append, ← ih hmem]

theorem drop_chars {view : List UInt8} (h : 0 ∈ view) :
    view.drop ((chars view).length + 1) = afterZero view := by
  have hsplit := congrArg (List.drop ((chars view).length + 1)) (view_split h)
  rw [hsplit, ← List.drop_drop, List.drop_left]
  rfl

theorem cstring_view {mem : List UInt8} {p : Nat} :
    cstring mem p = if 0 ∈ mem.drop p then some (chars (mem.drop p)) else none := by
  rw [cstring, strlen, scan_eq]
  split
  · rw [Option.map_some]
    have hhead : chars (mem.drop p) <+: mem.drop p := List.takeWhile_prefix _
    rw [← List.prefix_iff_eq_take.mp hhead]
  · rfl

theorem count_afterZero {view : List UInt8} (h : 0 ∈ view) :
    view.count 0 = (afterZero view).count 0 + 1 := by
  have hfree : (chars view).count 0 = 0 := by
    rw [List.count_eq_zero]
    intro hmem
    simpa using List.mem_takeWhile_imp hmem
  conv_lhs => rw [view_split h]
  rw [List.count_append, hfree, List.count_cons_self, Nat.zero_add]

theorem zero_mem_iff {view : List UInt8} : 0 ∈ view ↔ 1 ≤ view.count 0 :=
  List.one_le_count_iff.symm

end AapBridge.Lib.CMemory
