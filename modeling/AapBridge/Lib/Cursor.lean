import AapBridge.Lib.Words

/-! # Computations over a cursor

A computation starts at a position and returns, throws, or is still running when
its fuel is used up. What it throws keeps the position it had reached. Over an
array of bytes the cursor only moves forward.
-/

namespace AapBridge.Lib

inductive Outcome (α : Type) where
  | returns (value : α) (position : Nat)
  | throws (position : Nat)
  | runs
deriving DecidableEq

namespace Outcome

variable {α β : Type}

def bind : Outcome α → (α → Nat → Outcome β) → Outcome β
  | returns a position, f => f a position
  | throws position, _ => throws position
  | runs, _ => runs

@[simp] theorem bind_returns (a : α) (position : Nat) (f : α → Nat → Outcome β) :
    (returns a position).bind f = f a position := rfl

@[simp] theorem bind_throws (position : Nat) (f : α → Nat → Outcome β) :
    (throws position : Outcome α).bind f = throws position := rfl

@[simp] theorem bind_runs (f : α → Nat → Outcome β) : (runs : Outcome α).bind f = runs := rfl

theorem bind_assoc {γ : Type} (o : Outcome α) (f : α → Nat → Outcome β) (g : β → Nat → Outcome γ) :
    (o.bind f).bind g = o.bind fun a position => (f a position).bind g := by
  cases o <;> rfl

/-- What returns has its first part return. -/
theorem bind_eq_returns {o : Outcome α} {f : α → Nat → Outcome β} {b : β} {next : Nat}
    (h : o.bind f = returns b next) :
    ∃ a position, o = returns a position ∧ f a position = returns b next := by
  cases o with
  | returns a position => exact ⟨a, position, rfl, h⟩
  | throws position => cases h
  | runs => cases h

/-- Where it returns. -/
def returnedAt : Outcome α → Option Nat
  | returns _ position => some position
  | throws _ | runs => none

/-- Where it throws. -/
def thrownAt : Outcome α → Option Nat
  | throws position => some position
  | returns _ _ | runs => none

theorem returns_of_returnedAt {o : Outcome α} {position : Nat} (h : o.returnedAt = some position) :
    ∃ a, o = returns a position := by
  cases o with
  | returns a next =>
      cases h
      exact ⟨a, rfl⟩
  | throws next => cases h
  | runs => cases h

theorem throws_of_thrownAt {o : Outcome α} {position : Nat} (h : o.thrownAt = some position) :
    o = throws position := by
  cases o with
  | returns a next => cases h
  | throws next =>
      cases h
      rfl
  | runs => cases h

/-- The position it ends at lies between `first` and `last`. -/
def Within (first last : Nat) : Outcome α → Prop
  | returns _ position | throws position => first ≤ position ∧ position ≤ last
  | runs => True

/-- More fuel can only let it end. -/
def Below (o o' : Outcome α) : Prop := o = runs ∨ o = o'

theorem Below.refl (o : Outcome α) : Below o o := .inr rfl

theorem Below.bind {o o' : Outcome α} {f f' : α → Nat → Outcome β} (ho : Below o o')
    (hf : ∀ a position, Below (f a position) (f' a position)) : Below (o.bind f) (o'.bind f') := by
  rcases ho with rfl | rfl
  · exact .inl rfl
  · cases o with
    | returns a position => exact hf a position
    | throws position => exact .inr rfl
    | runs => exact .inl rfl

theorem Below.ends {o o' : Outcome α} (h : Below o o') (hends : o ≠ runs) : o' = o :=
  (h.resolve_left hends).symm

theorem Within.bind {first last : Nat} {o : Outcome α} {f : α → Nat → Outcome β}
    (ho : o.Within first last)
    (hf : ∀ a position, position ≤ last → (f a position).Within position last) :
    (o.bind f).Within first last := by
  cases o with
  | returns a position =>
      have hnext := hf a position ho.2
      rw [bind_returns]
      cases hresult : f a position with
      | returns b next =>
          rw [hresult] at hnext
          exact ⟨ho.1.trans hnext.1, hnext.2⟩
      | throws next =>
          rw [hresult] at hnext
          exact ⟨ho.1.trans hnext.1, hnext.2⟩
      | runs => trivial
  | throws position => exact ho
  | runs => trivial

end Outcome

abbrev Cursor (α : Type) : Type := Nat → Outcome α

namespace Cursor

variable {α β : Type}

instance : Monad Cursor where
  pure a := fun position => .returns a position
  bind p f := fun position => (p position).bind f

@[simp] theorem pure_apply (a : α) (position : Nat) :
    (pure a : Cursor α) position = .returns a position := rfl

@[simp] theorem bind_apply (p : Cursor α) (f : α → Cursor β) (position : Nat) :
    (p >>= f) position = (p position).bind f := rfl

@[simp] theorem map_apply (f : α → β) (p : Cursor α) (position : Nat) :
    (f <$> p) position = (p position).bind fun a position => .returns (f a) position := rfl

def throw : Cursor α := fun position => .throws position

def diverge : Cursor α := fun _ => .runs

@[simp] theorem throw_apply (position : Nat) : (throw : Cursor α) position = .throws position := rfl

@[simp] theorem diverge_apply (position : Nat) : (diverge : Cursor α) position = .runs := rfl

/-- The computation, its exception caught. -/
def attempt (p : Cursor α) : Cursor (Option α) := fun position =>
  match p position with
  | .returns a next => .returns (some a) next
  | .throws next => .returns none next
  | .runs => .runs

/-- One byte of the array. -/
def byte (bytes : List UInt8) : Cursor UInt8 := fun position =>
  match bytes[position]? with
  | some b => .returns b (position + 1)
  | none => .throws position

/-- `n` bytes of the array, or none of them. -/
def take (bytes : List UInt8) (n : Nat) : Cursor (List UInt8) := fun position =>
  if position + n ≤ bytes.length then .returns ((bytes.drop position).take n) (position + n)
  else .throws position

/-- Go to a position of the array that the current one determines. -/
def seek (bytes : List UInt8) (target : Nat → Nat) : Cursor Unit := fun position =>
  if target position ≤ bytes.length then .returns () (target position) else .throws position

/-! ## Forward computations -/

/-- From any position of the array the computation moves forward, if at all. -/
def Forward (bytes : List UInt8) (p : Cursor α) : Prop :=
  ∀ position ≤ bytes.length, (p position).Within position bytes.length

variable {bytes : List UInt8}

theorem forward_pure (a : α) : Forward bytes (pure a : Cursor α) :=
  fun position h => ⟨Nat.le_refl position, h⟩

theorem forward_throw : Forward bytes (throw : Cursor α) :=
  fun position h => ⟨Nat.le_refl position, h⟩

theorem forward_diverge : Forward bytes (diverge : Cursor α) := fun _ _ => trivial

theorem Forward.bind {p : Cursor α} {f : α → Cursor β} (hp : Forward bytes p)
    (hf : ∀ a, Forward bytes (f a)) : Forward bytes (p >>= f) :=
  fun position h => (hp position h).bind fun a next hnext => hf a next hnext

theorem Forward.attempt {p : Cursor α} (hp : Forward bytes p) : Forward bytes p.attempt := by
  intro position h
  have hwithin := hp position h
  unfold Cursor.attempt
  cases hresult : p position with
  | returns a next =>
      rw [hresult] at hwithin
      exact hwithin
  | throws next =>
      rw [hresult] at hwithin
      exact hwithin
  | runs => trivial

theorem forward_byte : Forward bytes (byte bytes) := by
  intro position h
  unfold byte
  split
  · next hb =>
    have hlt : position < bytes.length := (List.getElem?_eq_some_iff.mp hb).choose
    exact ⟨Nat.le_succ position, hlt⟩
  · exact ⟨Nat.le_refl position, h⟩

theorem forward_take (n : Nat) : Forward bytes (take bytes n) := by
  intro position h
  unfold take
  split
  · next hle => exact ⟨Nat.le_add_right position n, hle⟩
  · exact ⟨Nat.le_refl position, h⟩

theorem forward_seek {target : Nat → Nat} (htarget : ∀ position, position ≤ target position) :
    Forward bytes (seek bytes target) := by
  intro position h
  unfold seek
  split
  · next hle => exact ⟨htarget position, hle⟩
  · exact ⟨Nat.le_refl position, h⟩

/-! ## Fuel -/

/-- Wherever `p` ends, `q` ends in the same way. -/
def Below (p q : Cursor α) : Prop := ∀ position, (p position).Below (q position)

theorem Below.refl (p : Cursor α) : Below p p := fun position => .refl (p position)

theorem below_diverge (p : Cursor α) : Below diverge p := fun _ => .inl rfl

theorem Below.bind {p q : Cursor α} {f g : α → Cursor β} (hp : Below p q)
    (hf : ∀ a, Below (f a) (g a)) : Below (p >>= f) (q >>= g) :=
  fun position => (hp position).bind fun a next => hf a next

theorem Below.attempt {p q : Cursor α} (hp : Below p q) : Below p.attempt q.attempt := by
  intro position
  unfold Cursor.attempt
  rcases hp position with h | h
  · rw [h]
    exact .inl rfl
  · rw [h]
    exact .refl _

/-- It ends without any fuel. -/
def Total (p : Cursor α) : Prop := ∀ position, p position ≠ .runs

theorem total_pure (a : α) : Total (pure a : Cursor α) := fun _ => nofun

theorem Total.bind {p : Cursor α} {f : α → Cursor β} (hp : Total p) (hf : ∀ a, Total (f a)) :
    Total (p >>= f) := by
  intro position
  show (p position).bind f ≠ .runs
  cases hresult : p position with
  | returns a next => exact hf a next
  | throws next => nofun
  | runs => exact absurd hresult (hp position)

theorem total_byte : Total (byte bytes) := by
  intro position
  unfold byte
  split <;> nofun

theorem total_take (n : Nat) : Total (take bytes n) := by
  intro position
  unfold take
  split <;> nofun

theorem total_seek (target : Nat → Nat) : Total (seek bytes target) := by
  intro position
  unfold seek
  split <;> nofun

/-! ## What is returned -/

/-- Whatever the computation returns has the property. -/
def Ensures (p : Cursor α) (P : α → Prop) : Prop :=
  ∀ position a next, p position = .returns a next → P a

theorem ensures_pure {P : α → Prop} {a : α} (h : P a) : Ensures (pure a : Cursor α) P := by
  intro position b next hresult
  cases hresult
  exact h

theorem Ensures.bind {p : Cursor α} {f : α → Cursor β} {P : α → Prop} {Q : β → Prop} (hp : Ensures p P)
    (hf : ∀ a, P a → Ensures (f a) Q) : Ensures (p >>= f) Q := by
  intro position b next hresult
  obtain ⟨a, middle, hfirst, hrest⟩ := Outcome.bind_eq_returns hresult
  exact hf a (hp position a middle hfirst) middle b next hrest

theorem Ensures.attempt {p : Cursor α} {P : α → Prop} (hp : Ensures p P) :
    Ensures p.attempt fun result => ∀ a ∈ result, P a := by
  intro position result next hresult
  unfold Cursor.attempt at hresult
  cases hinner : p position with
  | returns a middle =>
      rw [hinner] at hresult
      cases hresult
      intro b hb
      cases hb
      exact hp position a _ hinner
  | throws middle =>
      rw [hinner] at hresult
      cases hresult
      nofun
  | runs =>
      rw [hinner] at hresult
      cases hresult

/-- What follows a computation decides alone. -/
theorem ensures_last {p : Cursor α} {f : α → Cursor β} {Q : β → Prop} (hf : ∀ a, Ensures (f a) Q) :
    Ensures (p >>= f) Q :=
  Ensures.bind (P := fun _ => True) (fun _ _ _ _ => trivial) fun a _ => hf a

/-! ## Reading what is there -/

/-- `bs` lies at the position. -/
def At (bytes : List UInt8) (position : Nat) (bs : List UInt8) : Prop :=
  bs <+: bytes.drop position

theorem At.left {position : Nat} {as bs : List UInt8} (h : At bytes position (as ++ bs)) :
    At bytes position as := (List.prefix_append as bs).trans h

theorem At.right {position : Nat} {as bs : List UInt8} (h : At bytes position (as ++ bs)) :
    At bytes (position + as.length) bs := by
  obtain ⟨tail, htail⟩ := h
  have hdrop : bytes.drop (position + as.length) = bs ++ tail := by
    rw [← List.drop_drop, ← htail, List.append_assoc, List.drop_left]
  exact ⟨tail, hdrop.symm⟩

theorem At.le {position : Nat} {bs : List UInt8} (h : At bytes position bs)
    (hpos : position ≤ bytes.length) : position + bs.length ≤ bytes.length := by
  have hlen := h.length_le
  rw [List.length_drop] at hlen
  omega

/-- Where `bs` lies at the position, `p` returns `a` behind it. -/
def Reads (bytes : List UInt8) (p : Cursor α) (position : Nat) (bs : List UInt8) (a : α) : Prop :=
  At bytes position bs → position ≤ bytes.length → p position = .returns a (position + bs.length)

theorem reads_pure (position : Nat) (a : α) : Reads bytes (pure a : Cursor α) position [] a :=
  fun _ _ => rfl

theorem Reads.bind {p : Cursor α} {f : α → Cursor β} {position : Nat} {as bs : List UInt8} {a : α}
    {b : β} (hp : Reads bytes p position as a) (hf : Reads bytes (f a) (position + as.length) bs b) :
    Reads bytes (p >>= f) position (as ++ bs) b := by
  intro hat hpos
  rw [bind_apply, hp hat.left hpos, Outcome.bind_returns, hf hat.right (hat.left.le hpos),
    List.length_append, Nat.add_assoc]

theorem Reads.map {p : Cursor α} {position : Nat} {as : List UInt8} {a : α}
    (hp : Reads bytes p position as a) (g : α → β) :
    Reads bytes (p >>= fun a => pure (g a)) position as (g a) := by
  intro hat hpos
  rw [bind_apply, hp hat hpos]
  rfl

theorem reads_byte (position : Nat) (b : UInt8) : Reads bytes (byte bytes) position [b] b := by
  rintro ⟨tail, htail⟩ _
  have hget : bytes[position]? = some b := by
    rw [← List.head?_drop, ← htail]
    rfl
  rw [byte, hget]
  rfl

theorem reads_take (position : Nat) (bs : List UInt8) :
    Reads bytes (take bytes bs.length) position bs bs := by
  intro hat hpos
  rw [take, if_pos (hat.le hpos), ← List.prefix_iff_eq_take.mp hat]

theorem reads_seek {target : Nat → Nat} {position : Nat} {bs : List UInt8}
    (htarget : target position = position + bs.length) :
    Reads bytes (seek bytes target) position bs () := by
  intro hat hpos
  rw [seek, htarget, if_pos (hat.le hpos)]

end Cursor

end AapBridge.Lib
