import AapBridge.Lib.Cursor

/-! # Computations over arrays with a common tail

Two computations run in parallel if, started equally far into the tail, they end
in the same way and equally far into it, with related values. Whatever is built
from such computations is one again, so that what stands in front of the tail
cannot be told from the outcome.
-/

namespace AapBridge.Lib

/-- Outcomes equally far behind two bases. -/
inductive Outcome.Parallel {α β : Type} (V : α → β → Prop) (base base' limit : Nat) :
    Outcome α → Outcome β → Prop where
  | returns {a : α} {b : β} {q : Nat} (value : V a b) (within : q ≤ limit) :
      Parallel V base base' limit (.returns a (base + q)) (.returns b (base' + q))
  | throws {q : Nat} (within : q ≤ limit) :
      Parallel V base base' limit (.throws (base + q)) (.throws (base' + q))
  | runs : Parallel V base base' limit .runs .runs

namespace Cursor

variable {α α' β β' : Type} {V : α → α' → Prop} {W : β → β' → Prop} {front front' tail : List UInt8}

/-- Over `front ++ tail` and `front' ++ tail`, from equally far into the tail. -/
def Parallel (V : α → α' → Prop) (front front' tail : List UInt8) (p : Cursor α) (p' : Cursor α') :
    Prop :=
  ∀ q ≤ tail.length, (p (front.length + q)).Parallel V front.length front'.length tail.length
    (p' (front'.length + q))

theorem parallel_pure {a : α} {a' : α'} (h : V a a') :
    Parallel V front front' tail (pure a) (pure a') := fun _ hq => .returns h hq

theorem parallel_throw : Parallel V front front' tail throw throw := fun _ hq => .throws hq

theorem parallel_diverge : Parallel V front front' tail diverge diverge := fun _ _ => .runs

theorem Parallel.bind {p : Cursor α} {p' : Cursor α'} {f : α → Cursor β} {f' : α' → Cursor β'}
    (hp : Parallel V front front' tail p p')
    (hf : ∀ a a', V a a' → Parallel W front front' tail (f a) (f' a')) :
    Parallel W front front' tail (p >>= f) (p' >>= f') := by
  intro q hq
  have hfirst := hp q hq
  rw [bind_apply, bind_apply]
  generalize p (front.length + q) = o at hfirst
  generalize p' (front'.length + q) = o' at hfirst
  cases hfirst with
  | returns value within => exact hf _ _ value _ within
  | throws within => exact .throws within
  | runs => exact .runs

theorem Parallel.map {p : Cursor α} {p' : Cursor α} (hp : Parallel Eq front front' tail p p') (g : α → β) :
    Parallel Eq front front' tail (p >>= fun a => pure (g a)) (p' >>= fun a => pure (g a)) := by
  apply hp.bind
  rintro a _ rfl
  exact parallel_pure rfl

/-- With equal values in between. -/
theorem Parallel.seq {p : Cursor α} {p' : Cursor α} {f f' : α → Cursor β} {W : β → β → Prop}
    (hp : Parallel Eq front front' tail p p') (hf : ∀ a, Parallel W front front' tail (f a) (f' a)) :
    Parallel W front front' tail (p >>= f) (p' >>= f') := by
  apply hp.bind
  rintro a _ rfl
  exact hf a

theorem Parallel.attempt {p p' : Cursor α} (hp : Parallel Eq front front' tail p p') :
    Parallel Eq front front' tail p.attempt p'.attempt := by
  intro q hq
  have hfirst := hp q hq
  unfold Cursor.attempt
  generalize p (front.length + q) = o at hfirst
  generalize p' (front'.length + q) = o' at hfirst
  cases hfirst with
  | returns value within =>
      rw [value]
      exact .returns rfl within
  | throws within => exact .returns rfl within
  | runs => exact .runs

theorem parallel_byte : Parallel Eq front front' tail (byte (front ++ tail)) (byte (front' ++ tail)) := by
  intro q hq
  have hget : ∀ init : List UInt8, (init ++ tail)[init.length + q]? = tail[q]? := by
    intro init
    rw [List.getElem?_append_right (Nat.le_add_right _ _), Nat.add_sub_cancel_left]
  unfold byte
  rw [hget front, hget front']
  cases h : tail[q]? with
  | none => exact .throws hq
  | some b =>
      have hlt : q < tail.length := (List.getElem?_eq_some_iff.mp h).choose
      exact .returns (q := q + 1) rfl hlt

theorem take_tail (init : List UInt8) (n q : Nat) : take (init ++ tail) n (init.length + q) =
    if q + n ≤ tail.length then .returns ((tail.drop q).take n) (init.length + (q + n))
    else .throws (init.length + q) := by
  have hdrop : (init ++ tail).drop (init.length + q) = tail.drop q := by
    rw [← List.drop_drop, List.drop_left]
  unfold take
  rw [hdrop, List.length_append, Nat.add_assoc]
  simp only [Nat.add_le_add_iff_left]

theorem parallel_take (n : Nat) :
    Parallel Eq front front' tail (take (front ++ tail) n) (take (front' ++ tail) n) := by
  intro q hq
  rw [take_tail, take_tail]
  split
  · next hfits => exact .returns rfl hfits
  · exact .throws hq

theorem parallel_seek {target target' : Nat → Nat} (htarget : ∀ q, ∃ d,
    target (front.length + q) = front.length + d ∧ target' (front'.length + q) = front'.length + d) :
    Parallel Eq front front' tail (seek (front ++ tail) target) (seek (front' ++ tail) target') := by
  intro q hq
  obtain ⟨d, hd, hd'⟩ := htarget q
  unfold seek
  rw [hd, hd', List.length_append, List.length_append]
  simp only [Nat.add_le_add_iff_left]
  split
  · next hfits => exact .returns rfl hfits
  · exact .throws hq

end Cursor

end AapBridge.Lib
