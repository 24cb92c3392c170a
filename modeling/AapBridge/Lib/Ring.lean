import Mathlib

/-! # Cyclic arrays read as queues, and counting threads by control location

`ringContents slots r k` lists the `k` entries of a cyclic array from position
`r` on. Positions matter only modulo the capacity, so an implementation may let
them rest at the capacity and wrap on the next use. `population p f` counts the
members of a family whose value satisfies `p`; one update moves it by at most
one, which is what semaphore accounting needs.
-/

namespace AapBridge.Lib

section Ring

variable {α : Type*} {n : Nat} [NeZero n]

def ringContents (slots : Fin n → α) (r k : Nat) : List α :=
  (List.range k).map fun i => slots (Fin.ofNat n (r + i))

@[simp] theorem ringContents_length (slots : Fin n → α) (r k : Nat) :
    (ringContents slots r k).length = k := by
  simp [ringContents]

theorem ringContents_zero (slots : Fin n → α) (r : Nat) : ringContents slots r 0 = [] := rfl

private theorem ofNat_eq_iff (a b : Nat) : Fin.ofNat n a = Fin.ofNat n b ↔ a % n = b % n := by
  simp [Fin.ofNat, Fin.ext_iff]

theorem ringContents_congr {slots : Fin n → α} {r r' : Nat} (h : r % n = r' % n) (k : Nat) :
    ringContents slots r k = ringContents slots r' k := by
  refine List.map_congr_left fun i _ => congrArg slots ?_
  rw [ofNat_eq_iff, Nat.add_mod, h, ← Nat.add_mod]

theorem ringContents_push (slots : Fin n → α) (r k : Nat) (x : α) (hk : k < n) :
    ringContents (Function.update slots (Fin.ofNat n (r + k)) x) r (k + 1) =
      ringContents slots r k ++ [x] := by
  unfold ringContents
  rw [List.range_succ, List.map_append]
  congr 1
  · refine List.map_congr_left fun i hi => Function.update_of_ne ?_ x slots
    have hik : i < k := List.mem_range.mp hi
    rw [Ne, ofNat_eq_iff]
    intro heq
    have hmod : i ≡ k [MOD n] := Nat.ModEq.add_left_cancel' r heq
    have : i = k := Nat.ModEq.eq_of_lt_of_lt hmod (hik.trans hk) hk
    omega
  · simp

theorem ringContents_pop (slots : Fin n → α) (r k : Nat) :
    ringContents slots r (k + 1) = slots (Fin.ofNat n r) :: ringContents slots (r + 1) k := by
  unfold ringContents
  rw [List.range_succ_eq_map, List.map_cons, List.map_map]
  refine congrArg₂ List.cons rfl (List.map_congr_left fun i _ => ?_)
  simp only [Function.comp, Nat.succ_eq_add_one]
  congr 2
  omega

end Ring

section Population

variable {ι β : Type*} [Fintype ι]

def population (p : β → Bool) (f : ι → β) : Nat :=
  (Finset.univ.filter fun i => p (f i)).card

theorem population_update [DecidableEq ι] (p : β → Bool) (f : ι → β) (i : ι) (x : β) :
    population p (Function.update f i x) + (p (f i)).toNat = population p f + (p x).toNat := by
  have hrest : (Finset.univ.erase i).filter (fun j => p (Function.update f i x j)) =
      (Finset.univ.erase i).filter fun j => p (f j) := by
    refine Finset.filter_congr fun j hj => ?_
    rw [Function.update_of_ne (Finset.ne_of_mem_erase hj)]
  have hsplit : ∀ g : ι → β, population p g =
      ((Finset.univ.erase i).filter fun j => p (g j)).card + (p (g i)).toNat := by
    intro g
    unfold population
    rw [← Finset.insert_erase (Finset.mem_univ i), Finset.filter_insert]
    have hout : i ∉ (Finset.univ.erase i).filter fun j => p (g j) := by simp
    cases hp : p (g i) with
    | false => simp
    | true =>
        rw [if_pos rfl, Finset.card_insert_of_notMem hout]
        simp
  rw [hsplit (Function.update f i x), hsplit f, hrest, Function.update_self]
  omega

theorem population_pos {p : β → Bool} {f : ι → β} {i : ι} (h : p (f i) = true) :
    0 < population p f :=
  Finset.card_pos.mpr ⟨i, by simp [h]⟩

theorem population_const {p : β → Bool} {x : β} (h : p x = false) :
    population p (fun _ : ι => x) = 0 := by
  simp [population, h]

end Population

end AapBridge.Lib
