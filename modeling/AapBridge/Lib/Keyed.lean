import Mathlib

/-! # Keyed logs

One log written by many sources; `keyed k` is what source `k` wrote, in order.
Renaming the keys keeps a source's part when no other source gets its new name.
-/

namespace AapBridge.Lib

variable {κ ι α : Type*} [DecidableEq κ] [DecidableEq ι]

def keyed (k : κ) (log : List (κ × α)) : List α :=
  log.filterMap fun e => if e.1 = k then some e.2 else none

@[simp] theorem keyed_nil (k : κ) : keyed k ([] : List (κ × α)) = [] := rfl

@[simp] theorem keyed_append (k : κ) (as bs : List (κ × α)) :
    keyed k (as ++ bs) = keyed k as ++ keyed k bs := by
  simp [keyed]

theorem keyed_cons (k : κ) (e : κ × α) (log : List (κ × α)) :
    keyed k (e :: log) = if e.1 = k then e.2 :: keyed k log else keyed k log := by
  by_cases h : e.1 = k <;> simp [keyed, h]

@[simp] theorem keyed_singleton_self (k : κ) (a : α) : keyed k [(k, a)] = [a] := by
  simp [keyed_cons]

theorem keyed_singleton_of_ne {k j : κ} (h : j ≠ k) (a : α) : keyed k [(j, a)] = [] := by
  simp [keyed_cons, h]

theorem keyed_eq_nil {k : κ} {log : List (κ × α)} (h : ∀ e ∈ log, e.1 ≠ k) : keyed k log = [] := by
  induction log with
  | nil => rfl
  | cons e log ih =>
      rw [keyed_cons, if_neg (h e (by simp))]
      exact ih fun e' he => h e' (List.mem_cons_of_mem e he)

theorem keyed_ne_nil {k : κ} {log : List (κ × α)} {e : κ × α} (he : e ∈ log) (hk : e.1 = k) :
    keyed k log ≠ [] := by
  intro h
  have hmem : e.2 ∈ keyed k log := List.mem_filterMap.mpr ⟨e, he, by simp [hk]⟩
  simp [h] at hmem

/-- Relabelled by `name`, the log of `i` is the log of its name, if no other key
that occurs has that name. -/
theorem keyed_relabel {name : ι → κ} {i : ι} {log : List (ι × α)}
    (h : ∀ e ∈ log, name e.1 = name i → e.1 = i) :
    keyed (name i) (log.map fun e => (name e.1, e.2)) = keyed i log := by
  induction log with
  | nil => rfl
  | cons e log ih =>
      have hrest := ih fun e' he => h e' (List.mem_cons_of_mem e he)
      rw [List.map_cons, keyed_cons, keyed_cons, hrest]
      by_cases hi : e.1 = i
      · simp [hi]
      · have hname : name e.1 ≠ name i := fun heq => hi (h e (by simp) heq)
        simp [hi, hname]

end AapBridge.Lib
