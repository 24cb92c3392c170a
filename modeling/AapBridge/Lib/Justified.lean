import Mathlib

/-! # Logs whose entries refer to earlier ones

`Justified P log` says that every entry of the log stands in the relation `P` to
the list of the entries before it. A log only grows at its end, so the one rule
that matters is about one more entry.
-/

namespace AapBridge.Lib

variable {α : Type*}

def Justified (P : List α → α → Prop) (log : List α) : Prop :=
  ∀ before x after, log = before ++ x :: after → P before x

namespace Justified

variable {P Q : List α → α → Prop} {log : List α}

theorem nil : Justified P [] := by
  intro before x after h
  simp at h

theorem snoc (h : Justified P log) {x : α} (hx : P log x) : Justified P (log ++ [x]) := by
  intro before y after heq
  obtain rfl | ⟨rest, z, rfl⟩ := List.eq_nil_or_concat after
  · obtain ⟨rfl, hxy⟩ := List.append_inj' heq rfl
    cases hxy
    exact hx
  · apply h before y rest
    rw [List.concat_eq_append, ← List.cons_append, ← List.append_assoc] at heq
    exact (List.append_inj' heq rfl).1

/-- The first entry goes; the others still stand behind it. -/
theorem tail {x : α} (h : Justified P (x :: log)) :
    Justified (fun before => P (x :: before)) log := by
  intro before y after heq
  apply h (x :: before) y after
  rw [heq]
  rfl

/-- A weaker relation, on the entries the log has. -/
theorem mono (h : Justified P log)
    (hPQ : ∀ before x, before ⊆ log → x ∈ log → P before x → Q before x) : Justified Q log := by
  intro before x after heq
  apply hPQ before x _ _ (h before x after heq)
  · rw [heq]
    exact List.subset_append_left _ _
  · rw [heq]
    exact List.mem_append_right _ List.mem_cons_self

end Justified

end AapBridge.Lib
