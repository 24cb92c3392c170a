import Mathlib.Data.List.Basic

/-! # Messages and the mark that ends them

A queue carries messages of several parties. A party announces with a mark that it
sends no more; `behindMark` is what it has sent nevertheless. It stays empty while
messages are taken off the front, and while none is added behind a mark.
-/

namespace AapBridge.Lib

variable {α : Type*} (mine mark : α → Bool)

/-- The messages that are mine behind the first mark. -/
def behindMark : List α → List α
  | [] => []
  | a :: as => if mark a then as.filter mine else behindMark as

variable {mine mark}

theorem behindMark_append {as : List α} {a : α} (h : behindMark mine mark as = [])
    (hnew : mine a = true → ∀ b ∈ as, mark b = false) :
    behindMark mine mark (as ++ [a]) = [] := by
  induction as with
  | nil =>
      simp only [List.nil_append, behindMark]
      split
      · rfl
      · rfl
  | cons b as ih =>
      simp only [List.cons_append, behindMark] at h ⊢
      by_cases hb : mark b = true
      · rw [if_pos hb] at h ⊢
        have ha : mine a = false := by
          rw [Bool.eq_false_iff]
          intro hmine
          rw [hnew hmine b List.mem_cons_self] at hb
          cases hb
        rw [List.filter_append, h, List.nil_append]
        simp [ha]
      · rw [if_neg hb] at h ⊢
        exact ih h fun hmine c hc => hnew hmine c (List.mem_cons_of_mem _ hc)

/-- Where nothing is mine, nothing mine is behind a mark. -/
theorem behindMark_of_filter {as : List α} (h : as.filter mine = []) :
    behindMark mine mark as = [] := by
  induction as with
  | nil => rfl
  | cons b as ih =>
      have htail : as.filter mine = [] := by
        rw [List.filter_eq_nil_iff] at h ⊢
        exact fun c hc => h c (List.mem_cons_of_mem _ hc)
      simp only [behindMark]
      split
      · exact htail
      · exact ih htail

theorem behindMark_tail {a : α} {as : List α} (h : behindMark mine mark (a :: as) = []) :
    behindMark mine mark as = [] := by
  simp only [behindMark] at h
  split at h
  · exact behindMark_of_filter h
  · exact h

/-- Behind the mark at the front nothing is mine. -/
theorem behindMark_head {a : α} {as : List α} (h : behindMark mine mark (a :: as) = [])
    (ha : mark a = true) : as.filter mine = [] := by
  rwa [behindMark, if_pos ha] at h

end AapBridge.Lib
