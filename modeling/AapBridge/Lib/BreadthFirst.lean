import Mathlib

/-! # Breadth-first order

The nodes below some roots, level by level, and a queue that visits them: it takes
its first node and puts the children of that node at its end.
-/

namespace AapBridge.Lib.BreadthFirst

variable {α β : Type*} (kids : α → List α)

/-- The nodes that are `depth` steps below the roots. -/
def level : ℕ → List α → List α
  | 0, roots => roots
  | depth + 1, roots => level depth (roots.flatMap kids)

/-- The nodes fewer than `depth` steps below the roots, level by level. -/
def levels : ℕ → List α → List α
  | 0, _ => []
  | depth + 1, roots => roots ++ levels depth (roots.flatMap kids)

/-- The first nodes that the queue visits. -/
def visit : ℕ → List α → List α
  | 0, _ => []
  | _, [] => []
  | steps + 1, x :: queue => x :: visit steps (queue ++ kids x)

/-- The queue after some visits. -/
def drain : ℕ → List α → List α
  | 0, queue => queue
  | _, [] => []
  | steps + 1, x :: queue => drain steps (queue ++ kids x)

/-! ## The queue -/

@[simp] theorem visit_nil (steps : ℕ) : visit kids steps [] = [] := by
  cases steps <;> rfl

@[simp] theorem drain_nil (steps : ℕ) : drain kids steps [] = [] := by
  cases steps <;> rfl

theorem visit_add (m n : ℕ) (queue : List α) :
    visit kids (m + n) queue = visit kids m queue ++ visit kids n (drain kids m queue) := by
  induction m generalizing queue with
  | zero => rw [Nat.zero_add]; rfl
  | succ m ih =>
      cases queue with
      | nil => simp
      | cons x queue =>
          rw [Nat.add_right_comm]
          show x :: visit kids (m + n) (queue ++ kids x) = _
          rw [ih]
          rfl

theorem drain_add (m n : ℕ) (queue : List α) :
    drain kids (m + n) queue = drain kids n (drain kids m queue) := by
  induction m generalizing queue with
  | zero => rw [Nat.zero_add]; rfl
  | succ m ih =>
      cases queue with
      | nil => simp
      | cons x queue =>
          rw [Nat.add_right_comm]
          exact ih (queue ++ kids x)

theorem visit_length_le (steps : ℕ) (queue : List α) : (visit kids steps queue).length ≤ steps := by
  induction steps generalizing queue with
  | zero => exact le_refl 0
  | succ steps ih =>
      cases queue with
      | nil => exact Nat.zero_le _
      | cons x queue => exact Nat.succ_le_succ (ih (queue ++ kids x))

/-- Visiting the nodes at the front puts all their children behind what follows. -/
theorem visit_front (front rest : List α) :
    visit kids front.length (front ++ rest) = front ∧
      drain kids front.length (front ++ rest) = rest ++ front.flatMap kids := by
  induction front generalizing rest with
  | nil => exact ⟨rfl, (List.append_nil rest).symm⟩
  | cons x front ih =>
      have hfront := ih (rest ++ kids x)
      rw [← List.append_assoc] at hfront
      constructor
      · exact congrArg (x :: ·) hfront.1
      · rw [List.flatMap_cons, ← List.append_assoc]
        exact hfront.2

/-- The queue visits level after level. -/
theorem visit_levels (depth : ℕ) (roots : List α) :
    visit kids (levels kids depth roots).length roots = levels kids depth roots ∧
      drain kids (levels kids depth roots).length roots = level kids depth roots := by
  induction depth generalizing roots with
  | zero => exact ⟨rfl, rfl⟩
  | succ depth ih =>
      have hfront := visit_front kids roots []
      rw [List.append_nil, List.nil_append] at hfront
      have hrest := ih (roots.flatMap kids)
      rw [levels, level, List.length_append, visit_add, drain_add, hfront.1, hfront.2, hrest.1, hrest.2]
      exact ⟨rfl, rfl⟩

section

variable {kids} {depth : ℕ} {roots : List α} (hend : level kids depth roots = [])
include hend

/-- As long as nodes are left the queue is not empty. -/
theorem drain_eq_nil_iff (steps : ℕ) :
    drain kids steps roots = [] ↔ (levels kids depth roots).length ≤ steps := by
  have hlevels := visit_levels kids depth roots
  constructor
  · intro hnil
    by_contra hlt
    obtain ⟨more, hmore⟩ := Nat.exists_eq_add_of_le (Nat.le_of_not_le hlt)
    have hall := hlevels.1
    rw [hmore, visit_add, hnil, visit_nil, List.append_nil] at hall
    have hshort := visit_length_le kids steps roots
    rw [hall] at hshort
    omega
  · intro hle
    obtain ⟨more, rfl⟩ := Nat.exists_eq_add_of_le hle
    rw [drain_add, hlevels.2, hend, drain_nil]

/-- The queue visits the nodes in breadth-first order. -/
theorem visit_eq_take (steps : ℕ) : visit kids steps roots = (levels kids depth roots).take steps := by
  have hlevels := visit_levels kids depth roots
  rcases Nat.le_total steps (levels kids depth roots).length with hle | hle
  · obtain ⟨more, hmore⟩ := Nat.exists_eq_add_of_le hle
    have hall := hlevels.1
    rw [hmore, visit_add] at hall
    have hlength := congrArg List.length hall
    have hfirst := visit_length_le kids steps roots
    have hsecond := visit_length_le kids more (drain kids steps roots)
    rw [List.length_append] at hlength
    rw [← hall]
    exact (List.take_left' (by omega)).symm
  · obtain ⟨more, rfl⟩ := Nat.exists_eq_add_of_le hle
    rw [visit_add, hlevels.2, hend, visit_nil, List.append_nil, hlevels.1,
      List.take_of_length_le (Nat.le_add_right _ _)]

end

/-- One more visit takes the head of the queue. -/
theorem visit_succ (steps : ℕ) (queue : List α) :
    visit kids (steps + 1) queue = visit kids steps queue ++ (drain kids steps queue).head?.toList := by
  rw [visit_add]
  cases drain kids steps queue <;> rfl

/-- The head of the queue is the next node in breadth-first order. -/
theorem head?_drain {depth : ℕ} {roots : List α} (hend : level kids depth roots = []) (steps : ℕ) :
    (drain kids steps roots).head? = (levels kids depth roots)[steps]? := by
  have hvisit := visit_succ kids steps roots
  rw [visit_eq_take hend, visit_eq_take hend, List.take_add_one] at hvisit
  have htoList := congrArg List.head? (List.append_cancel_left hvisit)
  rw [Option.head?_toList, Option.head?_toList] at htoList
  exact htoList.symm

/-! ## The nodes of the levels -/

/-- A measure that falls from a node to its children bounds the depth. -/
theorem level_eq_nil (measure : α → ℕ) (hfalls : ∀ x, ∀ y ∈ kids x, measure y < measure x) (depth : ℕ)
    (roots : List α) (h : ∀ x ∈ roots, measure x < depth) : level kids depth roots = [] := by
  induction depth generalizing roots with
  | zero => exact List.eq_nil_iff_forall_not_mem.mpr fun x hx => Nat.not_lt_zero _ (h x hx)
  | succ depth ih =>
      apply ih
      intro y hy
      obtain ⟨x, hx, hchild⟩ := List.mem_flatMap.mp hy
      have hsmaller := hfalls x y hchild
      have hbound := h x hx
      omega

variable {kids}

/-- What a level holds lies below the roots. -/
theorem reachable_of_mem_levels {depth : ℕ} {roots : List α} {x : α} (h : x ∈ levels kids depth roots) :
    ∃ root ∈ roots, Relation.ReflTransGen (fun a b => b ∈ kids a) root x := by
  induction depth generalizing roots with
  | zero => cases h
  | succ depth ih =>
      rcases List.mem_append.mp h with hroot | hbelow
      · exact ⟨x, hroot, .refl⟩
      · obtain ⟨child, hchild, hreach⟩ := ih hbelow
        obtain ⟨root, hroot, hkid⟩ := List.mem_flatMap.mp hchild
        exact ⟨root, hroot, .head hkid hreach⟩

theorem kids_mem_levels {depth : ℕ} {roots : List α} (hend : level kids depth roots = []) {x y : α}
    (h : x ∈ levels kids depth roots) (hy : y ∈ kids x) : y ∈ levels kids depth roots := by
  induction depth generalizing roots with
  | zero => cases h
  | succ depth ih =>
      rcases List.mem_append.mp h with hroot | hbelow
      · have hchild : y ∈ roots.flatMap kids := List.mem_flatMap.mpr ⟨x, hroot, hy⟩
        apply List.mem_append_right
        cases depth with
        | zero =>
            have hnil : roots.flatMap kids = [] := hend
            rw [hnil] at hchild
            cases hchild
        | succ depth => exact List.mem_append_left _ hchild
      · exact List.mem_append_right _ (ih hend hbelow)

/-- The levels of a finite tree hold exactly what lies below the roots. -/
theorem mem_levels_iff {depth : ℕ} {roots : List α} (hend : level kids depth roots = [])
    {x : α} : x ∈ levels kids depth roots ↔
      ∃ root ∈ roots, Relation.ReflTransGen (fun a b => b ∈ kids a) root x := by
  constructor
  · exact reachable_of_mem_levels
  · rintro ⟨root, hroot, hreach⟩
    induction hreach with
    | refl =>
        cases depth with
        | zero =>
            have hnil : roots = [] := hend
            rw [hnil] at hroot
            cases hroot
        | succ depth => exact List.mem_append_left _ hroot
    | tail _ hkid ih => exact kids_mem_levels hend ih hkid

/-! ## Nodes told apart by a key -/

/-- The keys of the nodes with `Good` tell them apart: the children of a node have
different keys, equal keys have parents with equal keys, and a key shows its depth. -/
structure Keyed (kids : α → List α) (key : α → β) (rank : β → ℕ) (Good : α → Prop) : Prop where
  good : ∀ x, Good x → ∀ y ∈ kids x, Good y
  nodup : ∀ x, Good x → ((kids x).map key).Nodup
  parent : ∀ x x', Good x → Good x' → ∀ y ∈ kids x, ∀ y' ∈ kids x', key y = key y' → key x = key x'
  rank : ∀ x, Good x → ∀ y ∈ kids x, rank (key y) = rank (key x) + 1

variable {key : α → β} {rank : β → ℕ} {Good : α → Prop}

theorem Keyed.flatMap_nodup (h : Keyed kids key rank Good) {roots : List α} (hgood : ∀ x ∈ roots, Good x)
    (hroots : (roots.map key).Nodup) : ((roots.flatMap kids).map key).Nodup := by
  rw [List.map_flatMap, List.nodup_flatMap]
  constructor
  · exact fun x hx => h.nodup x (hgood x hx)
  · rw [List.nodup_iff_pairwise_ne, List.pairwise_map] at hroots
    apply hroots.imp_of_mem
    intro x x' hx hx' hne
    show List.Disjoint _ _
    rintro k hk hk'
    obtain ⟨y, hy, rfl⟩ := List.mem_map.mp hk
    obtain ⟨y', hy', heq⟩ := List.mem_map.mp hk'
    exact hne (h.parent x x' (hgood x hx) (hgood x' hx') y hy y' hy' heq.symm)

theorem Keyed.rank_le (h : Keyed kids key rank Good) {depth r : ℕ} {roots : List α}
    (hgood : ∀ x ∈ roots, Good x) (hrank : ∀ x ∈ roots, r ≤ rank (key x)) :
    ∀ x ∈ levels kids depth roots, r ≤ rank (key x) := by
  induction depth generalizing roots r with
  | zero => nofun
  | succ depth ih =>
      intro x hx
      rcases List.mem_append.mp hx with hroot | hbelow
      · exact hrank x hroot
      · apply Nat.le_of_succ_le
        apply ih (r := r + 1) _ _ x hbelow
        · intro y hy
          obtain ⟨root, hroot, hkid⟩ := List.mem_flatMap.mp hy
          exact h.good root (hgood root hroot) y hkid
        · intro y hy
          obtain ⟨root, hroot, hkid⟩ := List.mem_flatMap.mp hy
          rw [h.rank root (hgood root hroot) y hkid]
          exact Nat.succ_le_succ (hrank root hroot)

/-- Every key occurs once in the levels. -/
theorem Keyed.levels_nodup (h : Keyed kids key rank Good) {depth r : ℕ} {roots : List α}
    (hgood : ∀ x ∈ roots, Good x) (hrank : ∀ x ∈ roots, rank (key x) = r)
    (hroots : (roots.map key).Nodup) : ((levels kids depth roots).map key).Nodup := by
  induction depth generalizing roots r with
  | zero => exact List.nodup_nil
  | succ depth ih =>
      have hkids : ∀ y ∈ roots.flatMap kids, Good y ∧ rank (key y) = r + 1 := by
        intro y hy
        obtain ⟨root, hroot, hkid⟩ := List.mem_flatMap.mp hy
        rw [h.rank root (hgood root hroot) y hkid, hrank root hroot]
        exact ⟨h.good root (hgood root hroot) y hkid, rfl⟩
      rw [levels, List.map_append, List.nodup_append']
      refine ⟨hroots, ih (fun y hy => (hkids y hy).1) (fun y hy => (hkids y hy).2)
        (h.flatMap_nodup hgood hroots), ?_⟩
      intro k hk hk'
      obtain ⟨x, hx, rfl⟩ := List.mem_map.mp hk
      obtain ⟨y, hy, heq⟩ := List.mem_map.mp hk'
      have hdeeper := h.rank_le (r := r + 1) (fun y hy => (hkids y hy).1)
        (fun y hy => (hkids y hy).2.ge) y hy
      rw [heq, hrank x hx] at hdeeper
      omega

end AapBridge.Lib.BreadthFirst
