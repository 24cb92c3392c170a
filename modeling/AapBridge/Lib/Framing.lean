import Mathlib

/-! # Frames in a stream

A frame is a header of fixed length followed by as many bytes as the header
says. `assemble` cuts a stream into frames element by element, so how the stream
arrives in pieces cannot matter; what it has cut off of an unfinished stream of
frames is always a prefix of the frames that were sent.
-/

namespace AapBridge.Lib

variable {β : Type*}

structure Framing (β : Type*) where
  headerLength : Nat
  headerLength_pos : 0 < headerLength
  /-- The number of payload elements a whole header announces. -/
  payloadLength : List β → Nat

namespace Framing

/-- A header of four bytes. -/
protected theorem four_pos : 0 < 4 := by decide

variable (F : Framing β)

def IsFrame (f : List β) : Prop :=
  F.headerLength ≤ f.length ∧ f.length = F.headerLength + F.payloadLength (f.take F.headerLength)

instance (f : List β) : Decidable (F.IsFrame f) := inferInstanceAs (Decidable (_ ∧ _))

/-- One more element: the frames cut off so far, and the piece of the next one. -/
def feed (s : List (List β) × List β) (b : β) : List (List β) × List β :=
  if F.IsFrame (s.2 ++ [b]) then (s.1 ++ [s.2 ++ [b]], []) else (s.1, s.2 ++ [b])

def feedAll (s : List (List β) × List β) (bs : List β) : List (List β) × List β :=
  bs.foldl F.feed s

def assemble (bs : List β) : List (List β) × List β := F.feedAll ([], []) bs

variable {F}

/-! ## Frames are prefix free -/

theorem IsFrame.ne_nil {f : List β} (h : F.IsFrame f) : f ≠ [] := by
  intro heq
  have hpos := F.headerLength_pos
  have hlen := h.1
  simp only [heq, List.length_nil] at hlen
  omega

theorem IsFrame.eq_of_prefix {f g : List β} (hf : F.IsFrame f) (hg : F.IsFrame g)
    (hp : g <+: f) : g = f := by
  have htake : g.take F.headerLength = f.take F.headerLength := by
    obtain ⟨rest, rfl⟩ := hp
    rw [List.take_append_of_le_length hg.1]
  have hlen : g.length = f.length := by
    rw [hg.2, hf.2, htake]
  exact hp.eq_of_length hlen

/-- The rest of a header is not a frame. -/
theorem not_isFrame_of_short {f : List β} (h : f.length < F.headerLength) : ¬F.IsFrame f :=
  fun hf => absurd hf.1 (Nat.not_le.mpr h)

/-! ## Cutting -/

@[simp] theorem feedAll_nil (s : List (List β) × List β) : F.feedAll s [] = s := rfl

theorem feedAll_cons (s : List (List β) × List β) (b : β) (bs : List β) :
    F.feedAll s (b :: bs) = F.feedAll (F.feed s b) bs := rfl

theorem feedAll_append (s : List (List β) × List β) (as bs : List β) :
    F.feedAll s (as ++ bs) = F.feedAll (F.feedAll s as) bs := by
  simp [feedAll, List.foldl_append]

theorem assemble_append (as bs : List β) :
    F.assemble (as ++ bs) = F.feedAll (F.assemble as) bs := feedAll_append _ as bs

/-- A piece that completes a frame at its end at the earliest. -/
theorem feedAll_piece (done : List (List β)) (cur bs : List β) (hbs : bs ≠ [])
    (hproper : ∀ pre, pre ≠ [] → pre <+: bs → pre ≠ bs → ¬F.IsFrame (cur ++ pre)) :
    F.feedAll (done, cur) bs =
      if F.IsFrame (cur ++ bs) then (done ++ [cur ++ bs], []) else (done, cur ++ bs) := by
  induction bs generalizing cur with
  | nil => exact absurd rfl hbs
  | cons b bs ih =>
      rw [feedAll_cons]
      by_cases hlast : bs = []
      · subst hlast
        rfl
      · have hfirst : ¬F.IsFrame (cur ++ [b]) := by
          apply hproper [b] (by simp) ⟨bs, rfl⟩
          simpa using Ne.symm hlast
        rw [feed, if_neg hfirst, ih (cur ++ [b]) hlast]
        · simp
        · intro pre hne hpre hproperPre
          have happ := hproper (b :: pre) (by simp) (List.cons_prefix_cons.mpr ⟨rfl, hpre⟩)
            (by simpa using hproperPre)
          simpa using happ

/-- The same for the unfinished piece of a stream. -/
theorem assemble_piece (as bs : List β) (hbs : bs ≠ [])
    (hproper : ∀ pre, pre ≠ [] → pre <+: bs → pre ≠ bs →
      ¬F.IsFrame ((F.assemble as).2 ++ pre)) :
    F.assemble (as ++ bs) =
      if F.IsFrame ((F.assemble as).2 ++ bs) then
        ((F.assemble as).1 ++ [(F.assemble as).2 ++ bs], [])
      else ((F.assemble as).1, (F.assemble as).2 ++ bs) := by
  rw [assemble_append]
  exact feedAll_piece _ _ bs hbs hproper

theorem feedAll_frame (done : List (List β)) {f : List β} (hf : F.IsFrame f) :
    F.feedAll (done, []) f = (done ++ [f], []) := by
  rw [feedAll_piece done [] f hf.ne_nil]
  · simp [hf]
  · intro pre _ hpre hne hframe
    exact hne (hf.eq_of_prefix hframe hpre)

theorem feedAll_flatten (done fs : List (List β)) (h : ∀ f ∈ fs, F.IsFrame f) :
    F.feedAll (done, []) fs.flatten = (done ++ fs, []) := by
  induction fs generalizing done with
  | nil => simp
  | cons f fs ih =>
      rw [List.flatten_cons, feedAll_append, feedAll_frame done (h f (by simp)),
        ih _ fun g hg => h g (List.mem_cons_of_mem f hg)]
      simp

/-- A whole stream of frames is cut into exactly these frames. -/
theorem assemble_flatten (fs : List (List β)) (h : ∀ f ∈ fs, F.IsFrame f) :
    F.assemble fs.flatten = (fs, []) := by
  show F.feedAll ([], []) fs.flatten = (fs, [])
  simpa using feedAll_flatten [] fs h

theorem feedAll_prefix (s : List (List β) × List β) (bs : List β) :
    s.1 <+: (F.feedAll s bs).1 := by
  induction bs generalizing s with
  | nil => exact List.prefix_rfl
  | cons b bs ih =>
      apply List.IsPrefix.trans _ (ih (F.feed s b))
      unfold feed
      split
      · exact List.prefix_append _ _
      · exact List.prefix_rfl

/-- What is cut off the beginning of a stream of frames is a prefix of them. -/
theorem assemble_prefix {as bs : List β} {fs : List (List β)} (h : ∀ f ∈ fs, F.IsFrame f)
    (heq : as ++ bs = fs.flatten) : (F.assemble as).1 <+: fs := by
  have hall := assemble_append as bs (F := F)
  rw [heq, assemble_flatten fs h] at hall
  have hp := feedAll_prefix (F.assemble as) bs (F := F)
  rwa [← hall] at hp

theorem feedAll_conserves (s : List (List β) × List β) (bs : List β) :
    (F.feedAll s bs).1.flatten ++ (F.feedAll s bs).2 = s.1.flatten ++ s.2 ++ bs := by
  induction bs generalizing s with
  | nil => simp
  | cons b bs ih =>
      rw [feedAll_cons, ih]
      unfold feed
      split <;> simp

/-- No element is lost or made up. -/
theorem assemble_conserves (bs : List β) :
    (F.assemble bs).1.flatten ++ (F.assemble bs).2 = bs := by
  simpa [assemble] using feedAll_conserves ([], []) bs (F := F)

/-- The unfinished piece is the beginning of the next frame sent. -/
theorem assemble_next {as bs : List β} {fs : List (List β)} (h : ∀ f ∈ fs, F.IsFrame f)
    (heq : as ++ bs = fs.flatten) :
    ∃ rest, fs = (F.assemble as).1 ++ rest ∧ (F.assemble as).2 ++ bs = rest.flatten := by
  obtain ⟨rest, hrest⟩ := assemble_prefix h heq
  refine ⟨rest, hrest.symm, ?_⟩
  have hcons := assemble_conserves as (F := F)
  have hflat : (F.assemble as).1.flatten ++ ((F.assemble as).2 ++ bs) =
      (F.assemble as).1.flatten ++ rest.flatten := by
    rw [← List.append_assoc, hcons, heq, ← hrest, List.flatten_append]
  exact List.append_cancel_left hflat

end Framing

end AapBridge.Lib
