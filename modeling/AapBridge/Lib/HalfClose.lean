import AapBridge.Lib.Machine

/-! # Half-closing a two-way connection

Two ends, each with an input and an output that it closes for good, and a
first-in first-out channel each way for the two signals. EOF closes the
sender's output and the receiver's input, CLOSE the sender's input and the
receiver's output. Whoever starts and however the signals cross, the ends agree
as soon as nothing is in flight.
-/

namespace AapBridge.Lib.HalfClose

inductive Signal where
  | eof
  | close
deriving DecidableEq

structure End where
  input : Bool
  output : Bool
deriving DecidableEq

def End.sends (e : End) : Signal → End
  | .eof => { e with output := false }
  | .close => { e with input := false }

def End.receives (e : End) : Signal → End
  | .eof => { e with input := false }
  | .close => { e with output := false }

structure Connection where
  left : End
  right : End
  toLeft : List Signal
  toRight : List Signal

inductive Label where
  | leftSends (g : Signal)
  | rightSends (g : Signal)
  | leftReceives
  | rightReceives

def step (c : Connection) : Label → Option Connection
  | .leftSends g => some { c with left := c.left.sends g, toRight := c.toRight ++ [g] }
  | .rightSends g => some { c with right := c.right.sends g, toLeft := c.toLeft ++ [g] }
  | .leftReceives =>
      match c.toLeft with
      | [] => none
      | g :: rest => some { c with left := c.left.receives g, toLeft := rest }
  | .rightReceives =>
      match c.toRight with
      | [] => none
      | g :: rest => some { c with right := c.right.receives g, toRight := rest }

def allOpen : Connection := ⟨⟨true, true⟩, ⟨true, true⟩, [], []⟩

def halfClose : Machine Connection Label where
  init c := c = allOpen
  step := step

/-! ## What one end knows of the other -/

/-- `a` has closed what it says it has, and `b` knows or is about to be told. -/
structure Informs (a b : End) (inFlight : List Signal) : Prop where
  eof : .eof ∈ inFlight → a.output = false
  close : .close ∈ inFlight → a.input = false
  output : a.output = false → b.input = false ∨ .eof ∈ inFlight
  input : a.input = false → b.output = false ∨ .close ∈ inFlight

namespace Informs

variable {a b : End} {inFlight back : List Signal}

theorem send (h : Informs a b inFlight) (g : Signal) :
    Informs (a.sends g) b (inFlight ++ [g]) := by
  cases g with
  | eof =>
      constructor
      · intro _
        rfl
      · intro hmem
        exact h.close (by simpa using hmem)
      · intro _
        exact .inr (by simp)
      · intro hin
        exact (h.input hin).imp id fun hmem => List.mem_append_left _ hmem
  | close =>
      constructor
      · intro hmem
        exact h.eof (by simpa using hmem)
      · intro _
        rfl
      · intro hout
        exact (h.output hout).imp id fun hmem => List.mem_append_left _ hmem
      · intro _
        exact .inr (by simp)

/-- The other end closes something of its own. -/
theorem other_sends (h : Informs a b inFlight) (g : Signal) : Informs a (b.sends g) inFlight := by
  refine ⟨h.eof, h.close, fun hout => ?_, fun hin => ?_⟩
  · rcases h.output hout with hb | hmem
    · cases g <;> exact .inl (by simp [End.sends, hb])
    · exact .inr hmem
  · rcases h.input hin with hb | hmem
    · cases g <;> exact .inl (by simp [End.sends, hb])
    · exact .inr hmem

theorem other_receives {g : Signal} (h : Informs a b (g :: inFlight)) :
    Informs a (b.receives g) inFlight := by
  refine ⟨fun hmem => h.eof (List.mem_cons_of_mem g hmem),
    fun hmem => h.close (List.mem_cons_of_mem g hmem), fun hout => ?_, fun hin => ?_⟩
  · rcases h.output hout with hb | hmem
    · cases g <;> exact .inl (by simp [End.receives, hb])
    · rcases List.mem_cons.mp hmem with rfl | hrest
      · exact .inl rfl
      · exact .inr hrest
  · rcases h.input hin with hb | hmem
    · cases g <;> exact .inl (by simp [End.receives, hb])
    · rcases List.mem_cons.mp hmem with rfl | hrest
      · exact .inl rfl
      · exact .inr hrest

/-- What `a` is told it need not tell: `b` has closed that direction itself. -/
theorem receive {g : Signal} (h : Informs a b inFlight) (hback : Informs b a (g :: back)) :
    Informs (a.receives g) b inFlight := by
  cases g with
  | eof =>
      have hb : b.output = false := hback.eof (by simp)
      refine ⟨h.eof, fun hmem => rfl, h.output, fun _ => .inl hb⟩
  | close =>
      have hb : b.input = false := hback.close (by simp)
      refine ⟨fun hmem => rfl, h.close, fun _ => .inl hb, h.input⟩

end Informs

structure ConnectionInv (c : Connection) : Prop where
  rightward : Informs c.left c.right c.toRight
  leftward : Informs c.right c.left c.toLeft

theorem ConnectionInv.step {c c' : Connection} {l : Label} (h : ConnectionInv c)
    (hstep : step c l = some c') : ConnectionInv c' := by
  cases l with
  | leftSends g =>
      cases hstep
      exact ⟨h.rightward.send g, h.leftward.other_sends g⟩
  | rightSends g =>
      cases hstep
      exact ⟨h.rightward.other_sends g, h.leftward.send g⟩
  | leftReceives =>
      simp only [HalfClose.step] at hstep
      cases hqueue : c.toLeft with
      | nil => simp [hqueue] at hstep
      | cons g rest =>
          simp only [hqueue, Option.some.injEq] at hstep
          subst hstep
          have hleft := h.leftward
          rw [hqueue] at hleft
          exact ⟨h.rightward.receive hleft, hleft.other_receives⟩
  | rightReceives =>
      simp only [HalfClose.step] at hstep
      cases hqueue : c.toRight with
      | nil => simp [hqueue] at hstep
      | cons g rest =>
          simp only [hqueue, Option.some.injEq] at hstep
          subst hstep
          have hright := h.rightward
          rw [hqueue] at hright
          exact ⟨hright.other_receives, h.leftward.receive hright⟩

theorem ConnectionInv.reachable {c : Connection} (h : halfClose.Reachable c) :
    ConnectionInv c := by
  apply h.invariant
  · rintro s rfl
    constructor <;> constructor <;> simp [allOpen]
  · intro s l s' hs hstep
    exact hs.step hstep

/-- With nothing in flight, what one end has closed the other has closed. -/
theorem quiet_agree {c : Connection} (h : halfClose.Reachable c) (hleft : c.toLeft = [])
    (hright : c.toRight = []) :
    c.left.input = c.right.output ∧ c.left.output = c.right.input := by
  obtain ⟨hr, hl⟩ := ConnectionInv.reachable h
  rw [hleft] at hl
  rw [hright] at hr
  have hlo : c.left.output = false → c.right.input = false := fun ho =>
    (hr.output ho).resolve_right (by simp)
  have hli : c.left.input = false → c.right.output = false := fun hi =>
    (hr.input hi).resolve_right (by simp)
  have hro : c.right.output = false → c.left.input = false := fun ho =>
    (hl.output ho).resolve_right (by simp)
  have hri : c.right.input = false → c.left.output = false := fun hi =>
    (hl.input hi).resolve_right (by simp)
  constructor
  · cases hin : c.left.input with
    | false => rw [hli hin]
    | true =>
        cases hout : c.right.output with
        | false => rw [hro hout] at hin; cases hin
        | true => rfl
  · cases hout : c.left.output with
    | false => rw [hlo hout]
    | true =>
        cases hin : c.right.input with
        | false => rw [hri hin] at hout; cases hout
        | true => rfl

end AapBridge.Lib.HalfClose
