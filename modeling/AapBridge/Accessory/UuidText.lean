import Mathlib

/-! # UUID texts

`sdp_strn2uuid`: sixteen pairs of characters, hyphens skipped in front of each.
The function only tests that a pair begins inside the text; it tests neither the
digits nor the end of the text.
-/

namespace AapBridge.Accessory

/-- The characters of a terminated string. -/
abbrev CString := {chars : List UInt8 // 0 ∉ chars}

def hyphen : UInt8 := 45

/-- The largest value of an `int`. -/
def intMax : ℕ := 2 ^ 31 - 1

/-! ## The conversion of `sscanf` -/

def hexDigit (c : UInt8) : Option ℕ :=
  if 48 ≤ c.toNat ∧ c.toNat ≤ 57 then some (c.toNat - 48)
  else if 65 ≤ c.toNat ∧ c.toNat ≤ 70 then some (c.toNat - 55)
  else if 97 ≤ c.toNat ∧ c.toNat ≤ 102 then some (c.toNat - 87)
  else none

def isSpace (c : UInt8) : Bool := c = 32 || 9 ≤ c.toNat && c.toNat ≤ 13

def leadingDigits : List UInt8 → List ℕ
  | [] => []
  | c :: text =>
      match hexDigit c with
      | some digit => digit :: leadingDigits text
      | none => []

/-- The marker of a hexadecimal number may stand in front of its digits. -/
def dropMarker : List UInt8 → List UInt8
  | 48 :: c :: text => if c = 120 ∨ c = 88 then text else 48 :: c :: text
  | text => text

/-- The number at the start of `text`, if a digit stands there. -/
def hexNumber (text : List UInt8) : Option ℕ :=
  match leadingDigits (dropMarker text) with
  | [] => none
  | digits => some (Nat.ofDigits 16 digits.reverse % 2 ^ 32)

/-- `sscanf(text, "%x", &result)`: white space and a sign may stand in front. -/
def sscanfHex (text : List UInt8) : Option ℕ :=
  match text.dropWhile isSpace with
  | 43 :: rest => hexNumber rest
  | 45 :: rest => (hexNumber rest).map fun value => (2 ^ 32 - value) % 2 ^ 32
  | rest => hexNumber rest

/-! ## The function -/

/-- `str[i]`, which may be the terminator but nothing behind it. -/
def charAt (str : CString) (i : ℕ) : Option UInt8 := (str.val ++ [0])[i]?

/-- `i++` on an `int`. -/
def increment (i : ℕ) : Option ℕ := if i < intMax then some (i + 1) else none

def skipHyphens (str : CString) (chNr : ℕ) : Option ℕ :=
  if chNr ≤ str.val.length then
    if charAt str chNr = some hyphen then
      if chNr < intMax then skipHyphens str (chNr + 1) else none
    else some chNr
  else none
termination_by str.val.length + 1 - chNr

/-- The bytes that `groups` more rounds store, and the value returned. Where
`sscanf` finds no number, `result` keeps what was in its place. -/
def groupLoop (junk : ℕ → ℕ) (str : CString) : ℕ → ℕ → Option (ℕ × List UInt8)
  | 0, _ => some (0, [])
  | groups + 1, chNr => do
      let chNr ← skipHyphens str chNr
      if chNr ≥ str.val.length then
        return (2, [])
      let first ← charAt str chNr
      let chNr ← increment chNr
      let second ← charAt str chNr
      let chNr ← increment chNr
      let isolation := [first, second].takeWhile (· ≠ 0)
      let result := (sscanfHex isolation).getD (junk groups)
      let (returned, data) ← groupLoop junk str groups chNr
      return (returned, UInt8.ofNat result :: data)

/-- `sdp_strn2uuid` with `n` the length of the string. No value: a character
behind the terminator is read, or `ch_nr` overflows. -/
def sdpStrn2uuid (junk : ℕ → ℕ) (str : CString) : Option (ℕ × List UInt8) :=
  if str.val.length < 32 then some (1, []) else groupLoop junk str 16 0

/-- Groups of two hexadecimal digits with hyphens around them, and their values. -/
inductive UuidText : List UInt8 → List UInt8 → Prop
  | nil : UuidText [] []
  | skip {str values : List UInt8} (rest : UuidText str values) :
      UuidText (hyphen :: str) values
  | group {first second : UInt8} {high low : ℕ} {str values : List UInt8}
      (hhigh : hexDigit first = some high) (hlow : hexDigit second = some low)
      (rest : UuidText str values) :
      UuidText (first :: second :: str) (UInt8.ofNat (16 * high + low) :: values)

/-- The text is read without an access behind it, 0 is returned exactly for sixteen
groups, and then their values are stored. -/
def ParsedExactly (junk : ℕ → ℕ) (str : CString) : Prop :=
  ∃ returned data, sdpStrn2uuid junk str = some (returned, data) ∧
    (returned = 0 ↔ ∃ values, UuidText str.val values ∧ values.length = 16) ∧
    ∀ values, UuidText str.val values → values.length = 16 → data = values

/-- A text cut from its start into pairs, hyphens skipped in front of each, and its rest. -/
inductive CutsInto : List UInt8 → List (UInt8 × UInt8) → List UInt8 → Prop
  | done (rest : List UInt8) : CutsInto rest [] rest
  | skip {str rest : List UInt8} {pairs : List (UInt8 × UInt8)} (h : CutsInto str pairs rest) :
      CutsInto (hyphen :: str) pairs rest
  | pair {first second : UInt8} {str rest : List UInt8} {pairs : List (UInt8 × UInt8)}
      (hfirst : first ≠ hyphen) (h : CutsInto str pairs rest) :
      CutsInto (first :: second :: str) ((first, second) :: pairs) rest

def IsHexPair (pair : UInt8 × UInt8) : Prop :=
  (hexDigit pair.1).isSome ∧ (hexDigit pair.2).isSome

/-- The text is too short; or it ends behind a whole pair before the sixteenth; or its
sixteen pairs are all of digits and only hyphens follow. The counter stays an `int`. -/
def CutsCleanly (str : List UInt8) : Prop :=
  str.length < 32 ∨ ∃ pairs rest, CutsInto str pairs rest ∧ str.length ≤ intMax + rest.length ∧
    (pairs.length < 16 ∧ rest = [] ∨
      pairs.length = 16 ∧ (∀ pair ∈ pairs, IsHexPair pair) ∧ ∀ c ∈ rest, c = hyphen)

/-! ## Two digits -/

theorem hexDigit_bounds {c : UInt8} {digit : ℕ} (h : hexDigit c = some digit) :
    48 ≤ c.toNat ∧ c.toNat ≤ 102 ∧ c.toNat ≠ 88 ∧ digit < 16 := by
  unfold hexDigit at h
  split at h
  · cases h
    omega
  · split at h
    · cases h
      omega
    · split at h
      · cases h
        omega
      · cases h

theorem isSpace_digit {c : UInt8} {digit : ℕ} (h : hexDigit c = some digit) : isSpace c = false := by
  have hbounds := hexDigit_bounds h
  have hne : c ≠ 32 := by
    rintro rfl
    exact absurd hbounds.1 (by decide)
  simp [isSpace, hne]
  omega

theorem ne_of_digit {c d : UInt8} {digit : ℕ} (h : hexDigit c = some digit)
    (hd : hexDigit d = none) : c ≠ d := by
  rintro rfl
  rw [hd] at h
  cases h

theorem sscanfHex_pair {first second : UInt8} {high low : ℕ} (hhigh : hexDigit first = some high)
    (hlow : hexDigit second = some low) :
    sscanfHex ([first, second].takeWhile (· ≠ 0)) = some (16 * high + low) := by
  have hfirst : first ≠ 0 := ne_of_digit hhigh rfl
  have hsecond : second ≠ 0 := ne_of_digit hlow rfl
  have hplus : first ≠ 43 := ne_of_digit hhigh rfl
  have hminus : first ≠ 45 := ne_of_digit hhigh rfl
  have hmarker : dropMarker [first, second] = [first, second] := by
    unfold dropMarker
    split
    · next heq =>
      cases heq
      have hlower : second ≠ 120 := ne_of_digit hlow rfl
      have hupper : second ≠ 88 := ne_of_digit hlow rfl
      rw [if_neg (by simp [hlower, hupper])]
    · rfl
  have hdigits : leadingDigits [first, second] = [high, low] := by
    simp only [leadingDigits, hhigh, hlow]
  have hsmall : 16 * high + low < 2 ^ 32 := by
    have hhigh := hexDigit_bounds hhigh
    have hlow := hexDigit_bounds hlow
    omega
  have hnumber : hexNumber [first, second] = some (16 * high + low) := by
    rw [hexNumber, hmarker, hdigits]
    simp only [List.reverse_cons, List.reverse_nil, List.nil_append, List.cons_append,
      Nat.ofDigits_cons, Nat.ofDigits_nil]
    rw [Nat.mod_eq_of_lt (by omega)]
    congr 1
    omega
  have htext : [first, second].takeWhile (· ≠ 0) = [first, second] := by
    simp [hfirst, hsecond]
  have hspace : [first, second].dropWhile isSpace = [first, second] := by
    rw [List.dropWhile_cons_of_neg (by simp [isSpace_digit hhigh])]
  rw [htext, sscanfHex, hspace]
  split
  · next heq => exact absurd (List.head_eq_of_cons_eq heq) hplus
  · next heq => exact absurd (List.head_eq_of_cons_eq heq) hminus
  · exact hnumber

/-! ## One round of the loop -/

variable {junk : ℕ → ℕ} {str : CString} {chNr groups : ℕ}

theorem charAt_view {c : UInt8} {rest : List UInt8} (h : str.val.drop chNr = c :: rest) :
    charAt str chNr = some c ∧ chNr < str.val.length ∧ str.val.drop (chNr + 1) = rest := by
  have hlt : chNr < str.val.length := by
    by_contra hge
    rw [List.drop_eq_nil_of_le (by omega)] at h
    cases h
  rw [List.drop_eq_getElem_cons hlt] at h
  injection h with hc hrest
  refine ⟨?_, hlt, hrest⟩
  rw [charAt, List.getElem?_append_left hlt, List.getElem?_eq_getElem hlt, hc]

theorem charAt_end : charAt str str.val.length = some 0 := by
  simp [charAt]

theorem skipHyphens_hyphen {rest : List UInt8} (h : str.val.drop chNr = hyphen :: rest) :
    skipHyphens str chNr = if chNr < intMax then skipHyphens str (chNr + 1) else none := by
  have hview := charAt_view h
  rw [skipHyphens, if_pos hview.2.1.le, if_pos hview.1]

theorem skipHyphens_pair {c : UInt8} {rest : List UInt8} (h : str.val.drop chNr = c :: rest)
    (hc : c ≠ hyphen) : skipHyphens str chNr = some chNr := by
  have hview := charAt_view h
  rw [skipHyphens, if_pos hview.2.1.le, if_neg (by simp [hview.1, hc])]

theorem skipHyphens_end : skipHyphens str str.val.length = some str.val.length := by
  rw [skipHyphens, if_pos (le_refl _), if_neg (by simp [charAt_end, hyphen])]

theorem skipHyphens_behind (h : str.val.length < chNr) : skipHyphens str chNr = none := by
  rw [skipHyphens, if_neg (by omega)]

/-- The value stored for a pair. -/
def stored (junk : ℕ → ℕ) (groups : ℕ) (pair : UInt8 × UInt8) : UInt8 :=
  UInt8.ofNat ((sscanfHex ([pair.1, pair.2].takeWhile (· ≠ 0))).getD (junk groups))

/-- The values stored for the pairs, the first of them with `groups` rounds to go. -/
def storedAll (junk : ℕ → ℕ) : ℕ → List (UInt8 × UInt8) → List UInt8
  | groups + 1, pair :: pairs => stored junk groups pair :: storedAll junk groups pairs
  | _, _ => []

theorem groupLoop_hyphen {rest : List UInt8} (h : str.val.drop chNr = hyphen :: rest) :
    groupLoop junk str (groups + 1) chNr =
      if chNr < intMax then groupLoop junk str (groups + 1) (chNr + 1) else none := by
  rw [groupLoop, skipHyphens_hyphen h]
  split
  · rfl
  · rfl

theorem groupLoop_pair {first second : UInt8} {rest : List UInt8}
    (h : str.val.drop chNr = first :: second :: rest) (hfirst : first ≠ hyphen) :
    groupLoop junk str (groups + 1) chNr =
      if chNr + 2 ≤ intMax then (groupLoop junk str groups (chNr + 2)).map fun r =>
        (r.1, stored junk groups (first, second) :: r.2) else none := by
  have hview := charAt_view h
  have hnext := charAt_view hview.2.2
  rw [groupLoop, skipHyphens_pair h hfirst]
  by_cases hmax : chNr + 2 ≤ intMax
  · rw [if_pos hmax]
    have hone : increment chNr = some (chNr + 1) := if_pos (by omega)
    have htwo : increment (chNr + 1) = some (chNr + 2) := if_pos (by omega)
    simp only [Option.bind_eq_bind, Option.bind_some, ge_iff_le, if_neg (Nat.not_le.mpr hview.2.1),
      hview.1, hnext.1, hone, htwo]
    cases groupLoop junk str groups (chNr + 2) <;> rfl
  · rw [if_neg hmax]
    simp only [Option.bind_eq_bind, Option.bind_some, ge_iff_le, if_neg (Nat.not_le.mpr hview.2.1),
      hview.1]
    by_cases hone : chNr < intMax
    · simp only [increment, if_pos hone, Option.bind_some, hnext.1,
        if_neg (show ¬chNr + 1 < intMax by omega), Option.bind_none]
    · simp only [increment, if_neg hone, Option.bind_none]

/-- At the end of the text there is no further group. -/
theorem groupLoop_end : groupLoop junk str (groups + 1) str.val.length = some (2, []) := by
  rw [groupLoop, skipHyphens_end]
  simp

/-- A single character is left: the next round would start behind the terminator. -/
theorem groupLoop_single {c : UInt8} (h : str.val.drop chNr = [c]) (hc : c ≠ hyphen) :
    groupLoop junk str (groups + 1) chNr = if groups = 0 ∧ chNr + 2 ≤ intMax then
        some (0, [stored junk 0 (c, 0)]) else none := by
  have hview := charAt_view h
  have hend : chNr + 1 = str.val.length := by
    have hlen := congrArg List.length h
    rw [List.length_drop] at hlen
    simp only [List.length_cons, List.length_nil] at hlen
    omega
  rw [groupLoop, skipHyphens_pair h hc]
  simp only [Option.bind_eq_bind, Option.bind_some, ge_iff_le, if_neg (Nat.not_le.mpr hview.2.1),
    hview.1]
  by_cases hone : chNr < intMax
  · have hsecond : charAt str (chNr + 1) = some 0 := by
      rw [hend]
      exact charAt_end
    simp only [increment, if_pos hone, Option.bind_some, hsecond]
    by_cases htwo : chNr + 1 < intMax
    · simp only [if_pos htwo, Option.bind_some]
      cases groups with
      | zero =>
          rw [if_pos ⟨rfl, htwo⟩]
          rfl
      | succ groups =>
          rw [groupLoop, skipHyphens_behind (by omega), if_neg (by omega)]
          rfl
    · have hbeyond : ¬(groups = 0 ∧ chNr + 2 ≤ intMax) := by omega
      rw [if_neg hbeyond]
      simp only [if_neg htwo, Option.bind_none]
  · rw [if_neg (by omega)]
    simp only [increment, if_neg hone, Option.bind_none]

/-! ## The text and its cut -/

theorem UuidText.length_le {str values : List UInt8} (h : UuidText str values) :
    2 * values.length ≤ str.length := by
  induction h with
  | nil => exact le_refl 0
  | skip rest ih =>
      rw [List.length_cons]
      omega
  | group hhigh hlow rest ih =>
      simp only [List.length_cons]
      omega

theorem CutsInto.length_le {str rest : List UInt8} {pairs : List (UInt8 × UInt8)}
    (h : CutsInto str pairs rest) : rest.length + 2 * pairs.length ≤ str.length := by
  induction h with
  | done rest => exact le_refl _
  | skip hcut ih =>
      rw [List.length_cons]
      omega
  | pair hfirst hcut ih =>
      simp only [List.length_cons]
      omega

/-- Behind the pairs it was cut into, a text of groups goes on as one. -/
theorem UuidText.cut {str rest values : List UInt8} {pairs : List (UInt8 × UInt8)}
    (hcut : CutsInto str pairs rest) (h : UuidText str values) :
    (∀ pair ∈ pairs, IsHexPair pair) ∧ pairs.length ≤ values.length ∧
      UuidText rest (values.drop pairs.length) := by
  induction hcut generalizing values with
  | done rest => exact ⟨nofun, Nat.zero_le _, h⟩
  | skip hcut ih =>
      cases h with
      | skip rest => exact ih rest
      | group hhigh hlow rest => cases hhigh
  | pair hfirst hcut ih =>
      cases h with
      | skip rest => exact absurd rfl hfirst
      | group hhigh hlow rest =>
          have hrest := ih rest
          refine ⟨?_, Nat.succ_le_succ hrest.2.1, hrest.2.2⟩
          intro pair hpair
          cases hpair with
          | head => exact ⟨by rw [hhigh]; rfl, by rw [hlow]; rfl⟩
          | tail _ hpair => exact hrest.1 pair hpair

/-- The values stored for the pairs are those of the groups. -/
theorem UuidText.stored_eq {str rest values : List UInt8} {pairs : List (UInt8 × UInt8)}
    (hcut : CutsInto str pairs rest) (h : UuidText str values) (groups : ℕ) :
    storedAll junk (pairs.length + groups) pairs = values.take pairs.length := by
  induction hcut generalizing values with
  | done rest => cases groups <;> rfl
  | skip hcut ih =>
      cases h with
      | skip rest => exact ih rest
      | group hhigh hlow rest => cases hhigh
  | pair hfirst hcut ih =>
      cases h with
      | skip rest => exact absurd rfl hfirst
      | group hhigh hlow rest =>
          rw [List.length_cons, Nat.add_right_comm, storedAll, stored, sscanfHex_pair hhigh hlow,
            ih rest]
          rfl

/-- Pairs of digits with nothing but hyphens behind them are groups. -/
theorem CutsInto.uuidText {str rest : List UInt8} {pairs : List (UInt8 × UInt8)}
    (h : CutsInto str pairs rest) (hpairs : ∀ pair ∈ pairs, IsHexPair pair)
    (hrest : ∀ c ∈ rest, c = hyphen) :
    ∃ values, UuidText str values ∧ values.length = pairs.length := by
  induction h with
  | done rest =>
      refine ⟨[], ?_, rfl⟩
      induction rest with
      | nil => exact .nil
      | cons c rest ih =>
          rw [hrest c List.mem_cons_self]
          exact .skip (ih fun d hd => hrest d (List.mem_cons_of_mem c hd))
  | skip hcut ih =>
      obtain ⟨values, htext, hlen⟩ := ih hpairs hrest
      exact ⟨values, .skip htext, hlen⟩
  | pair hfirst hcut ih =>
      obtain ⟨values, htext, hlen⟩ := ih (fun p hp => hpairs p (List.mem_cons_of_mem _ hp)) hrest
      obtain ⟨hhigh, hlow⟩ := hpairs _ List.mem_cons_self
      obtain ⟨high, hhigh⟩ := Option.isSome_iff_exists.mp hhigh
      obtain ⟨low, hlow⟩ := Option.isSome_iff_exists.mp hlow
      exact ⟨_, .group hhigh hlow htext, congrArg (· + 1) hlen⟩

theorem UuidText.hyphens {str : List UInt8} (h : UuidText str []) : ∀ c ∈ str, c = hyphen := by
  generalize hvalues : ([] : List UInt8) = values at h
  induction h with
  | nil => nofun
  | skip rest ih =>
      intro c hc
      cases hc with
      | head => rfl
      | tail _ hc => exact ih hvalues c hc
  | group hhigh hlow rest ih => cases hvalues

/-! ## The loop over a cut text -/

/-- The loop over a text with enough pairs, or one that ends behind a pair. -/
theorem groupLoop_cut {rest : List UInt8} {pairs : List (UInt8 × UInt8)}
    (h : CutsInto (str.val.drop chNr) pairs rest) (hle : chNr ≤ str.val.length)
    (hmax : str.val.length ≤ intMax + rest.length)
    (hwhole : pairs.length = groups ∨ pairs.length < groups ∧ rest = []) :
    groupLoop junk str groups chNr =
      some (if pairs.length = groups then 0 else 2, storedAll junk groups pairs) := by
  generalize hview : str.val.drop chNr = view at h
  induction h generalizing chNr groups with
  | done rest =>
      cases groups with
      | zero => rfl
      | succ groups =>
          have hnil : rest = [] := (hwhole.resolve_left (Nat.succ_ne_zero groups).symm).2
          have hend : chNr = str.val.length := by
            rw [hnil] at hview
            have hlen := List.drop_eq_nil_iff.mp hview
            omega
          rw [hend, groupLoop_end]
          rfl
  | @skip view rest pairs hcut ih =>
      have hnext := charAt_view hview
      cases groups with
      | zero =>
          have hnil : pairs = [] := List.eq_nil_of_length_eq_zero (by omega)
          rw [hnil]
          rfl
      | succ groups =>
          have hlen := congrArg List.length hnext.2.2
          have hshort := hcut.length_le
          rw [List.length_drop] at hlen
          rw [groupLoop_hyphen hview, if_pos (by omega)]
          exact ih hnext.2.1 hmax hwhole hnext.2.2
  | @pair first second view rest pairs hfirst hcut ih =>
      have hsecond := charAt_view (charAt_view hview).2.2
      have hlt := hsecond.2.1
      have hlen := congrArg List.length hsecond.2.2
      have hshort := hcut.length_le
      rw [List.length_drop] at hlen
      cases groups with
      | zero => exact absurd hwhole (by simp)
      | succ groups =>
      simp only [List.length_cons, Nat.add_right_cancel_iff, Nat.add_lt_add_iff_right] at hwhole
      have hloop := ih hsecond.2.1 hmax hwhole hsecond.2.2
      rw [groupLoop_pair hview hfirst, if_pos (by omega), hloop, List.length_cons, storedAll]
      simp only [Option.map_some, Nat.add_right_cancel_iff]

/-- How a loop that returns has cut the text: into all its pairs, up to the end behind a
pair, or up to a last single character. -/
theorem groupLoop_returns {junk : ℕ → ℕ} {str : CString} {chNr groups returned : ℕ}
    {data : List UInt8} (hle : chNr ≤ str.val.length) (hmax : chNr ≤ intMax)
    (h : groupLoop junk str groups chNr = some (returned, data)) :
    ∃ pairs rest, CutsInto (str.val.drop chNr) pairs rest ∧
      str.val.length ≤ intMax + rest.length ∧
      (returned = 0 ∧ pairs.length = groups ∨
        returned = 2 ∧ pairs.length < groups ∧ rest = [] ∨
        returned = 0 ∧ pairs.length < groups ∧ ∃ c, rest = [c] ∧ c ≠ hyphen) := by
  cases groups with
  | zero =>
      cases h
      refine ⟨[], str.val.drop chNr, .done _, ?_, .inl ⟨rfl, rfl⟩⟩
      rw [List.length_drop]
      omega
  | succ groups =>
      cases hview : str.val.drop chNr with
      | nil =>
          have hlen := List.drop_eq_nil_iff.mp hview
          have hend : chNr = str.val.length := by omega
          rw [hend, groupLoop_end] at h
          cases h
          exact ⟨[], [], .done [], by omega, .inr (.inl ⟨rfl, Nat.succ_pos groups, rfl⟩)⟩
      | cons c view =>
          have hnext := charAt_view hview
          have hlt := hnext.2.1
          by_cases hc : c = hyphen
          · rw [hc] at hview ⊢
            rw [groupLoop_hyphen hview] at h
            split at h
            · next hmore =>
              have hrest := @groupLoop_returns junk str _ (groups + 1) _ _ hlt hmore h
              rw [hnext.2.2] at hrest
              obtain ⟨pairs, rest, hcut, hcases⟩ := hrest
              exact ⟨pairs, rest, .skip hcut, hcases⟩
            · cases h
          · cases view with
            | nil =>
                rw [groupLoop_single hview hc] at h
                split at h
                · cases h
                  refine ⟨[], [c], .done [c], ?_, .inr (.inr ⟨rfl, Nat.succ_pos groups, c, rfl, hc⟩)⟩
                  have hlen := congrArg List.length hview
                  rw [List.length_drop] at hlen
                  omega
                · cases h
            | cons second view =>
                have hsecond := charAt_view hnext.2.2
                have hlt := hsecond.2.1
                rw [groupLoop_pair hview hc] at h
                split at h
                · next hmore =>
                  obtain ⟨r, hr, heq⟩ := Option.map_eq_some_iff.mp h
                  cases heq
                  have hrest := @groupLoop_returns junk str _ groups _ _ hlt hmore hr
                  rw [hsecond.2.2] at hrest
                  obtain ⟨pairs, rest, hcut, hlen, hcases⟩ := hrest
                  refine ⟨(c, second) :: pairs, rest, .pair hc hcut, hlen, ?_⟩
                  simpa only [List.length_cons, Nat.add_right_cancel_iff,
                    Nat.add_lt_add_iff_right] using hcases
                · cases h
termination_by str.val.length - chNr

/-! ## The texts that are parsed exactly -/

theorem sixteen_groups {rest values : List UInt8} {pairs : List (UInt8 × UInt8)} {text : List UInt8}
    (hcut : CutsInto text pairs rest) (hpairs : pairs.length = 16) (htext : UuidText text values)
    (hvalues : values.length = 16) : storedAll junk 16 pairs = values := by
  have hstored : storedAll junk (pairs.length + 0) pairs = values.take pairs.length :=
    htext.stored_eq hcut 0
  rw [hpairs, List.take_of_length_le (by omega)] at hstored
  exact hstored

/-- A text is parsed exactly if and only if its cut into pairs is a clean one. -/
theorem parsedExactly_iff (junk : ℕ → ℕ) (str : CString) :
    ParsedExactly junk str ↔ CutsCleanly str.val := by
  unfold ParsedExactly CutsCleanly sdpStrn2uuid
  by_cases hshort : str.val.length < 32
  · apply iff_of_true _ (.inl hshort)
    have hnone : ¬∃ values, UuidText str.val values ∧ values.length = 16 := by
      rintro ⟨values, htext, hvalues⟩
      have hlen := htext.length_le
      omega
    exact ⟨1, [], if_pos hshort, by simp [hnone], fun values htext hvalues =>
      absurd ⟨values, htext, hvalues⟩ hnone⟩
  · rw [if_neg hshort, or_iff_right hshort]
    constructor
    · rintro ⟨returned, data, hrun, hzero, -⟩
      have hreturns := groupLoop_returns (Nat.zero_le _) (Nat.zero_le _) hrun
      obtain ⟨pairs, rest, hcut, hmax, hcases⟩ := hreturns
      rw [List.drop_zero] at hcut
      refine ⟨pairs, rest, hcut, hmax, ?_⟩
      rcases hcases with ⟨hreturned, hpairs⟩ | ⟨-, hpairs, hrest⟩ | ⟨hreturned, hpairs, c, hrest, hc⟩
      · obtain ⟨values, htext, hvalues⟩ := hzero.mp hreturned
        have hbehind := htext.cut hcut
        rw [List.drop_eq_nil_of_le (by omega)] at hbehind
        exact .inr ⟨hpairs, hbehind.1, hbehind.2.2.hyphens⟩
      · exact .inl ⟨hpairs, hrest⟩
      · obtain ⟨values, htext, hvalues⟩ := hzero.mp hreturned
        have hbehind := (htext.cut hcut).2.2
        rw [hrest] at hbehind
        cases hbehind
        exact absurd rfl hc
    · rintro ⟨pairs, rest, hcut, hmax, hwhole⟩
      have hloop := @groupLoop_cut junk str 0 16 rest pairs hcut (Nat.zero_le _) hmax
      rcases hwhole with ⟨hpairs, hrest⟩ | ⟨hpairs, hhex, hhyphens⟩
      · have hnone : ¬∃ values, UuidText str.val values ∧ values.length = 16 := by
          rintro ⟨values, htext, hvalues⟩
          have hbehind := (htext.cut hcut).2.2
          rw [hrest] at hbehind
          have hlen := hbehind.length_le
          rw [List.length_drop, List.length_nil] at hlen
          omega
        rw [if_neg (Nat.ne_of_lt hpairs)] at hloop
        exact ⟨2, _, hloop (.inr ⟨hpairs, hrest⟩), by simp [hnone], fun values htext hvalues =>
          absurd ⟨values, htext, hvalues⟩ hnone⟩
      · refine ⟨_, _, hloop (.inl hpairs), ?_, ?_⟩
        · rw [if_pos hpairs]
          have htext := hcut.uuidText hhex hhyphens
          rw [hpairs] at htext
          exact iff_of_true rfl htext
        · exact fun values htext hvalues => sixteen_groups hcut hpairs htext hvalues

/-- One digit more than sixteen groups. -/
def digits33 : CString := ⟨List.replicate 33 48, by decide⟩

theorem digits33_cut : CutsInto digits33.val (List.replicate 16 (48, 48)) [48] := by
  iterate 16 apply CutsInto.pair (by decide)
  exact .done [48]

/-- The digit behind the groups is never looked at, and 0 is returned. -/
theorem digits33_accepted : ¬∃ junk, ParsedExactly junk digits33 := by
  rintro ⟨junk, returned, data, hrun, hzero, -⟩
  have hloop := @groupLoop_cut junk digits33 0 16 _ _ digits33_cut (Nat.zero_le _) (by decide) (.inl rfl)
  rw [sdpStrn2uuid, if_neg (by decide), hloop] at hrun
  cases hrun
  obtain ⟨values, htext, hvalues⟩ := hzero.mp rfl
  have hbehind := (htext.cut digits33_cut).2.2
  rw [List.drop_eq_nil_of_le (by rw [hvalues]; decide)] at hbehind
  exact absurd (hbehind.hyphens 48 List.mem_cons_self) (by decide)

end AapBridge.Accessory
