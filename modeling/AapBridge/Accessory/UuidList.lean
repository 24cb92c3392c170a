import AapBridge.Accessory.UuidText

/-! # The list of UUIDs

`main` collects the configured UUIDs in an array of 100 entries, puts the UUID
common to all servers behind them and ends the list with NULL;
`register_service` walks over the list and keeps the parsed UUIDs in an array of
100 places of its own. The terminator needs an entry behind the common UUID.
-/

namespace AapBridge.Accessory

/-- The entries of `uuids` in `main` before the first is written. -/
abbrev Entries := {entries : List (Option CString) // entries.length = 100}

/-- "a48e5d50-188b-4fca-b261-89c13914e118" -/
def genericUuid : CString :=
  ⟨"a48e5d50-188b-4fca-b261-89c13914e118".toList.map fun c => UInt8.ofNat c.toNat, by decide⟩

/-- `entries[i] = entry`, if the array has this entry. -/
def setEntry (entries : List (Option CString)) (i : ℕ) (entry : Option CString) :
    Option (List (Option CString)) :=
  if i < entries.length then some (entries.set i entry) else none

/-- `rounds` more rounds over the entries of the setting. -/
def uuidLoop (setting : List CString) :
    ℕ → ℕ → List (Option CString) → Option (List (Option CString))
  | 0, _, uuids => some uuids
  | rounds + 1, i, uuids => do
      let uuids ← setEntry uuids i setting[i]?
      match setting[i]? with
      | none =>
          let uuids ← setEntry uuids i (some genericUuid)
          setEntry uuids (i + 1) none
      | some _ => uuidLoop setting rounds (i + 1) uuids

/-- The array that `main` hands to `initAccessory`. -/
def mainUuids (uuids : Entries) : Option (List CString) → Option (List (Option CString))
  | some setting => uuidLoop setting 100 0 uuids.val
  | none => do
      let uuids ← setEntry uuids.val 0 (some genericUuid)
      setEntry uuids 1 none

/-- `register_service` from entry `i` on: the places of `custom_uuids` that go into the
list of service classes, and what they hold. No value: an entry behind the list is
read, or a place behind `custom_uuids` taken. -/
def registerLoop (strn2uuid : CString → Option (List UInt8)) :
    ℕ → List (Option CString) → Option (List (ℕ × List UInt8))
  | _, [] => none
  | _, none :: _ => some []
  | i, some text :: rest =>
      if i < 100 then
        (registerLoop strn2uuid (i + 1) rest).map fun classes =>
          match strn2uuid text with
          | some uuid => (i, uuid) :: classes
          | none => classes
      else none

/-- The list is the configured one as far as it fits, then the common UUID and NULL,
and it is registered within both arrays. -/
def ListTerminated (strn2uuid : CString → Option (List UInt8)) (uuids : Entries)
    (setting : Option (List CString)) : Prop :=
  ∃ list rest, mainUuids uuids setting = some list ∧ list.length = 100 ∧
    list = ((setting.getD []).take 98).map some ++ some genericUuid :: none :: rest ∧
    (registerLoop strn2uuid 0 list).isSome

/-! ## Filling the array -/

variable {setting : List CString} {uuids list : List (Option CString)} {i rounds : ℕ}

theorem setEntry_of_lt (h : i < uuids.length) (entry : Option CString) :
    setEntry uuids i entry = some (uuids.set i entry) := if_pos h

theorem setEntry_length {entry : Option CString} (h : setEntry uuids i entry = some list) :
    list.length = uuids.length ∧ i < uuids.length := by
  unfold setEntry at h
  split at h
  · next hlt =>
    cases h
    exact ⟨List.length_set, hlt⟩
  · cases h

/-- One more configured UUID stands in the array. -/
theorem take_set_succ (h : i < uuids.length) (hi : i < setting.length)
    (htake : uuids.take i = (setting.take i).map some) :
    (uuids.set i setting[i]?).take (i + 1) = (setting.take (i + 1)).map some := by
  rw [List.take_add_one, List.take_set_of_le (le_refl i), htake, List.take_add_one, List.map_append,
    List.getElem?_set_self h, List.getElem?_eq_getElem hi]
  rfl

/-- The common UUID and NULL behind the configured UUIDs. -/
theorem terminate (htake : uuids.take i = (setting.take i).map some) (hi : i = setting.length)
    (hfits : i + 1 < uuids.length) :
    (do
      let uuids ← setEntry (uuids.set i none) i (some genericUuid)
      setEntry uuids (i + 1) none) =
        some (setting.map some ++ some genericUuid :: none :: uuids.drop (i + 2)) := by
  rw [setEntry_of_lt (by rw [List.length_set]; omega), List.set_set]
  show setEntry (uuids.set i (some genericUuid)) (i + 1) none = _
  rw [setEntry_of_lt (by rwa [List.length_set]), List.set_eq_take_append_cons_drop,
    if_pos (by rwa [List.length_set]), List.take_add_one, List.take_set_of_le (le_refl i),
    List.getElem?_set_self (by omega), List.drop_set_of_lt (by omega), htake, hi, List.take_length,
    Option.toList_some, List.append_assoc]
  rfl

/-- A list that leaves two entries free. -/
theorem uuidLoop_terminated (hfits : setting.length + 1 < uuids.length) (hi : i ≤ setting.length)
    (hrounds : setting.length < i + rounds) (htake : uuids.take i = (setting.take i).map some) :
    ∃ rest, uuidLoop setting rounds i uuids =
      some (setting.map some ++ some genericUuid :: none :: rest) := by
  induction rounds generalizing i uuids with
  | zero => omega
  | succ rounds ih =>
      rw [uuidLoop, setEntry_of_lt (by omega)]
      rcases Nat.lt_or_eq_of_le hi with hlt | heq
      · have hrest := ih (by rwa [List.length_set]) hlt (by omega)
          (take_set_succ (by omega) hlt htake)
        rw [List.getElem?_eq_getElem hlt] at hrest ⊢
        exact hrest
      · rw [List.getElem?_eq_none (by omega)]
        exact ⟨uuids.drop (i + 2), terminate htake heq (by omega)⟩

theorem uuidLoop_length (h : uuidLoop setting rounds i uuids = some list) :
    list.length = uuids.length := by
  induction rounds generalizing i uuids with
  | zero =>
      cases h
      rfl
  | succ rounds ih =>
      obtain ⟨stored, hstored, hrest⟩ := Option.bind_eq_some_iff.mp h
      have hlen := (setEntry_length hstored).1
      split at hrest
      · obtain ⟨last, hlast, hbehind⟩ := Option.bind_eq_some_iff.mp hrest
        rw [(setEntry_length hbehind).1, (setEntry_length hlast).1, hlen]
      · rw [ih hrest, hlen]

/-- Where all entries but one are configured ones, no entry is left for the terminator. -/
theorem uuidLoop_full (hfull : uuids.length ≤ setting.length + 1)
    (hrounds : i + rounds = uuids.length) (htake : uuids.take i = (setting.take i).map some)
    (h : uuidLoop setting rounds i uuids = some list) : none ∉ list := by
  induction rounds generalizing i uuids with
  | zero =>
      have heq : uuids = list := Option.some.inj h
      have hall : uuids.take i = uuids := List.take_of_length_le (by omega)
      rw [← heq, ← hall, htake]
      intro hmem
      obtain ⟨text, -, hnone⟩ := List.mem_map.mp hmem
      cases hnone
  | succ rounds ih =>
      rw [uuidLoop, setEntry_of_lt (by omega)] at h
      by_cases hlt : i < setting.length
      · rw [List.getElem?_eq_getElem hlt] at h
        have hset : (uuids.set i setting[i]?).take (i + 1) = (setting.take (i + 1)).map some :=
          take_set_succ (by omega) hlt htake
        rw [List.getElem?_eq_getElem hlt] at hset
        exact ih (by rwa [List.length_set]) (by rw [List.length_set]; omega) hset h
      · rw [List.getElem?_eq_none (by omega)] at h
        change (setEntry (uuids.set i none) i (some genericUuid) >>= fun uuids =>
          setEntry uuids (i + 1) none) = some list at h
        obtain ⟨last, hlast, hbehind⟩ := Option.bind_eq_some_iff.mp h
        have hlen := (setEntry_length hlast).1
        rw [List.length_set] at hlen
        have hlt := (setEntry_length hbehind).2
        omega

/-! ## Registering the list -/

theorem registerLoop_within (strn2uuid : CString → Option (List UInt8)) (texts : List CString)
    (rest : List (Option CString)) (h : i + texts.length ≤ 100) :
    (registerLoop strn2uuid i (texts.map some ++ none :: rest)).isSome := by
  induction texts generalizing i with
  | nil => rfl
  | cons text texts ih =>
      rw [List.length_cons] at h
      show (registerLoop strn2uuid i (some text :: (texts.map some ++ none :: rest))).isSome
      rw [registerLoop, if_pos (by omega), Option.isSome_map]
      exact ih (by omega)

/-! ## The lists that are terminated -/

/-- Without a setting the list is that of an empty one. -/
theorem mainUuids_eq (uuids : Entries) (setting : Option (List CString)) :
    mainUuids uuids setting = uuidLoop (setting.getD []) 100 0 uuids.val := by
  cases setting with
  | none =>
      have hlen := uuids.property
      have hzero : 0 < uuids.val.length := by omega
      show (setEntry uuids.val 0 (some genericUuid) >>= fun uuids => setEntry uuids 1 none) = _
      rw [uuidLoop, setEntry_of_lt hzero, setEntry_of_lt hzero]
      show _ = setEntry (uuids.val.set 0 none) 0 (some genericUuid) >>= fun uuids =>
        setEntry uuids 1 none
      rw [setEntry_of_lt (by rwa [List.length_set]), List.set_set]
  | some setting => rfl

/-- The list is terminated exactly if two entries are left behind the configured ones. -/
theorem listTerminated_iff (strn2uuid : CString → Option (List UInt8)) (uuids : Entries)
    (setting : Option (List CString)) :
    ListTerminated strn2uuid uuids setting ↔ (setting.getD []).length < 99 := by
  have hlen := uuids.property
  constructor
  · rintro ⟨list, rest, hmain, -, hlist, -⟩
    rw [mainUuids_eq] at hmain
    by_contra hlong
    apply uuidLoop_full (by omega) (by omega) rfl hmain
    rw [hlist]
    simp
  · intro hshort
    obtain ⟨rest, hmain⟩ : ∃ rest, uuidLoop (setting.getD []) 100 0 uuids.val =
        some ((setting.getD []).map some ++ some genericUuid :: none :: rest) :=
      uuidLoop_terminated (by omega) (Nat.zero_le _) (by omega) rfl
    have htake : (setting.getD []).take 98 = setting.getD [] := List.take_of_length_le (by omega)
    refine ⟨_, rest, (mainUuids_eq uuids setting).trans hmain, ?_, by rw [htake], ?_⟩
    · rw [uuidLoop_length hmain, hlen]
    · have hregister := registerLoop_within strn2uuid (setting.getD [] ++ [genericUuid]) rest (i := 0)
        (by simp; omega)
      simpa using hregister

/-- 99 configured UUIDs: the terminator is written behind the array. -/
theorem uuids_written_behind : ¬∀ (strn2uuid : CString → Option (List UInt8)) (uuids : Entries)
    (setting : Option (List CString)), ListTerminated strn2uuid uuids setting := by
  intro h
  have hterminated := h (fun _ => none) ⟨List.replicate 100 none, rfl⟩
    (some (List.replicate 99 genericUuid))
  obtain ⟨list, rest, hmain, -, hlist, -⟩ := hterminated
  rw [mainUuids_eq] at hmain
  apply uuidLoop_full (by decide) (by decide) rfl hmain
  rw [hlist]
  simp

end AapBridge.Accessory
