import Mathlib

/-!
# Tables of slots

A table is a list of slots; a slot either is free or holds the record of a key, which `key` reads
off it.  `upsert` changes the record of a key in its slot, and if the key has none takes over the
first free slot for it; slots are never given back.  What it does to the table is what it does to
the records: `lookup_upsert_self` and `lookup_upsert_of_ne`.
-/

namespace SlotTable

variable {α κ : Type*} [DecidableEq κ] (key : α → Option κ)

/-- The record of a key. -/
def lookup (k : κ) (slots : List α) : Option α := slots.find? fun a => key a = some k

/-- The first free slot. -/
def free (slots : List α) : Option α := slots.find? fun a => key a = none

lemma isSome_lookup (k : κ) (slots : List α) :
    (lookup key k slots).isSome = (slots.findIdx? fun a => key a = some k).isSome := by
  rw [lookup, List.isSome_find?, List.findIdx?_isSome]

omit [DecidableEq κ] in
lemma isSome_free (slots : List α) :
    (free key slots).isSome = (slots.findIdx? fun a => key a = none).isSome := by
  rw [free, List.isSome_find?, List.findIdx?_isSome]

/-- The record that `upsert` leaves, if there is room for it. -/
def touched (k : κ) (change claim : α → α) (slots : List α) : Option α :=
  ((lookup key k slots).map change).or ((free key slots).map (change ∘ claim))

/-- Change the record of a key, or take over the first free slot for it. -/
def upsert (k : κ) (change claim : α → α) (slots : List α) : List α :=
  match slots.findIdx? fun a => key a = some k with
  | some i => slots.modify i change
  | none =>
    match slots.findIdx? fun a => key a = none with
    | some i => slots.modify i (change ∘ claim)
    | none => slots

/-! ## Finding a slot in a modified list -/

variable {p q : α → Bool} {f : α → α} {l : List α} {i : ℕ}

/-- A change that the search does not see. -/
lemma find?_modify_of_blind (blind : ∀ a, l[i]? = some a → p a = false ∧ p (f a) = false) :
    (l.modify i f).find? p = l.find? p := by
  induction l generalizing i with
  | nil => simp
  | cons a l ih =>
      cases i with
      | zero =>
          obtain ⟨hold, hnew⟩ := blind a rfl
          simp [hold, hnew]
      | succ i => simp [List.find?_cons, ih (i := i) blind]

/-- A change of the slot that the search finds. -/
lemma find?_modify_of_findIdx? (stays : ∀ a, p a = true → p (f a) = true)
    (found : l.findIdx? p = some i) : (l.modify i f).find? p = (l.find? p).map f := by
  induction l generalizing i with
  | nil => cases found
  | cons a l ih =>
      rw [List.findIdx?_cons] at found
      cases hp : p a with
      | true =>
          rw [if_pos hp] at found
          obtain rfl := Option.some.inj found
          simp [hp, stays a hp]
      | false =>
          rw [if_neg (by simp [hp])] at found
          obtain ⟨j, hj, rfl⟩ := Option.map_eq_some_iff.1 found
          simp [hp, ih hj]

/-- A change by which a slot comes to be found. -/
lemma find?_modify_of_new (missing : ∀ a ∈ l, p a = false) (found : l.findIdx? q = some i)
    (new : ∀ a ∈ l, q a = true → p (f a) = true) :
    (l.modify i f).find? p = (l.find? q).map f := by
  induction l generalizing i with
  | nil => cases found
  | cons a l ih =>
      rw [List.findIdx?_cons] at found
      cases hq : q a with
      | true =>
          rw [if_pos hq] at found
          obtain rfl := Option.some.inj found
          simp [hq, new a List.mem_cons_self hq]
      | false =>
          rw [if_neg (by simp [hq])] at found
          obtain ⟨j, hj, rfl⟩ := Option.map_eq_some_iff.1 found
          have later := ih (fun b hb => missing b (List.mem_cons_of_mem a hb)) hj
            fun b hb => new b (List.mem_cons_of_mem a hb)
          simp [hq, missing a List.mem_cons_self, later]

/-- A change by which a slot comes not to be counted any more. -/
lemma countP_modify_of_findIdx? (found : l.findIdx? q = some i)
    (leaves : ∀ a ∈ l, q a = true → q (f a) = false) :
    (l.modify i f).countP q + 1 = l.countP q := by
  induction l generalizing i with
  | nil => cases found
  | cons a l ih =>
      rw [List.findIdx?_cons] at found
      cases hq : q a with
      | true =>
          rw [if_pos hq] at found
          obtain rfl := Option.some.inj found
          simp [hq, leaves a List.mem_cons_self hq]
      | false =>
          rw [if_neg (by simp [hq])] at found
          obtain ⟨j, hj, rfl⟩ := Option.map_eq_some_iff.1 found
          have later := ih hj fun b hb => leaves b (List.mem_cons_of_mem a hb)
          simp [hq, later]

lemma getElem?_of_findIdx? (found : l.findIdx? p = some i) : l[i]? = l.find? p := by
  rw [List.find?_eq_bind_findIdx?_getElem?, found]
  rfl

/-! ## The records after an update -/

section Upsert

variable {key} {k k' : κ} {change claim : α → α} {slots : List α}

lemma touched_of_found (found : (slots.findIdx? fun a => key a = some k) = some i) :
    touched key k change claim slots = (lookup key k slots).map change := by
  have recorded : lookup key k slots = slots[i]? := (getElem?_of_findIdx? found).symm
  obtain ⟨hi, -⟩ := List.findIdx?_eq_some_iff_getElem.1 found
  rw [touched, recorded, List.getElem?_eq_getElem hi]
  rfl

lemma touched_of_new (missing : (slots.findIdx? fun a => key a = some k) = none) :
    touched key k change claim slots = (free key slots).map (change ∘ claim) := by
  have unrecorded : lookup key k slots = none := by
    rw [lookup, List.find?_eq_bind_findIdx?_getElem?, missing]
    rfl
  rw [touched, unrecorded]
  rfl

/-- **The key's own record.** -/
theorem lookup_upsert_self (keeps : ∀ a, key (change a) = key a)
    (claims : ∀ a ∈ slots, key a = none → key (claim a) = some k) :
    lookup key k (upsert key k change claim slots) = touched key k change claim slots := by
  unfold upsert
  cases found : slots.findIdx? fun a => key a = some k with
  | some i =>
      rw [touched_of_found found]
      exact find?_modify_of_findIdx? (by simp [keeps]) found
  | none =>
      rw [touched_of_new found]
      cases room : slots.findIdx? fun a => key a = none with
      | some i =>
          apply find?_modify_of_new (List.findIdx?_eq_none_iff.1 found) room
          simpa [keeps] using claims
      | none =>
          rw [lookup, free, List.find?_eq_bind_findIdx?_getElem?, found,
            List.find?_eq_bind_findIdx?_getElem?, room]
          rfl

/-- **The record of every other key.** -/
theorem lookup_upsert_of_ne (hne : k' ≠ k) (keeps : ∀ a, key (change a) = key a)
    (claims : ∀ a ∈ slots, key a = none → key (claim a) = some k) :
    lookup key k' (upsert key k change claim slots) = lookup key k' slots := by
  unfold upsert
  cases found : slots.findIdx? fun a => key a = some k with
  | some i =>
      refine find?_modify_of_blind fun a ha => ?_
      have hkey : key a = some k := by
        rw [getElem?_of_findIdx? found] at ha
        simpa using List.find?_some ha
      simp [keeps, hkey, hne.symm]
  | none =>
      cases room : slots.findIdx? fun a => key a = none with
      | none => rfl
      | some i =>
          refine find?_modify_of_blind fun a ha => ?_
          have hfree : key a = none := by
            rw [getElem?_of_findIdx? room] at ha
            simpa using List.find?_some ha
          have hclaim := claims a (List.mem_of_getElem? ha) hfree
          simp [keeps, hfree, hclaim, hne.symm]

/-- A new key takes one of the free slots, if there are any. -/
lemma countP_upsert_of_new (missing : lookup key k slots = none)
    (keeps : ∀ a, key (change a) = key a)
    (claims : ∀ a ∈ slots, key a = none → key (claim a) = some k) :
    (upsert key k change claim slots).countP (fun a => key a = none) =
      slots.countP (fun a => key a = none) - 1 := by
  have unfound : (slots.findIdx? fun a => key a = some k) = none := by
    rw [← Option.isNone_iff_eq_none, List.findIdx?_isNone]
    simpa [lookup] using missing
  unfold upsert
  rw [unfound]
  cases room : slots.findIdx? fun a => key a = none with
  | some i =>
      apply Nat.eq_sub_of_add_eq
      apply countP_modify_of_findIdx? room
      intro a ha hfree
      simp [keeps, claims a ha (by simpa using hfree)]
  | none =>
      have taken : slots.countP (fun a => key a = none) = 0 :=
        List.countP_eq_zero.2 fun a ha => by simpa using List.findIdx?_eq_none_iff.1 room a ha
      dsimp only
      rw [taken]

lemma free_upsert_of_full (full : free key slots = none) (keeps : ∀ a, key (change a) = key a) :
    free key (upsert key k change claim slots) = none := by
  unfold upsert
  cases found : slots.findIdx? fun a => key a = some k with
  | some i =>
      rw [← full]
      refine find?_modify_of_blind fun a ha => ?_
      have hkey : key a = some k := by
        rw [getElem?_of_findIdx? found] at ha
        simpa using List.find?_some ha
      simp [keeps, hkey]
  | none =>
      have room : (slots.findIdx? fun a => key a = none) = none := by
        rw [← Option.isNone_iff_eq_none, List.findIdx?_isNone]
        simpa [free] using full
      rw [room]
      exact full

/-- Only the slot of the key changes. -/
lemma getElem?_upsert (keeps : ∀ a, key (change a) = key a)
    (claims : ∀ a ∈ slots, key a = none → key (claim a) = some k) {i : ℕ} {a : α}
    (ha : (upsert key k change claim slots)[i]? = some a) :
    key a = some k ∨ slots[i]? = some a := by
  have changed {j : ℕ} {f : α → α} (hf : ∀ b, slots[j]? = some b → key (f b) = some k)
      (ha : (slots.modify j f)[i]? = some a) : key a = some k ∨ slots[i]? = some a := by
    rw [List.getElem?_modify] at ha
    obtain ⟨b, hb, rfl⟩ := Option.map_eq_some_iff.1 ha
    split_ifs with hij
    · subst hij
      exact Or.inl (hf b hb)
    · exact Or.inr hb
  unfold upsert at ha
  split at ha
  · next j found =>
      refine changed (fun b hb => ?_) ha
      rw [getElem?_of_findIdx? found] at hb
      rw [keeps]
      simpa using List.find?_some hb
  · split at ha
    · next j room =>
        refine changed (fun b hb => ?_) ha
        have hfree : key b = none := by
          rw [getElem?_of_findIdx? room] at hb
          simpa using List.find?_some hb
        exact (keeps _).trans (claims b (List.mem_of_getElem? hb) hfree)
    · exact Or.inr ha

end Upsert

/-! ## The keys in the table -/

/-- The keys used, in the order of their first use, after uses given newest first. -/
def seen : List κ → List κ
  | [] => []
  | k :: ks => if k ∈ seen ks then seen ks else seen ks ++ [k]

lemma mem_seen {k : κ} {ks : List κ} : k ∈ seen ks ↔ k ∈ ks := by
  induction ks with
  | nil => rfl
  | cons k' ks ih =>
      rw [seen, List.mem_cons, ← ih]
      split_ifs with h
      · exact ⟨Or.inr, fun hk => hk.elim (fun he => he ▸ h) id⟩
      · rw [List.mem_append, List.mem_singleton, or_comm]

lemma nodup_seen (ks : List κ) : (seen ks).Nodup := by
  induction ks with
  | nil => exact List.nodup_nil
  | cons k ks ih =>
      rw [seen]
      split_ifs with h
      · exact ih
      · exact List.concat_eq_append ▸ ih.concat h

/-- A key is one of the first `n` after its use, if it was before or fewer had been seen. -/
lemma mem_take_seen_cons_self {k : κ} {ks : List κ} {n : ℕ} :
    k ∈ (seen (k :: ks)).take n ↔ k ∈ (seen ks).take n ∨ (seen ks).length < n := by
  rw [seen]
  constructor
  · intro h
    by_contra! hnot
    obtain ⟨hmem, hfull⟩ := hnot
    split_ifs at h
    · exact hmem h
    · rw [List.take_append_of_le_length hfull] at h
      exact hmem h
  · rintro (h | h)
    · rwa [if_pos (List.mem_of_mem_take h)]
    · split_ifs with hk
      · rwa [List.take_of_length_le h.le]
      · rw [List.take_of_length_le (by simpa using h)]
        simp

/-- Another key stays one of the first `n`, or stays out. -/
lemma mem_take_seen_cons_of_ne {k k' : κ} (hne : k' ≠ k) {ks : List κ} {n : ℕ} :
    k' ∈ (seen (k :: ks)).take n ↔ k' ∈ (seen ks).take n := by
  rw [seen]
  split_ifs
  · rfl
  · rw [List.take_append, List.mem_append, or_iff_left]
    intro h
    exact hne (List.mem_singleton.1 (List.mem_of_mem_take h))

/-- The first slots hold the given keys, as far as there are slots, and the others are free. -/
def Filled (ks : List κ) (slots : List α) : Prop :=
  slots.map key = (ks.take slots.length).map some ++
    List.replicate (slots.length - ks.length) none

section Filled

variable {key} {k : κ} {change claim : α → α} {slots : List α} {ks : List κ}

omit [DecidableEq κ] in
lemma Filled.key_eq (filled : Filled key ks slots) {i : ℕ} {a : α} (ha : slots[i]? = some a) :
    key a = ks[i]? := by
  have hi : i < slots.length := (List.getElem?_eq_some_iff.1 ha).1
  have hkey : (slots.map key)[i]? = some (key a) := by rw [List.getElem?_map, ha, Option.map_some]
  rw [filled] at hkey
  rcases lt_or_ge i ks.length with hlt | hge
  · rw [List.getElem?_append_left (by simp; omega), List.getElem?_map,
      List.getElem?_take_of_lt hi, List.getElem?_eq_getElem hlt] at hkey
    rw [List.getElem?_eq_getElem hlt]
    exact (Option.some.inj hkey).symm
  · rw [List.getElem?_append_right (by simp; omega), List.getElem?_replicate] at hkey
    split_ifs at hkey
    · rw [List.getElem?_eq_none hge]
      exact (Option.some.inj hkey).symm

lemma Filled.mem_iff (filled : Filled key ks slots) :
    (lookup key k slots).isSome ↔ k ∈ ks.take slots.length := by
  have hmem : some k ∈ slots.map key ↔ k ∈ ks.take slots.length := by
    rw [filled]
    simp [-List.map_take]
  rw [← hmem, lookup, List.find?_isSome, List.mem_map]
  simp

omit [DecidableEq κ] in
lemma Filled.free_iff (filled : Filled key ks slots) :
    (free key slots).isSome ↔ ks.length < slots.length := by
  have hmem : none ∈ slots.map key ↔ ks.length < slots.length := by
    rw [filled, List.mem_append, List.mem_replicate]
    simp [-List.map_take, Nat.sub_eq_zero_iff_le]
  rw [← hmem, free, List.find?_isSome, List.mem_map]
  simp

lemma length_upsert : (upsert key k change claim slots).length = slots.length := by
  unfold upsert
  split
  · exact List.length_modify _ _ _
  · split
    · exact List.length_modify _ _ _
    · rfl

omit [DecidableEq κ] in
lemma map_key_modify_of_keeps {f : α → α} (hf : ∀ a, key (f a) = key a) (i : ℕ) :
    (slots.modify i f).map key = slots.map key := by
  apply List.ext_getElem?
  intro j
  simp only [List.getElem?_map, List.getElem?_modify, Option.map_eq_map, Option.map_map]
  congr 1
  funext a
  by_cases hij : i = j <;> simp [hij, hf]

omit [DecidableEq κ] in
lemma map_key_modify {f : α → α} {i : ℕ} (hf : ∀ a, slots[i]? = some a → key (f a) = some k) :
    (slots.modify i f).map key = (slots.map key).set i (some k) := by
  apply List.ext_getElem?
  intro j
  rw [List.getElem?_map, List.getElem?_modify, List.getElem?_set, List.getElem?_map,
    List.length_map]
  by_cases hij : i = j
  · subst hij
    cases ha : slots[i]? with
    | none =>
        have hi : ¬i < slots.length := by simpa using ha
        simp [hi]
    | some a =>
        have hi : i < slots.length := (List.getElem?_eq_some_iff.1 ha).1
        simp [hi, hf a ha]
  · simp [hij]

omit [DecidableEq κ] in
/-- The first free slot is the one after the keys. -/
lemma Filled.findIdx?_free (filled : Filled key ks slots) (room : ks.length < slots.length) :
    (slots.findIdx? fun a => key a = none) = some ks.length := by
  have hmap : (slots.findIdx? fun a => key a = none) =
      (slots.map key).findIdx? fun o => o = none := by
    rw [List.findIdx?_map]
    rfl
  have htaken : ((ks.take slots.length).map some).findIdx? (fun o => o = none) = none := by
    rw [List.findIdx?_eq_none_iff]
    simp [-List.map_take]
  rw [hmap, filled, List.findIdx?_append, htaken, List.findIdx?_replicate, if_pos (by simp; omega),
    List.take_of_length_le room.le]
  simp

omit [DecidableEq κ] in
lemma Filled.set (filled : Filled key ks slots) (room : ks.length < slots.length) :
    (slots.map key).set ks.length (some k) =
      ((ks ++ [k]).take slots.length).map some ++
        List.replicate (slots.length - (ks ++ [k]).length) none := by
  obtain ⟨m, hm⟩ := Nat.exists_eq_add_of_lt room
  have hall : slots.length - ks.length = m + 1 := by omega
  have hrest : slots.length - (ks ++ [k]).length = m := by
    rw [List.length_append, List.length_singleton]
    omega
  rw [filled, hall, hrest, List.take_of_length_le room.le, List.take_of_length_le (by simp; omega),
    List.set_append_right _ _ (by simp), List.length_map, Nat.sub_self, List.replicate_succ,
    List.set_cons_zero, List.map_append, List.append_assoc]
  rfl

omit [DecidableEq κ] in
lemma Filled.append_of_full (filled : Filled key ks slots) (full : slots.length ≤ ks.length)
    (more : List κ) : Filled key (ks ++ more) slots := by
  have hnone : slots.length - ks.length = 0 := by omega
  have hnone' : slots.length - (ks ++ more).length = 0 := by
    rw [List.length_append]
    omega
  rw [Filled, filled, hnone, hnone', List.take_append_of_le_length full]

/-- **The keys after an update**: a new key takes the slot after the last one, if there is one. -/
theorem Filled.upsert (filled : Filled key (seen ks) slots) (keeps : ∀ a, key (change a) = key a)
    (claims : ∀ a ∈ slots, key a = none → key (claim a) = some k) :
    Filled key (seen (k :: ks)) (SlotTable.upsert key k change claim slots) := by
  cases found : slots.findIdx? fun a => key a = some k with
  | some i =>
      -- the key has a slot, and it is among those seen
      have hmem : k ∈ seen ks := by
        refine List.mem_of_mem_take (filled.mem_iff.1 ?_)
        rw [isSome_lookup, found]
        rfl
      rw [Filled, length_upsert, seen, if_pos hmem, SlotTable.upsert, found]
      exact (map_key_modify_of_keeps keeps i).trans filled
  | none =>
      have hnew : k ∉ (seen ks).take slots.length := by
        rw [← filled.mem_iff, isSome_lookup, found]
        decide
      rcases lt_or_ge (seen ks).length slots.length with room | full
      · -- a free slot is left, so all keys seen are in the table
        have hfree := filled.findIdx?_free room
        rw [List.take_of_length_le room.le] at hnew
        have hclaimed : (slots.modify (seen ks).length (change ∘ claim)).map key =
            (slots.map key).set (seen ks).length (some k) := by
          refine map_key_modify fun a ha => ?_
          have hkey : key a = none := by
            rw [getElem?_of_findIdx? hfree] at ha
            simpa using List.find?_some ha
          exact (keeps _).trans (claims a (List.mem_of_getElem? ha) hkey)
        rw [Filled, length_upsert, seen, if_neg hnew, SlotTable.upsert, found, hfree]
        exact hclaimed.trans (filled.set room)
      · -- none is left, and none is taken
        have hfull : (slots.findIdx? fun a => key a = none) = none := by
          have taken := mt filled.free_iff.1 (not_lt.2 full)
          rwa [isSome_free, Option.not_isSome_iff_eq_none] at taken
        rw [SlotTable.upsert, found, hfull, seen]
        dsimp only
        split_ifs
        · exact filled
        · exact filled.append_of_full full [k]

end Filled

end SlotTable
