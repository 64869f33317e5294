import WorldBossRaid.Framework.SlotTable
import WorldBossRaid.Properties.Username

/-!
# The streak table

`players` is a table of slots in the sense of `SlotTable`, keyed by the string of the name in a
slot, and `gamestate_update_streak` is its `upsert`.  So an update concerns the record of its own
name and no other, and what it returns is the streak in that record.  For this the names in the
slots must be terminated, which they are because no `strncpy` into a slot reaches its last byte.

Nothing of this depends on how `streak_count++` works, so it is shown for any `increment`.
-/

namespace WorldBossRaid

open Bytes SlotTable

/-! ## The table as a table of slots -/

/-- The name whose record a slot holds. -/
def PlayerHistory.key (p : PlayerHistory) : Option (List UInt8) :=
  if p.isFree then none else some p.name.cstr

/-- The record of a name. -/
abbrev PlayerTable.recordOf (t : PlayerTable) (name : List UInt8) : Option PlayerHistory :=
  lookup PlayerHistory.key name t.slots

/-- The record that an update leaves, if there is room for it. -/
abbrev PlayerTable.updated (t : PlayerTable) (increment : ℤ → ℤ) (name : Buffer maxPlayerName)
    (currentDice : ℤ) (isWin : Bool) : Option PlayerHistory :=
  touched PlayerHistory.key name.cstr (·.recordBy increment currentDice isWin) (·.claim name)
    t.slots

/-- Every name in the table ends within its array. -/
def PlayerTable.Terminated (t : PlayerTable) : Prop := ∀ p ∈ t.slots, p.name.bytes.drop 31 = [0]

lemma PlayerTable.find_eq (t : PlayerTable) (name : Buffer maxPlayerName) :
    t.find name = t.slots.findIdx? fun p => p.key = some name.cstr := by
  unfold find
  congr 1
  funext p
  unfold PlayerHistory.key Buffer.sameString
  cases p.isFree <;> simp [beq_eq_decide]

lemma PlayerTable.firstFree_eq (t : PlayerTable) :
    t.firstFree = t.slots.findIdx? fun p => p.key = none := by
  unfold firstFree
  congr 1
  funext p
  unfold PlayerHistory.key
  cases p.isFree <;> simp

/-- **`gamestate_update_streak` is an update of a table of slots.** -/
theorem updateStreak_eq (increment : ℤ → ℤ) (name : Buffer maxPlayerName) (currentDice : ℤ)
    (isWin : Bool) (shm : GameSharedData) :
    (gamestateUpdateStreakBy increment name currentDice isWin shm).1 =
        ((shm.players.updated increment name currentDice isWin).map (·.streakCount)).getD 0 ∧
      (gamestateUpdateStreakBy increment name currentDice isWin shm).2.players.slots =
        upsert PlayerHistory.key name.cstr (·.recordBy increment currentDice isWin)
          (·.claim name) shm.players.slots := by
  unfold gamestateUpdateStreakBy upsert
  rw [PlayerTable.find_eq, PlayerTable.firstFree_eq, PlayerTable.updated]
  cases found : shm.players.slots.findIdx? fun p => p.key = some name.cstr with
  | some i =>
      refine ⟨?_, rfl⟩
      rw [touched_of_found found, lookup, ← getElem?_of_findIdx? found]
      simp [PlayerTable.streakAt, PlayerTable.modifySlot]
  | none =>
      rw [touched_of_new found]
      cases room : shm.players.slots.findIdx? fun p => p.key = none with
      | some i =>
          refine ⟨?_, rfl⟩
          rw [free, ← getElem?_of_findIdx? room]
          simp [PlayerTable.streakAt, PlayerTable.modifySlot, Function.comp_def]
      | none =>
          refine ⟨?_, rfl⟩
          rw [free, List.find?_eq_bind_findIdx?_getElem?, room]
          rfl

/-! ## Names -/

/-- A name of 1 to 31 characters, as `input_validate_username` lets pass. -/
def Proper (name : Buffer maxPlayerName) : Prop := 0 < name.cstr.length ∧ name.cstr.length ≤ 31

variable {increment : ℤ → ℤ} {name : Buffer maxPlayerName} {currentDice : ℤ} {isWin : Bool}
  {shm : GameSharedData} {t : PlayerTable}

lemma proper_username {pkt : GamePacket} (valid : inputValidateUsername pkt.joinUsername = true) :
    Proper pkt.username := by
  rw [Proper, (username_holds valid).cstr_eq pkt.joinUsername.zero_notMem_cstr]
  exact length_of_validUsername valid

lemma key_record (p : PlayerHistory) : (p.recordBy increment currentDice isWin).key = p.key :=
  rfl

/-- A slot that is taken over for a name holds that name. -/
lemma key_claim (proper : Proper name) {p : PlayerHistory}
    (terminated : p.name.bytes.drop 31 = [0]) : (p.claim name).key = some name.cstr := by
  have holds : (p.claim name).name.Holds name.cstr :=
    @Buffer.strncpy_holds _ _ _ _ _ nameCopy_fits proper.2 terminated
  have string : (p.claim name).name.cstr = name.cstr := holds.cstr_eq name.zero_notMem_cstr
  have taken : (p.claim name).isFree = false := by
    obtain ⟨b, bs, hcons⟩ := List.exists_cons_of_length_pos proper.1
    have hb : b ≠ 0 := by
      rintro rfl
      exact name.zero_notMem_cstr (hcons ▸ List.mem_cons_self)
    rw [PlayerHistory.isFree, holds, hcons]
    simpa using hb
  rw [PlayerHistory.key, taken, string]
  rfl

lemma PlayerTable.Terminated.zero : PlayerTable.zero.Terminated := by
  intro p hp
  rw [List.eq_of_mem_replicate hp]
  rfl

lemma PlayerTable.Terminated.updateStreak (terminated : shm.players.Terminated) :
    (gamestateUpdateStreakBy increment name currentDice isWin shm).2.players.Terminated := by
  rw [PlayerTable.Terminated, (updateStreak_eq increment name currentDice isWin shm).2]
  have changed {i : ℕ} {f : PlayerHistory → PlayerHistory}
      (hf : ∀ p, (f p).name.bytes.drop 31 = p.name.bytes.drop 31) :
      ∀ p ∈ shm.players.slots.modify i f, p.name.bytes.drop 31 = [0] := by
    intro p hp
    obtain ⟨j, hj⟩ := List.mem_iff_getElem?.1 hp
    rw [List.getElem?_modify] at hj
    obtain ⟨q, hq, rfl⟩ := Option.map_eq_some_iff.1 hj
    have hq' := terminated q (List.mem_of_getElem? hq)
    split_ifs
    · exact (hf q).trans hq'
    · exact hq'
  unfold upsert
  split
  · exact changed fun p => rfl
  · split
    · exact changed fun p => @Buffer.drop_strncpy _ _ _ _ _ nameCopy_fits
    · exact terminated

/-! ## What an update does to the records -/

/-- **The record of the name itself.** -/
theorem recordOf_updateStreak_self (terminated : shm.players.Terminated) (proper : Proper name) :
    (gamestateUpdateStreakBy increment name currentDice isWin shm).2.players.recordOf name.cstr =
      shm.players.updated increment name currentDice isWin := by
  rw [PlayerTable.recordOf, (updateStreak_eq increment name currentDice isWin shm).2]
  exact lookup_upsert_self key_record fun p hp _ => key_claim proper (terminated p hp)

/-- **The record of every other name.** -/
theorem recordOf_updateStreak_of_ne {other : List UInt8} (hne : other ≠ name.cstr)
    (terminated : shm.players.Terminated) (proper : Proper name) :
    (gamestateUpdateStreakBy increment name currentDice isWin shm).2.players.recordOf other =
      shm.players.recordOf other := by
  rw [PlayerTable.recordOf, (updateStreak_eq increment name currentDice isWin shm).2]
  exact lookup_upsert_of_ne hne key_record fun p hp _ => key_claim proper (terminated p hp)

/-! ## Streaks -/

/-- The last dice and the streak after a name's updates, given by their dice and whether they were
wins, newest first. -/
def streakBy (increment : ℤ → ℤ) : List (ℤ × Bool) → ℤ × ℤ
  | [] => (0, 0)
  | (dice, isWin) :: updates =>
    (dice, if isWin then
        if (streakBy increment updates).1 = dice then increment (streakBy increment updates).2
        else 1
      else 0)

abbrev streakAfter : List (ℤ × Bool) → ℤ × ℤ := streakBy (· + 1)

/-- The table tells these updates of a name. -/
def PlayerTable.TellsBy (increment : ℤ → ℤ) (t : PlayerTable) (name : List UInt8)
    (updates : List (ℤ × Bool)) : Prop :=
  (t.recordOf name).map (fun p => (p.lastDice, p.streakCount)) =
    if updates = [] then none else some (streakBy increment updates)

/-- Has `gamestate_update_streak` a slot for the name? -/
def PlayerTable.hasRoom (t : PlayerTable) (name : Buffer maxPlayerName) : Bool :=
  (t.find name).isSome || t.firstFree.isSome

lemma PlayerTable.TellsBy.zero (name : List UInt8) :
    PlayerTable.zero.TellsBy increment name [] := by
  have unrecorded : PlayerTable.zero.recordOf name = none := by
    refine List.find?_eq_none.2 fun p hp => ?_
    rw [List.eq_of_mem_replicate hp]
    exact decide_eq_true_iff.not.2 nofun
  rw [TellsBy, unrecorded]
  rfl

/-- There is a slot if the name has a record, or else if some slot is free. -/
lemma PlayerTable.hasRoom_eq (t : PlayerTable) (name : Buffer maxPlayerName) :
    t.hasRoom name =
      ((t.recordOf name.cstr).isSome || (free PlayerHistory.key t.slots).isSome) := by
  rw [hasRoom, find_eq, firstFree_eq, ← isSome_lookup, ← isSome_free]

/-- The slot that an update finds holds the name's last dice and streak, and a slot it takes over
none. -/
lemma PlayerTable.TellsBy.updated_eq {updates : List (ℤ × Bool)}
    (tells : t.TellsBy increment name.cstr updates) (room : t.hasRoom name = true)
    (currentDice : ℤ) (isWin : Bool) :
    ∃ p : PlayerHistory,
      t.updated increment name currentDice isWin = some (p.recordBy increment currentDice isWin) ∧
      (p.lastDice, p.streakCount) = streakBy increment updates := by
  rw [PlayerTable.hasRoom_eq] at room
  rw [TellsBy] at tells
  rw [PlayerTable.updated, touched]
  change ∃ p, ((t.recordOf name.cstr).map _).or _ = _ ∧ _
  cases recorded : t.recordOf name.cstr with
  | some p =>
      rw [recorded, Option.map_some] at tells
      split_ifs at tells
      exact ⟨p, rfl, Option.some.inj tells⟩
  | none =>
      rw [recorded, Option.map_none] at tells
      rw [recorded] at room
      have unused : (free PlayerHistory.key t.slots).isSome = true := room
      obtain ⟨p, hp⟩ := Option.isSome_iff_exists.1 unused
      split_ifs at tells with first
      rw [first, hp]
      exact ⟨p.claim name, rfl, rfl⟩

/-- With a slot, an update is told, and its streak returned. -/
theorem PlayerTable.TellsBy.updateStreak {updates : List (ℤ × Bool)}
    (tells : shm.players.TellsBy increment name.cstr updates)
    (terminated : shm.players.Terminated) (proper : Proper name)
    (room : shm.players.hasRoom name = true) :
    (gamestateUpdateStreakBy increment name currentDice isWin shm).2.players.TellsBy increment
        name.cstr ((currentDice, isWin) :: updates) ∧
      (gamestateUpdateStreakBy increment name currentDice isWin shm).1 =
        (streakBy increment ((currentDice, isWin) :: updates)).2 := by
  obtain ⟨p, hp, hrecord⟩ := tells.updated_eq room currentDice isWin
  have after : ((p.recordBy increment currentDice isWin).lastDice,
      (p.recordBy increment currentDice isWin).streakCount) =
      streakBy increment ((currentDice, isWin) :: updates) := by
    rw [streakBy, ← hrecord]
    rfl
  constructor
  · rw [TellsBy, recordOf_updateStreak_self terminated proper, hp, Option.map_some, after]
    rfl
  · rw [(updateStreak_eq increment name currentDice isWin shm).1, hp, ← after]
    rfl

/-- Without one, 0 is returned. -/
theorem updateStreak_of_full (full : shm.players.hasRoom name = false) :
    (gamestateUpdateStreakBy increment name currentDice isWin shm).1 = 0 := by
  obtain ⟨missing, none_⟩ := Bool.or_eq_false_iff.1 full
  rw [Option.isSome_eq_false_iff, Option.isNone_iff_eq_none] at missing none_
  rw [gamestateUpdateStreakBy, missing, none_]

/-- The number of free slots. -/
def PlayerTable.freeSlots (t : PlayerTable) : ℕ := t.slots.countP fun p => p.key = none

/-- A new name takes a free slot. -/
theorem freeSlots_updateStreak_of_new (unrecorded : shm.players.recordOf name.cstr = none)
    (terminated : shm.players.Terminated) (proper : Proper name) :
    (gamestateUpdateStreakBy increment name currentDice isWin shm).2.players.freeSlots =
      shm.players.freeSlots - 1 := by
  rw [PlayerTable.freeSlots, (updateStreak_eq increment name currentDice isWin shm).2]
  exact countP_upsert_of_new unrecorded key_record fun p hp _ => key_claim proper (terminated p hp)

/-- With no slot left, there is room only for the names recorded. -/
lemma PlayerTable.hasRoom_of_freeSlots (unrecorded : t.recordOf name.cstr = none)
    (full : t.freeSlots = 0) : t.hasRoom name = false := by
  have taken : free PlayerHistory.key t.slots = none := List.find?_eq_none.2
    (List.countP_eq_zero.1 full)
  rw [PlayerTable.hasRoom_eq, unrecorded, taken]
  rfl

/-- A name that has found no slot will not find one later. -/
theorem hasRoom_updateStreak_of_full {other : Buffer maxPlayerName}
    (full : shm.players.hasRoom other = false) (terminated : shm.players.Terminated)
    (proper : Proper name) :
    (gamestateUpdateStreakBy increment name currentDice isWin shm).2.players.hasRoom other =
      false := by
  rw [PlayerTable.hasRoom_eq, Bool.or_eq_false_iff] at full ⊢
  obtain ⟨unrecorded, taken⟩ := full
  have stays : free PlayerHistory.key
      (gamestateUpdateStreakBy increment name currentDice isWin shm).2.players.slots = none := by
    rw [(updateStreak_eq increment name currentDice isWin shm).2]
    exact free_upsert_of_full (by simpa using taken) key_record
  refine ⟨?_, by simp [stays]⟩
  by_cases same : other.cstr = name.cstr
  · rw [same, Option.isSome_eq_false_iff, Option.isNone_iff_eq_none] at unrecorded
    rw [Option.isSome_eq_false_iff, Option.isNone_iff_eq_none] at taken
    rw [same, recordOf_updateStreak_self terminated proper, PlayerTable.updated, touched,
      show lookup PlayerHistory.key name.cstr shm.players.slots = none from unrecorded, taken]
    rfl
  · rw [recordOf_updateStreak_of_ne same terminated proper]
    exact unrecorded

end WorldBossRaid
