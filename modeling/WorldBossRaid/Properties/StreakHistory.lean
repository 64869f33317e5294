import WorldBossRaid.Properties.StreakTable

/-!
# The streak table as a memory of what players did

`gamestate_update_streak` keeps two numbers for a name.  They are a summary of everything the name
has done: the streak is the longest run of wins with one dice that its calls end with
(`isLongestStreak_streakAfter`).  The table as a whole is a map from the first hundred names seen
to these summaries (`streakTable_refines`), laid out from the first slot on.

The streak is an `int`, so a name that wins `2 ^ 31` times in a row is told a negative number
(`streakTable_overflows`).  Calls are listed newest first, so what a player did last is the
beginning of the list.
-/

namespace WorldBossRaid

open Bytes SlotTable

/-! ## The longest streak at the end of a history -/

/-- The last `v` of a player's calls are the longest run of wins with one dice that the calls end
with. -/
def IsLongestStreak (own : List (ℤ × Bool)) (v : ℕ) : Prop :=
  IsGreatest {k | ∃ dice, List.replicate k (dice, true) <+: own} v

/-- A streak is one of the last dice. -/
lemma dice_of_streak {own : List (ℤ × Bool)} {dice : ℤ} {k : ℕ}
    (h : List.replicate (k + 1) (dice, true) <+: own) : (streakAfter own).1 = dice := by
  cases own with
  | nil => simp at h
  | cons u own =>
      rw [List.replicate_succ, List.cons_prefix_cons] at h
      obtain ⟨rfl, -⟩ := h
      rfl

/-- Wins with one dice at the end of a history that goes on with one more call. -/
lemma replicate_succ_prefix_cons {own : List (ℤ × Bool)} {d dice : ℤ} {isWin : Bool} {k : ℕ} :
    List.replicate (k + 1) (d, true) <+: (dice, isWin) :: own ↔
      (d = dice ∧ isWin = true) ∧ List.replicate k (d, true) <+: own := by
  rw [List.replicate_succ, List.cons_prefix_cons, Prod.mk.injEq, eq_comm (a := true)]

namespace IsLongestStreak

variable {own : List (ℤ × Bool)} {v : ℕ} {dice : ℤ}

lemma nil : IsLongestStreak [] 0 := by
  refine ⟨⟨1, List.nil_prefix⟩, ?_⟩
  rintro k ⟨dice, h⟩
  simpa using h.length_le

lemma of_loss : IsLongestStreak ((dice, false) :: own) 0 := by
  refine ⟨⟨1, List.nil_prefix⟩, ?_⟩
  rintro (_ | k) ⟨d, h⟩
  · exact le_rfl
  · simp [replicate_succ_prefix_cons] at h

lemma of_same (longest : IsLongestStreak own v) (same : (streakAfter own).1 = dice) :
    IsLongestStreak ((dice, true) :: own) (v + 1) := by
  obtain ⟨⟨last, hlast⟩, hmax⟩ := longest
  refine ⟨⟨dice, replicate_succ_prefix_cons.2 ⟨⟨rfl, rfl⟩, ?_⟩⟩, ?_⟩
  · cases v with
    | zero => exact List.nil_prefix
    | succ v =>
        obtain rfl : last = dice := (dice_of_streak hlast).symm.trans same
        exact hlast
  · rintro (_ | k) ⟨d, h⟩
    · exact Nat.zero_le _
    · exact Nat.succ_le_succ (hmax ⟨d, (replicate_succ_prefix_cons.1 h).2⟩)

lemma of_other (other : (streakAfter own).1 ≠ dice) : IsLongestStreak ((dice, true) :: own) 1 := by
  refine ⟨⟨dice, replicate_succ_prefix_cons.2 ⟨⟨rfl, rfl⟩, List.nil_prefix⟩⟩, ?_⟩
  rintro (_ | _ | k) ⟨d, h⟩
  · exact Nat.zero_le _
  · exact le_rfl
  · obtain ⟨⟨rfl, -⟩, hrest⟩ := replicate_succ_prefix_cons.1 h
    exact absurd (dice_of_streak hrest) other

end IsLongestStreak

/-- **The streak in a record is the longest streak of its player.** -/
theorem isLongestStreak_streakAfter (own : List (ℤ × Bool)) :
    ∃ v : ℕ, (streakAfter own).2 = v ∧ IsLongestStreak own v := by
  induction own with
  | nil => exact ⟨0, rfl, .nil⟩
  | cons u own ih =>
      obtain ⟨dice, isWin⟩ := u
      obtain ⟨v, hv, longest⟩ := ih
      cases isWin with
      | false => exact ⟨0, rfl, .of_loss⟩
      | true =>
          by_cases same : (streakAfter own).1 = dice
          · exact ⟨v + 1, by simp [streakBy, same, hv], longest.of_same same⟩
          · exact ⟨1, by simp [streakBy, same], .of_other same⟩

lemma isLongestStreak_replicate (dice : ℤ) (k : ℕ) :
    IsLongestStreak (List.replicate k (dice, true)) k := by
  refine ⟨⟨dice, List.prefix_rfl⟩, ?_⟩
  rintro j ⟨d, h⟩
  simpa only [List.length_replicate] using h.length_le

/-! ## Streaks on 32 bits -/

/-- More wins with one dice in a row than an `int` can count. -/
def Overflows (own : List (ℤ × Bool)) : Prop :=
  ∃ dice, List.replicate (2 ^ 31) (dice, true) <:+: own

lemma not_overflows_of_length {own : List (ℤ × Bool)} (short : own.length < 2 ^ 31) :
    ¬Overflows own := by
  rintro ⟨dice, h⟩
  have hlen := h.length_le
  rw [List.length_replicate] at hlen
  exact absurd short (Nat.not_lt.2 hlen)

lemma IsLongestStreak.lt {own : List (ℤ × Bool)} {v : ℕ} (longest : IsLongestStreak own v)
    (counted : ¬Overflows own) : v < 2 ^ 31 := by
  by_contra hge
  obtain ⟨⟨dice, h⟩, -⟩ := longest
  have shorter : List.replicate (2 ^ 31) (dice, true) <+: List.replicate v (dice, true) := by
    rw [List.prefix_replicate_iff, List.length_replicate]
    exact ⟨Nat.not_lt.1 hge, rfl⟩
  exact counted ⟨dice, (shorter.trans h).isInfix⟩

/-- An `int` counts modulo `2 ^ 32`. -/
lemma streakBy_incrementInt (own : List (ℤ × Bool)) :
    streakBy incrementInt own =
      ((streakAfter own).1, (streakAfter own).2.bmod (2 ^ 32)) := by
  induction own with
  | nil => rfl
  | cons u own ih =>
      obtain ⟨dice, isWin⟩ := u
      rw [streakBy, ih]
      cases isWin with
      | false => rfl
      | true =>
          by_cases same : (streakAfter own).1 = dice
          · simp only [streakBy, same, if_true, incrementInt, Int.bmod_add_bmod]
          · simp only [streakBy, same, if_true, if_false]
            rfl

/-- Without an overflow, it is exact. -/
lemma streakBy_incrementInt_of_counted {own : List (ℤ × Bool)} (counted : ¬Overflows own) :
    ∃ v : ℕ, (streakBy incrementInt own).2 = v ∧ IsLongestStreak own v := by
  obtain ⟨v, hv, longest⟩ := isLongestStreak_streakAfter own
  have small : (v : ℤ) < 2 ^ 31 := by exact_mod_cast longest.lt counted
  refine ⟨v, ?_, longest⟩
  simp only [streakBy_incrementInt, hv]
  refine Int.bmod_eq_of_le ?_ ?_
  · push_cast
    omega
  · push_cast
    omega

/-! ## Sequences of calls -/

/-- The arguments of a call of `gamestate_update_streak`. -/
structure StreakCall where
  name : Buffer maxPlayerName
  currentDice : ℤ
  isWin : Bool

namespace StreakCall

/-- A name of 1 to 31 characters, and a dice. -/
def Valid (call : StreakCall) : Prop :=
  Proper call.name ∧ 1 ≤ call.currentDice ∧ call.currentDice ≤ 6

/-- The call: its return value, and the state afterwards. -/
def run (call : StreakCall) (shm : GameSharedData) : ℤ × GameSharedData :=
  gamestateUpdateStreakInt call.name call.currentDice call.isWin shm

/-- The string the call looks for. -/
abbrev key (call : StreakCall) : List UInt8 := call.name.cstr

end StreakCall

/-- The state after calls, given newest first. -/
def afterCalls (shm : GameSharedData) : List StreakCall → GameSharedData
  | [] => shm
  | call :: calls => (call.run (afterCalls shm calls)).2

/-- What the calls of a name have told about it. -/
def ownCalls (name : List UInt8) (calls : List StreakCall) : List (ℤ × Bool) :=
  (calls.filter fun call => call.key = name).map fun call => (call.currentDice, call.isWin)

/-- The first hundred distinct names seen. -/
def firstNames (calls : List StreakCall) : List (List UInt8) :=
  (seen (calls.map StreakCall.key)).take maxTrackedPlayers

/-- How the table is laid out: the used slots come first, no two of them hold one name, and every
name ends within its 32 bytes. -/
structure PlayerTable.LaidOut (t : PlayerTable) : Prop where
  initial : ∃ used, ∀ (i : ℕ) (p : PlayerHistory), t.slots[i]? = some p →
    (p.isFree = false ↔ i < used)
  distinct : ∀ (i j : ℕ) (p q : PlayerHistory), t.slots[i]? = some p → t.slots[j]? = some q →
    p.isFree = false → q.isFree = false → p.name.cstr = q.name.cstr → i = j
  terminated : ∀ p ∈ t.slots, (0 : UInt8) ∈ p.name.bytes

/-! ## The table as a map -/

/-- The table holds the records of the first hundred names, in the order of their first calls. -/
structure PlayerTable.Remembers (t : PlayerTable) (calls : List StreakCall) : Prop where
  filled : Filled PlayerHistory.key (seen (calls.map StreakCall.key)) t.slots
  tells : ∀ name ∈ firstNames calls, t.TellsBy incrementInt name (ownCalls name calls)
  terminated : t.Terminated

section Remembers

variable {shm : GameSharedData} {call : StreakCall} {calls : List StreakCall} {t : PlayerTable}
  {name : List UInt8}

lemma ownCalls_cons_self : ownCalls call.key (call :: calls) =
    (call.currentDice, call.isWin) :: ownCalls call.key calls := by
  simp [ownCalls]

lemma ownCalls_cons_of_ne (hne : name ≠ call.key) :
    ownCalls name (call :: calls) = ownCalls name calls := by
  simp [ownCalls, hne.symm]

lemma ownCalls_of_unseen (unseen : name ∉ seen (calls.map StreakCall.key)) :
    ownCalls name calls = [] := by
  rw [mem_seen] at unseen
  rw [ownCalls, List.map_eq_nil_iff, List.filter_eq_nil_iff]
  intro call hcall
  have hne : call.key ≠ name := fun h => unseen (h ▸ List.mem_map_of_mem hcall)
  simpa using hne

lemma PlayerTable.Remembers.zero : PlayerTable.zero.Remembers [] where
  filled := by
    rw [Filled, PlayerTable.zero, List.map_replicate, List.length_replicate]
    rfl
  tells := nofun
  terminated := .zero

lemma PlayerTable.Remembers.recordOf_iff (remembers : t.Remembers calls) :
    (t.recordOf name).isSome ↔ name ∈ firstNames calls := by
  rw [firstNames, ← t.size_eq]
  exact remembers.filled.mem_iff

/-- A name has a slot, or gets one, exactly if it is one of the first hundred. -/
lemma PlayerTable.Remembers.hasRoom_iff (remembers : t.Remembers calls) :
    t.hasRoom call.name = true ↔ call.key ∈ firstNames (call :: calls) := by
  rw [PlayerTable.hasRoom_eq, Bool.or_eq_true, remembers.recordOf_iff, remembers.filled.free_iff,
    t.size_eq]
  exact mem_take_seen_cons_self.symm

/-- What the table tells of a name before its next call; of a new name, nothing. -/
lemma PlayerTable.Remembers.tells_self (remembers : t.Remembers calls)
    (room : call.key ∈ firstNames (call :: calls)) :
    t.TellsBy incrementInt call.key (ownCalls call.key calls) := by
  by_cases old : call.key ∈ firstNames calls
  · exact remembers.tells _ old
  · have fewer := (mem_take_seen_cons_self.1 room).resolve_left old
    have unseen : call.key ∉ seen (calls.map StreakCall.key) := by
      rwa [firstNames, List.take_of_length_le fewer.le] at old
    have unrecorded : t.recordOf call.key = none :=
      Option.not_isSome_iff_eq_none.1 (mt remembers.recordOf_iff.1 old)
    rw [PlayerTable.TellsBy, unrecorded, ownCalls_of_unseen unseen]
    rfl

/-- A call is remembered. -/
theorem PlayerTable.Remembers.run (remembers : shm.players.Remembers calls)
    (proper : Proper call.name) : (call.run shm).2.players.Remembers (call :: calls) where
  filled := by
    rw [StreakCall.run, (updateStreak_eq _ _ _ _ _).2]
    exact remembers.filled.upsert key_record fun p hp _ =>
      key_claim proper (remembers.terminated p hp)
  tells := by
    intro name hname
    by_cases hself : name = call.key
    · subst hself
      rw [ownCalls_cons_self]
      exact ((remembers.tells_self hname).updateStreak remembers.terminated proper
        (remembers.hasRoom_iff.2 hname)).1
    · rw [ownCalls_cons_of_ne hself, PlayerTable.TellsBy, StreakCall.run,
        recordOf_updateStreak_of_ne hself remembers.terminated proper]
      exact remembers.tells name ((mem_take_seen_cons_of_ne hself).1 hname)
  terminated := remembers.terminated.updateStreak

lemma PlayerTable.Remembers.run_fst (remembers : shm.players.Remembers calls)
    (proper : Proper call.name) :
    (call.run shm).1 =
      if call.key ∈ firstNames (call :: calls) then
        (streakBy incrementInt (ownCalls call.key (call :: calls))).2
      else 0 := by
  split_ifs with hname
  · rw [ownCalls_cons_self]
    exact ((remembers.tells_self hname).updateStreak remembers.terminated proper
      (remembers.hasRoom_iff.2 hname)).2
  · exact updateStreak_of_full (Bool.eq_false_iff.2 (mt remembers.hasRoom_iff.1 hname))

lemma PlayerHistory.isFree_eq_false_iff (p : PlayerHistory) :
    p.isFree = false ↔ p.key = some p.name.cstr := by
  rw [PlayerHistory.key]
  cases p.isFree <;> simp

lemma PlayerTable.Remembers.laidOut (remembers : t.Remembers calls) : t.LaidOut where
  initial := by
    refine ⟨(seen (calls.map StreakCall.key)).length, fun i p hp => ?_⟩
    have hkey := remembers.filled.key_eq hp
    have hfree : p.isFree = false ↔ p.key.isSome := by
      rw [PlayerHistory.key]
      cases p.isFree <;> simp
    rw [hfree, hkey]
    simp
  distinct i j p q hp hq hpfree hqfree hname := by
    have hpkey := (remembers.filled.key_eq hp).symm.trans ((p.isFree_eq_false_iff).1 hpfree)
    have hqkey := (remembers.filled.key_eq hq).symm.trans ((q.isFree_eq_false_iff).1 hqfree)
    have hi : i < (seen (calls.map StreakCall.key)).length :=
      (List.getElem?_eq_some_iff.1 hpkey).1
    exact (List.getElem?_inj hi (nodup_seen _)).1 (hpkey.trans (hname ▸ hqkey.symm))
  terminated p hp := by
    have hlast := remembers.terminated p hp
    exact List.mem_of_mem_drop (hlast ▸ List.mem_singleton_self 0)

/-- After any valid calls the table remembers them. -/
theorem remembers_afterCalls (zeroed : shm.players = .zero)
    (valid : ∀ call ∈ calls, call.Valid) : (afterCalls shm calls).players.Remembers calls := by
  induction calls with
  | nil =>
      rw [afterCalls, zeroed]
      exact .zero
  | cons call calls ih =>
      obtain ⟨hcall, hcalls⟩ := List.forall_mem_cons.1 valid
      exact (ih hcalls).run hcall.1

/-- **The streak table refines a map from players to what they did.**  After any calls with names
of 1 to 31 characters and dice from 1 to 6, on a table that was zeroed: the table is laid out from
the first slot on; the next call returns the longest streak that its player's calls end with, if
the name is one of the first hundred seen and has never won `2 ^ 31` times in a row, and 0 if it is
a later name; and it changes no slot but its own. -/
theorem streakTable_refines (zeroed : shm.players = .zero)
    (valid : ∀ earlier ∈ calls, earlier.Valid) :
    (afterCalls shm calls).players.LaidOut ∧
    (call.Valid →
      (call.key ∈ firstNames (call :: calls) → ¬Overflows (ownCalls call.key (call :: calls)) →
        ∃ v : ℕ, (call.run (afterCalls shm calls)).1 = v ∧
          IsLongestStreak (ownCalls call.key (call :: calls)) v) ∧
      (call.key ∉ firstNames (call :: calls) → (call.run (afterCalls shm calls)).1 = 0) ∧
      ∀ (i : ℕ) (p : PlayerHistory),
        (call.run (afterCalls shm calls)).2.players.slots[i]? = some p →
        p.key = some call.key ∨ (afterCalls shm calls).players.slots[i]? = some p) := by
  have remembers := remembers_afterCalls zeroed valid
  refine ⟨remembers.laidOut,
    fun hcall => ⟨fun hname counted => ?_, fun hname => ?_, fun i p hp => ?_⟩⟩
  · rw [remembers.run_fst hcall.1, if_pos hname]
    exact streakBy_incrementInt_of_counted counted
  · rw [remembers.run_fst hcall.1, if_neg hname]
  · rw [StreakCall.run, (updateStreak_eq _ _ _ _ _).2] at hp
    exact getElem?_upsert key_record
      (fun q hq _ => key_claim hcall.1 (remembers.terminated q hq)) hp

end Remembers

/-- A call for the player with a name of one letter. -/
def letterCall (letter : UInt8) (currentDice : ℤ) (isWin : Bool) : StreakCall :=
  ⟨(Buffer.zero _).write [letter], currentDice, isWin⟩

/-- The first player loses and wins with dice 3, with a win of another player in between. -/
def mixedCalls : List StreakCall :=
  [letterCall 97 3 true, letterCall 98 3 true, letterCall 97 3 false]

lemma mixedCalls_valid : ∀ earlier ∈ mixedCalls, earlier.Valid := by
  simp only [mixedCalls, List.forall_mem_cons, StreakCall.Valid, Proper]
  decide +kernel

lemma letterCall_valid : (letterCall 97 3 true).Valid := by
  rw [StreakCall.Valid, Proper]
  decide +kernel

/-- One more win makes two in a row. -/
theorem streakTable_refines_mixed :
    ∃ v : ℕ, ((letterCall 97 3 true).run (afterCalls gamestateInit mixedCalls)).1 = v ∧
      IsLongestStreak
        (ownCalls (letterCall 97 3 true).key (letterCall 97 3 true :: mixedCalls)) v :=
  ((streakTable_refines rfl mixedCalls_valid).2 letterCall_valid).1 (by decide +kernel)
    (not_overflows_of_length (by decide +kernel))

/-! ## A streak too long -/

lemma ownCalls_replicate (call : StreakCall) (k : ℕ) :
    ownCalls call.key (List.replicate k call) =
      List.replicate k (call.currentDice, call.isWin) := by
  simp [ownCalls]

lemma first_of_replicate {call : StreakCall} (k : ℕ) :
    call.key ∈ firstNames (call :: List.replicate k call) := by
  rw [firstNames, List.map_cons, mem_take_seen_cons_self]
  induction k with
  | zero =>
      rw [List.replicate_zero, List.map_nil]
      exact Or.inr (by decide)
  | succ k ih =>
      rw [List.replicate_succ, List.map_cons, mem_take_seen_cons_self]
      exact Or.inl ih

lemma run_replicate {call : StreakCall} (valid : call.Valid) (win : call.isWin = true) (k : ℕ) :
    (call.run (afterCalls gamestateInit (List.replicate k call))).1 =
      ((k + 1 : ℕ) : ℤ).bmod (2 ^ 32) := by
  have remembers : (afterCalls gamestateInit (List.replicate k call)).players.Remembers
      (List.replicate k call) :=
    remembers_afterCalls rfl fun earlier h => (List.eq_of_mem_replicate h) ▸ valid
  obtain ⟨v, hv, longest⟩ :=
    isLongestStreak_streakAfter (ownCalls call.key (call :: List.replicate k call))
  rw [remembers.run_fst valid.1, if_pos (first_of_replicate k), streakBy_incrementInt, hv]
  rw [← List.replicate_succ, ownCalls_replicate, win] at longest
  rw [longest.unique (isLongestStreak_replicate _ _)]

/-- **A streak of `2 ^ 31` wins is told as a negative number.** -/
theorem streakTable_overflows :
    (∀ earlier ∈ List.replicate (2 ^ 31 - 1) (letterCall 97 3 true), earlier.Valid) ∧
    (letterCall 97 3 true).Valid ∧
    IsLongestStreak (ownCalls (letterCall 97 3 true).key
      (letterCall 97 3 true :: List.replicate (2 ^ 31 - 1) (letterCall 97 3 true))) (2 ^ 31) ∧
    ((letterCall 97 3 true).run (afterCalls gamestateInit
      (List.replicate (2 ^ 31 - 1) (letterCall 97 3 true)))).1 = -2 ^ 31 := by
  refine ⟨fun earlier h => (List.eq_of_mem_replicate h) ▸ letterCall_valid, letterCall_valid,
    ?_, ?_⟩
  · rw [← List.replicate_succ, ownCalls_replicate]
    exact isLongestStreak_replicate 3 (2 ^ 31)
  · rw [run_replicate letterCall_valid rfl]
    rfl

end WorldBossRaid
