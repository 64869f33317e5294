import WorldBossRaid.Model.Protocol

/-!
# The shared game state (`src/server/logic/gamestate.c`)

One `GameSharedData` lies in memory that all worker processes share.  Every function of this file
takes the lock, works on it, and releases the lock, so each is a function from the state before to
the state after, with its return value.  `time(NULL)` is an argument where the source reads the
clock inside the lock.

`GameOp` collects these critical sections as operations a worker issues, `GameOp.Ret` their return
types, and `GameOp.exec` their effect.
-/

namespace WorldBossRaid

open Bytes

/-! ## Data -/

/-- `BossStage`. -/
inductive BossStage where
  | stage1 | stage2 | dead
  deriving DecidableEq, Repr

/-- The value of the C enumerator, as `(uint8_t)stage` puts it on the wire. -/
def BossStage.code : BossStage → UInt8
  | stage1 => 0
  | stage2 => 1
  | dead => 2

/-- `BOSS_1_MAX_HP`. -/
def boss1MaxHp : ℤ := 1000

/-- `BOSS_2_MAX_HP`. -/
def boss2MaxHp : ℤ := 2000

/-- `MAX_TRACKED_PLAYERS`. -/
def maxTrackedPlayers : ℕ := 100

/-- `PlayerHistory`. -/
structure PlayerHistory where
  name : Buffer 32
  lastDice : ℤ
  streakCount : ℤ
  deriving DecidableEq

/-- An unused slot: `name[0] == '\0'`. -/
def PlayerHistory.isFree (p : PlayerHistory) : Bool := p.name.bytes.head? == some 0

/-- `players[MAX_TRACKED_PLAYERS]`. -/
structure PlayerTable where
  slots : List PlayerHistory
  size_eq : slots.length = maxTrackedPlayers
  deriving DecidableEq

/-- The table after `memset(shm->players, 0, ..)`. -/
def PlayerTable.zero : PlayerTable where
  slots := List.replicate maxTrackedPlayers ⟨.zero 32, 0, 0⟩
  size_eq := List.length_replicate

/-- Rewrite one slot. -/
def PlayerTable.modifySlot (t : PlayerTable) (i : ℕ) (f : PlayerHistory → PlayerHistory) :
    PlayerTable where
  slots := t.slots.modify i f
  size_eq := by rw [List.length_modify, t.size_eq]

/-- `GameSharedData`, without its mutex. -/
structure GameSharedData where
  currentHp : ℤ
  maxHp : ℤ
  stage : BossStage
  onlineCount : ℤ
  isRespawning : Bool
  lastKiller : Buffer maxPlayerName
  hasLuckyKillEvent : Bool
  luckyKillTimestamp : ℤ
  players : PlayerTable
  deriving DecidableEq

/-- The state that `gamestate_init` leaves. -/
def gamestateInit : GameSharedData where
  currentHp := boss1MaxHp
  maxHp := boss1MaxHp
  stage := .stage1
  onlineCount := 0
  isRespawning := false
  lastKiller := .zero _
  hasLuckyKillEvent := false
  luckyKillTimestamp := 0
  players := .zero

/-! ## Players -/

/-- `gamestate_player_join`. -/
def gamestatePlayerJoin (shm : GameSharedData) : ℤ × GameSharedData :=
  (shm.onlineCount + 1, { shm with onlineCount := shm.onlineCount + 1 })

/-- `gamestate_player_leave`. -/
def gamestatePlayerLeave (shm : GameSharedData) : GameSharedData :=
  if shm.onlineCount > 0 then { shm with onlineCount := shm.onlineCount - 1 } else shm

/-! ## The boss -/

/-- The guard of `gamestate_apply_damage`, which `game_process_attack` also tests on its
snapshot: no boss can be hit while the next one is being prepared or after the last one. -/
def GameSharedData.inert (shm : GameSharedData) : Bool :=
  shm.isRespawning || shm.stage == .dead

/-- `gamestate_apply_damage`; the result says whether this hit killed the boss. -/
def gamestateApplyDamage (damage : ℤ) (attackerName : Buffer maxPlayerName)
    (shm : GameSharedData) : Bool × GameSharedData :=
  if shm.inert then
    (false, shm)
  else
    let hp := shm.currentHp - damage
    if hp ≤ 0 then
      -- the inner test of `is_respawning` is the guard again, so it always succeeds here
      (true, { shm with
        currentHp := 0
        isRespawning := true
        lastKiller := shm.lastKiller.strncpy attackerName 31 nameCopy_fits })
    else
      (false, { shm with currentHp := hp })

/-- `gamestate_spawn_next_boss`. -/
def gamestateSpawnNextBoss (shm : GameSharedData) : GameSharedData :=
  if shm.stage = .stage1 then
    -- the second boss appears; only now is `last_killer` cleared
    { shm with
      stage := .stage2
      maxHp := boss2MaxHp
      currentHp := boss2MaxHp
      isRespawning := false
      lastKiller := .zero _ }
  else
    { shm with
      stage := .dead
      currentHp := 0
      isRespawning := false }

/-! ## Streaks -/

/-- The slot that holds `name`, if there is one. -/
def PlayerTable.find (t : PlayerTable) (name : Buffer maxPlayerName) : Option ℕ :=
  t.slots.findIdx? fun p => !p.isFree && p.name.sameString name

/-- The first unused slot. -/
def PlayerTable.firstFree (t : PlayerTable) : Option ℕ := t.slots.findIdx? (·.isFree)

/-- Step 3 of `gamestate_update_streak`, on one slot, where `increment` is what `streak_count++`
does to a count. -/
def PlayerHistory.recordBy (increment : ℤ → ℤ) (currentDice : ℤ) (isWin : Bool)
    (p : PlayerHistory) : PlayerHistory where
  name := p.name
  lastDice := currentDice
  streakCount :=
    if isWin then if p.lastDice = currentDice then increment p.streakCount else 1 else 0

/-- The same while the count is no `INT_MAX`. -/
abbrev PlayerHistory.record (currentDice : ℤ) (isWin : Bool) (p : PlayerHistory) : PlayerHistory :=
  p.recordBy (· + 1) currentDice isWin

/-- Step 2 of `gamestate_update_streak`: a free slot is taken over for `name`. -/
def PlayerHistory.claim (name : Buffer maxPlayerName) (p : PlayerHistory) : PlayerHistory where
  name := p.name.strncpy name 31 nameCopy_fits
  lastDice := 0
  streakCount := 0

/-- `streak_count` of slot `i`. -/
def PlayerTable.streakAt (t : PlayerTable) (i : ℕ) : ℤ := ((t.slots[i]?).map (·.streakCount)).getD 0

/-- `gamestate_update_streak`, with `increment` for `streak_count++`. -/
def gamestateUpdateStreakBy (increment : ℤ → ℤ) (name : Buffer maxPlayerName) (currentDice : ℤ)
    (isWin : Bool) (shm : GameSharedData) : ℤ × GameSharedData :=
  match shm.players.find name with
  | some i =>
      let players := shm.players.modifySlot i (·.recordBy increment currentDice isWin)
      (players.streakAt i, { shm with players })
  | none =>
    match shm.players.firstFree with
    | some i =>
        let players :=
          shm.players.modifySlot i fun p => (p.claim name).recordBy increment currentDice isWin
        (players.streakAt i, { shm with players })
    | none => (0, shm)

/-- `streak_count++` on an `int` of 32 bits, which goes round after `INT_MAX` (C leaves open what
happens there). -/
def incrementInt (n : ℤ) : ℤ := (n + 1).bmod (2 ^ 32)

/-- `gamestate_update_streak` on an `int` of 32 bits. -/
abbrev gamestateUpdateStreakInt (name : Buffer maxPlayerName) (currentDice : ℤ) (isWin : Bool)
    (shm : GameSharedData) : ℤ × GameSharedData :=
  gamestateUpdateStreakBy incrementInt name currentDice isWin shm

/-- `gamestate_update_streak` as long as no count comes to `INT_MAX`.  In a raid none does: see
`run_updateStreakInt`. -/
abbrev gamestateUpdateStreak (name : Buffer maxPlayerName) (currentDice : ℤ) (isWin : Bool)
    (shm : GameSharedData) : ℤ × GameSharedData :=
  gamestateUpdateStreakBy (· + 1) name currentDice isWin shm

/-! ## Lucky kills -/

/-- `gamestate_mark_lucky_kill`, at the clock reading `now`. -/
def gamestateMarkLuckyKill (now : ℤ) (shm : GameSharedData) : GameSharedData :=
  { shm with hasLuckyKillEvent := true, luckyKillTimestamp := now }

/-- `gamestate_clear_lucky_kill`. -/
def gamestateClearLuckyKill (shm : GameSharedData) : GameSharedData :=
  { shm with hasLuckyKillEvent := false, luckyKillTimestamp := 0 }

/-! ## What they leave alone -/

section Frame

variable (shm : GameSharedData) (damage currentDice : ℤ) (isWin : Bool)
  (name : Buffer maxPlayerName)

lemma gamestatePlayerLeave_frame :
    gamestatePlayerLeave shm =
      { shm with onlineCount := (gamestatePlayerLeave shm).onlineCount } := by
  unfold gamestatePlayerLeave
  split_ifs <;> rfl

lemma gamestateApplyDamage_frame :
    (gamestateApplyDamage damage name shm).2 =
      { shm with
        currentHp := (gamestateApplyDamage damage name shm).2.currentHp
        isRespawning := (gamestateApplyDamage damage name shm).2.isRespawning
        lastKiller := (gamestateApplyDamage damage name shm).2.lastKiller } := by
  unfold gamestateApplyDamage
  dsimp only
  split_ifs <;> rfl

lemma gamestateSpawnNextBoss_frame :
    gamestateSpawnNextBoss shm =
      { shm with
        stage := (gamestateSpawnNextBoss shm).stage
        maxHp := (gamestateSpawnNextBoss shm).maxHp
        currentHp := (gamestateSpawnNextBoss shm).currentHp
        isRespawning := (gamestateSpawnNextBoss shm).isRespawning
        lastKiller := (gamestateSpawnNextBoss shm).lastKiller } := by
  unfold gamestateSpawnNextBoss
  split_ifs <;> rfl

lemma gamestateUpdateStreak_frame :
    (gamestateUpdateStreak name currentDice isWin shm).2 =
      { shm with players := (gamestateUpdateStreak name currentDice isWin shm).2.players } := by
  unfold gamestateUpdateStreak gamestateUpdateStreakBy
  split
  · rfl
  · split <;> rfl

end Frame

/-! ## The critical sections as operations -/

/-- The critical sections of this file. -/
inductive GameOp where
  | playerJoin
  | playerLeave
  | getSnapshot
  | applyDamage (damage : ℤ) (attackerName : Buffer maxPlayerName)
  | spawnNextBoss
  | updateStreak (name : Buffer maxPlayerName) (currentDice : ℤ) (isWin : Bool)
  | markLuckyKill
  | clearLuckyKill
  deriving DecidableEq

/-- Their return types. -/
abbrev GameOp.Ret : GameOp → Type
  | playerJoin => ℤ
  | playerLeave => Unit
  | getSnapshot => GameSharedData
  | applyDamage _ _ => Bool
  | spawnNextBoss => Unit
  | updateStreak _ _ _ => ℤ
  | markLuckyKill => Unit
  | clearLuckyKill => Unit

/-- Their effect, when the clock reads `now`. -/
def GameOp.exec (now : ℤ) : (o : GameOp) → GameSharedData → o.Ret × GameSharedData
  | playerJoin, shm => gamestatePlayerJoin shm
  | playerLeave, shm => ((), gamestatePlayerLeave shm)
  | getSnapshot, shm => (shm, shm)
  | applyDamage damage name, shm => gamestateApplyDamage damage name shm
  | spawnNextBoss, shm => ((), gamestateSpawnNextBoss shm)
  | updateStreak name dice isWin, shm => gamestateUpdateStreak name dice isWin shm
  | markLuckyKill, shm => ((), gamestateMarkLuckyKill now shm)
  | clearLuckyKill, shm => ((), gamestateClearLuckyKill shm)

end WorldBossRaid
