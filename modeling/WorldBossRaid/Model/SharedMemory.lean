import WorldBossRaid.Framework.Mutex
import WorldBossRaid.Model.Server

/-!
# The code of the critical sections (`src/server/logic/gamestate.c`)

`GameState` gives each function of the file as one step on the shared memory.  Here they are as
the source has them: the mutex is taken, fields are read and written one after the other, and the
mutex is released.  A field is an `int`, a flag, a stage or a whole name, so `strncpy` on a name
reads and writes it once.

`gamestateLocking` puts this code in place of the operations of `raid`.
-/

namespace WorldBossRaid

open Bytes Interaction

/-! ## Fields -/

/-- The fields of `GameSharedData`. -/
inductive ShmField where
  | currentHp
  | maxHp
  | stage
  | onlineCount
  | isRespawning
  | lastKiller
  | hasLuckyKillEvent
  | luckyKillTimestamp
  | name (i : Fin maxTrackedPlayers)
  | lastDice (i : Fin maxTrackedPlayers)
  | streakCount (i : Fin maxTrackedPlayers)
  deriving DecidableEq

/-- Their types. -/
abbrev ShmField.Val : ShmField → Type
  | currentHp => ℤ
  | maxHp => ℤ
  | stage => BossStage
  | onlineCount => ℤ
  | isRespawning => Bool
  | lastKiller => Buffer maxPlayerName
  | hasLuckyKillEvent => Bool
  | luckyKillTimestamp => ℤ
  | name _ => Buffer 32
  | lastDice _ => ℤ
  | streakCount _ => ℤ

lemma PlayerTable.lt_size (t : PlayerTable) (i : Fin maxTrackedPlayers) : i < t.slots.length := by
  rw [t.size_eq]
  exact i.isLt

/-- `players[i]`. -/
def PlayerTable.slot (t : PlayerTable) (i : Fin maxTrackedPlayers) : PlayerHistory :=
  t.slots.get ⟨i, t.lt_size i⟩

/-- Read a field. -/
def GameSharedData.get (s : GameSharedData) : (f : ShmField) → f.Val
  | .currentHp => s.currentHp
  | .maxHp => s.maxHp
  | .stage => s.stage
  | .onlineCount => s.onlineCount
  | .isRespawning => s.isRespawning
  | .lastKiller => s.lastKiller
  | .hasLuckyKillEvent => s.hasLuckyKillEvent
  | .luckyKillTimestamp => s.luckyKillTimestamp
  | .name i => (s.players.slot i).name
  | .lastDice i => (s.players.slot i).lastDice
  | .streakCount i => (s.players.slot i).streakCount

/-- Rewrite one slot of the players' table. -/
def GameSharedData.modifySlot (s : GameSharedData) (i : ℕ) (f : PlayerHistory → PlayerHistory) :
    GameSharedData :=
  { s with players := s.players.modifySlot i f }

/-- Write a field. -/
def GameSharedData.set (s : GameSharedData) : (f : ShmField) → f.Val → GameSharedData
  | .currentHp, v => { s with currentHp := v }
  | .maxHp, v => { s with maxHp := v }
  | .stage, v => { s with stage := v }
  | .onlineCount, v => { s with onlineCount := v }
  | .isRespawning, v => { s with isRespawning := v }
  | .lastKiller, v => { s with lastKiller := v }
  | .hasLuckyKillEvent, v => { s with hasLuckyKillEvent := v }
  | .luckyKillTimestamp, v => { s with luckyKillTimestamp := v }
  | .name i, v => s.modifySlot i fun p => { p with name := v }
  | .lastDice i, v => s.modifySlot i fun p => { p with lastDice := v }
  | .streakCount i, v => s.modifySlot i fun p => { p with streakCount := v }

/-- All fields of `players[i]`. -/
def ShmField.ofSlot (i : Fin maxTrackedPlayers) : List ShmField :=
  [.name i, .lastDice i, .streakCount i]

/-- All fields. -/
def ShmField.all : List ShmField :=
  [.currentHp, .maxHp, .stage, .onlineCount, .isRespawning, .lastKiller, .hasLuckyKillEvent,
    .luckyKillTimestamp] ++ (List.finRange maxTrackedPlayers).flatMap ShmField.ofSlot

/-! ## Code -/

/-- The pieces of a critical section. -/
inductive ShmAccess where
  | read (f : ShmField)
  | write (f : ShmField) (v : f.Val)
  /-- `time(NULL)` inside the lock. -/
  | time

/-- Their answers. -/
abbrev ShmAccess.Answer : ShmAccess → Type
  | read f => f.Val
  | write _ _ => Unit
  | time => ℤ

/-- Their effect. -/
def ShmAccess.exec (e : RaidEnv) : (a : ShmAccess) → GameSharedData → a.Answer × GameSharedData
  | .read f, s => (s.get f, s)
  | .write f v, s => ((), s.set f v)
  | .time, s => (e.now, s)

namespace SharedMemory

/-- The code of a worker, access by access. -/
abbrev Code (α : Type) : Type :=
  Prog (LockOp WorkerOp ShmAccess) (LockOp.Ret WorkerOp.Ret ShmAccess.Answer) α

abbrev perform (o : LockOp WorkerOp ShmAccess) :
    Code (LockOp.Ret WorkerOp.Ret ShmAccess.Answer o) := Prog.perform o

/-- `pthread_mutex_lock(&shm->lock)`. -/
abbrev lock : Code Unit := perform .acquire

/-- `pthread_mutex_unlock(&shm->lock)`. -/
abbrev unlock : Code Unit := perform .release

abbrev read (f : ShmField) : Code f.Val := perform (.access (.read f))

abbrev write (f : ShmField) (v : f.Val) : Code Unit := perform (.access (.write f v))

abbrev time : Code ℤ := perform (.access .time)

/-- `gamestate_player_join`. -/
def gamestatePlayerJoin : Code ℤ := do
  lock
  let onlineCount ← read .onlineCount
  write .onlineCount (onlineCount + 1)
  let count ← read .onlineCount
  unlock
  return count

/-- `gamestate_player_leave`. -/
def gamestatePlayerLeave : Code Unit := do
  lock
  let onlineCount ← read .onlineCount
  if onlineCount > 0 then
    let onlineCount ← read .onlineCount
    write .onlineCount (onlineCount - 1)
  unlock

/-- The structure assignment of `gamestate_get_snapshot`, field by field. -/
def copyFields : List ShmField → GameSharedData → Code GameSharedData
  | [], out => return out
  | f :: fs, out => do
      let v ← read f
      copyFields fs (out.set f v)

/-- `gamestate_get_snapshot`; `outData` is what the caller's structure held before. -/
def gamestateGetSnapshot (outData : GameSharedData) : Code GameSharedData := do
  lock
  let out ← copyFields ShmField.all outData
  unlock
  return out

/-- Step 1 of `gamestate_apply_damage`; the stage is only read if the boss is not respawning. -/
def isInert : Code Bool := do
  let isRespawning ← read .isRespawning
  if isRespawning then
    return true
  else
    let stage ← read .stage
    return stage == .dead

/-- The rest of step 3 of `gamestate_apply_damage`, once the hit points are used up. -/
def kill (attackerName : Buffer maxPlayerName) : Code Bool := do
  write .currentHp 0
  let isRespawning ← read .isRespawning
  if isRespawning then
    return false
  else
    write .isRespawning true
    let lastKiller ← read .lastKiller
    write .lastKiller (lastKiller.strncpy attackerName 31 nameCopy_fits)
    return true

/-- Steps 2 and 3 of `gamestate_apply_damage`: did this hit kill the boss? -/
def hit (damage : ℤ) (attackerName : Buffer maxPlayerName) : Code Bool := do
  let currentHp ← read .currentHp
  write .currentHp (currentHp - damage)
  let currentHp ← read .currentHp
  if currentHp ≤ 0 then kill attackerName else return false

/-- `gamestate_apply_damage`. -/
def gamestateApplyDamage (damage : ℤ) (attackerName : Buffer maxPlayerName) : Code Bool := do
  lock
  let inert ← isInert
  if inert then
    unlock
    return false
  else
    let justKilled ← hit damage attackerName
    unlock
    return justKilled

/-- The first half of `gamestate_spawn_next_boss`. -/
def switchBoss : Code Unit := do
  let stage ← read .stage
  if stage = .stage1 then
    write .stage .stage2
    write .maxHp boss2MaxHp
    write .currentHp boss2MaxHp
  else
    write .stage .dead
    write .currentHp 0

/-- `gamestate_spawn_next_boss`. -/
def gamestateSpawnNextBoss : Code Unit := do
  lock
  switchBoss
  write .isRespawning false
  let stage ← read .stage
  if stage = .stage2 then
    write .lastKiller (.zero _)
  unlock

/-- Step 1 of `gamestate_update_streak`: the slot that holds `name`, among `slots`. -/
def searchPlayer (name : Buffer maxPlayerName) :
    List (Fin maxTrackedPlayers) → Code (Option (Fin maxTrackedPlayers))
  | [] => return none
  | i :: slots => do
      let slotName ← read (.name i)
      if slotName.bytes.head? == some 0 then
        searchPlayer name slots
      else
        let slotName ← read (.name i)
        if slotName.sameString name then return some i else searchPlayer name slots

/-- Step 2: the first unused slot among `slots`, taken over for `name`. -/
def claimSlot (name : Buffer maxPlayerName) :
    List (Fin maxTrackedPlayers) → Code (Option (Fin maxTrackedPlayers))
  | [] => return none
  | i :: slots => do
      let slotName ← read (.name i)
      if slotName.bytes.head? == some 0 then
        let slotName ← read (.name i)
        write (.name i) (slotName.strncpy name 31 nameCopy_fits)
        write (.streakCount i) 0
        write (.lastDice i) 0
        return some i
      else
        claimSlot name slots

/-- Steps 1 and 2: `slot_index`, if it is not -1. -/
def findSlot (name : Buffer maxPlayerName) : Code (Option (Fin maxTrackedPlayers)) := do
  let known ← searchPlayer name (List.finRange _)
  match known with
  | some i => return some i
  | none => claimSlot name (List.finRange _)

/-- The new `streak_count` of step 3. -/
def countWin (i : Fin maxTrackedPlayers) (currentDice : ℤ) (isWin : Bool) : Code Unit := do
  if isWin then
    let lastDice ← read (.lastDice i)
    if lastDice = currentDice then
      let streakCount ← read (.streakCount i)
      write (.streakCount i) (streakCount + 1)
    else
      write (.streakCount i) 1
  else
    write (.streakCount i) 0

/-- Step 3. -/
def recordStreak (currentDice : ℤ) (isWin : Bool) : Option (Fin maxTrackedPlayers) → Code ℤ
  | some i => do
      countWin i currentDice isWin
      write (.lastDice i) currentDice
      let streak ← read (.streakCount i)
      return streak
  | none => return 0

/-- `gamestate_update_streak`. -/
def gamestateUpdateStreak (name : Buffer maxPlayerName) (currentDice : ℤ) (isWin : Bool) :
    Code ℤ := do
  lock
  let slotIndex ← findSlot name
  let streak ← recordStreak currentDice isWin slotIndex
  unlock
  return streak

/-- `gamestate_mark_lucky_kill`. -/
def gamestateMarkLuckyKill : Code Unit := do
  lock
  write .hasLuckyKillEvent true
  let now ← time
  write .luckyKillTimestamp now
  unlock

/-- `gamestate_clear_lucky_kill`. -/
def gamestateClearLuckyKill : Code Unit := do
  lock
  write .hasLuckyKillEvent false
  write .luckyKillTimestamp 0
  unlock

/-- The code of an operation. -/
def code (outData : GameSharedData) : (o : GameOp) → Code o.Ret
  | .playerJoin => gamestatePlayerJoin
  | .playerLeave => gamestatePlayerLeave
  | .getSnapshot => gamestateGetSnapshot outData
  | .applyDamage damage attackerName => gamestateApplyDamage damage attackerName
  | .spawnNextBoss => gamestateSpawnNextBoss
  | .updateStreak name currentDice isWin => gamestateUpdateStreak name currentDice isWin
  | .markLuckyKill => gamestateMarkLuckyKill
  | .clearLuckyKill => gamestateClearLuckyKill

/-- Only the operations of the game state have a section. -/
def body (outData : GameSharedData) : (o : WorkerOp) → Option (Code o.Ret)
  | .game o => some (code outData o)
  | .rand => none
  | .time => none
  | .recv _ => none
  | .send _ => none
  | .tlsShutdown => none
  | .mark _ => none

end SharedMemory

end WorldBossRaid
