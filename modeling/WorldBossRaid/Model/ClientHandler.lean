import WorldBossRaid.Model.Worker

/-!
# The worker's code (`dice.c`, `client_handler.c`)

`gameProcessAttack` is the battle of one attack; the handlers answer one packet each; and
`handleClient` is the whole session.  `handle_client` is cut at the head of its `while (1)`: the
program up to the loop and the loop body stop with the local variables the loop goes on with, or
with `none` where the process exits.

The local packet buffer is not among these variables: it is only ever read right after a receive
has filled it, so the buffer a receive leaves is the receive's answer.
-/

namespace WorldBossRaid

open Bytes Interaction

/-! ## `dice.c` -/

/-- `INSTANT_KILL_DAMAGE`. -/
def instantKillDamage : ℤ := 999999

/-- `(rand() % 6) + 1`. -/
def rollOf (roll : ℕ) : ℤ := (roll % 6 : ℕ) + 1

/-- The part of a reply that is copied from a snapshot.  Both reply builders overwrite all 32
bytes of `last_killer`, so its old content does not matter. -/
def PayloadGameState.ofSnapshot (snap : GameSharedData) : PayloadGameState :=
  { PayloadGameState.zero with
    bossHp := snap.currentHp
    maxHp := snap.maxHp
    onlineCount := snap.onlineCount
    stage := snap.stage.code
    isRespawning := if snap.isRespawning then 1 else 0
    lastKiller := PayloadGameState.zero.lastKiller.strncpy snap.lastKiller 32 (by decide) }

/-- The end of both winning branches: apply the damage, and switch bosses if it killed. -/
def strike (playerName : Buffer maxPlayerName) (result : AttackResult) : Worker AttackResult := do
  let killed ← Worker.game (.applyDamage result.dmgDealt playerName)
  if killed then
    Worker.game .spawnNextBoss
    return { result with bossJustDied := true }
  else
    return result

/-- The three branches of `game_process_attack`, once the boss has rolled: a lucky kill, a won and
a lost or drawn comparison of the dice. -/
def resolveAttack (playerDice : ℤ) (playerName : Buffer maxPlayerName) (bossDice : ℤ)
    (luckyRoll : ℕ) : Worker AttackResult := do
  let rolled := { AttackResult.zero with bossDice }
  if luckyRoll % 1000000 = 0 then
    Worker.game .markLuckyKill
    strike playerName { rolled with
      isWin := true
      isCrit := true
      isLuckyKill := true
      dmgDealt := instantKillDamage }
  else if playerDice > bossDice then
    let streak ← Worker.game (.updateStreak playerName playerDice true)
    strike playerName { rolled with
      isWin := true
      isCrit := playerDice = 6 ∨ streak ≥ 3
      currentStreak := streak
      dmgDealt :=
        if streak ≥ 3 then instantKillDamage
        else if playerDice = 6 then playerDice * 2 else playerDice }
  else
    let _ ← Worker.game (.updateStreak playerName playerDice false)
    return { rolled with dmgTaken := if playerDice < bossDice then bossDice + 10 else 0 }

/-- `game_process_attack`. -/
def gameProcessAttack (playerDice : ℤ) (playerName : Buffer maxPlayerName) :
    Worker (AttackResult × PayloadGameState) := do
  let current ← Worker.game .getSnapshot
  if current.inert then
    return (.zero, .ofSnapshot current)
  else
    let bossRoll ← Worker.rand
    let luckyRoll ← Worker.rand
    let result ← resolveAttack playerDice playerName (rollOf bossRoll) luckyRoll
    let current ← Worker.game .getSnapshot
    return (result, .ofSnapshot current)

/-! ## `client_handler.c` -/

/-- The local variables that live through the main loop. -/
structure ClientLocals where
  playerId : ℤ
  username : Buffer maxPlayerName
  /-- 0 until the first heartbeat. -/
  lastHeartbeat : ℤ
  rl : RateLimiter
  deriving DecidableEq

/-- `HEARTBEAT_TIMEOUT`. -/
def heartbeatTimeout : ℤ := 30

/-- `cleanup_client`. -/
def cleanupClient (playerId : ℤ) : Worker Unit := do
  Worker.tlsShutdown
  if playerId ≥ 0 then Worker.game .playerLeave else pure ()

/-- The two `cleanup_client` and `exit(0)` that end a session. -/
def closeClient (playerId : ℤ) : Worker (Option ClientLocals) := do
  cleanupClient playerId
  return none

/-- The copy `handle_join` makes of the name in the packet, into the zeroed array `username`. -/
def GamePacket.username (pkt : GamePacket) : Buffer maxPlayerName :=
  ((Buffer.zero maxPlayerName).strncpy pkt.joinUsername 31 nameCopy_fits).setByte 31 0

/-- `handle_join`: the new player's id, and whether the response was sent. -/
def handleJoin : Worker (ℤ × Bool) := do
  let playerId ← Worker.game .playerJoin
  let sent ← Worker.send (.joinResp ⟨playerId, 1⟩)
  return (playerId, sent)

/-- The reply to an attack: the snapshot with this battle's own figures. -/
def AttackResult.reply (result : AttackResult) (state : PayloadGameState) : PayloadGameState :=
  { state with
    isCrit := if result.isCrit then 1 else 0
    isLucky := if result.isLuckyKill then 1 else 0
    lastPlayerDamage := result.dmgDealt
    lastBossDice := result.bossDice
    lastPlayerStreak := result.currentStreak
    dmgTaken := result.dmgTaken }

/-- The dice of an attack: the one in the packet if it is one, else rolled by the server. -/
def attackDice (pkt : GamePacket) : Worker ℤ :=
  if pkt.attackDamage ≤ 0 ∨ pkt.attackDamage > 6 then do
    let roll ← Worker.rand
    return rollOf roll
  else
    return pkt.attackDamage

/-- `handle_attack`: whether the reply was sent. -/
def handleAttack (pkt : GamePacket) (playerName : Buffer maxPlayerName) : Worker Bool := do
  let playerDice ← attackDice pkt
  let (result, state) ← gameProcessAttack playerDice playerName
  Worker.mark (.attackReturned result state)
  Worker.send (.gameState (result.reply state))

/-- `is_lucky` of a heartbeat reply: a lucky kill is announced for five seconds and then
cleared. -/
def luckyEventFlag (snap : GameSharedData) : Worker UInt8 := do
  if snap.hasLuckyKillEvent then
    let now ← Worker.time
    if now - snap.luckyKillTimestamp > 5 then
      Worker.game .clearLuckyKill
      return 0
    else
      return 1
  else
    return 0

/-- The case `OP_HEARTBEAT`: the new `last_heartbeat`, and whether the reply was sent. -/
def handleHeartbeat : Worker (ℤ × Bool) := do
  let lastHeartbeat ← Worker.time
  let snap ← Worker.game .getSnapshot
  let isLucky ← luckyEventFlag snap
  let sent ← Worker.send (.gameState { PayloadGameState.ofSnapshot snap with isLucky })
  return (lastHeartbeat, sent)

/-- The `switch` on the opcode.  A second `OP_JOIN` passes the validation and falls into
`default`, which does nothing. -/
def dispatch (l : ClientLocals) (pkt : GamePacket) : Worker (Option ClientLocals) :=
  if pkt.header.opcode = OpCode.attack.code then do
    Worker.mark (.dispatched pkt)
    let sent ← handleAttack pkt l.username
    if sent then return some l else closeClient l.playerId
  else if pkt.header.opcode = OpCode.heartbeat.code then do
    Worker.mark (.dispatched pkt)
    let (lastHeartbeat, sent) ← handleHeartbeat
    if sent then return some { l with lastHeartbeat } else closeClient l.playerId
  else if pkt.header.opcode = OpCode.leave.code then do
    Worker.mark (.dispatched pkt)
    closeClient l.playerId
  else
    return some l

/-- The loop body of `handle_client` after a packet has come in. -/
def handlePacket (l : ClientLocals) (pkt : GamePacket) : Worker (Option ClientLocals) := do
  let now ← Worker.time
  let (allowed, rl) := rateLimiterCheck l.rl now
  if !allowed then
    closeClient l.playerId
  else if !inputValidateOpcode pkt.header.opcode then
    closeClient l.playerId
  else if !inputValidatePacketSize pkt.header.opcode pkt.header.length then
    closeClient l.playerId
  else
    dispatch { l with rl } pkt

/-- Has the client been silent for too long?  The clock is only read once a heartbeat has been
seen. -/
def heartbeatExpired (l : ClientLocals) : Worker Bool :=
  if l.lastHeartbeat > 0 then do
    let now ← Worker.time
    return now - l.lastHeartbeat > heartbeatTimeout
  else
    return false

/-- One turn of the `while (1)` of `handle_client`. -/
def handleClientLoop (l : ClientLocals) : Worker (Option ClientLocals) := do
  let expired ← heartbeatExpired l
  if expired then
    closeClient l.playerId
  else
    match ← Worker.recv 5 with
    | none =>
        -- a second look at the clock, which only decides what is logged
        let _ ← heartbeatExpired l
        closeClient l.playerId
    | some pkt => handlePacket l pkt

/-- `handle_client`, up to its `while (1)`.  The size of the first packet is not validated. -/
def handleClient : Worker (Option ClientLocals) := do
  let now ← Worker.time
  let rl := rateLimiterInit 5 1 now
  match ← Worker.recv 0 with
  | none => closeClient (-1)
  | some pkt =>
    if pkt.header.opcode ≠ OpCode.join.code then
      closeClient (-1)
    else if !inputValidateUsername pkt.joinUsername then
      closeClient (-1)
    else
      Worker.mark (.admitted pkt)
      let (playerId, sent) ← handleJoin
      if sent then
        return some ⟨playerId, pkt.username, 0, rl⟩
      else
        closeClient playerId

end WorldBossRaid
