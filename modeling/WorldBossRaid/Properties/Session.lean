import WorldBossRaid.Model.Server

/-!
# What one worker may do

Everything the other modules use about the text of `handle_client` is proved here, once.  A few
functions read a worker's history: is a spawn owed, with which packet was the client admitted,
what was the last snapshot, which packet came in last, and which hit has the present request made.
`Allowed h o` says what holds of those whenever the worker issues `o` after `h`, and
`handleClient_conforms` and `handleClientLoop_conforms` say that the code respects it.
-/

namespace WorldBossRaid

open Bytes Interaction Prog

/-! ## Reading a history -/

/-- Is the worker between an `apply_damage` that returned true and its `spawn_next_boss`? -/
def owesSpawn : WorkerHistory → Bool
  | [] => false
  | ⟨.game (.applyDamage _ _), killed⟩ :: _ => killed
  | ⟨.game .spawnNextBoss, _⟩ :: _ => false
  | _ :: h => owesSpawn h

/-- The packet with which the client was admitted. -/
def admittedWith : WorkerHistory → Option GamePacket
  | [] => none
  | ⟨.mark (.admitted pkt), _⟩ :: _ => some pkt
  | _ :: h => admittedWith h

/-- The snapshot the worker took last. -/
def lastSnapshot : WorkerHistory → Option GameSharedData
  | [] => none
  | ⟨.game .getSnapshot, snap⟩ :: _ => some snap
  | _ :: h => lastSnapshot h

/-- What the last receive returned, with its timeout. -/
def lastReceived : WorkerHistory → Option (ℕ × GamePacket)
  | [] => none
  | ⟨.recv timeoutSec, received⟩ :: _ => received.map fun pkt => (timeoutSec, pkt)
  | _ :: h => lastReceived h

/-- Has the worker left its connection alone so far? -/
def untouched : WorkerHistory → Bool
  | [] => true
  | ⟨.recv _, _⟩ :: _ => false
  | ⟨.send _, _⟩ :: _ => false
  | _ :: h => untouched h

/-- The `apply_damage` since the last receive, if there is one: its damage, and the snapshot taken
last before it. -/
def lastHit : WorkerHistory → Option (ℤ × Option GameSharedData)
  | [] => none
  | ⟨.recv _, _⟩ :: _ => none
  | ⟨.game (.applyDamage damage _), _⟩ :: h => some (damage, lastSnapshot h)
  | _ :: h => lastHit h

/-! ## The discipline -/

/-- The fields of a reply that describe the raid; the others describe one battle. -/
def PayloadGameState.world (p : PayloadGameState) : PayloadGameState :=
  { p with
    isCrit := 0
    isLucky := 0
    lastPlayerDamage := 0
    lastBossDice := 0
    lastPlayerStreak := 0
    dmgTaken := 0 }

/-- The result of an attack, against the hit it made: without a hit it reports no damage, and with
one it reports that hit, made after a snapshot that saw the boss alive. -/
def ReportsHit (result : AttackResult) : Option (ℤ × Option GameSharedData) → Prop
  | none => result.dmgDealt = 0 ∧ result.isWin = false
  | some (damage, aim) =>
      result.dmgDealt = damage ∧ ∃ snap, aim = some snap ∧ snap.inert = false

/-- What holds when a worker with the history `h` issues an operation. -/
def Allowed (h : WorkerHistory) : WorkerOp → Prop
  | .game .spawnNextBoss => owesSpawn h = true
  | .game (.applyDamage damage name) =>
      owesSpawn h = false ∧ 0 < damage ∧ ∃ pkt, admittedWith h = some pkt ∧ name = pkt.username
  | .send (.gameState p) =>
      owesSpawn h = false ∧ ∃ snap, lastSnapshot h = some snap ∧ p.world = .ofSnapshot snap
  | .recv timeoutSec => owesSpawn h = false ∧ (timeoutSec = 0 → untouched h = true)
  | .mark (.admitted pkt) =>
      owesSpawn h = false ∧ admittedWith h = none ∧ lastReceived h = some (0, pkt) ∧
        pkt.header.opcode = OpCode.join.code ∧ inputValidateUsername pkt.joinUsername = true
  | .mark (.dispatched pkt) =>
      owesSpawn h = false ∧ (∃ timeoutSec, lastReceived h = some (timeoutSec, pkt)) ∧
        pkt.header.opcode ≠ OpCode.join.code ∧ inputValidateOpcode pkt.header.opcode = true ∧
        inputValidatePacketSize pkt.header.opcode pkt.header.length = true
  | .mark (.attackReturned result _) => owesSpawn h = false ∧ ReportsHit result (lastHit h)
  | _ => owesSpawn h = false

lemma Allowed.eq_spawnNextBoss {h : WorkerHistory} {o : WorkerOp} (allowed : Allowed h o)
    (owes : owesSpawn h = true) : o = .game .spawnNextBoss := by
  have absurd_of {p : Prop} (free : owesSpawn h = false) : p :=
    absurd (owes.symm.trans free) (by decide)
  cases o with
  | game o =>
      cases o with
      | spawnNextBoss => rfl
      | applyDamage => exact absurd_of allowed.1
      | _ => exact absurd_of allowed
  | send r =>
      cases r with
      | gameState => exact absurd_of allowed.1
      | joinResp => exact absurd_of allowed
  | mark m => cases m <;> exact absurd_of allowed.1
  | recv => exact absurd_of allowed.1
  | _ => exact absurd_of allowed

/-- The worker owes no spawn and has an admitted client with the username `name`. -/
def Serving (name : Buffer maxPlayerName) (h : WorkerHistory) : Prop :=
  owesSpawn h = false ∧ ∃ pkt, admittedWith h = some pkt ∧ name = pkt.username

/-- What a worker leaves behind at the head of its loop. -/
def AtLoop (h : WorkerHistory) (v : Option ClientLocals) : Prop :=
  ∀ l, v = some l → Serving l.username h

variable {h : WorkerHistory} {name : Buffer maxPlayerName}

/-! ## The battle -/

lemma strike_conforms (serving : Serving name h) {result : AttackResult}
    (hpos : 0 < result.dmgDealt) :
    Conforms Allowed
      (fun h' r => Serving name h' ∧ r.dmgDealt = result.dmgDealt ∧
        lastHit h' = some (result.dmgDealt, lastSnapshot h)) h (strike name result) := by
  obtain ⟨free, pkt, hpkt, hname⟩ := serving
  refine ⟨⟨free, hpos, pkt, hpkt, hname⟩, ?_⟩
  intro killed
  cases killed with
  | false => exact ⟨⟨rfl, pkt, hpkt, hname⟩, rfl, rfl⟩
  | true => exact ⟨rfl, fun _ => ⟨⟨rfl, pkt, hpkt, hname⟩, rfl, rfl⟩⟩

lemma rollOf_pos (roll : ℕ) : 0 < rollOf roll := by
  rw [rollOf]
  omega

lemma resolveAttack_conforms (serving : Serving name h) {playerDice bossDice : ℤ}
    (hboss : 0 < bossDice) (unhit : lastHit h = none) {snap : GameSharedData}
    (aim : lastSnapshot h = some snap) (alive : snap.inert = false) (luckyRoll : ℕ) :
    Conforms Allowed (fun h' r => Serving name h' ∧ ReportsHit r (lastHit h')) h
      (resolveAttack playerDice name bossDice luckyRoll) := by
  have hit {h₀ : WorkerHistory} (serving₀ : Serving name h₀) (aim₀ : lastSnapshot h₀ = some snap)
      {result : AttackResult} (hpos : 0 < result.dmgDealt) :
      Conforms Allowed (fun h' r => Serving name h' ∧ ReportsHit r (lastHit h')) h₀
        (strike name result) := by
    refine (strike_conforms serving₀ hpos).weaken ?_
    intro h' r hr
    obtain ⟨serving', hdmg, hhit⟩ := hr
    refine ⟨serving', ?_⟩
    rw [hhit]
    exact ⟨hdmg, snap, aim₀, alive⟩
  simp only [resolveAttack, perform_bind]
  split
  · refine ⟨serving.1, fun _ => hit ?_ ?_ ?_⟩
    · exact serving
    · exact aim
    · exact (show (0 : ℤ) < 999999 by decide)
  · split
    · next hwin =>
        refine ⟨serving.1, fun streak => hit ?_ ?_ ?_⟩
        · exact serving
        · exact aim
        · change 0 < if streak ≥ 3 then instantKillDamage
            else if playerDice = 6 then playerDice * 2 else playerDice
          rw [instantKillDamage]
          split_ifs <;> omega
    · refine ⟨serving.1, fun _ => ⟨serving, ?_⟩⟩
      rw [show lastHit (_ :: h) = lastHit h from rfl, unhit]
      exact ⟨rfl, rfl⟩

lemma gameProcessAttack_conforms (serving : Serving name h) (unhit : lastHit h = none)
    (playerDice : ℤ) :
    Conforms Allowed
      (fun h' r => Serving name h' ∧ ReportsHit r.1 (lastHit h') ∧
        ∃ snap, lastSnapshot h' = some snap ∧ r.2 = .ofSnapshot snap) h
      (gameProcessAttack playerDice name) := by
  simp only [gameProcessAttack, perform_bind, conforms_call]
  refine ⟨serving.1, ?_⟩
  intro snap
  split
  · refine ⟨serving, ?_, snap, rfl, rfl⟩
    rw [show lastHit (_ :: h) = lastHit h from rfl, unhit]
    exact ⟨rfl, rfl⟩
  · next alive =>
      refine ⟨serving.1, fun bossRoll => ⟨serving.1, ?_⟩⟩
      intro luckyRoll
      have serving' : Serving name
        (⟨.rand, luckyRoll⟩ :: ⟨.rand, bossRoll⟩ :: ⟨.game .getSnapshot, snap⟩ :: h) := serving
      refine (resolveAttack_conforms serving' (rollOf_pos bossRoll) unhit rfl
        (Bool.eq_false_iff.2 alive) luckyRoll).seq fun h' r hr => ?_
      exact ⟨hr.1.1, fun snap' => ⟨hr.1, hr.2, snap', rfl, rfl⟩⟩

/-! ## The handlers -/

lemma closeClient_conforms (free : owesSpawn h = false) (playerId : ℤ) :
    Conforms Allowed AtLoop h (closeClient playerId) := by
  have ended {h' : WorkerHistory} : AtLoop h' none := fun l hl => by cases hl
  simp only [closeClient, cleanupClient, perform_bind, call_bind, conforms_call]
  refine ⟨free, fun _ => ?_⟩
  split
  · exact ⟨free, fun _ => ended⟩
  · exact ended

lemma attackDice_conforms (serving : Serving name h) (unhit : lastHit h = none)
    (pkt : GamePacket) :
    Conforms Allowed (fun h' _ => Serving name h' ∧ lastHit h' = none) h (attackDice pkt) := by
  unfold attackDice
  split
  · exact ⟨serving.1, fun _ => ⟨serving, unhit⟩⟩
  · exact ⟨serving, unhit⟩

lemma handleAttack_conforms (serving : Serving name h) (unhit : lastHit h = none)
    (pkt : GamePacket) :
    Conforms Allowed (fun h' _ => Serving name h') h (handleAttack pkt name) := by
  apply (attackDice_conforms serving unhit pkt).seq
  intro h₁ dice h₁serving
  apply (gameProcessAttack_conforms h₁serving.1 h₁serving.2 dice).seq
  intro h₂ r hr
  obtain ⟨serving₂, hreport, snap, hsnap, hr₂⟩ := hr
  refine ⟨⟨serving₂.1, hreport⟩, fun _ => ⟨⟨serving₂.1, snap, hsnap, ?_⟩, fun _ => serving₂⟩⟩
  rw [hr₂]
  rfl

lemma luckyEventFlag_conforms (serving : Serving name h) {snap : GameSharedData}
    (hsnap : lastSnapshot h = some snap) :
    Conforms Allowed (fun h' _ => Serving name h' ∧ lastSnapshot h' = some snap) h
      (luckyEventFlag snap) := by
  simp only [luckyEventFlag, perform_bind]
  split
  · rw [conforms_call]
    refine ⟨serving.1, ?_⟩
    intro now
    split
    · exact ⟨serving.1, fun _ => ⟨serving, hsnap⟩⟩
    · exact ⟨serving, hsnap⟩
  · exact ⟨serving, hsnap⟩

lemma handleHeartbeat_conforms (serving : Serving name h) :
    Conforms Allowed (fun h' _ => Serving name h') h handleHeartbeat := by
  simp only [handleHeartbeat, perform_bind, conforms_call]
  refine ⟨serving.1, fun now => ⟨serving.1, ?_⟩⟩
  intro snap
  have serving' : Serving name (⟨.game .getSnapshot, snap⟩ :: ⟨.time, now⟩ :: h) := serving
  apply (luckyEventFlag_conforms serving' rfl).seq
  intro h' isLucky hflag
  exact ⟨⟨hflag.1.1, snap, hflag.2, rfl⟩, fun _ => hflag.1⟩

lemma dispatch_conforms {l : ClientLocals} {pkt : GamePacket} (serving : Serving l.username h)
    (unhit : lastHit h = none) (inHand : ∃ timeoutSec, lastReceived h = some (timeoutSec, pkt))
    (hopcode : inputValidateOpcode pkt.header.opcode = true)
    (hsize : inputValidatePacketSize pkt.header.opcode pkt.header.length = true) :
    Conforms Allowed AtLoop h (dispatch l pkt) := by
  have marked {opcode : OpCode} (h₁ : pkt.header.opcode = opcode.code)
      (h₂ : opcode.code ≠ OpCode.join.code) : Allowed h (.mark (.dispatched pkt)) :=
    ⟨serving.1, inHand, h₁ ▸ h₂, hopcode, hsize⟩
  have serving' : Serving l.username (⟨.mark (.dispatched pkt), ()⟩ :: h) := serving
  have unhit' : lastHit (⟨.mark (.dispatched pkt), ()⟩ :: h) = none := unhit
  simp only [dispatch, perform_bind]
  split_ifs with hattack hheartbeat hleave
  · refine ⟨marked hattack (by decide), fun _ => (handleAttack_conforms serving' unhit' pkt).seq ?_⟩
    intro h' sent serving₁
    cases sent with
    | false => exact closeClient_conforms serving₁.1 l.playerId
    | true => exact fun l' hl' => Option.some.inj hl' ▸ serving₁
  · refine ⟨marked hheartbeat (by decide), fun _ => (handleHeartbeat_conforms serving').seq ?_⟩
    rintro h' ⟨lastHeartbeat, sent⟩ serving₁
    cases sent with
    | false => exact closeClient_conforms serving₁.1 l.playerId
    | true => exact fun l' hl' => Option.some.inj hl' ▸ serving₁
  · exact ⟨marked hleave (by decide), fun _ => closeClient_conforms serving'.1 l.playerId⟩
  · exact fun l' hl' => Option.some.inj hl' ▸ serving

/-! ## The session -/

lemma handlePacket_conforms {l : ClientLocals} (serving : Serving l.username h)
    {pkt : GamePacket} (unhit : lastHit h = none)
    (inHand : ∃ timeoutSec, lastReceived h = some (timeoutSec, pkt)) :
    Conforms Allowed AtLoop h (handlePacket l pkt) := by
  simp only [handlePacket, perform_bind, conforms_call]
  refine ⟨serving.1, ?_⟩
  intro now
  have serving' : Serving l.username (⟨.time, now⟩ :: h) := serving
  have unhit' : lastHit (⟨.time, now⟩ :: h) = none := unhit
  split_ifs with hallowed hopcode hsize
  · exact closeClient_conforms serving'.1 l.playerId
  · exact closeClient_conforms serving'.1 l.playerId
  · exact closeClient_conforms serving'.1 l.playerId
  · have hopcode' : inputValidateOpcode pkt.header.opcode = true := by simpa using hopcode
    have hsize' : inputValidatePacketSize pkt.header.opcode pkt.header.length = true := by
      simpa using hsize
    refine dispatch_conforms ?_ unhit' inHand hopcode' hsize'
    exact serving'

lemma heartbeatExpired_conforms {l : ClientLocals} (serving : Serving l.username h) :
    Conforms Allowed (fun h' _ => Serving l.username h') h (heartbeatExpired l) := by
  unfold heartbeatExpired
  split
  · exact ⟨serving.1, fun _ => serving⟩
  · exact serving

/-- One turn of the loop respects the discipline, and leads back to the head of the loop. -/
theorem handleClientLoop_conforms {l : ClientLocals} (serving : Serving l.username h) :
    Conforms Allowed AtLoop h (handleClientLoop l) := by
  apply (heartbeatExpired_conforms serving).seq
  intro h₁ expired serving₁
  cases expired with
  | true => exact closeClient_conforms serving₁.1 l.playerId
  | false =>
      refine ⟨⟨serving₁.1, nofun⟩, ?_⟩
      intro received
      cases received with
      | none =>
          have serving₂ : Serving l.username (⟨.recv 5, none⟩ :: h₁) := serving₁
          apply (heartbeatExpired_conforms serving₂).seq
          intro h₃ _ serving₃
          exact closeClient_conforms serving₃.1 l.playerId
      | some pkt =>
          have serving₂ : Serving l.username (⟨.recv 5, some pkt⟩ :: h₁) := serving₁
          exact handlePacket_conforms serving₂ rfl ⟨5, rfl⟩

/-- So does the program up to the loop. -/
theorem handleClient_conforms : Conforms Allowed AtLoop [] handleClient := by
  simp only [handleClient, handleJoin, perform_bind, conforms_call]
  refine ⟨rfl, fun now => ⟨⟨rfl, fun _ => rfl⟩, ?_⟩⟩
  intro received
  cases received with
  | none => exact closeClient_conforms rfl (-1)
  | some pkt =>
      dsimp only
      split_ifs with hop hvalid
      · exact closeClient_conforms rfl (-1)
      · exact closeClient_conforms rfl (-1)
      · have hvalid' : inputValidateUsername pkt.joinUsername = true := by simpa using hvalid
        refine ⟨⟨rfl, rfl, rfl, not_not.1 hop, hvalid'⟩, fun _ => ⟨rfl, ?_⟩⟩
        intro playerId
        refine ⟨rfl, ?_⟩
        intro sent
        cases sent with
        | false => exact closeClient_conforms rfl playerId
        | true => exact fun l hl => Option.some.inj hl ▸ ⟨rfl, pkt, rfl, rfl⟩

lemma worker_again {v : Option ClientLocals} {p : Worker (Option ClientLocals)} (hv : AtLoop h v)
    (hp : v.map handleClientLoop = some p) : Conforms Allowed AtLoop h p := by
  obtain ⟨l, rfl, rfl⟩ := Option.map_eq_some_iff.1 hp
  exact handleClientLoop_conforms (hv l rfl)

/-- Every session of the raid respects the discipline. -/
theorem raid_disciplined (ι : Type) :
    (raid ι).Disciplined (fun _ => Allowed) (fun _ => AtLoop) (raidInit ι) where
  first _ := handleClient_conforms
  again _ _ _ _ := worker_again

/-- So does every session of the server. -/
theorem server_disciplined {ι : Type} [DecidableEq ι] (ssl : ι → Ssl) (buffer : ι → GamePacket) :
    (server ι).Disciplined (fun _ => Allowed) (fun _ => AtLoop) (serverInit ssl buffer) where
  first _ := handleClient_conforms
  again _ _ _ _ := worker_again

end WorldBossRaid
