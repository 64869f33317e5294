import WorldBossRaid.Properties.SessionRule
import WorldBossRaid.Properties.RaidInvariant
import WorldBossRaid.Properties.StreakTable

/-!
# What is reported about combos

`fights` reads off a worker's history the attacks it has answered, with the dice and the rolls of
each, and `comboReports` the streaks and combo kills that were reported for them.  `reportsOf` says
what should be reported if the streaks were the session's own.  How a worker comes to its reports is
`KeepsTally`: it updates streaks under its client's name only, once for every fight that calls for
it, and reports what the update returned.  On what the streaks themselves depend is a question about
the table that all workers share, and left to the runs.
-/

namespace WorldBossRaid

open Bytes Interaction Prog

/-! ## Fights -/

/-- The packet that is being handled. -/
def present : WorkerHistory → Option GamePacket
  | [] => none
  | ⟨.mark (.dispatched pkt), _⟩ :: _ => some pkt
  | _ :: h => present h

/-- The rolls drawn for it so far, newest first. -/
def rollsDrawn : WorkerHistory → List ℕ
  | [] => []
  | ⟨.mark (.dispatched _), _⟩ :: _ => []
  | ⟨.rand, roll⟩ :: h => roll :: rollsDrawn h
  | _ :: h => rollsDrawn h

/-- An attack: the damage field of its packet, and the rolls drawn for it, newest first. -/
structure Fight where
  damage : ℤ
  rolls : List ℕ
  deriving DecidableEq

/-- The attack that is being handled. -/
def fightOf (h : WorkerHistory) : Fight :=
  ⟨((present h).map (·.attackDamage)).getD 0, rollsDrawn h⟩

/-- Is the packet that is being handled an attack? -/
def attacking (h : WorkerHistory) : Bool :=
  (present h).any (·.header.opcode == OpCode.attack.code)

/-- The attacks answered so far, newest first. -/
def fights : WorkerHistory → List Fight
  | [] => []
  | ⟨.send (.gameState _), _⟩ :: h => if attacking h then fightOf h :: fights h else fights h
  | _ :: h => fights h

/-- What a reply says about a combo: the streak, and whether the damage is that of a combo kill. -/
def PayloadGameState.combo (p : PayloadGameState) : ℤ × Bool :=
  (p.lastPlayerStreak, p.isLucky == 0 && p.lastPlayerDamage == instantKillDamage)

/-- What the replies to attacks have said about it, newest first. -/
def comboReports : WorkerHistory → List (ℤ × Bool)
  | [] => []
  | ⟨.send (.gameState p), _⟩ :: h =>
    if attacking h then p.combo :: comboReports h else comboReports h
  | _ :: h => comboReports h

/-! ## What fights lead to -/

/-- The player's dice, the boss's dice and the lucky roll; none if the boss was not there. -/
def Fight.thrown (f : Fight) : Option (ℤ × ℤ × ℕ) :=
  if f.damage ≤ 0 ∨ f.damage > 6 then
    match f.rolls with
    | [luckyRoll, bossRoll, roll] => some (rollOf roll, rollOf bossRoll, luckyRoll)
    | _ => none
  else
    match f.rolls with
    | [luckyRoll, bossRoll] => some (f.damage, rollOf bossRoll, luckyRoll)
    | _ => none

/-- The update of the streak, if there is one: the player's dice, and whether they won. -/
def Fight.update (f : Fight) : Option (ℤ × Bool) :=
  f.thrown.bind fun (playerDice, bossDice, luckyRoll) =>
    if luckyRoll % 1000000 = 0 then none else some (playerDice, playerDice > bossDice)

/-- What is reported if the update returns `streak`. -/
def Fight.report (f : Fight) (streak : ℤ) : ℤ × Bool :=
  match f.update with
  | some (_, true) => (streak, streak ≥ 3)
  | _ => (0, false)

lemma Fight.report_of_none {f : Fight} (unmade : f.update = none) (streak : ℤ) :
    f.report streak = (0, false) := by
  rw [report, unmade]

/-- What is reported for a session's fights, newest first: with a slot in the table the streaks of
the session's own updates, without one 0. -/
def reportsOf (seated : Bool) : List Fight → List (ℤ × Bool)
  | [] => []
  | f :: fs =>
    f.report (if seated then (streakAfter ((f :: fs).filterMap Fight.update)).2 else 0) ::
      reportsOf seated fs

/-! ## One worker -/

/-- The updates of the streak so far, newest first. -/
def ownUpdates : WorkerHistory → List (ℤ × Bool)
  | [] => []
  | ⟨.game (.updateStreak _ currentDice isWin), _⟩ :: h => (currentDice, isWin) :: ownUpdates h
  | _ :: h => ownUpdates h

/-- What the last one returned. -/
def lastStreak : WorkerHistory → ℤ
  | [] => 0
  | ⟨.game (.updateStreak _ _ _), streak⟩ :: _ => streak
  | _ :: h => lastStreak h

/-- A worker updates streaks under the name of its client, and reports an attack after its update
with the streak that the update returned. -/
def KeepsTally (h : WorkerHistory) : WorkerOp → Prop
  | .game (.updateStreak name _ _) =>
      Proper name ∧ ∃ pkt, admittedWith h = some pkt ∧ name = pkt.username
  | .send (.gameState p) => attacking h = true →
      ownUpdates h = (fightOf h :: fights h).filterMap Fight.update ∧
        p.combo = (fightOf h).report (lastStreak h)
  | _ => True

/-- At the head of the loop, all updates are those of answered attacks. -/
structure Tallied (l : ClientLocals) (h : WorkerHistory) : Prop where
  proper : Proper l.username
  named : ∃ pkt, admittedWith h = some pkt ∧ l.username = pkt.username
  updates : ownUpdates h = (fights h).filterMap Fight.update

variable {l : ClientLocals} {h : WorkerHistory} {pkt : GamePacket}

/-- In an attack: what has been drawn and which update has been made. -/
structure Fighting (l : ClientLocals) (pkt : GamePacket) (rolls : List ℕ)
    (updates : List (ℤ × Bool)) (h : WorkerHistory) : Prop where
  proper : Proper l.username
  named : ∃ pkt, admittedWith h = some pkt ∧ l.username = pkt.username
  present : present h = some pkt
  rolls : rollsDrawn h = rolls
  updates : ownUpdates h = updates ++ (fights h).filterMap Fight.update

/-- The operations of an attack that leave this alone. -/
def WorkerOp.aside : WorkerOp → Bool
  | .game .getSnapshot => true
  | .game (.applyDamage _ _) => true
  | .game .spawnNextBoss => true
  | .game .markLuckyKill => true
  | .mark (.attackReturned _ _) => true
  | _ => false

variable {rolls : List ℕ} {updates : List (ℤ × Bool)}

lemma Fighting.cons (fighting : Fighting l pkt rolls updates h) {o : WorkerOp}
    (ho : o.aside = true) (r : o.Ret) :
    Fighting l pkt rolls updates (⟨o, r⟩ :: h) ∧ KeepsTally h o ∧
      lastStreak (⟨o, r⟩ :: h) = lastStreak h := by
  obtain ⟨proper, named, hpresent, hrolls, hupdates⟩ := fighting
  cases o with
  | game o =>
      cases o with
      | getSnapshot => exact ⟨⟨proper, named, hpresent, hrolls, hupdates⟩, trivial, rfl⟩
      | applyDamage => exact ⟨⟨proper, named, hpresent, hrolls, hupdates⟩, trivial, rfl⟩
      | spawnNextBoss => exact ⟨⟨proper, named, hpresent, hrolls, hupdates⟩, trivial, rfl⟩
      | markLuckyKill => exact ⟨⟨proper, named, hpresent, hrolls, hupdates⟩, trivial, rfl⟩
      | _ => cases ho
  | mark m =>
      cases m with
      | attackReturned => exact ⟨⟨proper, named, hpresent, hrolls, hupdates⟩, trivial, rfl⟩
      | _ => cases ho
  | _ => cases ho

lemma Fighting.fightOf_eq (fighting : Fighting l pkt rolls updates h) :
    fightOf h = ⟨pkt.attackDamage, rolls⟩ := by
  rw [fightOf, fighting.present, fighting.rolls]
  rfl

/-- What the session knows when `game_process_attack` has decided: the update that the fight calls
for has been made, and the result reports what it returned. -/
structure Decided (l : ClientLocals) (pkt : GamePacket) (h : WorkerHistory)
    (result : AttackResult) : Prop where
  fighting : ∃ rolls, Fighting l pkt rolls ((⟨pkt.attackDamage, rolls⟩ : Fight).update.toList) h
  report : (result.currentStreak,
    !result.isLuckyKill && result.dmgDealt == instantKillDamage) = (fightOf h).report (lastStreak h)

lemma Decided.cons {result : AttackResult} (decided : Decided l pkt h result) {o : WorkerOp}
    (ho : o.aside = true) (r : o.Ret) :
    Decided l pkt (⟨o, r⟩ :: h) result ∧ KeepsTally h o := by
  obtain ⟨⟨rolls, fighting⟩, report⟩ := decided
  obtain ⟨fighting', keeps, streak⟩ := fighting.cons ho r
  refine ⟨⟨⟨rolls, fighting'⟩, ?_⟩, keeps⟩
  rw [streak, fighting'.fightOf_eq, ← fighting.fightOf_eq]
  exact report

/-- The hit does not change what is reported about the combo. -/
lemma strike_decided {result : AttackResult} {name : Buffer maxPlayerName}
    (decided : Decided l pkt h result) :
    Conforms KeepsTally (Decided l pkt) h (strike name result) := by
  refine ⟨(decided.cons rfl true).2, fun killed => ?_⟩
  have hit := (@Decided.cons _ _ _ _ decided (.game (.applyDamage result.dmgDealt name)) rfl
    killed).1
  cases killed with
  | false => exact hit
  | true =>
      refine ⟨(hit.cons rfl ()).2, fun _ => ?_⟩
      have spawned := (@Decided.cons _ _ _ _ hit (.game .spawnNextBoss) rfl ()).1
      exact ⟨spawned.fighting, spawned.report⟩

lemma Fighting.updated (fighting : Fighting l pkt rolls [] h) (currentDice : ℤ) (isWin : Bool)
    (streak : ℤ) : Fighting l pkt rolls [(currentDice, isWin)]
      (⟨.game (.updateStreak l.username currentDice isWin), streak⟩ :: h) where
  proper := fighting.proper
  named := fighting.named
  present := fighting.present
  rolls := fighting.rolls
  updates := congrArg ((currentDice, isWin) :: ·) fighting.updates

/-- A winning dice does the damage of an instant kill only as a combo. -/
lemma comboDamage {playerDice : ℤ} (small : playerDice ≤ 6) (streak : ℤ) :
    (!false && (if streak ≥ 3 then instantKillDamage
      else if playerDice = 6 then playerDice * 2 else playerDice) == instantKillDamage) =
      decide (streak ≥ 3) := by
  by_cases combo : streak ≥ 3
  · simp [combo]
  · rw [if_neg combo, decide_eq_false combo]
    have : (if playerDice = 6 then playerDice * 2 else playerDice) ≠ instantKillDamage := by
      unfold instantKillDamage
      split_ifs <;> omega
    simpa using this

lemma resolveAttack_decided (fighting : Fighting l pkt rolls [] h) {playerDice bossDice : ℤ}
    {luckyRoll : ℕ}
    (thrown : (⟨pkt.attackDamage, rolls⟩ : Fight).thrown = some (playerDice, bossDice, luckyRoll))
    (small : playerDice ≤ 6) :
    Conforms KeepsTally (Decided l pkt) h
      (resolveAttack playerDice l.username bossDice luckyRoll) := by
  have update : (⟨pkt.attackDamage, rolls⟩ : Fight).update =
      if luckyRoll % 1000000 = 0 then none
      else some (playerDice, decide (playerDice > bossDice)) := by
    rw [Fight.update, thrown]
    rfl
  simp only [resolveAttack, perform_bind]
  split
  · next lucky =>
      rw [if_pos lucky] at update
      obtain ⟨marked, keeps, -⟩ := @Fighting.cons _ _ _ _ _ fighting (.game .markLuckyKill) rfl ()
      refine ⟨keeps, fun _ => strike_decided ⟨⟨rolls, by rw [update]; exact marked⟩, ?_⟩⟩
      rw [marked.fightOf_eq, Fight.report, update]
      rfl
  · next lucky =>
      rw [if_neg lucky] at update
      split
      · next wins =>
          rw [decide_eq_true wins] at update
          refine ⟨⟨fighting.proper, fighting.named⟩, fun streak => ?_⟩
          have updated := fighting.updated playerDice true streak
          refine strike_decided ⟨⟨rolls, by rw [update]; exact updated⟩, ?_⟩
          rw [updated.fightOf_eq, Fight.report, update]
          exact congrArg (Prod.mk streak) (comboDamage small streak)
      · next loses =>
          rw [decide_eq_false loses] at update
          refine ⟨⟨fighting.proper, fighting.named⟩, fun streak => ?_⟩
          have updated := fighting.updated playerDice false streak
          refine ⟨⟨rolls, by rw [update]; exact updated⟩, ?_⟩
          rw [updated.fightOf_eq, Fight.report, update]
          rfl

lemma Fighting.rand (fighting : Fighting l pkt rolls updates h) (roll : ℕ) :
    Fighting l pkt (roll :: rolls) updates (⟨.rand, roll⟩ :: h) where
  proper := fighting.proper
  named := fighting.named
  present := fighting.present
  rolls := congrArg (roll :: ·) fighting.rolls
  updates := fighting.updates

/-- The player's dice lies there, and the boss's has not been rolled. -/
structure Throws (pkt : GamePacket) (rolls : List ℕ) (playerDice : ℤ) : Prop where
  unfought : (⟨pkt.attackDamage, rolls⟩ : Fight).thrown = none
  fought : ∀ bossRoll luckyRoll,
    (⟨pkt.attackDamage, luckyRoll :: bossRoll :: rolls⟩ : Fight).thrown =
      some (playerDice, rollOf bossRoll, luckyRoll)
  small : playerDice ≤ 6

lemma attackDice_throws (fighting : Fighting l pkt [] [] h) :
    Conforms KeepsTally (fun h' playerDice => ∃ rolls, Fighting l pkt rolls [] h' ∧
      Throws pkt rolls playerDice) h (attackDice pkt) := by
  unfold attackDice
  by_cases foul : pkt.attackDamage ≤ 0 ∨ pkt.attackDamage > 6
  · rw [if_pos foul]
    refine ⟨trivial, fun roll => ⟨[roll], fighting.rand roll, ?_, fun bossRoll luckyRoll => ?_, ?_⟩⟩
    · rw [Fight.thrown, if_pos foul]
    · rw [Fight.thrown, if_pos foul]
    · unfold rollOf
      omega
  · rw [if_neg foul]
    refine ⟨[], fighting, ?_, fun bossRoll luckyRoll => ?_, ?_⟩
    · rw [Fight.thrown, if_neg foul]
    · rw [Fight.thrown, if_neg foul]
    · omega

lemma gameProcessAttack_decided (fighting : Fighting l pkt rolls [] h) {playerDice : ℤ}
    (throws : Throws pkt rolls playerDice) :
    Conforms KeepsTally (fun h' r => Decided l pkt h' r.1) h
      (gameProcessAttack playerDice l.username) := by
  simp only [gameProcessAttack, perform_bind, conforms_call]
  refine ⟨trivial, fun snap => ?_⟩
  have aimed := (@Fighting.cons _ _ _ _ _ fighting (.game .getSnapshot) rfl snap).1
  split
  · have update : (⟨pkt.attackDamage, rolls⟩ : Fight).update = none := by
      rw [Fight.update, throws.unfought]
      rfl
    refine ⟨⟨rolls, by rw [update]; exact aimed⟩, ?_⟩
    rw [aimed.fightOf_eq, Fight.report, update]
    rfl
  · refine ⟨trivial, fun bossRoll => ⟨trivial, fun luckyRoll => ?_⟩⟩
    apply (resolveAttack_decided ((aimed.rand bossRoll).rand luckyRoll)
      (throws.fought bossRoll luckyRoll) throws.small).seq
    intro h' result decided
    exact ⟨trivial, fun snap => (@Decided.cons _ _ _ _ decided (.game .getSnapshot) rfl snap).1⟩

lemma combo_reply (result : AttackResult) (state : PayloadGameState) :
    (result.reply state).combo =
      (result.currentStreak, !result.isLuckyKill && result.dmgDealt == instantKillDamage) := by
  unfold PayloadGameState.combo AttackResult.reply
  cases result.isLuckyKill <;> rfl

/-- The reply reports the fight, which from then on is among those answered. -/
lemma reply_tallied {result : AttackResult} {state : PayloadGameState}
    (isAttack : pkt.header.opcode = OpCode.attack.code) (decided : Decided l pkt h result) :
    KeepsTally h (.send (.gameState (result.reply state))) ∧
      ∀ sent : Bool, Tallied l (⟨.send (.gameState (result.reply state)), sent⟩ :: h) := by
  obtain ⟨⟨rolls, fighting⟩, report⟩ := decided
  have hattacking : attacking h = true := by
    rw [attacking, fighting.present]
    simp [isAttack]
  have tally : ownUpdates h = (fightOf h :: fights h).filterMap Fight.update := by
    rw [fighting.updates, fighting.fightOf_eq, List.filterMap_cons]
    cases (⟨pkt.attackDamage, rolls⟩ : Fight).update <;> rfl
  refine ⟨fun _ => ⟨tally, ?_⟩, fun sent => ⟨fighting.proper, fighting.named, ?_⟩⟩
  · rw [← report]
    exact combo_reply result state
  · change ownUpdates h = (if attacking h then fightOf h :: fights h else fights h).filterMap _
    rw [if_pos hattacking]
    exact tally

lemma handleAttack_tallied (tallied : Tallied l h)
    (isAttack : pkt.header.opcode = OpCode.attack.code) :
    Conforms KeepsTally (fun h' _ => Tallied l h') (⟨.mark (.dispatched pkt), ()⟩ :: h)
      (handleAttack pkt l.username) := by
  have fighting : Fighting l pkt [] [] (⟨.mark (.dispatched pkt), ()⟩ :: h) :=
    ⟨tallied.proper, tallied.named, rfl, rfl, tallied.updates⟩
  apply (attackDice_throws fighting).seq
  rintro h₁ playerDice ⟨rolls, fighting₁, throws⟩
  apply (gameProcessAttack_decided fighting₁ throws).seq
  rintro h₂ ⟨result, state⟩ decided
  refine ⟨trivial, fun _ => ?_⟩
  obtain ⟨keeps, after⟩ := reply_tallied isAttack
    (@Decided.cons _ _ _ _ decided (.mark (.attackReturned result state)) rfl ()).1
  exact ⟨keeps, fun sent => after sent⟩

lemma WorkerOp.InLoop.keepsTally {o : WorkerOp} (ho : o.InLoop) : KeepsTally h o :=
  ho.each trivial trivial fun _ => trivial

lemma WorkerOp.InLoop.tallied {o : WorkerOp} (ho : o.InLoop) (r : o.Ret) (tallied : Tallied l h) :
    Tallied l (⟨o, r⟩ :: h) := by
  obtain ⟨proper, named, updates⟩ := tallied
  revert r
  refine ho.each ?_ ?_ ?_
  · exact fun _ => ⟨proper, named, updates⟩
  · exact fun _ => ⟨proper, named, updates⟩
  · exact fun _ _ => ⟨proper, named, updates⟩

lemma WorkerOp.InHeartbeat.keepsTally {o : WorkerOp} (ho : o.InHeartbeat)
    (peaceful : attacking h = false) : KeepsTally h o :=
  ho.each trivial trivial trivial fun _ attack =>
    absurd (peaceful.symm.trans attack) Bool.false_ne_true

lemma WorkerOp.InHeartbeat.tallied {o : WorkerOp} (ho : o.InHeartbeat) (r : o.Ret)
    (peaceful : attacking h = false) (tallied : Tallied l h) :
    attacking (⟨o, r⟩ :: h) = false ∧ Tallied l (⟨o, r⟩ :: h) := by
  obtain ⟨proper, named, updates⟩ := tallied
  revert r
  refine ho.each ?_ ?_ ?_ ?_
  · exact fun _ => ⟨peaceful, proper, named, updates⟩
  · exact fun _ => ⟨peaceful, proper, named, updates⟩
  · exact fun _ => ⟨peaceful, proper, named, updates⟩
  · intro p sent
    refine ⟨peaceful, proper, named, ?_⟩
    change ownUpdates h = (if attacking h then fightOf h :: fights h else fights h).filterMap _
    rw [peaceful, if_neg Bool.false_ne_true]
    exact updates

lemma handleHeartbeat_tallied (tallied : Tallied l h)
    (isHeartbeat : pkt.header.opcode = OpCode.heartbeat.code) :
    Conforms KeepsTally (fun h' _ => Tallied l h') (⟨.mark (.dispatched pkt), ()⟩ :: h)
      handleHeartbeat := by
  have peaceful : attacking (⟨.mark (.dispatched pkt), ()⟩ :: h) = false := by
    change (pkt.header.opcode == OpCode.attack.code) = false
    rw [isHeartbeat]
    rfl
  have start : Tallied l (⟨.mark (.dispatched pkt), ()⟩ :: h) :=
    ⟨tallied.proper, tallied.named, tallied.updates⟩
  have conforms : Conforms KeepsTally (fun h' _ => attacking h' = false ∧ Tallied l h')
      (⟨.mark (.dispatched pkt), ()⟩ :: h) handleHeartbeat :=
    handleHeartbeat_issues.conforms (fun _ _ kept ho => ho.keepsTally kept.1)
      (fun _ _ r kept ho => ho.tallied r kept.1 kept.2) ⟨peaceful, start⟩
  exact conforms.weaken fun _ _ kept => kept.2

lemma tallyRule : DispatchRule KeepsTally Tallied fun _ => True where
  allows l h o _ ho := ho.keepsTally
  keeps l h o r tallied ho := ho.tallied r tallied
  limiter l h rl tallied := ⟨tallied.proper, tallied.named, tallied.updates⟩
  attack l h pkt tallied isAttack := handleAttack_tallied tallied isAttack
  heartbeat l h pkt tallied isHeartbeat :=
    (handleHeartbeat_tallied tallied isHeartbeat).weaken fun _ _ tallied =>
      ⟨tallied.proper, tallied.named, tallied.updates⟩
  cleanup l h _ := by
    simp only [cleanupClient, perform_bind, conforms_call]
    refine ⟨trivial, fun _ => ?_⟩
    split_ifs
    · exact ⟨trivial, fun _ => trivial⟩
    · exact trivial

lemma handleClient_tallied :
    Conforms KeepsTally (AtHeadOrEnd Tallied fun _ => True) [] handleClient := by
  have closes (playerId : ℤ) (h : WorkerHistory) :
      Conforms KeepsTally (AtHeadOrEnd Tallied fun _ => True) h (closeClient playerId) := by
    simp only [closeClient, cleanupClient, perform_bind, call_bind, conforms_call]
    refine ⟨trivial, fun _ => ?_⟩
    split_ifs
    · exact ⟨trivial, fun _ => trivial⟩
    · exact trivial
  simp only [handleClient, handleJoin, perform_bind, conforms_call]
  refine ⟨trivial, fun now => ⟨trivial, fun received => ?_⟩⟩
  cases received with
  | none => exact closes (-1) _
  | some pkt =>
      dsimp only
      split_ifs with join username
      · exact closes (-1) _
      · exact closes (-1) _
      · refine ⟨trivial, fun _ => ⟨trivial, fun playerId => ⟨trivial, fun sent => ?_⟩⟩⟩
        cases sent with
        | false => exact closes playerId _
        | true => exact ⟨proper_username (by simpa using username), ⟨pkt, rfl, rfl⟩, rfl⟩

/-- Every session of the raid keeps its tally. -/
theorem raid_keepsTally (ι : Type) :
    (raid ι).Disciplined (fun _ => KeepsTally) (fun _ => AtHeadOrEnd Tallied fun _ => True)
      (raidInit ι) where
  first _ := handleClient_tallied
  again _ _ _ _ := tallyRule.again

end WorldBossRaid
