import WorldBossRaid.Framework.Eval
import WorldBossRaid.Model.Dice
import WorldBossRaid.Properties.Progress
import WorldBossRaid.Properties.StreakTable

/-!
# The rule of one battle

`game_process_attack` fills its result, its reply and the shared state at different places.  Run
without interference they tell the same story: `Struck` is the part about the boss, which only
depends on the damage dealt, `Fought` adds the players and the events, and `ReplyShows` the reply.

The rolls come from the worker's generator, whose outputs are arbitrary, so they range over all
pairs.
-/

namespace WorldBossRaid

open Bytes Buffer Interaction Prog

/-! ## Statement -/

/-- Between `s` and `t` the boss has taken the damage that `result` reports. -/
structure Struck (s t : GameSharedData) (result : AttackResult) : Prop where
  raidHp_eq : s.raidHp - t.raidHp = min result.dmgDealt s.currentHp
  /-- The next stage follows a blow that takes all the hit points there are. -/
  stage_iff : t.stage.code = s.stage.code + 1 ↔ s.currentHp ≤ result.dmgDealt
  stage_eq : result.dmgDealt < s.currentHp → t.stage = s.stage
  bossJustDied_iff : result.bossJustDied = true ↔ s.currentHp ≤ result.dmgDealt
  /-- What is left of the damage does not carry over to the next boss. -/
  fresh : t.stage ≠ s.stage → t.stage ≠ .dead →
    t.currentHp = t.stage.maxHp ∧ t.maxHp = t.stage.maxHp
  standing : t.isRespawning = false

/-- What an attack with the dice `playerDice` by the player `name` does when a boss is standing: it
takes the state from `s` to `t` and reports `result`. -/
structure Fought (playerDice : ℤ) (name : List UInt8) (bossRoll luckyRoll : ℕ)
    (s t : GameSharedData) (result : AttackResult) : Prop extends Struck s t result where
  bossDice_eq : result.bossDice = rollOf bossRoll
  isLuckyKill_iff : result.isLuckyKill = true ↔ luckyRoll % 1000000 = 0
  isWin_iff : result.isWin = true ↔ luckyRoll % 1000000 = 0 ∨ rollOf bossRoll < playerDice
  dmgDealt_of_not_win : result.isWin = false → result.dmgDealt = 0
  dmgTaken_pos_iff :
    0 < result.dmgTaken ↔ ¬luckyRoll % 1000000 = 0 ∧ playerDice < rollOf bossRoll
  onlineCount_eq : t.onlineCount = s.onlineCount
  recordOf_eq : ∀ other, other ≠ name → t.players.recordOf other = s.players.recordOf other
  luckyEvent_eq : ¬luckyRoll % 1000000 = 0 →
    t.hasLuckyKillEvent = s.hasLuckyKillEvent ∧ t.luckyKillTimestamp = s.luckyKillTimestamp

/-- The reply to it shows the state `t` at its end, in which a boss is standing or the game over. -/
structure ReplyShows (t : GameSharedData) (reply : PayloadGameState) : Prop where
  bossHp_eq : reply.bossHp = t.currentHp
  maxHp_eq : reply.maxHp = t.maxHp
  stage_eq : reply.stage = t.stage.code
  onlineCount_eq : reply.onlineCount = t.onlineCount
  lastKiller_eq : reply.lastKiller = t.lastKiller
  isRespawning_eq : reply.isRespawning = 0

/-! ## Strings and names in the shared state -/

/-- The strings of the shared state end within their arrays, and `last_killer` has only NULs behind
its string. -/
structure GameSharedData.Tidy (s : GameSharedData) : Prop where
  killer_tail : s.lastKiller.bytes.drop 31 = [0]
  killer_padded : s.lastKiller.Holds s.lastKiller.cstr
  terminated : s.players.Terminated

namespace GameSharedData.Tidy

variable {s : GameSharedData}

lemma init : gamestateInit.Tidy := ⟨rfl, rfl, .zero⟩

lemma of_sameBoss (tidy : s.Tidy) {t : GameSharedData} (same : SameBoss s t)
    (terminated : t.players.Terminated) : t.Tidy := by
  obtain ⟨-, -, -, -, killer⟩ := same
  exact ⟨killer ▸ tidy.killer_tail, killer ▸ tidy.killer_padded, terminated⟩

lemma applyDamage (tidy : s.Tidy) (damage : ℤ) (name : Buffer maxPlayerName) :
    (gamestateApplyDamage damage name s).2.Tidy := by
  rcases applyDamage_cases damage name s with ⟨-, hret⟩ | ⟨-, -, hret⟩ | ⟨-, -, hret⟩
  · rw [hret]
    exact tidy
  · rw [hret]
    exact ⟨tidy.killer_tail, tidy.killer_padded, tidy.terminated⟩
  · rw [hret]
    have holds : (s.lastKiller.strncpy name 31 nameCopy_fits).Holds _ :=
      strncpy_holds_takeWhile tidy.killer_tail
    have string := holds.cstr_eq (fun h => by simpa using List.mem_takeWhile_imp h)
    have tail : (s.lastKiller.strncpy name 31 nameCopy_fits).bytes.drop 31 = [0] :=
      drop_strncpy.trans tidy.killer_tail
    exact ⟨tail, string ▸ holds, tidy.terminated⟩

lemma spawnNextBoss (tidy : s.Tidy) : (gamestateSpawnNextBoss s).Tidy := by
  unfold gamestateSpawnNextBoss
  split_ifs
  · exact ⟨init.killer_tail, init.killer_padded, tidy.terminated⟩
  · exact ⟨tidy.killer_tail, tidy.killer_padded, tidy.terminated⟩

/-- No operation of a worker writes the last byte of a name, or behind a string. -/
lemma exec (tidy : s.Tidy) (e : RaidEnv) (o : WorkerOp) : (o.exec e s).2.Tidy := by
  rcases o.actsOnBoss_cases with ho | ⟨damage, name, rfl⟩ | rfl
  · refine tidy.of_sameBoss (sameBoss_exec ho e s) ?_
    cases o with
    | game o =>
        cases o with
        | updateStreak name dice isWin => exact tidy.terminated.updateStreak
        | playerLeave =>
            change (gamestatePlayerLeave s).players.Terminated
            rw [gamestatePlayerLeave_frame]
            exact tidy.terminated
        | applyDamage => simp [WorkerOp.actsOnBoss] at ho
        | spawnNextBoss => simp [WorkerOp.actsOnBoss] at ho
        | _ => exact tidy.terminated
    | _ => exact tidy.terminated
  · exact tidy.applyDamage damage name
  · exact tidy.spawnNextBoss

end GameSharedData.Tidy

section Run

variable {ι : Type} [DecidableEq ι] {log : List (RaidEvent ι)}
  {c : Config ι WorkerOp WorkerOp.Ret (Option ClientLocals) GameSharedData}

lemma run_tidy (run : (raid ι).Run (raidInit ι) log c) : c.shared.Tidy :=
  run.invariant (raid_disciplined ι) (fun _ s => s.Tidy) .init fun _ _ _ e o tidy _ =>
    tidy.exec e o

end Run

/-! ## The boss -/

section Boss

variable {s t : GameSharedData} {result : AttackResult}

lemma Struck.of_sameBoss {s' : GameSharedData} (struck : Struck s' t result)
    (same : SameBoss s s') : Struck s t result := by
  obtain ⟨hp, -, stage, -, -⟩ := same
  have raid : s'.raidHp = s.raidHp := by
    rw [GameSharedData.raidHp, GameSharedData.raidHp, hp, stage]
  obtain ⟨raidHp_eq, stage_iff, stage_eq, bossJustDied_iff, fresh, standing⟩ := struck
  rw [hp, stage] at *
  rw [raid] at raidHp_eq
  exact ⟨raidHp_eq, stage_iff, stage_eq, bossJustDied_iff, fresh, standing⟩

lemma BossStage.code_succ_ne (st : BossStage) : st.code ≠ st.code + 1 := by
  cases st <;> decide

lemma Struck.of_standing (survives : result.dmgDealt < s.currentHp)
    (notDead : result.bossJustDied = false) (hp : t.currentHp = s.currentHp - result.dmgDealt)
    (stage : t.stage = s.stage) (standing : t.isRespawning = false) (alive : s.stage ≠ .dead) :
    Struck s t result where
  raidHp_eq := by
    rw [GameSharedData.raidHp, GameSharedData.raidHp, hp, stage, min_eq_left survives.le]
    cases hs : s.stage with
    | dead => exact absurd hs alive
    | _ => dsimp only; omega
  stage_iff := by
    rw [stage]
    exact iff_of_false (BossStage.code_succ_ne _) survives.not_ge
  stage_eq _ := stage
  bossJustDied_iff := iff_of_false (by simp [notDead]) survives.not_ge
  fresh changed := absurd stage changed
  standing := standing

/-- A boss that is brought down, and the next one or the end of the game. -/
lemma Struck.of_spawn (kills : s.currentHp ≤ result.dmgDealt) (died : result.bossJustDied = true)
    (stage : t.stage = s.stage) (alive : s.stage ≠ .dead) :
    Struck s (gamestateSpawnNextBoss t) result := by
  have raid : s.raidHp - (gamestateSpawnNextBoss t).raidHp = s.currentHp ∧
      (gamestateSpawnNextBoss t).stage.code = s.stage.code + 1 := by
    cases hs : s.stage with
    | stage1 => simp [gamestateSpawnNextBoss, GameSharedData.raidHp, stage, hs, boss2MaxHp,
        BossStage.code]
    | stage2 => simp [gamestateSpawnNextBoss, GameSharedData.raidHp, stage, hs, BossStage.code]
    | dead => exact absurd hs alive
  refine ⟨?_, iff_of_true raid.2 kills, fun survives => absurd survives kills.not_gt,
    iff_of_true died kills, fun _ more => ?_, ?_⟩
  · rw [raid.1, min_eq_right kills]
  · unfold gamestateSpawnNextBoss at more ⊢
    split_ifs at more ⊢ with first
    · exact ⟨rfl, rfl⟩
    · exact absurd rfl more
  · unfold gamestateSpawnNextBoss
    split_ifs <;> rfl

end Boss

/-! ## The battle -/

section Battle

variable {ι : Type} [DecidableEq ι] {outputs : ℤ → ℕ → ℕ} {i : ι} {e : RaidEnv}
  {s : GameSharedData} {generator : ι → Generator} {name : Buffer maxPlayerName}

/-- The end of both winning branches only changes the boss. -/
lemma eval_strike {rolled : AttackResult} (standing : s.inert = false)
    (notYet : rolled.bossJustDied = false) :
    ∃ t died, eval (SeededState.exec outputs i e) (strike name rolled) ⟨s, generator⟩ =
        ({ rolled with bossJustDied := died }, ⟨t, generator⟩) ∧
      Struck s t { rolled with bossJustDied := died } ∧
      t = { s with
        currentHp := t.currentHp
        maxHp := t.maxHp
        stage := t.stage
        isRespawning := t.isRespawning
        lastKiller := t.lastKiller } := by
  obtain ⟨alive, calm⟩ := alive_of_not_inert standing
  rcases applyDamage_cases rolled.dmgDealt name s with
    ⟨refused, -⟩ | ⟨-, survives, hret⟩ | ⟨-, kills, hret⟩
  · exact absurd (standing.symm.trans refused) Bool.false_ne_true
  · refine ⟨{ s with currentHp := s.currentHp - rolled.dmgDealt }, false, ?_, ?_, rfl⟩
    · have same : { rolled with bossJustDied := false } = rolled := by rw [← notYet]
      rw [same]
      simp [strike, SeededState.exec, WorkerOp.exec, GameOp.exec, hret]
    · exact .of_standing survives rfl rfl rfl calm alive
  · refine ⟨gamestateSpawnNextBoss (gamestateApplyDamage rolled.dmgDealt name s).2, true,
      ?_, ?_, ?_⟩
    · simp [strike, SeededState.exec, WorkerOp.exec, GameOp.exec, hret]
    · rw [hret]
      exact .of_spawn kills rfl rfl alive
    · rw [hret, gamestateSpawnNextBoss_frame]

lemma eval_lucky (standing : s.inert = false) (playerDice : ℤ) (bossRoll : ℕ) {luckyRoll : ℕ}
    (lucky : luckyRoll % 1000000 = 0) :
    ∃ result t, eval (SeededState.exec outputs i e)
        (resolveAttack playerDice name (rollOf bossRoll) luckyRoll) ⟨s, generator⟩ =
          (result, ⟨t, generator⟩) ∧
      Fought playerDice name.cstr bossRoll luckyRoll s t result := by
  obtain ⟨t, died, heval, struck, frame⟩ := @eval_strike _ _ outputs i e
    (gamestateMarkLuckyKill e.now s) generator name
    { AttackResult.zero with
      bossDice := rollOf bossRoll
      isWin := true
      isCrit := true
      isLuckyKill := true
      dmgDealt := instantKillDamage } standing rfl
  have marked : SameBoss s (gamestateMarkLuckyKill e.now s) := ⟨rfl, rfl, rfl, rfl, rfl⟩
  rw [resolveAttack, if_pos lucky]
  refine ⟨_, t, heval, struck.of_sameBoss marked, rfl, iff_of_true rfl lucky,
    iff_of_true rfl (Or.inl lucky), by simp, ?_, ?_, fun other _ => ?_, fun h => absurd lucky h⟩
  · exact iff_of_false (lt_irrefl 0) fun h => h.1 lucky
  · rw [frame]
    rfl
  · rw [frame]
    rfl

section Streak

variable {playerDice : ℤ} {isWin : Bool}

lemma inert_updateStreak :
    (gamestateUpdateStreak name playerDice isWin s).2.inert = s.inert := by
  rw [gamestateUpdateStreak_frame]
  rfl

lemma onlineCount_updateStreak :
    (gamestateUpdateStreak name playerDice isWin s).2.onlineCount = s.onlineCount := by
  rw [gamestateUpdateStreak_frame]

lemma luckyEvent_updateStreak :
    (gamestateUpdateStreak name playerDice isWin s).2.hasLuckyKillEvent = s.hasLuckyKillEvent ∧
      (gamestateUpdateStreak name playerDice isWin s).2.luckyKillTimestamp =
        s.luckyKillTimestamp := by
  rw [gamestateUpdateStreak_frame]
  exact ⟨rfl, rfl⟩

end Streak

section Unlucky

variable {playerDice : ℤ} {bossRoll luckyRoll : ℕ}

/-- A won comparison, with or without a critical hit or a combo. -/
lemma eval_won (standing : s.inert = false) (terminated : s.players.Terminated)
    (proper : Proper name) (unlucky : ¬luckyRoll % 1000000 = 0)
    (wins : playerDice > rollOf bossRoll) :
    ∃ result t, eval (SeededState.exec outputs i e)
        (resolveAttack playerDice name (rollOf bossRoll) luckyRoll) ⟨s, generator⟩ =
          (result, ⟨t, generator⟩) ∧
      Fought playerDice name.cstr bossRoll luckyRoll s t result := by
  obtain ⟨t, died, heval, struck, frame⟩ := @eval_strike _ _ outputs i e
    (gamestateUpdateStreak name playerDice true s).2 generator name
    { AttackResult.zero with
      bossDice := rollOf bossRoll
      isWin := true
      isCrit := playerDice = 6 ∨ (gamestateUpdateStreak name playerDice true s).1 ≥ 3
      currentStreak := (gamestateUpdateStreak name playerDice true s).1
      dmgDealt :=
        if (gamestateUpdateStreak name playerDice true s).1 ≥ 3 then instantKillDamage
        else if playerDice = 6 then playerDice * 2 else playerDice }
    (inert_updateStreak.trans standing) rfl
  rw [resolveAttack, if_neg unlucky, if_pos wins]
  refine ⟨_, t, heval, struck.of_sameBoss (sameBoss_updateStreak _ _ _ _), rfl,
    iff_of_false Bool.false_ne_true unlucky, iff_of_true rfl (Or.inr wins), by simp, ?_, ?_,
    fun other hne => ?_, fun _ => ?_⟩
  · exact iff_of_false (lt_irrefl 0) fun h => wins.not_gt h.2
  · rw [frame]
    exact onlineCount_updateStreak
  · rw [frame]
    exact recordOf_updateStreak_of_ne hne terminated proper
  · rw [frame]
    exact luckyEvent_updateStreak

lemma eval_lost (standing : s.inert = false) (hp : 0 < s.currentHp)
    (terminated : s.players.Terminated) (proper : Proper name)
    (unlucky : ¬luckyRoll % 1000000 = 0) (loses : ¬playerDice > rollOf bossRoll) :
    ∃ result t, eval (SeededState.exec outputs i e)
        (resolveAttack playerDice name (rollOf bossRoll) luckyRoll) ⟨s, generator⟩ =
          (result, ⟨t, generator⟩) ∧
      Fought playerDice name.cstr bossRoll luckyRoll s t result := by
  obtain ⟨alive, calm⟩ := alive_of_not_inert standing
  obtain ⟨hp_eq, -, stage_eq, respawning_eq, -⟩ :=
    sameBoss_updateStreak s name playerDice false
  rw [resolveAttack, if_neg unlucky, if_neg loses]
  refine ⟨_, _, rfl, .of_standing hp rfl (hp_eq.trans (sub_zero _).symm) stage_eq
    (respawning_eq.trans calm) alive, rfl, iff_of_false Bool.false_ne_true unlucky,
    iff_of_false Bool.false_ne_true (not_or_intro unlucky loses), fun _ => rfl, ?_,
    onlineCount_updateStreak, fun other hne => recordOf_updateStreak_of_ne hne terminated proper,
    fun _ => luckyEvent_updateStreak⟩
  change 0 < (if playerDice < rollOf bossRoll then rollOf bossRoll + 10 else 0) ↔ _
  have pos : 0 < rollOf bossRoll := by
    unfold rollOf
    omega
  split_ifs with below
  · exact iff_of_true (by omega) ⟨unlucky, below⟩
  · exact iff_of_false (lt_irrefl 0) fun h => below h.2

end Unlucky

lemma eval_resolveAttack (standing : s.inert = false) (hp : 0 < s.currentHp)
    (terminated : s.players.Terminated) (proper : Proper name) (playerDice : ℤ)
    (bossRoll luckyRoll : ℕ) :
    ∃ result t, eval (SeededState.exec outputs i e)
        (resolveAttack playerDice name (rollOf bossRoll) luckyRoll) ⟨s, generator⟩ =
          (result, ⟨t, generator⟩) ∧
      Fought playerDice name.cstr bossRoll luckyRoll s t result := by
  by_cases lucky : luckyRoll % 1000000 = 0
  · exact eval_lucky standing playerDice bossRoll lucky
  · by_cases wins : playerDice > rollOf bossRoll
    · exact eval_won standing terminated proper lucky wins
    · exact eval_lost standing hp terminated proper lucky wins

/-- The state in which a battle has ended shows in the reply. -/
lemma ReplyShows.ofSnapshot (tidy : s.Tidy) (calm : s.isRespawning = false) :
    ReplyShows s (.ofSnapshot s) where
  bossHp_eq := rfl
  maxHp_eq := rfl
  stage_eq := rfl
  onlineCount_eq := rfl
  lastKiller_eq := strncpy_eq_of_holds tidy.killer_padded
  isRespawning_eq := by simp [PayloadGameState.ofSnapshot, calm]

/-- What a program that runs alone leaves is as tidy as what it finds. -/
lemma tidy_of_eval {α : Type} {p : Worker α} {s t : SeededState ι} {a : α}
    (ran : eval (SeededState.exec outputs i e) p s = (a, t)) (tidy : s.shm.Tidy) :
    t.shm.Tidy := by
  induction p generalizing s with
  | done b => exact (Prod.mk.inj ran).2 ▸ tidy
  | call o k ih =>
      have supplied := congrArg Prod.snd (SeededState.exec_supply outputs i e o s)
      dsimp only at supplied
      exact ih _ ran (supplied ▸ tidy.exec _ o)

end Battle

/-! ## The whole of it -/

section Whole

variable {ι : Type} [DecidableEq ι] {log : List (RaidEvent ι)}
  {c : Config ι WorkerOp WorkerOp.Ret (Option ClientLocals) GameSharedData}

/-- **The rule of combat.**  In any state that the workers can reach, for any accepted name, dice
and rolls, `game_process_attack` run without interference does nothing while no boss is standing,
and else its result, its reply and what it does to the state agree. -/
theorem combat_rule (run : (raid ι).Run (raidInit ι) log c) {pkt : GamePacket}
    (valid : inputValidateUsername pkt.joinUsername = true) (playerDice : ℤ)
    (outputs : ℤ → ℕ → ℕ) (i : ι) (e : RaidEnv) (generator : ι → Generator) :
    ∃ result reply t generator',
      eval (SeededState.exec outputs i e) (gameProcessAttack playerDice pkt.username)
        ⟨c.shared, generator⟩ = ((result, reply), ⟨t, generator'⟩) ∧
      (c.shared.inert = true → t = c.shared ∧ result = .zero) ∧
      (c.shared.inert = false →
        Fought playerDice pkt.username.cstr (outputs (generator i).seed (generator i).drawn)
          (outputs (generator i).seed ((generator i).drawn + 1)) c.shared t result ∧
        ReplyShows t reply) := by
  have tidy := run_tidy run
  have sound := run_shared_sound run
  cases inert : c.shared.inert with
  | true =>
      refine ⟨.zero, .ofSnapshot c.shared, c.shared, generator, ?_, fun _ => ⟨rfl, rfl⟩, by simp⟩
      simp [gameProcessAttack, SeededState.exec, WorkerOp.exec, GameOp.exec, inert]
  | false =>
      obtain ⟨alive, calm⟩ := alive_of_not_inert inert
      have hp : 0 < c.shared.currentHp :=
        sound.hp_nonneg.lt_of_ne' fun h => Bool.eq_false_iff.1 calm ((sound.of_alive alive).1 h)
      let drawn : ι → Generator :=
        Function.update generator i ⟨(generator i).seed, (generator i).drawn + 1 + 1⟩
      obtain ⟨result, t, heval, fought⟩ := @eval_resolveAttack _ _ outputs i e c.shared drawn
        pkt.username inert hp tidy.terminated (proper_username valid) playerDice
        (outputs (generator i).seed (generator i).drawn)
        (outputs (generator i).seed ((generator i).drawn + 1))
      refine ⟨result, .ofSnapshot t, t, drawn, ?_, by simp, fun _ =>
        ⟨fought, .ofSnapshot (tidy_of_eval heval tidy) fought.standing⟩⟩
      simp [gameProcessAttack, SeededState.exec, WorkerOp.exec, GameOp.exec, inert,
        Generator.rand, drawn, eval_bind, heval]

end Whole

/-- Two players join. -/
def bothJoined : List (Fin 2 × RaidEnv) := joins firstPlayer [97] ++ joins secondPlayer [98]

/-- With dice 6 against 1 and no luck, the first player attacks the first boss; and the second
player's attack finds that boss down and not yet replaced. -/
theorem combat_rule_bothJoined :
    (∃ result reply t generator',
      eval (SeededState.exec (fun _ n => n) firstPlayer unluckyEnv)
        (gameProcessAttack 6 (joinPacket [97]).username)
        ⟨((raid (Fin 2)).play (raidInit _) bothJoined).2.shared, fun _ => ⟨0, 0⟩⟩ =
          ((result, reply), ⟨t, generator'⟩) ∧
      Fought 6 (joinPacket [97]).username.cstr 0 1
        ((raid (Fin 2)).play (raidInit _) bothJoined).2.shared t result ∧
      ReplyShows t reply) ∧
    ∃ result reply t generator',
      eval (SeededState.exec (fun _ n => n) secondPlayer unluckyEnv)
        (gameProcessAttack 6 (joinPacket [98]).username)
        ⟨((raid (Fin 2)).play (raidInit _) killedNotSpawned).2.shared, fun _ => ⟨0, 0⟩⟩ =
          ((result, reply), ⟨t, generator'⟩) ∧
      t = ((raid (Fin 2)).play (raidInit _) killedNotSpawned).2.shared ∧ result = .zero := by
  constructor
  · obtain ⟨result, reply, t, generator', ran, -, rule⟩ :=
      combat_rule (Machine.run_play (raidInit (Fin 2)) bothJoined)
        (show inputValidateUsername (joinPacket [97]).joinUsername = true by decide +kernel)
        6 (fun _ n => n) firstPlayer unluckyEnv fun _ => ⟨0, 0⟩
    exact ⟨result, reply, t, generator', ran, rule (by decide +kernel)⟩
  · obtain ⟨result, reply, t, generator', ran, rule, -⟩ :=
      combat_rule (Machine.run_play (raidInit (Fin 2)) killedNotSpawned)
        (show inputValidateUsername (joinPacket [98]).joinUsername = true by decide +kernel)
        6 (fun _ n => n) secondPlayer unluckyEnv fun _ => ⟨0, 0⟩
    exact ⟨result, reply, t, generator', ran, rule (by decide +kernel)⟩

end WorldBossRaid
