import WorldBossRaid.Framework.Campaign
import WorldBossRaid.Properties.Session

/-!
# The two bosses as a campaign

The shared state refines a campaign over two pools of hit points: an accepted `apply_damage` is a
wound or a kill, and `spawn_next_boss` is the killer's advance.  `Raid` is the coupling: the
blows of the log lead to a situation that the shared flags represent, and the workers that owe a
spawn are exactly the killer of a fallen boss.  `run_raid` carries it along every run.
-/

namespace WorldBossRaid

open Bytes Interaction Campaign

/-! ## The abstraction -/

/-- The hit points of the two bosses. -/
def bossMaxHp (k : Fin 2) : ℤ := if k = 0 then boss1MaxHp else boss2MaxHp

lemma bossMaxHp_pos (k : Fin 2) : 0 < bossMaxHp k := by
  unfold bossMaxHp
  split <;> decide

/-- The stage in which boss `k` is fought. -/
def stageOf (k : Fin 2) : BossStage := if k = 0 then .stage1 else .stage2

lemma stageOf_ne_dead (k : Fin 2) : stageOf k ≠ .dead := by
  unfold stageOf
  split <;> decide

lemma stageOf_injective {j k : Fin 2} (h : stageOf j = stageOf k) : j = k := by
  revert j k
  decide

/-- The shared flags represent a situation. -/
def Represents {ι : Type} (s : GameSharedData) : Situation ι bossMaxHp → Prop
  | .standing k hp _ _ =>
      s.currentHp = hp ∧ s.maxHp = bossMaxHp k ∧ s.stage = stageOf k ∧ s.isRespawning = false
  | .fallen k _ =>
      s.currentHp = 0 ∧ s.maxHp = bossMaxHp k ∧ s.stage = stageOf k ∧ s.isRespawning = true
  | .ended =>
      s.currentHp = 0 ∧ s.maxHp = boss2MaxHp ∧ s.stage = .dead ∧ s.isRespawning = false

/-- The events of the raid. -/
abbrev RaidEvent (ι : Type) : Type := Event ι WorkerOp WorkerOp.Ret GameSharedData RaidEnv

section Blows

variable {ι : Type}

/-- What an operation of thread `i` does to the campaign. -/
def blow (i : ι) (before : GameSharedData) : Prog.Answered WorkerOp WorkerOp.Ret → Option (Blow ι)
  | ⟨.game (.applyDamage damage _), killed⟩ =>
      if before.inert then none
      else if killed then some (.kill i damage) else some (.wound damage)
  | ⟨.game .spawnNextBoss, _⟩ => some (.advance i)
  | _ => none

/-- The blows of a log, newest first. -/
def blows (log : List (RaidEvent ι)) : List (Blow ι) :=
  log.flatMap fun e => (blow e.thread e.before e.answered).toList

/-- The workers that owe a spawn in a situation: the killer of a fallen boss, and no other. -/
def Owes (S : Situation ι bossMaxHp) (i : ι) : Prop :=
  match S with
  | .fallen _ killer => i = killer
  | _ => False

lemma Owes.fallen {S : Situation ι bossMaxHp} {i : ι} (owes : Owes S i) :
    ∃ k, S = .fallen k i := by
  cases S with
  | fallen k killer => exact ⟨k, by rw [show i = killer from owes]⟩
  | _ => exact owes.elim

/-- The coupling of logs and shared states with the campaign. -/
def Raid [DecidableEq ι] (log : List (RaidEvent ι)) (s : GameSharedData) : Prop :=
  ∃ S : Situation ι bossMaxHp, Plays bossMaxHp_pos (blows log) S ∧ Represents s S ∧
    ∀ i, owesSpawn (own i log) = true ↔ Owes S i

end Blows

/-! ## What an operation does to the boss -/

/-- Two states agree on the boss. -/
def SameBoss (s t : GameSharedData) : Prop :=
  t.currentHp = s.currentHp ∧ t.maxHp = s.maxHp ∧ t.stage = s.stage ∧
    t.isRespawning = s.isRespawning ∧ t.lastKiller = s.lastKiller

lemma SameBoss.trans {s t u : GameSharedData} (first : SameBoss s t) (second : SameBoss t u) :
    SameBoss s u := by
  obtain ⟨hp, maxHp, stage, respawning, killer⟩ := first
  obtain ⟨hp', maxHp', stage', respawning', killer'⟩ := second
  exact ⟨hp'.trans hp, maxHp'.trans maxHp, stage'.trans stage, respawning'.trans respawning,
    killer'.trans killer⟩

lemma SameBoss.represents {ι : Type} {s t : GameSharedData} (same : SameBoss s t)
    {S : Situation ι bossMaxHp} (h : Represents s S) : Represents t S := by
  obtain ⟨hhp, hmax, hstage, hresp, -⟩ := same
  cases S <;> simpa only [Represents, hhp, hmax, hstage, hresp] using h

/-- The operations that change the boss. -/
def WorkerOp.actsOnBoss : WorkerOp → Bool
  | .game (.applyDamage _ _) => true
  | .game .spawnNextBoss => true
  | _ => false

/-- An operation strikes the boss, spawns the next one, or does neither. -/
lemma WorkerOp.actsOnBoss_cases (o : WorkerOp) :
    o.actsOnBoss = false ∨ (∃ damage name, o = .game (.applyDamage damage name)) ∨
      o = .game .spawnNextBoss := by
  cases o with
  | game o =>
      cases o with
      | applyDamage damage name => exact Or.inr (Or.inl ⟨damage, name, rfl⟩)
      | spawnNextBoss => exact Or.inr (Or.inr rfl)
      | _ => exact Or.inl rfl
  | _ => exact Or.inl rfl

lemma sameBoss_updateStreak (s : GameSharedData) (name : Buffer maxPlayerName) (currentDice : ℤ)
    (isWin : Bool) : SameBoss s (gamestateUpdateStreak name currentDice isWin s).2 := by
  rw [gamestateUpdateStreak_frame]
  exact ⟨rfl, rfl, rfl, rfl, rfl⟩

lemma sameBoss_exec {o : WorkerOp} (ho : o.actsOnBoss = false) (e : RaidEnv)
    (s : GameSharedData) : SameBoss s (o.exec e s).2 := by
  have refl : SameBoss s s := ⟨rfl, rfl, rfl, rfl, rfl⟩
  cases o with
  | game o =>
      cases o with
      | playerJoin => exact refl
      | playerLeave =>
          change SameBoss s (gamestatePlayerLeave s)
          rw [gamestatePlayerLeave_frame]
          exact refl
      | getSnapshot => exact refl
      | applyDamage => cases ho
      | spawnNextBoss => cases ho
      | updateStreak name dice isWin => exact sameBoss_updateStreak s name dice isWin
      | markLuckyKill => exact refl
      | clearLuckyKill => exact refl
  | rand => exact refl
  | time => exact refl
  | recv => exact refl
  | send => exact refl
  | tlsShutdown => exact refl
  | mark => exact refl

/-- `gamestate_apply_damage` refuses the hit, wounds the boss, or kills it. -/
lemma applyDamage_cases (damage : ℤ) (name : Buffer maxPlayerName) (s : GameSharedData) :
    (s.inert = true ∧ gamestateApplyDamage damage name s = (false, s)) ∨
    (s.inert = false ∧ damage < s.currentHp ∧
      gamestateApplyDamage damage name s = (false, { s with currentHp := s.currentHp - damage })) ∨
    (s.inert = false ∧ s.currentHp ≤ damage ∧
      gamestateApplyDamage damage name s = (true, { s with
        currentHp := 0
        isRespawning := true
        lastKiller := s.lastKiller.strncpy name 31 nameCopy_fits })) := by
  cases hinert : s.inert with
  | true => exact Or.inl ⟨rfl, by rw [gamestateApplyDamage, if_pos hinert]⟩
  | false =>
      have hinert' : ¬s.inert = true := by rw [hinert]; decide
      rcases lt_or_ge damage s.currentHp with hlt | hle
      · refine Or.inr (Or.inl ⟨rfl, hlt, ?_⟩)
        simp only [gamestateApplyDamage, hinert', if_neg (show ¬s.currentHp - damage ≤ 0 by omega)]
        rfl
      · refine Or.inr (Or.inr ⟨rfl, hle, ?_⟩)
        simp only [gamestateApplyDamage, hinert', if_pos (show s.currentHp - damage ≤ 0 by omega)]
        rfl

lemma alive_of_not_inert {s : GameSharedData} (standing : s.inert = false) :
    s.stage ≠ .dead ∧ s.isRespawning = false := by
  simp only [GameSharedData.inert, Bool.or_eq_false_iff, beq_eq_false_iff_ne] at standing
  exact standing.symm

/-- The state refuses hits unless a boss is standing. -/
lemma inert_eq_false_iff {ι : Type} {s : GameSharedData} {S : Situation ι bossMaxHp}
    (h : Represents s S) : s.inert = false ↔ ∃ k hp hpos hle, S = .standing k hp hpos hle := by
  cases S with
  | standing k hp hpos hle =>
      refine iff_of_true ?_ ⟨k, hp, hpos, hle, rfl⟩
      simp [GameSharedData.inert, h.2.2.1, h.2.2.2, stageOf_ne_dead]
  | fallen k i =>
      refine iff_of_false ?_ (by simp)
      simp [GameSharedData.inert, h.2.2.2]
  | ended =>
      refine iff_of_false ?_ (by simp)
      simp [GameSharedData.inert, h.2.2.1]

lemma represents_spawn {ι : Type} {s : GameSharedData} {k : Fin 2} {i : ι}
    (h : Represents s (.fallen k i : Situation ι bossMaxHp)) :
    Represents (gamestateSpawnNextBoss s) (opened bossMaxHp_pos k : Situation ι bossMaxHp) := by
  obtain ⟨hhp, hmax, hstage, hresp⟩ := h
  obtain rfl | rfl : k = 0 ∨ k = 1 := by omega
  · have hs : s.stage = .stage1 := hstage
    rw [gamestateSpawnNextBoss, if_pos hs]
    exact ⟨rfl, rfl, rfl, rfl⟩
  · have hs : s.stage = .stage2 := hstage
    have hs' : ¬s.stage = .stage1 := by rw [hs]; decide
    rw [gamestateSpawnNextBoss, if_neg hs']
    exact ⟨rfl, hmax, rfl, rfl⟩

/-! ## The step -/

lemma blow_eq_none {ι : Type} {i : ι} {s : GameSharedData} {o : WorkerOp}
    (ho : o.actsOnBoss = false) (r : o.Ret) : blow i s ⟨o, r⟩ = none := by
  cases o with
  | game o => cases o <;> first | rfl | cases ho
  | _ => rfl

/-- Only `spawn_next_boss` is an advance. -/
lemma blow_eq_advance {ι : Type} {i j : ι} {s : GameSharedData}
    {a : Prog.Answered WorkerOp WorkerOp.Ret} (h : blow i s a = some (.advance j)) : i = j := by
  obtain ⟨o, r⟩ := a
  cases o with
  | game o =>
      cases o with
      | applyDamage damage name =>
          simp only [blow] at h
          split_ifs at h <;> cases h
      | spawnNextBoss => exact Blow.advance.inj (Option.some.inj h)
      | _ => cases h
  | _ => cases h

lemma owesSpawn_cons {o : WorkerOp} (ho : o.actsOnBoss = false) (r : o.Ret) (h : WorkerHistory) :
    owesSpawn (⟨o, r⟩ :: h) = owesSpawn h := by
  cases o with
  | game o => cases o <;> first | rfl | cases ho
  | _ => rfl

section Step

variable {ι : Type} [DecidableEq ι] {log : List (RaidEvent ι)} {s : GameSharedData}
  {i : ι} {e : RaidEnv} {o : WorkerOp}

omit [DecidableEq ι] in
lemma blows_event :
    blows ((raid ι).event i e o s :: log) =
      (blow i s ⟨o, (o.exec e s).1⟩).toList ++ blows log := rfl

/-- Only thread `i`'s debt can change when `i` issues an operation. -/
lemma owes_event {owed : ι → Prop}
    (hi : owesSpawn (⟨o, (o.exec e s).1⟩ :: own i log) = true ↔ owed i)
    (hother : ∀ j, j ≠ i → (owesSpawn (own j log) = true ↔ owed j)) (j : ι) :
    owesSpawn (own j ((raid ι).event i e o s :: log)) = true ↔ owed j := by
  by_cases hij : i = j
  · subst hij
    rw [Machine.own_event_self]
    exact hi
  · rw [Machine.own_event_of_ne _ hij]
    exact hother j (Ne.symm hij)

omit [DecidableEq ι] in
lemma blows_applyDamage {damage : ℤ} {name : Buffer maxPlayerName} {killed : Bool}
    {s' : GameSharedData} (hret : gamestateApplyDamage damage name s = (killed, s')) :
    blows ((raid ι).event i e (.game (.applyDamage damage name)) s :: log) =
      (if s.inert then none
        else if killed then some (.kill i damage) else some (.wound damage)).toList ++
      blows log := by
  obtain rfl : (gamestateApplyDamage damage name s).1 = killed := congrArg Prod.fst hret
  rfl

/-- A hit is refused, wounds the standing boss, or kills it and leaves its worker with the debt. -/
lemma Raid.applyDamage (coupled : Raid log s) {damage : ℤ} {name : Buffer maxPlayerName}
    (free : owesSpawn (own i log) = false) (hpos : 0 < damage) :
    Raid ((raid ι).event i e (.game (.applyDamage damage name)) s :: log)
      (gamestateApplyDamage damage name s).2 := by
  obtain ⟨S, plays, represents, owes⟩ := coupled
  have hdebt {killed : Bool} {s' : GameSharedData}
      (hret : gamestateApplyDamage damage name s = (killed, s')) :
      owesSpawn (⟨.game (.applyDamage damage name),
        (WorkerOp.exec e (.game (.applyDamage damage name)) s).1⟩ :: own i log) = killed :=
    congrArg Prod.fst hret
  rcases applyDamage_cases damage name s with
    ⟨hinert, hret⟩ | ⟨hinert, hlt, hret⟩ | ⟨hinert, hle, hret⟩
  · refine ⟨S, ?_, by rwa [hret], owes_event ?_ fun j _ => owes j⟩
    · rw [blows_applyDamage hret, hinert]
      exact plays
    · rw [hdebt hret, ← owes i, free]
  · obtain ⟨k, hp, hpos', hle', rfl⟩ := (inert_eq_false_iff represents).1 hinert
    obtain ⟨rfl, hmax, hstage, hresp⟩ := represents
    refine ⟨.standing k (s.currentHp - damage) (by omega) (by omega), ?_, ?_,
      owes_event ?_ fun j _ => owes j⟩
    · rw [blows_applyDamage hret, hinert]
      exact .wound plays damage hpos hlt
    · rw [hret]
      exact ⟨rfl, hmax, hstage, hresp⟩
    · rw [hdebt hret]
      exact iff_of_false Bool.false_ne_true id
  · obtain ⟨k, hp, hpos', hle', rfl⟩ := (inert_eq_false_iff represents).1 hinert
    obtain ⟨rfl, hmax, hstage, hresp⟩ := represents
    refine ⟨.fallen k i, ?_, ?_, owes_event ?_ fun j hj => ?_⟩
    · rw [blows_applyDamage hret, hinert]
      exact .kill plays i damage hle
    · rw [hret]
      exact ⟨rfl, hmax, hstage, rfl⟩
    · rw [hdebt hret]
      exact iff_of_true rfl rfl
    · exact (owes j).trans (iff_of_false id hj)

/-- The worker that owes the spawn opens the next boss. -/
lemma Raid.spawnNextBoss (coupled : Raid log s) (debt : owesSpawn (own i log) = true) :
    Raid ((raid ι).event i e (.game .spawnNextBoss) s :: log) (gamestateSpawnNextBoss s) := by
  obtain ⟨S, plays, represents, owes⟩ := coupled
  obtain ⟨k, rfl⟩ := ((owes i).1 debt).fallen
  refine ⟨opened bossMaxHp_pos k, .advance plays, represents_spawn represents, ?_⟩
  have hnone (j : ι) : ¬Owes (opened bossMaxHp_pos k : Situation ι bossMaxHp) j := by
    unfold opened
    split <;> exact id
  refine owes_event ?_ fun j hj => ?_
  · exact iff_of_false Bool.false_ne_true (hnone i)
  · exact (owes j).trans (iff_of_false hj (hnone j))

/-- **One step of the raid keeps the coupling.** -/
theorem Raid.step (coupled : Raid log s) (allowed : Allowed (own i log) o) :
    Raid ((raid ι).event i e o s :: log) (o.exec e s).2 := by
  rcases o.actsOnBoss_cases with ho | ⟨damage, name, rfl⟩ | rfl
  · obtain ⟨S, plays, represents, owes⟩ := coupled
    refine ⟨S, ?_, (sameBoss_exec ho e s).represents represents, owes_event ?_ fun j _ => owes j⟩
    · rw [blows_event, blow_eq_none ho]
      exact plays
    · rw [owesSpawn_cons ho]
      exact owes i
  · exact coupled.applyDamage allowed.1 allowed.2.1
  · exact coupled.spawnNextBoss allowed

/-- **Every run of the raid is coupled with a campaign.** -/
theorem run_raid {c : Config ι WorkerOp WorkerOp.Ret (Option ClientLocals) GameSharedData}
    (run : (raid ι).Run (raidInit ι) log c) : Raid log c.shared := by
  refine run.invariant (raid_disciplined ι) Raid ?_ fun log s i e o coupled allowed =>
    coupled.step allowed
  refine ⟨.standing 0 (bossMaxHp 0) (bossMaxHp_pos 0) le_rfl, .start (by decide), ?_, fun i => ?_⟩
  · exact ⟨rfl, rfl, rfl, rfl⟩
  · exact iff_of_false Bool.false_ne_true id

end Step

end WorldBossRaid
