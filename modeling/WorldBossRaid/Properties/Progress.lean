import WorldBossRaid.Properties.RaidInvariant

/-!
# The raid only goes forward

`Advanced s t` orders the states of the game: later stages come after earlier ones, and within a
stage the boss loses hit points until it is down and being replaced.  Every operation of every
worker moves forward in this order.  A worker's replies describe the snapshots it took, in the
order in which it took them, so what one session is told never goes back either.
-/

namespace WorldBossRaid

open Bytes Interaction Campaign

/-! ## Statement -/

/-- The hit points left in the whole raid, read off a reply. -/
def PayloadGameState.raidHp (p : PayloadGameState) : ℤ :=
  if p.stage = 0 then p.bossHp + 2000 else if p.stage = 1 then p.bossHp else 0

/-- The reply `q` does not go back behind the reply `p`. -/
structure PayloadGameState.Advanced (p q : PayloadGameState) : Prop where
  raidHp_le : q.raidHp ≤ p.raidHp
  stage_le : p.stage ≤ q.stage
  bossHp_le : q.stage = p.stage → q.bossHp ≤ p.bossHp
  respawning : q.stage = p.stage → p.isRespawning = 1 → q.isRespawning = 1

/-! ## The order of the states -/

/-- The hit points left in the whole raid. -/
def GameSharedData.raidHp (s : GameSharedData) : ℤ :=
  match s.stage with
  | .stage1 => s.currentHp + 2000
  | .stage2 => s.currentHp
  | .dead => 0

/-- The state `t` does not go back behind the state `s`. -/
structure GameSharedData.Advanced (s t : GameSharedData) : Prop where
  raidHp_le : t.raidHp ≤ s.raidHp
  stage_le : s.stage.code ≤ t.stage.code
  currentHp_le : t.stage = s.stage → t.currentHp ≤ s.currentHp
  respawning : t.stage = s.stage → s.isRespawning = true → t.isRespawning = true

lemma BossStage.code_injective {st st' : BossStage} (h : st.code = st'.code) : st = st' := by
  cases st <;> cases st' <;> first | rfl | cases h

namespace GameSharedData.Advanced

variable {s t u : GameSharedData}

lemma of_sameBoss (same : SameBoss s t) : s.Advanced t := by
  obtain ⟨hhp, -, hstage, hresp, -⟩ := same
  refine ⟨?_, ?_, fun _ => hhp.le, fun _ h => hresp.trans h⟩
  · rw [raidHp, raidHp, hhp, hstage]
  · rw [hstage]
    exact UInt8.le_refl _

lemma refl (s : GameSharedData) : s.Advanced s := of_sameBoss ⟨rfl, rfl, rfl, rfl, rfl⟩

lemma trans (h₁ : s.Advanced t) (h₂ : t.Advanced u) : s.Advanced u := by
  have hmid (h : u.stage = s.stage) : u.stage = t.stage ∧ t.stage = s.stage := by
    have hle := h₂.stage_le
    rw [h] at hle
    have hts := BossStage.code_injective (UInt8.le_antisymm hle h₁.stage_le)
    exact ⟨h.trans hts.symm, hts⟩
  refine ⟨h₂.raidHp_le.trans h₁.raidHp_le, UInt8.le_trans h₁.stage_le h₂.stage_le,
    fun h => ?_, fun h hresp => ?_⟩
  · exact (h₂.currentHp_le (hmid h).1).trans (h₁.currentHp_le (hmid h).2)
  · exact h₂.respawning (hmid h).1 (h₁.respawning (hmid h).2 hresp)

end GameSharedData.Advanced

/-! ## Every operation moves forward -/

/-- A hit takes hit points, and the last one makes the boss respawn. -/
lemma advanced_applyDamage {damage : ℤ} (hpos : 0 < damage) (name : Buffer maxPlayerName)
    {s : GameSharedData} (sound : s.Sound) :
    s.Advanced (gamestateApplyDamage damage name s).2 := by
  rcases applyDamage_cases damage name s with ⟨-, hret⟩ | ⟨-, -, hret⟩ | ⟨-, -, hret⟩
  · rw [hret]
    exact .refl s
  · rw [hret]
    refine ⟨?_, UInt8.le_refl _, fun _ => by dsimp only; omega, fun _ h => h⟩
    unfold GameSharedData.raidHp
    dsimp only
    split <;> omega
  · rw [hret]
    have hnonneg := sound.hp_nonneg
    refine ⟨?_, UInt8.le_refl _, fun _ => hnonneg, fun _ _ => rfl⟩
    unfold GameSharedData.raidHp
    dsimp only
    split <;> omega

/-- A spawn moves on to the next stage; the hit points of the second boss have been in the raid
from the start. -/
lemma advanced_spawnNextBoss {ι : Type} {s : GameSharedData} {k : Fin 2} {i : ι}
    (h : Represents s (.fallen k i : Situation ι bossMaxHp)) :
    s.Advanced (gamestateSpawnNextBoss s) := by
  obtain ⟨hhp, -, hstage, hresp⟩ := h
  obtain rfl | rfl : k = 0 ∨ k = 1 := by omega
  · have hs : s.stage = .stage1 := hstage
    rw [gamestateSpawnNextBoss, if_pos hs]
    have hne : ¬BossStage.stage2 = s.stage := by rw [hs]; decide
    refine ⟨?_, ?_, fun h => absurd h hne, fun h => absurd h hne⟩
    · simp only [GameSharedData.raidHp, hs, hhp, boss2MaxHp]
      decide
    · rw [hs]
      exact (show BossStage.stage1.code ≤ BossStage.stage2.code by decide)
  · have hs : s.stage = .stage2 := hstage
    rw [gamestateSpawnNextBoss, if_neg (by rw [hs]; decide)]
    have hne : ¬BossStage.dead = s.stage := by rw [hs]; decide
    refine ⟨?_, ?_, fun h => absurd h hne, fun h => absurd h hne⟩
    · simp only [GameSharedData.raidHp, hs, hhp]
      exact le_rfl
    · rw [hs]
      exact (show BossStage.stage2.code ≤ BossStage.dead.code by decide)

variable {ι : Type} [DecidableEq ι] {log : List (RaidEvent ι)}
  {c : Config ι WorkerOp WorkerOp.Ret (Option ClientLocals) GameSharedData}

lemma advanced_exec {s : GameSharedData} {i : ι} {o : WorkerOp} (coupled : Raid log s)
    (allowed : Allowed (own i log) o) (e : RaidEnv) : s.Advanced (o.exec e s).2 := by
  obtain ⟨S, -, represents, owes⟩ := coupled
  rcases o.actsOnBoss_cases with ho | ⟨damage, name, rfl⟩ | rfl
  · exact .of_sameBoss (sameBoss_exec ho e s)
  · exact advanced_applyDamage allowed.2.1 name represents.sound
  · obtain ⟨k, rfl⟩ := ((owes i).1 allowed).fallen
    exact advanced_spawnNextBoss represents

lemma run_advanced (run : (raid ι).Run (raidInit ι) log c) :
    ∀ e ∈ log, e.before.Advanced c.shared := by
  have both : Raid log c.shared ∧ ∀ e ∈ log, e.before.Advanced c.shared := by
    refine run.invariant (raid_disciplined ι)
      (fun log s => Raid log s ∧ ∀ e ∈ log, e.before.Advanced s) ?_ ?_
    · exact ⟨run_raid .start, fun e he => nomatch he⟩
    · intro log s i e o ih allowed
      refine ⟨ih.1.step allowed, fun e' he' => ?_⟩
      have hstep := advanced_exec ih.1 allowed e
      rcases List.mem_cons.1 he' with rfl | hmem
      · exact hstep
      · exact (ih.2 e' hmem).trans hstep
  exact both.2

/-! ## The replies -/

/-- Replies from states in order are in order. -/
lemma PayloadGameState.Advanced.ofSnapshot {s t : GameSharedData} (h : s.Advanced t)
    {p q : PayloadGameState} (hp : p.world = .ofSnapshot s) (hq : q.world = .ofSnapshot t) :
    p.Advanced q := by
  have hphp : p.bossHp = s.currentHp := congrArg PayloadGameState.bossHp hp
  have hqhp : q.bossHp = t.currentHp := congrArg PayloadGameState.bossHp hq
  have hpstage : p.stage = s.stage.code := congrArg PayloadGameState.stage hp
  have hqstage : q.stage = t.stage.code := congrArg PayloadGameState.stage hq
  have hpresp : p.isRespawning = if s.isRespawning then 1 else 0 :=
    congrArg PayloadGameState.isRespawning hp
  have hqresp : q.isRespawning = if t.isRespawning then 1 else 0 :=
    congrArg PayloadGameState.isRespawning hq
  have hraid {r : PayloadGameState} {u : GameSharedData} (hhp : r.bossHp = u.currentHp)
      (hstage : r.stage = u.stage.code) : r.raidHp = u.raidHp := by
    rw [raidHp, GameSharedData.raidHp, hhp, hstage]
    cases u.stage <;> rfl
  have hsame (heq : q.stage = p.stage) : t.stage = s.stage :=
    BossStage.code_injective (hqstage.symm.trans (heq.trans hpstage))
  refine ⟨?_, ?_, fun heq => ?_, fun heq hresp => ?_⟩
  · rw [hraid hphp hpstage, hraid hqhp hqstage]
    exact h.raidHp_le
  · rw [hpstage, hqstage]
    exact h.stage_le
  · rw [hphp, hqhp]
    exact h.currentHp_le (hsame heq)
  · have hs : s.isRespawning = true := by
      rw [hpresp] at hresp
      by_contra hnot
      rw [if_neg hnot] at hresp
      cases hresp
    rw [hqresp, h.respawning (hsame heq) hs]
    rfl

/-- The last snapshot of a thread is not older than the one it had taken last at an earlier
point. -/
lemma snapshotOf_later {i : ι} {post pre : List (RaidEvent ι)} {s t : RaidEvent ι}
    (hs : snapshotOf i pre = some s) (ht : snapshotOf i (post ++ pre) = some t) :
    t = s ∨ ∃ later between, post ++ pre = later ++ t :: between ∧ s ∈ between := by
  rw [snapshotOf, List.find?_append] at ht
  cases hpost : post.find? fun e => e.thread = i ∧ e.op = .game .getSnapshot with
  | none =>
      rw [hpost, Option.none_or] at ht
      exact Or.inl (Option.some.inj (ht.symm.trans hs))
  | some t' =>
      rw [hpost, Option.some_or] at ht
      obtain rfl := Option.some.inj ht
      obtain ⟨later, between, rfl⟩ := List.append_of_mem (List.mem_of_find?_eq_some hpost)
      refine Or.inr ⟨later, between ++ pre, by simp, ?_⟩
      exact List.mem_append_right _ (List.mem_of_find?_eq_some hs)

/-- **Progress is monotone for every observer.**  For any number of sessions and any interleaving,
no `GAME_STATE` that a session is sent goes back behind one it was sent before, whether they answer
attacks or heartbeats. -/
theorem replies_advance {post mid pre : List (RaidEvent ι)} {later earlier : RaidEvent ι}
    {p q : PayloadGameState}
    (run : (raid ι).Run (raidInit ι) (post ++ later :: (mid ++ earlier :: pre)) c)
    (same : later.thread = earlier.thread) (hearlier : earlier.op = .send (.gameState p))
    (hlater : later.op = .send (.gameState q)) : p.Advanced q := by
  obtain ⟨t, ht, hlast, hq⟩ := send_snapshot run hlater
  have run' : (raid ι).Run (raidInit ι) ((post ++ later :: mid) ++ earlier :: pre) c := by
    simpa using run
  obtain ⟨s, hs, hfirst, hp⟩ := send_snapshot run' hearlier
  refine .ofSnapshot ?_ hp hq
  rw [same, show mid ++ earlier :: pre = (mid ++ [earlier]) ++ pre by simp] at hlast
  rcases snapshotOf_later hfirst hlast with rfl | ⟨l, between, hsplit, hmem⟩
  · exact .refl _
  · have run'' : (raid ι).Run (raidInit ι) ((post ++ later :: l) ++ t :: between) c := by
      have hlog : post ++ later :: (mid ++ earlier :: pre) =
          (post ++ later :: l) ++ t :: between := by
        rw [show mid ++ earlier :: pre = (mid ++ [earlier]) ++ pre by simp, hsplit]
        simp
      rw [← hlog]
      exact run
    obtain ⟨c', run₁, hbefore⟩ := run''.before_event
    rw [hbefore]
    exact run_advanced run₁ s hmem

/-! ## A run -/

/-- The first player sends a heartbeat, for `n` steps. -/
def beats (n : ℕ) : List (Fin 2 × RaidEnv) :=
  List.replicate n (firstPlayer, receiving (clientPacket 1 OpCode.heartbeat.code []))

/-- The first player is answered a heartbeat before and after the second player's lucky kill. -/
def seesKill : List (Fin 2 × RaidEnv) :=
  joins firstPlayer [97] ++ joins secondPlayer [98] ++ beats 7 ++ aims secondPlayer ++
    [(secondPlayer, luckyEnv)] ++ beats 8

/-- The reply before the kill. -/
def replyBefore : PayloadGameState := .ofSnapshot { gamestateInit with onlineCount := 2 }

/-- The reply after it. -/
def replyAfter : PayloadGameState :=
  { PayloadGameState.ofSnapshot ((raid (Fin 2)).play (raidInit _) seesKill).2.shared with
    isLucky := 1 }

theorem replies_advance_seesKill :
    replyBefore.Advanced replyAfter ∧ replyAfter.bossHp = 0 ∧ replyAfter.isRespawning = 1 := by
  refine ⟨?_, by decide +kernel, by decide +kernel⟩
  have run := Machine.run_play (M := raid (Fin 2)) (raidInit _) seesKill
  have hlast : (((raid (Fin 2)).play (raidInit _) seesKill).1.head?.map
      fun e => (e.thread, e.op)) = some (firstPlayer, .send (.gameState replyAfter)) := by
    decide +kernel
  have hfirst : (((raid (Fin 2)).play (raidInit _) seesKill).1.tail.any
      fun e => decide ((e.thread, e.op) = (firstPlayer, .send (.gameState replyBefore)))) =
      true := by decide +kernel
  cases hlog : ((raid (Fin 2)).play (raidInit _) seesKill).1 with
  | nil =>
      rw [hlog] at hlast
      cases hlast
  | cons later rest =>
      rw [hlog] at run hlast hfirst
      obtain ⟨hthread, hop⟩ := Prod.mk.inj (Option.some.inj hlast)
      obtain ⟨earlier, hmem, hearlier⟩ := List.any_eq_true.1 hfirst
      obtain ⟨hthread', hop'⟩ := Prod.mk.inj (of_decide_eq_true hearlier)
      obtain ⟨mid, pre, rfl⟩ := List.append_of_mem (show earlier ∈ rest from hmem)
      have run' : (raid (Fin 2)).Run (raidInit _) ([] ++ later :: (mid ++ earlier :: pre)) _ := run
      exact replies_advance run' (hthread.trans hthread'.symm) hop' hop

end WorldBossRaid
