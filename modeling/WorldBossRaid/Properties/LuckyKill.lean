import WorldBossRaid.Properties.DamageAccounting
import WorldBossRaid.Properties.LuckyEvent

/-!
# Does an announced lucky kill kill?

A lucky roll is announced before its damage is applied, in a critical section of its own, and the
boss it was aimed at was last seen alive in the snapshot before the rolls.  The damage kills
whatever boss is standing, so the announcement is true exactly if one is: between the snapshot and
the hit, every kill was followed by its spawn and none of them ended the game.
-/

namespace WorldBossRaid

open Bytes Interaction Prog

/-! ## Statement -/

section Statement

variable {ι : Type} [DecidableEq ι]

/-- `hit` is what the thread of `m` does next after `m`. -/
def NextIs (hit m : RaidEvent ι) (mid : List (RaidEvent ι)) : Prop :=
  hit.thread = m.thread ∧ own m.thread mid = []

/-- The lucky kills that are announced kill: what follows a mark is an `apply_damage` that brings a
boss down, and what a snapshot shows has been marked. -/
structure AnnouncesKills (log : List (RaidEvent ι)) : Prop where
  kills : ∀ post hit mid m pre, log = post ++ hit :: (mid ++ m :: pre) →
    m.op.marksLucky = true → NextIs hit m mid →
    (∃ damage name, hit.op = .game (.applyDamage damage name)) ∧ kills hit = true
  marked : ∀ post s pre snap, log = post ++ s :: pre → s.answered = ⟨.game .getSnapshot, snap⟩ →
    snap.hasLuckyKillEvent = true → ∃ m ∈ pre, m.op.marksLucky = true

omit [DecidableEq ι] in
/-- As many spawns as kills, and no kill of the second boss. -/
def BossReplaced (log : List (RaidEvent ι)) : Prop :=
  (log.filter kills).length = (log.filter spawns).length ∧
    ∀ e ∈ log, kills e = true → e.before.stage = .stage1

/-- Between the snapshot of every lucky attack and its `apply_damage`, every boss that fell has
been replaced. -/
def LuckyBossStands (log : List (RaidEvent ι)) : Prop :=
  ∀ post hit mid m pre, log = post ++ hit :: (mid ++ m :: pre) →
    m.op.marksLucky = true → NextIs hit m mid →
    BossReplaced (sinceSnapshot hit.thread (mid ++ m :: pre))

end Statement

/-! ## The order of a lucky attack -/

/-- Has the worker just announced a lucky kill? -/
def justMarked : WorkerHistory → Bool
  | ⟨.game .markLuckyKill, _⟩ :: _ => true
  | _ => false

/-- A worker announces a lucky kill after two rolls and a snapshot that saw a boss, and strikes
right after it with all its might. -/
def MarksThenStrikes (h : WorkerHistory) : WorkerOp → Prop
  | .game .markLuckyKill => ∃ (luckyRoll bossRoll : ℕ) (snap : GameSharedData) (h₀ : WorkerHistory),
      h = ⟨.rand, luckyRoll⟩ :: ⟨.rand, bossRoll⟩ :: ⟨.game .getSnapshot, snap⟩ :: h₀ ∧
        snap.inert = false
  | .game (.applyDamage damage _) => justMarked h = true → damage = instantKillDamage
  | _ => justMarked h = false

variable {h : WorkerHistory} {name : Buffer maxPlayerName}

/-- The operations that are neither part of a lucky attack. -/
def WorkerOp.plainStep (o : WorkerOp) : Bool :=
  match o with
  | .game .markLuckyKill => false
  | .game (.applyDamage _ _) => false
  | _ => true

lemma justMarked_cons {o : WorkerOp} (ho : o.marksLucky = false) (r : o.Ret) :
    justMarked (⟨o, r⟩ :: h) = false := by
  cases o with
  | game o => cases o <;> first | rfl | cases ho
  | _ => rfl

lemma WorkerOp.of_plainStep {o : WorkerOp} (ho : o.plainStep = true) :
    o.marksLucky = false ∧ (justMarked h = false → MarksThenStrikes h o) := by
  cases o with
  | game o => cases o <;> first | exact ⟨rfl, fun hj => hj⟩ | cases ho
  | _ => exact ⟨rfl, fun hj => hj⟩

lemma stays_unmarked {α : Type} {p : Worker α} (hp : Issues (fun o => o.plainStep = true) p)
    (unmarked : justMarked h = false) :
    Conforms MarksThenStrikes (fun h' _ => justMarked h' = false) h p := by
  refine hp.conforms (fun h o unmarked ho => ?_) (fun h o r _ ho => ?_) unmarked
  · exact (WorkerOp.of_plainStep ho).2 unmarked
  · exact justMarked_cons (WorkerOp.of_plainStep (h := h) ho).1 r

lemma strike_marksThenStrikes {result : AttackResult}
    (hdmg : justMarked h = true → result.dmgDealt = instantKillDamage) :
    Conforms MarksThenStrikes (fun h' _ => justMarked h' = false) h (strike name result) := by
  refine ⟨hdmg, fun killed => ?_⟩
  cases killed with
  | false => exact rfl
  | true => exact ⟨rfl, fun _ => rfl⟩

lemma gameProcessAttack_marksThenStrikes (unmarked : justMarked h = false) (playerDice : ℤ) :
    Conforms MarksThenStrikes (fun h' _ => justMarked h' = false) h
      (gameProcessAttack playerDice name) := by
  have strikes (h' : WorkerHistory) (hh' : justMarked h' = false) (result : AttackResult) :
      Conforms MarksThenStrikes (fun h' _ => justMarked h' = false) h' (strike name result) :=
    strike_marksThenStrikes fun hj => absurd (hh'.symm.trans hj) Bool.false_ne_true
  simp only [gameProcessAttack, perform_bind, conforms_call]
  refine ⟨unmarked, fun snap => ?_⟩
  split
  · exact rfl
  · next alive =>
      refine ⟨rfl, fun bossRoll => ⟨rfl, fun luckyRoll => conforms_bind.2 ?_⟩⟩
      refine Conforms.weaken ?_ fun h' _ hh' => ⟨hh', fun _ => rfl⟩
      simp only [resolveAttack, perform_bind]
      split
      · exact ⟨⟨luckyRoll, bossRoll, snap, h, rfl, by simpa using alive⟩, fun _ =>
          strike_marksThenStrikes fun _ => rfl⟩
      · split
        · exact ⟨rfl, fun _ => strikes _ rfl _⟩
        · exact ⟨rfl, fun _ => rfl⟩

lemma handleAttack_marksThenStrikes (unmarked : justMarked h = false) (pkt : GamePacket) :
    Conforms MarksThenStrikes (fun h' _ => justMarked h' = false) h (handleAttack pkt name) := by
  have dice : Conforms MarksThenStrikes (fun h' _ => justMarked h' = false) h
      (attackDice pkt) := by
    unfold attackDice
    split
    · exact ⟨unmarked, fun _ => rfl⟩
    · exact unmarked
  apply dice.seq
  intro h₁ playerDice unmarked₁
  apply (gameProcessAttack_marksThenStrikes unmarked₁ playerDice).seq
  intro h₂ outcome unmarked₂
  exact ⟨unmarked₂, fun _ => ⟨rfl, fun _ => rfl⟩⟩

lemma WorkerOp.InHeartbeat.plainStep {o : WorkerOp} (ho : o.InHeartbeat) : o.plainStep = true :=
  ho.each rfl rfl rfl fun _ => rfl

lemma WorkerOp.InCleanup.plainStep {o : WorkerOp} (ho : o.InCleanup) : o.plainStep = true :=
  ho.each rfl rfl

lemma WorkerOp.InLoop.plainStep {o : WorkerOp} (ho : o.InLoop) : o.plainStep = true :=
  ho.each rfl rfl fun _ => rfl

lemma WorkerOp.InPrelude.plainStep {o : WorkerOp} (ho : o.InPrelude) : o.plainStep = true :=
  ho.each rfl rfl rfl rfl rfl (fun _ => rfl) fun _ => rfl

lemma marksThenStrikesRule :
    LoopRule MarksThenStrikes (fun _ h => justMarked h = false) fun h => justMarked h = false where
  allows _ _ _ unmarked ho := (WorkerOp.of_plainStep ho.plainStep).2 unmarked
  keeps _ h _ r _ ho := justMarked_cons (WorkerOp.of_plainStep (h := h) ho.plainStep).1 r
  limiter _ _ _ unmarked := unmarked
  attack _ _ pkt unmarked := handleAttack_marksThenStrikes unmarked pkt
  heartbeat _ _ unmarked :=
    stays_unmarked (handleHeartbeat_issues.mono fun _ ho => ho.plainStep) unmarked
  cleanup l _ unmarked :=
    stays_unmarked ((cleanupClient_issues l.playerId).mono fun _ ho => ho.plainStep) unmarked

theorem raid_marksThenStrikes (ι : Type) :
    (raid ι).Disciplined (fun _ => MarksThenStrikes)
      (fun _ => AtHeadOrEnd (fun _ h => justMarked h = false) fun h => justMarked h = false)
      (raidInit ι) where
  first _ := (stays_unmarked (handleClient_issues.mono fun _ ho => ho.plainStep) rfl).weaken
    fun _ v unmarked => atHeadOrEnd_of (fun _ => unmarked) unmarked v
  again _ _ _ _ := marksThenStrikesRule.dispatchRule.again

/-! ## What follows a mark in the log -/

section Run

variable {ι : Type} [DecidableEq ι] {log : List (RaidEvent ι)}
  {c : Config ι WorkerOp WorkerOp.Ret (Option ClientLocals) GameSharedData}

/-- After a mark, its worker strikes with all its might. -/
lemma next_strikes {post mid pre : List (RaidEvent ι)} {hit m : RaidEvent ι}
    (run : (raid ι).Run (raidInit ι) (post ++ hit :: (mid ++ m :: pre)) c)
    (hmarks : m.op.marksLucky = true) (next : NextIs hit m mid) :
    ∃ name, hit.op = .game (.applyDamage instantKillDamage name) := by
  have hallowed := run.allowed (raid_marksThenStrikes ι)
  have hmarked : justMarked (own hit.thread (mid ++ m :: pre)) = true := by
    rw [next.1, own_append, next.2, own_cons, if_pos rfl]
    obtain ⟨j, env, op, ret, before, after⟩ := m
    obtain rfl : op = .game .markLuckyKill := eq_mark hmarks
    rfl
  have absurd_of {p : Prop} (unmarked : justMarked (own hit.thread (mid ++ m :: pre)) = false) :
      p := absurd (hmarked.symm.trans unmarked) (by decide)
  generalize hit.op = o at hallowed ⊢
  cases o with
  | game o =>
      cases o with
      | applyDamage damage name => exact ⟨name, by rw [hallowed hmarked]⟩
      | markLuckyKill =>
          obtain ⟨luckyRoll, bossRoll, snap, h₀, hown, -⟩ := hallowed
          rw [hown] at hmarked
          cases hmarked
      | _ => exact absurd_of hallowed
  | _ => exact absurd_of hallowed

lemma sinceSnapshot_append_of_idle {i : ι} {mid l : List (RaidEvent ι)} (idle : own i mid = []) :
    sinceSnapshot i (mid ++ l) = mid ++ sinceSnapshot i l := by
  refine List.takeWhile_append_of_pos fun e he => ?_
  have hne : e.thread ≠ i := by
    intro hi
    have hmem := answered_mem_own he hi
    rw [idle] at hmem
    cases hmem
  simp [hne]

/-- The snapshot of a lucky attack saw a boss, and the log back to it. -/
lemma aim_parts {post mid pre : List (RaidEvent ι)} {hit m : RaidEvent ι}
    (run : (raid ι).Run (raidInit ι) (post ++ hit :: (mid ++ m :: pre)) c)
    (hmarks : m.op.marksLucky = true) (next : NextIs hit m mid) :
    ∃ s base, mid ++ m :: pre = sinceSnapshot hit.thread (mid ++ m :: pre) ++ s :: base ∧
      s.op = .game .getSnapshot ∧ s.before.inert = false := by
  have run' : (raid ι).Run (raidInit ι) ((post ++ hit :: mid) ++ m :: pre) c := by
    simpa using run
  have hallowed := run'.allowed (raid_marksThenStrikes ι)
  rw [eq_mark hmarks] at hallowed
  obtain ⟨luckyRoll, bossRoll, snap, h₀, hown, alive⟩ := hallowed
  have hlast : lastSnapshot (own m.thread pre) = some snap := by
    rw [hown]
    rfl
  obtain ⟨s, base, hpre, hsop, hseen⟩ :=
    snapshot_parts (show (raid ι).Run (raidInit ι) ((post ++ hit :: mid ++ [m]) ++ pre) c by
      simpa using run) hlast
  have hsince : sinceSnapshot m.thread (m :: pre) = m :: sinceSnapshot m.thread pre := by
    rw [sinceSnapshot, List.takeWhile_cons_of_pos (by simp [eq_mark hmarks])]
    rfl
  refine ⟨s, base, ?_, hsop, by rw [← hseen]; exact alive⟩
  rw [next.1, sinceSnapshot_append_of_idle next.2, hsince, List.append_assoc, List.cons_append,
    ← hpre]

/-! ## When a boss stands -/

lemma killed_stage1_iff (run : (raid ι).Run (raidInit ι) log c) :
    (∀ e ∈ log, kills e = true → e.before.stage = .stage1) ↔ broughtDown c.shared .stage2 = 0 := by
  obtain ⟨hbrought, -⟩ := run_counted run
  constructor
  · intro hfirst
    rw [← hbrought, List.length_eq_zero_iff, List.filter_eq_nil_iff]
    intro e he hkill
    rw [Bool.and_eq_true, beq_iff_eq] at hkill
    have hstage := hfirst e he hkill.1
    rw [hkill.2] at hstage
    cases hstage
  · intro hzero e he hkill
    have hnone (st : BossStage) (hst : broughtDown c.shared st = 0) : e.before.stage ≠ st := by
      rw [← hbrought, List.length_eq_zero_iff, List.filter_eq_nil_iff] at hst
      intro hstage
      exact hst e he (by rw [hkill, hstage]; simp)
    cases hstage : e.before.stage with
    | stage1 => rfl
    | stage2 => exact absurd hstage (hnone .stage2 hzero)
    | dead => exact absurd hstage (hnone .dead rfl)

/-- A boss stands exactly if every boss that fell has been replaced. -/
lemma alive_iff_bossReplaced (run : (raid ι).Run (raidInit ι) log c) :
    c.shared.inert = false ↔ BossReplaced log := by
  obtain ⟨hbrought, hspawned⟩ := run_counted run
  rw [BossReplaced, killed_stage1_iff run, length_filter_kills, hbrought, hbrought, hbrought,
    hspawned]
  cases hstage : c.shared.stage <;> cases hresp : c.shared.isRespawning <;>
    simp [GameSharedData.inert, broughtDown, spawned, hstage, hresp]

omit [DecidableEq ι] in
lemma bossReplaced_append {l base : List (RaidEvent ι)} (hbase : BossReplaced base) :
    BossReplaced (l ++ base) ↔ BossReplaced l := by
  rw [BossReplaced, BossReplaced, List.filter_append, List.filter_append, List.length_append,
    List.length_append, hbase.1, Nat.add_right_cancel_iff, List.forall_mem_append,
    and_iff_left hbase.2]

/-- After a snapshot that saw a boss, one stands exactly if those that fell since have been
replaced. -/
lemma alive_iff_since {l base : List (RaidEvent ι)} {s : RaidEvent ι}
    (run : (raid ι).Run (raidInit ι) (l ++ s :: base) c) (hsop : s.op = .game .getSnapshot)
    (alive : s.before.inert = false) : c.shared.inert = false ↔ BossReplaced l := by
  obtain ⟨c₀, run₀, hbefore⟩ := run.before_event
  rw [hbefore] at alive
  have hbase := (alive_iff_bossReplaced run₀).1 alive
  have hquiet : kills s = false ∧ spawns s = false := by
    obtain ⟨j, env, op, ret, before, after⟩ := s
    obtain rfl : op = .game .getSnapshot := hsop
    exact ⟨rfl, rfl⟩
  have hcons : BossReplaced (s :: base) := by
    rw [BossReplaced, List.filter_cons_of_neg (by simp [hquiet.1]),
      List.filter_cons_of_neg (by simp [hquiet.2]), List.forall_mem_cons]
    exact ⟨hbase.1, by simp [hquiet.1], hbase.2⟩
  rw [alive_iff_bossReplaced run, bossReplaced_append hcons]

/-- No boss has as many hit points as a lucky kill takes. -/
lemma currentHp_le {s : GameSharedData} (sound : s.Sound) : s.currentHp ≤ instantKillDamage := by
  have hle := sound.hp_le
  have hmax : s.stage.maxHp ≤ 2000 := by cases s.stage <;> decide
  rw [sound.maxHp_eq] at hle
  exact hle.trans (hmax.trans (by decide))

/-- The hit of a lucky attack kills exactly if the bosses that fell since its snapshot have been
replaced. -/
lemma lucky_kills_iff {post mid pre : List (RaidEvent ι)} {hit m : RaidEvent ι}
    (run : (raid ι).Run (raidInit ι) (post ++ hit :: (mid ++ m :: pre)) c)
    (hmarks : m.op.marksLucky = true) (next : NextIs hit m mid) :
    kills hit = true ↔ BossReplaced (sinceSnapshot hit.thread (mid ++ m :: pre)) := by
  obtain ⟨name, hop⟩ := next_strikes run hmarks next
  obtain ⟨s, base, hsplit, hsop, alive⟩ := aim_parts run hmarks next
  obtain ⟨c', run', hbefore⟩ := run.before_event
  have hle := currentHp_le (before_sound run (show hit ∈ _ by simp))
  rw [hsplit] at run'
  rw [run_kill_iff run (by simp) hop, hbefore, ← alive_iff_since run' hsop alive, ← hbefore]
  exact and_iff_left (by omega)

lemma marked_of_shown {post pre : List (RaidEvent ι)} {s : RaidEvent ι} {snap : GameSharedData}
    (run : (raid ι).Run (raidInit ι) (post ++ s :: pre) c)
    (hs : s.answered = ⟨.game .getSnapshot, snap⟩) (hflag : snap.hasLuckyKillEvent = true) :
    ∃ m ∈ pre, m.op.marksLucky = true := by
  have shown := before_shown run
  rw [snapshot_ret run (by simp) hs] at hflag
  cases hlast : lastMark pre with
  | none =>
      rw [shown.1 hlast] at hflag
      cases hflag
  | some m =>
      rw [lastMark, Option.filter_eq_some_iff] at hlast
      exact ⟨m, List.mem_of_find?_eq_some hlast.1, hlast.2⟩

/-- **An announced lucky kill kills, exactly if the boss its attack saw has not fallen in between
without being replaced**: for any number of sessions and any interleaving. -/
theorem announcesKills_iff (run : (raid ι).Run (raidInit ι) log c) :
    AnnouncesKills log ↔ LuckyBossStands log := by
  constructor
  · rintro announces post hit mid m pre rfl hmarks next
    exact (lucky_kills_iff run hmarks next).1 (announces.kills _ _ _ _ _ rfl hmarks next).2
  · intro stands
    refine ⟨?_, ?_⟩
    · rintro post hit mid m pre rfl hmarks next
      obtain ⟨name, hop⟩ := next_strikes run hmarks next
      exact ⟨⟨_, name, hop⟩,
        (lucky_kills_iff run hmarks next).2 (stands _ _ _ _ _ rfl hmarks next)⟩
    · rintro post s pre snap rfl hs hflag
      exact marked_of_shown run hs hflag

end Run

/-! ## A lucky kill that does not kill -/

/-- Two players have announced lucky kills of the first boss; the first one's hit kills it, and the
second one's comes before the next boss has appeared. -/
def announcedLate : List (Fin 2 × RaidEnv) :=
  joins firstPlayer [97] ++ joins secondPlayer [98] ++ aims firstPlayer ++ aims secondPlayer ++
    [(firstPlayer, luckyEnv), (secondPlayer, luckyEnv)]

/-- The last events of that run: the second player's mark, the first player's hit, the second
player's hit. -/
lemma announcedLate_log :
    ∃ hit x m pre, ((raid (Fin 2)).play (raidInit _) announcedLate).1 =
        [] ++ hit :: ([x] ++ m :: pre) ∧
      m.op.marksLucky = true ∧ NextIs hit m [x] ∧ kills hit = false := by
  have hlast : (((raid (Fin 2)).play (raidInit _) announcedLate).1.take 3).map
      (fun e => (e.thread, e.op.marksLucky, kills e)) =
      [(secondPlayer, false, false), (firstPlayer, false, true), (secondPlayer, true, false)] := by
    decide +kernel
  match hlog : ((raid (Fin 2)).play (raidInit _) announcedLate).1 with
  | [] => simp [hlog] at hlast
  | [_] => simp [hlog] at hlast
  | [_, _] => simp [hlog] at hlast
  | hit :: x :: m :: pre =>
      rw [hlog] at hlast
      simp only [List.take_succ_cons, List.take_zero, List.map_cons, List.map_nil,
        List.cons.injEq, Prod.mk.injEq] at hlast
      obtain ⟨⟨hhit, -, hkills⟩, ⟨hx, -, -⟩, ⟨hm, hmarks, -⟩, -⟩ := hlast
      refine ⟨hit, x, m, pre, rfl, hmarks, ⟨hhit.trans hm.symm, ?_⟩, hkills⟩
      rw [own_cons, if_neg (by rw [hx, hm]; decide)]
      rfl

theorem announcedLate_no_kill :
    ¬AnnouncesKills ((raid (Fin 2)).play (raidInit _) announcedLate).1 := by
  obtain ⟨hit, x, m, pre, hlog, hmarks, next, hkills⟩ := announcedLate_log
  intro announces
  have hkill := (announces.kills _ _ _ _ _ hlog hmarks next).2
  exact absurd (hkills.symm.trans hkill) Bool.false_ne_true

theorem announcesKills_iff_announcedLate :
    ¬LuckyBossStands ((raid (Fin 2)).play (raidInit _) announcedLate).1 := by
  obtain ⟨hit, x, m, pre, hlog, hmarks, next, hkills⟩ := announcedLate_log
  intro stands
  have announces :=
    (announcesKills_iff (Machine.run_play (raidInit (Fin 2)) announcedLate)).2 stands
  have hkill := (announces.kills _ _ _ _ _ hlog hmarks next).2
  exact absurd (hkills.symm.trans hkill) Bool.false_ne_true

end WorldBossRaid
