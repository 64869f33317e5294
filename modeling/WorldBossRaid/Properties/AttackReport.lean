import WorldBossRaid.Properties.DamageAccounting

/-!
# What an attack reports and what it did

`game_process_attack` looks at the boss in one critical section and strikes it in another, and
fills in its result before the second.  `ReportsEffect` says that the result it returns describes
the hit it made: accepted, by that amount, on the boss that its first snapshot saw.  The exact
condition for that is `Undisturbed`: nobody may have killed the boss in between.
-/

namespace WorldBossRaid

open Bytes Interaction Campaign

variable {ι : Type} [DecidableEq ι]

/-! ## Statement -/

/-- The log back from the `apply_damage` of thread `i`'s present request; empty if the request,
which began with its last receive, has made none. -/
def upToHit (i : ι) : List (RaidEvent ι) → List (RaidEvent ι)
  | [] => []
  | e :: log =>
    if e.thread = i then
      match e.op with
      | .recv _ => []
      | .game (.applyDamage _ _) => e :: log
      | _ => upToHit i log
    else upToHit i log

/-- The `apply_damage` of thread `i`'s present request. -/
def hitOf (i : ι) (log : List (RaidEvent ι)) : Option (RaidEvent ι) := (upToHit i log).head?

/-- The snapshot that an attack which made a hit had taken before. -/
def aimOf (i : ι) (log : List (RaidEvent ι)) : Option (RaidEvent ι) :=
  snapshotOf i (upToHit i log).tail

/-- The events between that snapshot and the hit. -/
def exposure (i : ι) (log : List (RaidEvent ι)) : List (RaidEvent ι) :=
  (upToHit i log).tail.takeWhile fun e => !decide (e.thread = i ∧ e.op = .game .getSnapshot)

/-- An attack of thread `i` that has just returned `result` reports what it did. -/
def ReportsEffect (i : ι) (result : AttackResult) (log : List (RaidEvent ι)) : Prop :=
  (0 < result.dmgDealt →
    ∃ hit ∈ hitOf i log, ∃ aim ∈ aimOf i log,
      hit.before.inert = false ∧
      hit.after.currentHp =
        hit.before.currentHp - min result.dmgDealt hit.before.currentHp ∧
      aim.before.inert = false ∧ aim.before.stage = hit.before.stage) ∧
  ∀ hit ∈ hitOf i log, hit.before.inert = true → result.dmgDealt = 0 ∧ result.isWin = false

/-- No `apply_damage` killed a boss between the snapshot and the hit of thread `i`'s attack. -/
def Undisturbed (i : ι) (log : List (RaidEvent ι)) : Prop :=
  ∀ e ∈ exposure i log, kills e = false

/-! ## The hit in the log and in the history -/

variable {i : ι} {log : List (RaidEvent ι)}

lemma lastHit_of_upToHit_eq_nil (h : upToHit i log = []) : lastHit (own i log) = none := by
  induction log with
  | nil => rfl
  | cons e log ih =>
      obtain ⟨j, env, op, ret, before, after⟩ := e
      rw [own_cons]
      by_cases hj : j = i
      · rw [if_pos hj]
        rw [upToHit, if_pos hj] at h
        cases op with
        | game o => cases o <;> first | exact ih h | cases h
        | recv => rfl
        | _ => exact ih h
      · rw [if_neg hj]
        rw [upToHit, if_neg hj] at h
        exact ih h

lemma lastHit_of_upToHit_eq_cons {hit : RaidEvent ι} {rest : List (RaidEvent ι)}
    (h : upToHit i log = hit :: rest) :
    hit.thread = i ∧ (∃ post, log = post ++ hit :: rest) ∧
      ∃ damage name, hit.op = .game (.applyDamage damage name) ∧
        lastHit (own i log) = some (damage, lastSnapshot (own i rest)) := by
  induction log with
  | nil => cases h
  | cons e log ih =>
      have later (h' : upToHit i log = hit :: rest)
          (hown : lastHit (own i (e :: log)) = lastHit (own i log)) :
          hit.thread = i ∧ (∃ post, e :: log = post ++ hit :: rest) ∧
            ∃ damage name, hit.op = .game (.applyDamage damage name) ∧
              lastHit (own i (e :: log)) = some (damage, lastSnapshot (own i rest)) := by
        obtain ⟨hthread, ⟨post, rfl⟩, hhit⟩ := ih h'
        rw [hown]
        exact ⟨hthread, ⟨e :: post, rfl⟩, hhit⟩
      obtain ⟨j, env, op, ret, before, after⟩ := e
      rw [upToHit] at h
      by_cases hj : j = i
      · rw [if_pos hj] at h
        have hown : own i (⟨j, env, op, ret, before, after⟩ :: log) = ⟨op, ret⟩ :: own i log := by
          rw [own_cons, if_pos hj]
          rfl
        cases op with
        | game o =>
            cases o with
            | applyDamage damage name =>
                obtain ⟨rfl, rfl⟩ := List.cons.inj h
                exact ⟨hj, ⟨[], rfl⟩, damage, name, rfl, by rw [hown]; rfl⟩
            | _ => exact later h (by rw [hown]; rfl)
        | recv => cases h
        | _ => exact later h (by rw [hown]; rfl)
      · rw [if_neg hj] at h
        exact later h (by rw [own_cons, if_neg hj])

/-! ## From the snapshot to the hit -/

variable {c : Config ι WorkerOp WorkerOp.Ret (Option ClientLocals) GameSharedData}

/-- The boss a snapshot saw alive is still there exactly if nobody has killed since. -/
lemma same_boss_iff {aim : RaidEvent ι} {mid base : List (RaidEvent ι)}
    (run : (raid ι).Run (raidInit ι) (mid ++ aim :: base) c)
    (haim : aim.op = .game .getSnapshot) (alive : aim.before.inert = false) :
    c.shared.inert = false ∧ aim.before.stage = c.shared.stage ↔ ∀ e ∈ mid, kills e = false := by
  obtain ⟨c₀, run₀, hbefore⟩ := run.before_event
  obtain ⟨S₀, plays₀, represents₀, -⟩ := run_raid run₀
  obtain ⟨S, plays, represents, -⟩ := run_raid run
  rw [hbefore] at alive ⊢
  obtain ⟨k, hp, hpos, hle, rfl⟩ := (inert_eq_false_iff represents₀).1 alive
  have hblows : blows (mid ++ aim :: base) = blows mid ++ blows base := by
    obtain ⟨j, env, op, ret, before, after⟩ := aim
    obtain rfl : op = .game .getSnapshot := haim
    exact blows_append
  rw [hblows] at plays
  have hquiet : killers (blows mid) = [] ↔ ∀ e ∈ mid, kills e = false := by
    rw [killers_blows run, List.map_eq_nil_iff, List.filter_eq_nil_iff]
    simp only [Bool.not_eq_true]
  rw [← hquiet]
  constructor
  · rintro ⟨halive, hstage⟩
    by_contra hkills
    obtain ⟨k', hp', hpos', hle', rfl⟩ := (inert_eq_false_iff represents).1 halive
    have hlt := plays₀.other_pool plays hkills
    rw [represents₀.2.2.1, represents.2.2.1] at hstage
    rw [stageOf_injective hstage] at hlt
    exact lt_irrefl _ hlt
  · intro hnone
    obtain ⟨hp', hpos', hle', rfl⟩ := plays₀.same_pool plays hnone
    refine ⟨(inert_eq_false_iff represents).2 ⟨k, hp', hpos', hle', rfl⟩, ?_⟩
    rw [represents₀.2.2.1, represents.2.2.1]

/-- An accepted hit takes its damage, or what is left if that is less. -/
lemma applyDamage_currentHp (damage : ℤ) (name : Buffer maxPlayerName) {s : GameSharedData}
    (accepted : s.inert = false) :
    (gamestateApplyDamage damage name s).2.currentHp = s.currentHp - min damage s.currentHp := by
  rcases applyDamage_cases damage name s with ⟨h, -⟩ | ⟨-, hlt, hret⟩ | ⟨-, hle, hret⟩
  · exact absurd (accepted.symm.trans h) Bool.false_ne_true
  · rw [hret, min_eq_left hlt.le]
  · rw [hret, min_eq_right hle, Int.sub_self]

/-- The parts of an attack that made a hit: the snapshot it aimed with, the hit, and the events in
between. -/
lemma attack_parts {post pre : List (RaidEvent ι)} {e : RaidEvent ι}
    (run : (raid ι).Run (raidInit ι) (post ++ e :: pre) c) {result : AttackResult}
    {state : PayloadGameState} (hop : e.op = .mark (.attackReturned result state))
    {hit : RaidEvent ι} {rest : List (RaidEvent ι)} (hup : upToHit e.thread pre = hit :: rest) :
    ∃ aim mid base name c', rest = mid ++ aim :: base ∧ exposure e.thread pre = mid ∧
      aimOf e.thread pre = some aim ∧ aim.op = .game .getSnapshot ∧ aim.before.inert = false ∧
      (raid ι).Run (raidInit ι) rest c' ∧ c'.shared = hit.before ∧
      hit.after = (gamestateApplyDamage result.dmgDealt name hit.before).2 ∧
      0 < result.dmgDealt := by
  have hallowed := run.allowed (raid_disciplined ι)
  rw [hop] at hallowed
  obtain ⟨hthread, ⟨post', hpre⟩, damage, name, hhit, hlast⟩ := lastHit_of_upToHit_eq_cons hup
  obtain ⟨-, hreport⟩ := hallowed
  rw [hlast] at hreport
  obtain ⟨rfl, snap, hsnap, halive⟩ := hreport
  obtain ⟨aim, haim, hanswered⟩ := snapshotOf_of_lastSnapshot hsnap
  obtain ⟨hown, mid, base, hrest, hmid⟩ := List.find?_eq_some_iff_append.1 haim
  have run' : (raid ι).Run (raidInit ι) ((post ++ e :: post') ++ hit :: rest) c := by
    rw [List.append_assoc, List.cons_append, ← hpre]
    exact run
  obtain ⟨c', -, run₁, -, hevent⟩ := run'.at_event
  have hstate : aim.before.inert = false := by
    have hmem : aim ∈ post ++ e :: post' ++ hit :: rest := by simp [hrest]
    rw [← snapshot_ret run' hmem hanswered]
    exact halive
  have hpositive := run'.allowed (raid_disciplined ι)
  rw [hhit] at hpositive hevent
  refine ⟨aim, mid, base, name, c', hrest, ?_, ?_, by simpa using (of_decide_eq_true hown).2,
    hstate, run₁, by rw [hevent]; rfl, by rw [hevent]; rfl, hpositive.2.1⟩
  · rw [exposure, hup, List.tail_cons, hrest, List.takeWhile_append_of_pos hmid,
      List.takeWhile_cons_of_neg (by simpa using of_decide_eq_true hown), List.append_nil]
  · rw [aimOf, hup]
    exact haim

/-- **What an attack reports is what it did, exactly if no boss was killed between its snapshot
and its hit.** -/
theorem reportsEffect_iff {post pre : List (RaidEvent ι)} {e : RaidEvent ι}
    (run : (raid ι).Run (raidInit ι) (post ++ e :: pre) c) {result : AttackResult}
    {state : PayloadGameState} (hop : e.op = .mark (.attackReturned result state)) :
    ReportsEffect e.thread result pre ↔ Undisturbed e.thread pre := by
  cases hup : upToHit e.thread pre with
  | nil =>
      have hallowed := run.allowed (raid_disciplined ι)
      rw [hop] at hallowed
      obtain ⟨-, hreport⟩ := hallowed
      rw [lastHit_of_upToHit_eq_nil hup] at hreport
      refine iff_of_true ⟨fun hpos => absurd hreport.1 hpos.ne', fun hit hhit => ?_⟩ fun e he => ?_
      · simp [hitOf, hup] at hhit
      · simp [exposure, hup] at he
  | cons hit rest =>
      obtain ⟨aim, mid, base, name, c', rfl, hmid, haim, hsnapshot, halive, run', hbefore, hafter,
        hpos⟩ := attack_parts run hop hup
      have hhit : hitOf e.thread pre = some hit := by rw [hitOf, hup]; rfl
      have hsame := same_boss_iff run' hsnapshot halive
      rw [hbefore] at hsame
      rw [Undisturbed, hmid, ← hsame]
      constructor
      · rintro ⟨heffect, -⟩
        obtain ⟨hit', hhit', aim', haim', haccepted, -, -, hstage⟩ := heffect hpos
        obtain rfl := Option.some.inj (hhit.symm.trans hhit')
        obtain rfl := Option.some.inj (haim.symm.trans haim')
        exact ⟨haccepted, hstage⟩
      · rintro ⟨haccepted, hstage⟩
        refine ⟨fun _ => ⟨hit, hhit, aim, haim, haccepted, ?_, halive, hstage⟩,
          fun hit' hhit' hrefused => ?_⟩
        · rw [hafter, applyDamage_currentHp _ _ haccepted]
        · obtain rfl := Option.some.inj (hhit.symm.trans hhit')
          exact absurd (haccepted.symm.trans hrefused) Bool.false_ne_true

/-! ## A hit that comes too late -/

/-- Both players see the first boss alive; the first one kills it before the second one's hit,
which finds it respawning. -/
def strikesLate : List (Fin 2 × RaidEnv) :=
  joins firstPlayer [97] ++ joins secondPlayer [98] ++ aims firstPlayer ++ aims secondPlayer ++
    [(firstPlayer, luckyEnv), (secondPlayer, luckyEnv), (secondPlayer, luckyEnv),
      (secondPlayer, luckyEnv)]

/-- What the second player's attack reports. -/
def lateResult : AttackResult :=
  { AttackResult.zero with
    bossDice := 1
    dmgDealt := instantKillDamage
    isWin := true
    isCrit := true
    isLuckyKill := true }

/-- The run ends with the second player's attack returning, and its hit was refused. -/
lemma strikesLate_log :
    ∃ e pre state, (raid (Fin 2)).Run (raidInit _) (e :: pre)
        ((raid (Fin 2)).play (raidInit _) strikesLate).2 ∧
      e.op = .mark (.attackReturned lateResult state) ∧ e.thread = 1 ∧
      ∃ hit ∈ hitOf 1 pre, hit.before.inert = true := by
  have run := Machine.run_play (M := raid (Fin 2)) (raidInit _) strikesLate
  have hop : (((raid (Fin 2)).play (raidInit _) strikesLate).1.head?.map fun e => e.op) =
      some (.mark (.attackReturned lateResult
        (.ofSnapshot ((raid (Fin 2)).play (raidInit _) strikesLate).2.shared))) := by
    decide +kernel
  have hthread : (((raid (Fin 2)).play (raidInit _) strikesLate).1.head?.map fun e => e.thread) =
      some 1 := by
    decide +kernel
  have hrefused : ((hitOf 1 ((raid (Fin 2)).play (raidInit _) strikesLate).1.tail).map
      fun hit => hit.before.inert) = some true := by
    decide +kernel
  cases hlog : ((raid (Fin 2)).play (raidInit _) strikesLate).1 with
  | nil => simp [hlog] at hthread
  | cons e pre =>
      rw [hlog] at run hop hrefused hthread
      exact ⟨e, pre, _, run, Option.some.inj hop, Option.some.inj hthread,
        Option.map_eq_some_iff.1 hrefused⟩

theorem strikesLate_misreports :
    ∃ e pre state, (raid (Fin 2)).Run (raidInit _) (e :: pre)
        ((raid (Fin 2)).play (raidInit _) strikesLate).2 ∧
      e.op = .mark (.attackReturned lateResult state) ∧ ¬ReportsEffect e.thread lateResult pre := by
  obtain ⟨e, pre, state, run, hop, hthread, hit, hhit, hrefused⟩ := strikesLate_log
  refine ⟨e, pre, state, run, hop, ?_⟩
  intro heffect
  rw [hthread] at heffect
  exact absurd (heffect.2 hit hhit hrefused).1 (by decide)

theorem reportsEffect_iff_strikesLate :
    ∃ (e : RaidEvent (Fin 2)) (pre : List (RaidEvent (Fin 2))) (state : PayloadGameState),
      e.op = .mark (.attackReturned lateResult state) ∧
        (ReportsEffect e.thread lateResult pre ↔ Undisturbed e.thread pre) := by
  obtain ⟨e, pre, state, run, hop, -⟩ := strikesLate_log
  have run' : (raid (Fin 2)).Run (raidInit _) ([] ++ e :: pre) _ := run
  exact ⟨e, pre, state, hop, reportsEffect_iff run' hop⟩

end WorldBossRaid
