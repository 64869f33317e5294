import WorldBossRaid.Properties.RaidInvariant

/-!
# No damage or kill is lost or counted twice

`Accounting log s` relates a log of the raid with the state it ends in: the hit points of a
standing boss are its full ones less every accepted hit since it appeared, every boss that went
down did so by one killing `apply_damage`, and every kill is followed by one `spawn_next_boss` of
its worker.  The general part of the argument is the bookkeeping of campaigns.
-/

namespace WorldBossRaid

open Bytes Interaction Campaign

/-! ## Statement -/

section Statement

variable {ι : Type}

/-- An `apply_damage` that returned true. -/
def kills (e : RaidEvent ι) : Bool :=
  match e.answered with
  | ⟨.game (.applyDamage _ _), killed⟩ => killed
  | _ => false

/-- A `gamestate_spawn_next_boss`. -/
def spawns (e : RaidEvent ι) : Bool := e.op = .game .spawnNextBoss

/-- The damage of an accepted `apply_damage`; one that finds the boss respawning or the game over
is refused. -/
def acceptedDamage (e : RaidEvent ι) : ℤ :=
  match e.op with
  | .game (.applyDamage damage _) => if e.before.inert then 0 else damage
  | _ => 0

/-- The damage accepted since the present boss appeared. -/
def damageSinceSpawn (log : List (RaidEvent ι)) : ℤ :=
  ((log.takeWhile fun e => !spawns e).map acceptedDamage).sum

/-- How often the boss of a stage has been brought down in the course of a game that stands at
`s`. -/
def broughtDown (s : GameSharedData) : BossStage → ℕ
  | .stage1 => if s.stage = .stage1 ∧ s.isRespawning = false then 0 else 1
  | .stage2 => if s.stage = .dead ∨ s.stage = .stage2 ∧ s.isRespawning = true then 1 else 0
  | .dead => 0

/-- The spawns of a game that stands at `s`. -/
def spawned (s : GameSharedData) : ℕ :=
  match s.stage with
  | .stage1 => 0
  | .stage2 => 1
  | .dead => 2

/-- `log` contains neither kills nor spawns. -/
def Uneventful (log : List (RaidEvent ι)) : Prop := ∀ e ∈ log, kills e = false ∧ spawns e = false

variable [DecidableEq ι]

/-- After a kill by thread `i`, the events `post` begin with its spawn: nothing happens to the
bosses before it, and it is the next thing `i` does. -/
def SpawnFollows (i : ι) (post : List (RaidEvent ι)) : Prop :=
  own i post = [] ∧ Uneventful post ∨
    ∃ later e between, post = later ++ e :: between ∧ e.thread = i ∧ spawns e = true ∧
      own i between = [] ∧ Uneventful between

/-- The books of the raid. -/
structure Accounting (log : List (RaidEvent ι)) (s : GameSharedData) : Prop where
  /-- A standing boss has what the accepted hits have left of it. -/
  hp_eq : s.inert = false → s.currentHp = s.maxHp - damageSinceSpawn log
  /-- The call that returns true is the one that brings the hit points to 0 or below. -/
  kill_iff : ∀ e ∈ log, ∀ damage name, e.op = .game (.applyDamage damage name) →
    (kills e = true ↔ e.before.inert = false ∧ e.before.currentHp - damage ≤ 0)
  /-- Each boss is killed once, when it is brought down. -/
  kills_of_boss : ∀ st,
    (log.filter fun e => kills e && e.before.stage == st).length = broughtDown s st
  /-- The next boss, or the end of the game, follows each kill. -/
  spawn_follows : ∀ post e pre, log = post ++ e :: pre → kills e = true →
    SpawnFollows e.thread post
  /-- There are no other spawns. -/
  spawns_eq : (log.filter spawns).length = spawned s
  /-- There are as many kills as bosses brought down. -/
  kills_eq : (log.filter kills).length = broughtDown s .stage1 + broughtDown s .stage2
  /-- That is at most two. -/
  kills_le : (log.filter kills).length ≤ 2

end Statement

/-! ## The hit points -/

section Counting

variable {ι : Type} {log : List (RaidEvent ι)} {s : GameSharedData}

lemma damageSinceSpawn_eq_worn : damageSinceSpawn log = worn (blows log) := by
  induction log with
  | nil => rfl
  | cons e log ih =>
      obtain ⟨j, env, op, ret, before, after⟩ := e
      have hcons (hspawns : spawns (⟨j, env, op, ret, before, after⟩ : RaidEvent ι) = false) :
          damageSinceSpawn (⟨j, env, op, ret, before, after⟩ :: log) =
            acceptedDamage (⟨j, env, op, ret, before, after⟩ : RaidEvent ι) +
              damageSinceSpawn log := by
        simp [damageSinceSpawn, hspawns]
      rcases op.actsOnBoss_cases with hop | ⟨damage, name, rfl⟩ | rfl
      · have hquiet : spawns (⟨j, env, op, ret, before, after⟩ : RaidEvent ι) = false ∧
            acceptedDamage (⟨j, env, op, ret, before, after⟩ : RaidEvent ι) = 0 := by
          cases op with
          | game o => cases o <;> first | exact ⟨rfl, rfl⟩ | cases hop
          | _ => exact ⟨rfl, rfl⟩
        rw [hcons hquiet.1, hquiet.2, ih]
        change _ = worn ((blow j before ⟨op, ret⟩).toList ++ blows log)
        rw [blow_eq_none hop]
        exact Int.zero_add _
      · rw [hcons rfl, ih]
        change (if before.inert then 0 else damage) + _ =
          worn ((if before.inert then none
            else if ret then some (.kill j damage)
            else some (.wound damage)).toList ++ blows log)
        cases before.inert with
        | true => exact Int.zero_add _
        | false => cases ret <;> rfl
      · rfl

lemma Raid.hp_eq [DecidableEq ι] (coupled : Raid log s) (standing : s.inert = false) :
    s.currentHp = s.maxHp - damageSinceSpawn log := by
  obtain ⟨S, plays, represents, -⟩ := coupled
  obtain ⟨k, hp, hpos, hle, rfl⟩ := (inert_eq_false_iff represents).1 standing
  rw [damageSinceSpawn_eq_worn, represents.1, represents.2.1, plays.hp_eq]

end Counting

/-! ## Kills and spawns -/

section Step

variable {ι : Type} [DecidableEq ι] {log : List (RaidEvent ι)} {s : GameSharedData}
  {i : ι} {e : RaidEnv} {o : WorkerOp}

omit [DecidableEq ι] in
lemma uneventful_event (ho : o.actsOnBoss = false) :
    kills ((raid ι).event i e o s) = false ∧ spawns ((raid ι).event i e o s) = false := by
  cases o with
  | game o => cases o <;> first | exact ⟨rfl, rfl⟩ | cases ho
  | _ => exact ⟨rfl, rfl⟩

omit [DecidableEq ι] in
lemma kills_applyDamage (damage : ℤ) (name : Buffer maxPlayerName) :
    kills ((raid ι).event i e (.game (.applyDamage damage name)) s) =
      (gamestateApplyDamage damage name s).1 := rfl

omit [DecidableEq ι] in
/-- Every kill happens in one stage. -/
lemma length_filter_kills :
    (log.filter kills).length =
      (log.filter fun e => kills e && e.before.stage == .stage1).length +
      (log.filter fun e => kills e && e.before.stage == .stage2).length +
      (log.filter fun e => kills e && e.before.stage == .dead).length := by
  induction log with
  | nil => rfl
  | cons e log ih =>
      simp only [List.filter_cons]
      cases kills e with
      | false => exact ih
      | true => cases e.before.stage <;> simp [ih] <;> omega

/-- The counts of kills and spawns that go with a state. -/
def Counted (log : List (RaidEvent ι)) (s : GameSharedData) : Prop :=
  (∀ st, (log.filter fun e => kills e && e.before.stage == st).length = broughtDown s st) ∧
    (log.filter spawns).length = spawned s

omit [DecidableEq ι] in
lemma Counted.of_uneventful (counted : Counted log s) {ev : RaidEvent ι} {t : GameSharedData}
    (hkills : kills ev = false) (hspawns : spawns ev = false) (hstage : t.stage = s.stage)
    (hresp : t.isRespawning = s.isRespawning) : Counted (ev :: log) t := by
  refine ⟨fun st => ?_, ?_⟩
  · rw [List.filter_cons_of_neg (by simp [hkills]), counted.1 st]
    cases st <;> simp only [broughtDown, hstage, hresp]
  · rw [List.filter_cons_of_neg (by simp [hspawns]), counted.2, spawned, spawned, hstage]

omit [DecidableEq ι] in
lemma Counted.of_kill (counted : Counted log s) {ev : RaidEvent ι} {t : GameSharedData}
    (hkills : kills ev = true) (hspawns : spawns ev = false) (hbefore : ev.before = s)
    (alive : s.inert = false) (hstage : t.stage = s.stage) (hresp : t.isRespawning = true) :
    Counted (ev :: log) t := by
  obtain ⟨alive, standing⟩ := alive_of_not_inert alive
  refine ⟨fun st => ?_, ?_⟩
  · have hcount := counted.1 st
    rw [List.filter_cons, hkills, hbefore, Bool.true_and]
    cases hs : s.stage with
    | dead => exact absurd hs alive
    | _ =>
        cases st <;> simp [broughtDown, hstage, hresp, hs, standing] at hcount ⊢ <;>
          exact hcount
  · rw [List.filter_cons_of_neg (by simp [hspawns]), counted.2, spawned, spawned, hstage]

omit [DecidableEq ι] in
lemma Counted.of_spawn (counted : Counted log s) {ev : RaidEvent ι}
    (hkills : kills ev = false) (hspawns : spawns ev = true) (down : s.isRespawning = true)
    (alive : s.stage ≠ .dead) : Counted (ev :: log) (gamestateSpawnNextBoss s) := by
  refine ⟨fun st => ?_, ?_⟩
  · rw [List.filter_cons_of_neg (by simp [hkills]), counted.1 st]
    cases hs : s.stage with
    | dead => exact absurd hs alive
    | _ => cases st <;> simp [broughtDown, gamestateSpawnNextBoss, hs, down]
  · rw [List.filter_cons_of_pos hspawns, List.length_cons, counted.2]
    cases hs : s.stage with
    | dead => exact absurd hs alive
    | _ => simp [spawned, gamestateSpawnNextBoss, hs]

lemma Counted.step (coupled : Raid log s) (counted : Counted log s)
    (allowed : Allowed (own i log) o) :
    Counted ((raid ι).event i e o s :: log) (o.exec e s).2 := by
  rcases o.actsOnBoss_cases with ho | ⟨damage, name, rfl⟩ | rfl
  · obtain ⟨hkills, hspawns⟩ := uneventful_event (i := i) (e := e) (s := s) ho
    obtain ⟨-, -, hstage, hresp, -⟩ := sameBoss_exec ho e s
    exact counted.of_uneventful hkills hspawns hstage hresp
  · have hkills := kills_applyDamage (i := i) (e := e) (s := s) damage name
    change Counted _ (gamestateApplyDamage damage name s).2
    rcases applyDamage_cases damage name s with ⟨_, hret⟩ | ⟨_, _, hret⟩ | ⟨hinert, _, hret⟩
    · rw [hret] at hkills ⊢
      exact counted.of_uneventful hkills rfl rfl rfl
    · rw [hret] at hkills ⊢
      exact counted.of_uneventful hkills rfl rfl rfl
    · rw [hret] at hkills ⊢
      exact counted.of_kill hkills rfl rfl hinert rfl rfl
  · obtain ⟨S, -, represents, owes⟩ := coupled
    obtain ⟨k, rfl⟩ := ((owes i).1 allowed).fallen
    obtain ⟨-, -, hstage, hresp⟩ := represents
    exact counted.of_spawn rfl rfl hresp (hstage ▸ stageOf_ne_dead k)

end Step

/-! ## What follows a kill -/

section Run

variable {ι : Type} [DecidableEq ι] {log post pre : List (RaidEvent ι)} {ev : RaidEvent ι}
  {c : Config ι WorkerOp WorkerOp.Ret (Option ClientLocals) GameSharedData}

/-- In a run, `apply_damage` returns true exactly when it is accepted and leaves nothing. -/
lemma run_kill_iff (run : (raid ι).Run (raidInit ι) log c) (he : ev ∈ log) {damage : ℤ}
    {name : Buffer maxPlayerName} (hop : ev.op = .game (.applyDamage damage name)) :
    kills ev = true ↔ ev.before.inert = false ∧ ev.before.currentHp - damage ≤ 0 := by
  have hevent := run.event_eq he
  rw [hop] at hevent
  have hkills : kills ev = (gamestateApplyDamage damage name ev.before).1 := congrArg kills hevent
  rw [hkills]
  rcases applyDamage_cases damage name ev.before with
    ⟨hinert, hret⟩ | ⟨hinert, hlt, hret⟩ | ⟨hinert, hle, hret⟩
  · rw [hret]
    exact iff_of_false Bool.false_ne_true fun h => absurd (hinert.symm.trans h.1) (by decide)
  · rw [hret]
    exact iff_of_false Bool.false_ne_true fun h => by have := h.2; omega
  · rw [hret]
    exact iff_of_true rfl ⟨hinert, by omega⟩

/-- A kill appears among the blows, and leaves its worker with a debt. -/
lemma run_kill (run : (raid ι).Run (raidInit ι) log c) (he : ev ∈ log) (hkills : kills ev = true) :
    ∃ damage name, ev.answered = ⟨.game (.applyDamage damage name), true⟩ ∧
      blow ev.thread ev.before ev.answered = some (.kill ev.thread damage) := by
  obtain ⟨j, env, op, ret, before, after⟩ := ev
  cases op with
  | game o =>
      cases o with
      | applyDamage damage name =>
          obtain ⟨halive, -⟩ := (run_kill_iff run he rfl).1 hkills
          obtain rfl : ret = true := hkills
          exact ⟨damage, name, rfl, by simp [blow, Event.answered, halive]⟩
      | _ => cases hkills
  | _ => cases hkills

/-- The killers of the campaign are the threads of the kills in the log. -/
lemma killers_blows (run : (raid ι).Run (raidInit ι) (post ++ pre) c) :
    killers (blows post) = (post.filter kills).map Event.thread := by
  induction post generalizing c with
  | nil => rfl
  | cons e post ih =>
      have hrun : (raid ι).Run (raidInit ι) ([e] ++ (post ++ pre)) c := run
      obtain ⟨c', run'⟩ := hrun.earlier
      have hcons : killers (blows (e :: post)) =
          killers (blow e.thread e.before e.answered).toList ++ killers (blows post) :=
        killers_append
      rw [hcons, ih run', List.filter_cons]
      cases hkills : kills e with
      | true =>
          obtain ⟨_, _, -, hblow⟩ := run_kill run (List.mem_cons_self ..) hkills
          rw [hblow]
          rfl
      | false =>
          obtain ⟨j, env, op, ret, before, after⟩ := e
          cases op with
          | game o =>
              cases o with
              | applyDamage damage name =>
                  obtain rfl : ret = false := hkills
                  cases hinert : before.inert <;> simp [blow, Event.answered, hinert, killers]
              | _ => rfl
          | _ => rfl

/-- Where nothing strikes the campaign, there is neither a kill nor a spawn. -/
lemma uneventful_of_blows (run : (raid ι).Run (raidInit ι) (post ++ pre) c)
    (hblows : blows post = []) : Uneventful post := by
  intro e he
  have hblow : blow e.thread e.before e.answered = none :=
    Option.toList_eq_nil_iff.1 (List.flatMap_eq_nil_iff.1 hblows e he)
  constructor
  · by_contra hkills
    obtain ⟨_, _, -, hsome⟩ := run_kill run (List.mem_append_left _ he) (by simpa using hkills)
    rw [hblow] at hsome
    cases hsome
  · obtain ⟨j, env, op, ret, before, after⟩ := e
    cases op with
    | game o => cases o <;> first | rfl | cases hblow
    | _ => rfl

omit [DecidableEq ι] in
lemma blows_append : blows (post ++ pre) = blows post ++ blows pre := List.flatMap_append

/-- Until the killer's next operation, nothing happens to the bosses. -/
lemma uneventful_after_kill (run : (raid ι).Run (raidInit ι) (post ++ ev :: pre) c)
    (hkills : kills ev = true) (idle : own ev.thread post = []) : Uneventful post := by
  apply uneventful_of_blows run
  obtain ⟨S, plays, -, -⟩ := run_raid run
  obtain ⟨damage, name, -, hblow⟩ := run_kill run (by simp) hkills
  have hsplit : blows (post ++ ev :: pre) =
      blows post ++ .kill ev.thread damage :: blows pre := by
    rw [blows_append]
    change _ ++ ((blow ev.thread ev.before ev.answered).toList ++ _) = _
    rw [hblow]
    rfl
  rw [hsplit] at plays
  rcases plays.after_kill with hnil | ⟨rest, hrest⟩
  · exact hnil
  · -- the killer's advance would be an operation of the killer
    have hmem : Blow.advance ev.thread ∈ blows post := by simp [hrest]
    obtain ⟨e, he, hblow⟩ := List.mem_flatMap.1 hmem
    have hthread := blow_eq_advance (Option.mem_toList.1 hblow)
    have := answered_mem_own he hthread
    rw [idle] at this
    cases this

lemma run_spawn_follows (run : (raid ι).Run (raidInit ι) (post ++ ev :: pre) c)
    (hkills : kills ev = true) : SpawnFollows ev.thread post := by
  rcases List.eq_nil_or_concat (own ev.thread post) with idle | ⟨later, a, hown⟩
  · exact Or.inl ⟨idle, uneventful_after_kill run hkills idle⟩
  · rw [List.concat_eq_append] at hown
    obtain ⟨post₂, e, post₁, rfl, hthread, -, -, idle⟩ := exists_split_of_own hown
    rw [List.append_assoc, List.cons_append] at run
    obtain ⟨c₁, k, run₁, next, -⟩ := run.at_event
    refine Or.inr ⟨post₂, e, post₁, rfl, hthread, ?_, idle, uneventful_after_kill run₁ hkills idle⟩
    obtain ⟨damage, name, hanswered, -⟩ := run_kill run (by simp) hkills
    have hallowed := run.allowed (raid_disciplined ι)
    have howes : owesSpawn (own e.thread (post₁ ++ ev :: pre)) = true := by
      rw [hthread, own_append, idle, own_cons, if_pos rfl, hanswered]
      rfl
    exact decide_eq_true (hallowed.eq_spawnNextBoss howes)

lemma run_counted (run : (raid ι).Run (raidInit ι) log c) : Counted log c.shared := by
  have both : Raid log c.shared ∧ Counted log c.shared := by
    refine run.invariant (raid_disciplined ι) (fun log s => Raid log s ∧ Counted log s) ?_
      fun log s i e o h allowed => ⟨h.1.step allowed, h.2.step h.1 allowed⟩
    exact ⟨run_raid .start, fun st => by cases st <;> rfl, rfl⟩
  exact both.2

/-- **The books of the raid are right** at every point of every run: for any number of sessions,
any packets and rolls and any interleaving. -/
theorem run_accounting (run : (raid ι).Run (raidInit ι) log c) : Accounting log c.shared := by
  have coupled := run_raid run
  have counted := run_counted run
  have hkills : (log.filter kills).length =
      broughtDown c.shared .stage1 + broughtDown c.shared .stage2 := by
    rw [length_filter_kills, counted.1, counted.1, counted.1]
    rfl
  refine ⟨coupled.hp_eq, fun e he damage name => run_kill_iff run he, counted.1, ?_,
    counted.2, hkills, ?_⟩
  · rintro post e pre rfl hkill
    exact run_spawn_follows run hkill
  · rw [hkills]
    simp only [broughtDown]
    split_ifs <;> omega

end Run

theorem run_accounting_killedNotSpawned :
    Accounting ((raid (Fin 2)).play (raidInit _) killedNotSpawned).1
        ((raid (Fin 2)).play (raidInit _) killedNotSpawned).2.shared ∧
      (((raid (Fin 2)).play (raidInit _) killedNotSpawned).1.filter kills).length = 1 :=
  ⟨run_accounting (Machine.run_play (raidInit (Fin 2)) killedNotSpawned), by decide +kernel⟩

end WorldBossRaid
