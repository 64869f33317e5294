import WorldBossRaid.Properties.ProcessTree

/-!
# The gap between a kill and the next boss

`game_process_attack` kills a boss in one critical section and spawns the next one in another, and
in between `is_respawning` keeps everybody else off.  Whether the gap ends is up to one process.
While the killer runs, the spawn is the next thing it does.  If it is killed before that, nobody
else may spawn, every hit is refused, and the raid stays as it is for as long as the server runs.
-/

namespace WorldBossRaid

open Bytes Interaction Prog

/-! ## The killer spawns at once -/

/-- A worker that owes a spawn does nothing before it. -/
def SpawnsNext (h : WorkerHistory) (o : WorkerOp) : Prop :=
  owesSpawn h = true → o = .game .spawnNextBoss

variable {h : WorkerHistory}

lemma conforms_spawnsNext {α : Type} {p : Worker α} (hp : Issues (fun o => o.actsOnBoss = false) p)
    (free : owesSpawn h = false) : Conforms SpawnsNext (fun h' _ => owesSpawn h' = false) h p := by
  refine hp.conforms (fun h o free _ owes => ?_) (fun h o r free ho => ?_) free
  · rw [free] at owes
    cases owes
  · rw [owesSpawn_cons ho]
    exact free

lemma spawnsNext_of_free (free : owesSpawn h = false) (o : WorkerOp) : SpawnsNext h o := by
  intro owes
  rw [free] at owes
  cases owes

lemma strike_spawnsNext (free : owesSpawn h = false) (name : Buffer maxPlayerName)
    (result : AttackResult) :
    Conforms SpawnsNext (fun h' _ => owesSpawn h' = false) h (strike name result) := by
  refine ⟨spawnsNext_of_free free _, fun killed => ?_⟩
  cases killed with
  | false => rfl
  | true => exact ⟨fun _ => rfl, fun _ => rfl⟩

lemma resolveAttack_spawnsNext (free : owesSpawn h = false) (playerDice bossDice : ℤ)
    (name : Buffer maxPlayerName) (luckyRoll : ℕ) :
    Conforms SpawnsNext (fun h' _ => owesSpawn h' = false) h
      (resolveAttack playerDice name bossDice luckyRoll) := by
  simp only [resolveAttack, perform_bind]
  split
  · refine ⟨spawnsNext_of_free free _, fun _ => strike_spawnsNext ?_ name _⟩
    exact free
  · split
    · refine ⟨spawnsNext_of_free free _, fun _ => strike_spawnsNext ?_ name _⟩
      exact free
    · exact ⟨spawnsNext_of_free free _, fun _ => free⟩

lemma gameProcessAttack_spawnsNext (free : owesSpawn h = false) (playerDice : ℤ)
    (name : Buffer maxPlayerName) :
    Conforms SpawnsNext (fun h' _ => owesSpawn h' = false) h
      (gameProcessAttack playerDice name) := by
  simp only [gameProcessAttack, perform_bind, conforms_call]
  refine ⟨spawnsNext_of_free free _, fun snap => ?_⟩
  split
  · exact free
  · refine ⟨spawnsNext_of_free free _, fun bossRoll => ⟨spawnsNext_of_free free _, ?_⟩⟩
    intro luckyRoll
    have free' : owesSpawn (⟨.rand, luckyRoll⟩ :: ⟨.rand, bossRoll⟩ ::
        ⟨.game .getSnapshot, snap⟩ :: h) = false := free
    refine (resolveAttack_spawnsNext free' playerDice (rollOf bossRoll) name luckyRoll).seq ?_
    intro h' result free'
    exact ⟨spawnsNext_of_free free' _, fun _ => free'⟩

lemma attackDice_spawnsNext (free : owesSpawn h = false) (pkt : GamePacket) :
    Conforms SpawnsNext (fun h' _ => owesSpawn h' = false) h (attackDice pkt) := by
  unfold attackDice
  split
  · exact ⟨spawnsNext_of_free free _, fun _ => free⟩
  · exact free

lemma handleAttack_spawnsNext (free : owesSpawn h = false) (pkt : GamePacket)
    (name : Buffer maxPlayerName) :
    Conforms SpawnsNext (fun h' _ => owesSpawn h' = false) h (handleAttack pkt name) := by
  apply (attackDice_spawnsNext free pkt).seq
  intro h₁ dice free₁
  apply (gameProcessAttack_spawnsNext free₁ dice name).seq
  intro h₂ r free₂
  exact ⟨spawnsNext_of_free free₂ _, fun _ => ⟨spawnsNext_of_free free₂ _, fun _ => free₂⟩⟩

/-- A session owes nothing at the head of its loop, nor when it has ended. -/
lemma spawnsNextRule : LoopRule SpawnsNext (fun _ h => owesSpawn h = false)
    (fun h => owesSpawn h = false) where
  allows _ _ o free _ := spawnsNext_of_free free o
  keeps _ h o r free ho := by
    rw [owesSpawn_cons (show o.actsOnBoss = false from ho.each rfl rfl fun _ => rfl)]
    exact free
  limiter _ _ _ free := free
  attack l _ pkt free := handleAttack_spawnsNext free pkt l.username
  heartbeat _ _ free := by
    refine conforms_spawnsNext (handleHeartbeat_issues.mono fun o ho => ?_) free
    exact ho.each rfl rfl rfl fun _ => rfl
  cleanup l _ free := by
    refine conforms_spawnsNext ((cleanupClient_issues l.playerId).mono fun o ho => ?_) free
    exact ho.each rfl rfl

lemma handleClient_spawnsNext :
    Conforms SpawnsNext (AtHeadOrEnd (fun _ h => owesSpawn h = false)
      fun h => owesSpawn h = false) [] handleClient := by
  have quiet : Issues (fun o => o.actsOnBoss = false) handleClient :=
    handleClient_issues.mono fun o ho => ho.each rfl rfl rfl rfl rfl (fun _ => rfl) fun _ => rfl
  exact (conforms_spawnsNext quiet rfl).weaken fun h v free =>
    atHeadOrEnd_of (fun _ => free) free v

/-- Every session of the raid spawns the next boss at once. -/
theorem raid_spawnsNext (ι : Type) :
    (raid ι).Disciplined (fun _ => SpawnsNext)
      (fun _ => AtHeadOrEnd (fun _ h => owesSpawn h = false) fun h => owesSpawn h = false)
      (raidInit ι) where
  first _ := handleClient_spawnsNext
  again _ _ _ _ := spawnsNextRule.dispatchRule.again

section Raid

variable {ι : Type} [DecidableEq ι] {log : List (RaidEvent ι)}
  {c : Config ι WorkerOp WorkerOp.Ret (Option ClientLocals) GameSharedData}

/-- The spawn is the next thing a killer does. -/
lemma next_of_owesSpawn (run : (raid ι).Run (raidInit ι) log c) {i : ι}
    (owes : owesSpawn (own i log) = true) :
    ∃ k, c.threads i = .call (.game .spawnNextBoss) k := by
  have hconf := run.conforms (raid_spawnsNext ι) i
  generalize hrest : c.threads i = rest at hconf
  cases rest with
  | done v =>
      have free : owesSpawn (own i log) = false := by cases v <;> exact hconf
      rw [owes] at free
      cases free
  | call o k =>
      obtain rfl := hconf.1 owes
      exact ⟨k, rfl⟩

/-! ## Nobody else can -/

/-- One operation of another worker while the killer owes the spawn. -/
lemma sameBoss_step (run : (raid ι).Run (raidInit ι) log c) {i j : ι} (hji : j ≠ i)
    (owes : owesSpawn (own i log) = true) {o : WorkerOp}
    (allowed : Allowed (own j log) o) (e : RaidEnv) :
    SameBoss c.shared (o.exec e c.shared).2 ∧
      ∀ damage name, o = .game (.applyDamage damage name) → (o.exec e c.shared).2 = c.shared := by
  obtain ⟨S, -, represents, hS⟩ := run_raid run
  obtain ⟨k, rfl⟩ := ((hS i).1 owes).fallen
  have inert : c.shared.inert = true := by
    rw [← Bool.not_eq_false, inert_eq_false_iff represents]
    rintro ⟨k, hp, hpos, hle, hS⟩
    cases hS
  rcases o.actsOnBoss_cases with ho | ⟨damage, name, rfl⟩ | rfl
  · refine ⟨sameBoss_exec ho e c.shared, ?_⟩
    rintro damage name rfl
    cases ho
  · have refused : (WorkerOp.exec e (.game (.applyDamage damage name)) c.shared).2 = c.shared := by
      change (gamestateApplyDamage damage name c.shared).2 = c.shared
      rw [gamestateApplyDamage, if_pos inert]
    rw [refused]
    exact ⟨⟨rfl, rfl, rfl, rfl, rfl⟩, fun _ _ _ => rfl⟩
  · exact absurd ((hS j).1 allowed) hji

/-- As long as the killer does nothing, nothing happens to the boss. -/
lemma sameBoss_run {later : List (RaidEvent ι)}
    {c₀ : Config ι WorkerOp WorkerOp.Ret (Option ClientLocals) GameSharedData}
    (run₀ : (raid ι).Run (raidInit ι) log c₀) {i : ι} (owes : owesSpawn (own i log) = true)
    (run : (raid ι).Run (raidInit ι) (later ++ log) c) (others : ∀ e ∈ later, e.thread ≠ i) :
    SameBoss c₀.shared c.shared ∧ ∀ e ∈ later, SameBoss c₀.shared e.before ∧
      ∀ damage name, e.op = .game (.applyDamage damage name) → e.after = e.before := by
  induction later generalizing c with
  | nil =>
      rw [run.shared_eq, List.nil_append, ← run₀.shared_eq]
      exact ⟨⟨rfl, rfl, rfl, rfl, rfl⟩, List.forall_mem_nil _⟩
  | cons e later ih =>
      have whole : (raid ι).Run (raidInit ι) ([] ++ e :: (later ++ log)) c := run
      obtain ⟨c₁, k, run₁, next, hevent⟩ := whole.at_event
      obtain ⟨same, refused⟩ := ih run₁ fun e' he' => others e' (List.mem_cons_of_mem _ he')
      have still : owesSpawn (own i (later ++ log)) = true := by
        have none_ : own i later = [] := by
          rw [own, List.filter_eq_nil_iff.2 fun e' he' => ?_, List.map_nil]
          exact fun h => others e' (List.mem_cons_of_mem _ he') (of_decide_eq_true h)
        rw [own_append, none_, List.nil_append]
        exact owes
      have step := sameBoss_step run₁ (others e (List.mem_cons_self ..)) still
        (whole.allowed (raid_disciplined ι)) e.env
      have hbefore : e.before = c₁.shared := congrArg Event.before hevent
      have hafter : e.after = (e.op.exec e.env c₁.shared).2 := congrArg Event.after hevent
      refine ⟨?_, fun e' he' => ?_⟩
      · rw [run.shared_eq]
        change SameBoss c₀.shared e.after
        rw [hafter]
        exact same.trans step.1
      · obtain rfl | he' := List.mem_cons.1 he'
        · rw [hafter, hbefore]
          exact ⟨same, step.2⟩
        · exact refused e' he'

end Raid

/-! ## The processes -/

section Processes

variable {outputs : ℤ → ℕ → ℕ} {serverFd : ℕ} {now : ℤ} {s : ServerKernel}
  {log : List ProcessEvent}

lemma thread_workerEvent {e : ProcessEvent}
    {e' : Event ℕ WorkerOp WorkerOp.Ret GameSharedData RaidEnv} (h : workerEvent e = some e') :
    e'.thread = e.thread := by
  obtain ⟨p, env, o, r, before, after⟩ := e
  cases o with
  | handshake => cases h
  | client fd o =>
      obtain rfl := Option.some.inj h
      rfl

/-- From here on nothing happens to the boss, and no hit has an effect. -/
def Stuck (outputs : ℤ → ℕ → ℕ) (serverFd : ℕ) (s : ServerKernel) : Prop :=
  ∀ later s', Kernel.Run (serverProgram outputs serverFd) s later s' →
    SameBoss s.shared s'.shared ∧
    ∀ e ∈ later.filterMap workerEvent, SameBoss s.shared e.before ∧
      ∀ damage name, e.op = .game (.applyDamage damage name) → e.after = e.before

/-- A session that has executed something goes on with what is left of its worker. -/
lemma WorkerAt.next_op {n : ℕ} {code : ServerCode ServerPoint} {files : ℕ → Option File}
    {q : Worker (Option ClientLocals)} {h : WorkerHistory}
    (place : WorkerAt serverFd n code files q h) {o : WorkerOp}
    {k : o.Ret → Worker (Option ClientLocals)} (next : q = .call o k) (acted : h ≠ []) :
    ∃ fd k, code = .call (.op (.client fd o)) k := by
  cases place with
  | serving fd q h =>
      subst next
      exact ⟨fd, _, rfl⟩
  | _ => exact absurd rfl acted

lemma stuck {log' : List (SeededEvent ℕ)} {c : SeededConfig} {p : ℕ}
    {proc : Process ServerOp.Ret ServerPoint Generator}
    (run : Kernel.Run (serverProgram outputs serverFd) (serverBoot serverFd now) log s)
    (run' : (seeded ℕ outputs).Run (seededInit ℕ now) log' c)
    (mirrors : Mirrors serverFd now s log' c) (found : s.process p = some proc)
    (ended : proc.status ≠ .running)
    (owes : owesSpawn (own p (log'.map (seededRaid ℕ outputs).event)) = true) :
    Stuck outputs serverFd s := by
  intro later s' run₁
  have numbered := run.numbered (Kernel.numbered_boot rfl)
  obtain ⟨new, c', run₂, hnew, mirrors'⟩ := mirrors.run run' numbered run₁
  have silent := (run₁.silent numbered found ended).2
  have raidRun₂ := (seededRaid ℕ outputs).run run₂
  rw [List.map_append] at raidRun₂
  have others (e : RaidEvent ℕ) (he : e ∈ new.map (seededRaid ℕ outputs).event) :
      e.thread ≠ p := by
    obtain ⟨e', he', rfl⟩ := List.mem_map.1 he
    have hview : SeededState.view e' ∈ later.filterMap workerEvent := by
      rw [← hnew]
      exact List.mem_map_of_mem he'
    obtain ⟨pe, hpe, hworker⟩ := List.mem_filterMap.1 hview
    have hthread : e'.thread = pe.thread := thread_workerEvent hworker
    change e'.thread ≠ p
    rw [hthread]
    exact silent pe hpe
  obtain ⟨same, refused⟩ :=
    sameBoss_run ((seededRaid ℕ outputs).run run') owes raidRun₂ others
  refine ⟨?_, fun e he => ?_⟩
  · rw [← mirrors.shm, ← mirrors'.shm]
    exact same
  · rw [← hnew] at he
    obtain ⟨e', he', rfl⟩ := List.mem_map.1 he
    rw [← mirrors.shm]
    exact refused ((seededRaid ℕ outputs).event e') (List.mem_map_of_mem he')

/-- **The killer spawns the next boss, or nobody ever does.**  Whenever a boss is respawning there
is one worker that killed it and has not spawned the next one.  Either its process runs, and the
spawn is the next operation it executes; or its process has been killed, and then the raid is
stuck for good: in whatever way the server goes on, the boss fields never change again and every
hit is refused. -/
theorem processTree_respawn
    (run : Kernel.Run (serverProgram outputs serverFd) (serverBoot serverFd now) log s)
    (respawning : s.shared.isRespawning = true) :
    ∃ p proc, s.process p = some proc ∧
      (∀ q, owesSpawn (own q (log.filterMap workerEvent)) = true ↔ q = p) ∧
      (proc.status = .running ∧
          (∃ fd k, proc.code = .call (.op (.client fd (.game .spawnNextBoss))) k) ∨
        proc.status ≠ .running ∧ proc.killed = true ∧ Stuck outputs serverFd s) := by
  obtain ⟨log', c, run', hlog, mirrors⟩ := serverRun_mirrors run
  have raidRun := (seededRaid ℕ outputs).run run'
  have hown (q : ℕ) : own q (log'.map (seededRaid ℕ outputs).event) =
      own q (log.filterMap workerEvent) := by
    rw [Projection.own_map_event, ← hlog, own_map_view]
  have hresp : ((seededRaid ℕ outputs).config c).shared.isRespawning = true :=
    (congrArg GameSharedData.isRespawning mirrors.shm).trans respawning
  obtain ⟨p, owes, only⟩ := (run_sound raidRun).2.1.1 hresp
  obtain ⟨k, next⟩ := next_of_owesSpawn raidRun owes
  have acted : own p log' ≠ [] := by
    intro h
    rw [Projection.own_map_event, h] at owes
    cases owes
  have hp : p ≠ 0 := fun h => acted (mirrors.unborn p (Or.inl h)).2.2
  cases found : s.process p with
  | none => exact absurd (mirrors.unborn p (Or.inr found)).2.2 acted
  | some proc =>
      have is := mirrors.worker p proc hp found
      refine ⟨p, proc, found, fun q => ?_, ?_⟩
      · rw [← hown]
        exact ⟨only q, fun h => h ▸ owes⟩
      by_cases running : proc.status = .running
      · obtain ⟨n, place⟩ := is.place running
        exact Or.inl ⟨running, place.next_op next acted⟩
      · have killed : proc.killed = true := by
          refine Bool.eq_true_of_not_eq_false fun unharmed => ?_
          obtain hdone | hnil := is.settled running unharmed
          · cases next.symm.trans hdone
          · exact acted hnil
        exact Or.inr ⟨running, killed, stuck run run' mirrors found running owes⟩

end Processes

/-- A client joins and makes a lucky kill, up to the hit. -/
def luckyKillByOne : List (ℕ × ProcessEnv × ℕ) :=
  List.replicate 4 (0, ⟨true, luckyEnv⟩, 4) ++ shakesAndJoins 1 [97] ++
    List.replicate 9 (1, ⟨true, receiving (attackPacket 3)⟩, 0)

theorem processTree_respawn_luckyKill :
    let x := Kernel.play (serverProgram (fun _ _ => 0) 3) (serverBoot 3 1000) luckyKillByOne
    ∃ p proc, x.2.process p = some proc ∧
      (∀ q, owesSpawn (own q (x.1.filterMap workerEvent)) = true ↔ q = p) ∧
      (proc.status = .running ∧
          (∃ fd k, proc.code = .call (.op (.client fd (.game .spawnNextBoss))) k) ∨
        proc.status ≠ .running ∧ proc.killed = true ∧ Stuck (fun _ _ => 0) 3 x.2) :=
  processTree_respawn (Kernel.run_play _ luckyKillByOne) (by decide +kernel)

end WorldBossRaid
