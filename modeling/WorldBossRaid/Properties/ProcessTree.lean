import WorldBossRaid.Model.Master
import WorldBossRaid.Properties.OnlineCount
import WorldBossRaid.Properties.RaidInvariant

/-!
# The process tree

The raid has a worker for every session from the start.  The server has one process, which makes
the workers one by one, and they die.  A run of the processes, in any order, with any failures of
`accept`, `fork` and the handshake, and with any process killed between two of its operations, is a
run of the raid with seeded generators: the worker of a process that has not been forked yet waits
at its start, and the worker of one that has died takes no more steps.  (A function of `gamestate.c`
is one operation here; a kill inside it would leave the mutex locked.)

`Mirrors` is the invariant.  It says where a process can be between two of its calls and which
descriptors it has there, so it also gives what the processes do with their descriptors.
-/

namespace WorldBossRaid

open Bytes Interaction Prog

/-! ## Where a process can be -/

/-- `main` in its loop, with its code and its descriptors. -/
inductive MasterAt (serverFd : ℕ) : ServerCode ServerPoint → (ℕ → Option File) → Prop
  | head : MasterAt serverFd (.done .accepting) (onlyFile serverFd .listening)
  | accepting : MasterAt serverFd (acceptLoop serverFd) (onlyFile serverFd .listening)
  | accepted (fd n : ℕ) (distinct : fd ≠ serverFd) : MasterAt serverFd (forkWorker serverFd fd)
      (Function.update (onlyFile serverFd .listening) fd (some (.connection n)))
  | closing (fd n : ℕ) (distinct : fd ≠ serverFd) : MasterAt serverFd (closeAndContinue fd)
      (Function.update (onlyFile serverFd .listening) fd (some (.connection n)))

/-- A child that was forked for the connection `n`, with its code, its descriptors, what the worker
of the raid has left to do and what it has done. -/
inductive WorkerAt (serverFd n : ℕ) : ServerCode ServerPoint → (ℕ → Option File) →
    Worker (Option ClientLocals) → WorkerHistory → Prop
  | starting (fd : ℕ) (distinct : fd ≠ serverFd) : WorkerAt serverFd n (workerProcess serverFd fd)
      (Function.update (onlyFile serverFd .listening) fd (some (.connection n))) handleClient []
  | shaking (fd : ℕ) : WorkerAt serverFd n (shakeHands fd) (onlyFile fd (.connection n))
      handleClient []
  | refusing (fd : ℕ) : WorkerAt serverFd n (closeAndExit fd) (onlyFile fd (.connection n))
      handleClient []
  | refused : WorkerAt serverFd n (.done .ended) (fun _ => none) handleClient []
  | serving (fd : ℕ) (q : Worker (Option ClientLocals)) (h : WorkerHistory) :
      WorkerAt serverFd n (onSocket fd q) (onlyFile fd (.connection n)) q h

/-- The first process. -/
structure MasterIs (serverFd : ℕ) (now : ℤ) (m : Process ServerOp.Ret ServerPoint Generator) :
    Prop where
  orphan : m.parent = none
  memory : m.memory = diceInit now
  place : m.status = .running → MasterAt serverFd m.code m.files

/-- A child, and the worker of the raid that it is. -/
structure WorkerIs (serverFd : ℕ) (proc : Process ServerOp.Ret ServerPoint Generator)
    (q : Worker (Option ClientLocals)) (g : Generator) (h : WorkerHistory) : Prop where
  parent : proc.parent = some 0
  memory : proc.memory = g
  place : proc.status = .running → ∃ n, WorkerAt serverFd n proc.code proc.files q h
  /-- It ended by itself after its session, or without one. -/
  settled : proc.status ≠ .running → proc.killed = false → q = .done none ∨ h = []

/-- The workers of the raid with seeded generators. -/
abbrev SeededConfig : Type :=
  Config ℕ WorkerOp WorkerOp.Ret (Option ClientLocals) (SeededState ℕ)

/-- The server's processes, and a raid after the events of `log`. -/
structure Mirrors (serverFd : ℕ) (now : ℤ) (s : ServerKernel) (log : List (SeededEvent ℕ))
    (c : SeededConfig) : Prop where
  shm : c.shared.shm = s.shared
  master : ∃ m, s.process 0 = some m ∧ MasterIs serverFd now m
  worker : ∀ p proc, p ≠ 0 → s.process p = some proc →
    WorkerIs serverFd proc (c.threads p) (c.shared.generator p) (own p log)
  unborn : ∀ p, p = 0 ∨ s.process p = none →
    c.threads p = handleClient ∧ c.shared.generator p = diceInit now ∧ own p log = []

section Steps

variable {outputs : ℤ → ℕ → ℕ} {serverFd : ℕ} {now : ℤ} {s s' : ServerKernel}
  {log : List (SeededEvent ℕ)} {c : SeededConfig}
  {m m' proc proc' : Process ServerOp.Ret ServerPoint Generator} {p : ℕ}
  {ev : Option ProcessEvent}

/-! ## Descriptors -/

lemma close_onlyFile {fd n : ℕ} (distinct : fd ≠ serverFd) :
    Function.update (Function.update (onlyFile serverFd .listening) fd (some (.connection n))) fd
      none = onlyFile serverFd .listening := by
  rw [Function.update_idem, Function.update_eq_self_iff, onlyFile, Function.update_of_ne distinct]

lemma close_listening {fd n : ℕ} (distinct : fd ≠ serverFd) :
    Function.update (Function.update (onlyFile serverFd .listening) fd (some (.connection n)))
      serverFd none = onlyFile fd (.connection n) := by
  rw [Function.update_comm distinct, onlyFile, Function.update_idem,
    Function.update_eq_self_iff.2 rfl, onlyFile]

lemma close_connection {fd n : ℕ} :
    Function.update (onlyFile fd (.connection n)) fd none = fun _ => none := by
  rw [onlyFile, Function.update_idem, Function.update_eq_self_iff]

lemma ne_of_free {fd : ℕ} (free : onlyFile serverFd .listening fd = none) : fd ≠ serverFd := by
  rintro rfl
  rw [onlyFile, Function.update_self] at free
  cases free

/-! ## Signals -/

lemma MasterIs.aged (is : MasterIs serverFd now m)
    (aged : Kernel.Aged (serverProgram outputs serverFd) m m') : MasterIs serverFd now m' := by
  refine ⟨aged.parent.trans is.orphan, aged.memory.trans is.memory, fun running => ?_⟩
  obtain ⟨running₀, hfiles⟩ := aged.running running
  rw [aged.code, hfiles]
  exact is.place running₀

/-- A worker that has stopped for good. -/
lemma WorkerAt.settled {n : ℕ} {code : ServerCode ServerPoint} {files : ℕ → Option File}
    {q : Worker (Option ClientLocals)} {h : WorkerHistory}
    (place : WorkerAt serverFd n code files q h) {v : ServerPoint} (stopped : code = .done v)
    (ended : (serverProgram outputs serverFd).resume v = none) : q = .done none ∨ h = [] := by
  cases place with
  | serving fd q h =>
      cases q with
      | call o k => cases stopped
      | done locals =>
          cases stopped
          exact Or.inl (congrArg Prog.done (Option.map_eq_none_iff.1 ended))
  | _ => exact Or.inr rfl

lemma WorkerIs.aged {q : Worker (Option ClientLocals)} {g : Generator} {h : WorkerHistory}
    (is : WorkerIs serverFd proc q g h)
    (aged : Kernel.Aged (serverProgram outputs serverFd) proc proc') :
    WorkerIs serverFd proc' q g h := by
  refine ⟨aged.parent.trans is.parent, aged.memory.trans is.memory, fun running => ?_,
    fun ended unharmed => ?_⟩
  · obtain ⟨running₀, hfiles⟩ := aged.running running
    rw [aged.code, hfiles]
    exact is.place running₀
  · obtain ⟨ended₀, unharmed₀⟩ | ⟨running₀, v, stopped, hv⟩ := aged.ended ended unharmed
    · exact is.settled ended₀ unharmed₀
    · obtain ⟨n, place⟩ := is.place running₀
      exact place.settled stopped hv

lemma Mirrors.signal (mirrors : Mirrors serverFd now s log c)
    (step : Kernel.Signal (serverProgram outputs serverFd) s p proc s')
    (found : s.process p = some proc) (running : proc.status = .running) :
    Mirrors serverFd now s' log c := by
  refine ⟨mirrors.shm.trans step.frame.1.symm, ?_, fun q proc' hq found' => ?_, fun q hq => ?_⟩
  · obtain ⟨m, foundm, is⟩ := mirrors.master
    obtain ⟨m', foundm', aged⟩ := step.later found running foundm
    exact ⟨m', foundm', is.aged aged⟩
  · obtain ⟨proc₀, found₀, aged⟩ := step.before found running found'
    exact (mirrors.worker q proc₀ hq found₀).aged aged
  · refine mirrors.unborn q (hq.imp_right fun hnone => ?_)
    refine Option.eq_none_iff_forall_ne_some.2 fun proc₀ found₀ => ?_
    obtain ⟨proc', found', -⟩ := step.later found running found₀
    rw [hnone] at found'
    cases found'

/-! ## Moves of the master -/

lemma Mirrors.setMaster (mirrors : Mirrors serverFd now s log c)
    (hprocess : s'.process = (s.set 0 m').process) (hshared : s'.shared = s.shared)
    (is : MasterIs serverFd now m') : Mirrors serverFd now s' log c := by
  refine ⟨mirrors.shm.trans hshared.symm, ⟨m', ?_, is⟩, fun q proc' hq found => ?_,
    fun q hq => ?_⟩
  · rw [hprocess, Kernel.process_set_self]
  · rw [hprocess, Kernel.process_set_of_ne s hq] at found
    exact mirrors.worker q proc' hq found
  · by_cases hq0 : q = 0
    · exact mirrors.unborn q (Or.inl hq0)
    · rw [hprocess, Kernel.process_set_of_ne s hq0] at hq
      exact mirrors.unborn q hq

lemma Mirrors.addWorker (mirrors : Mirrors serverFd now s log c) (fresh : s.process p = none)
    (hp : p ≠ 0) (hprocess : s'.process = (s.set p proc).process)
    (hshared : s'.shared = s.shared)
    (is : WorkerIs serverFd proc handleClient (diceInit now) []) :
    Mirrors serverFd now s' log c := by
  obtain ⟨hthread, hgenerator, hown⟩ := mirrors.unborn p (Or.inr fresh)
  refine ⟨mirrors.shm.trans hshared.symm, ?_, fun q proc' hq found => ?_, fun q hq => ?_⟩
  · obtain ⟨m, foundm, ism⟩ := mirrors.master
    refine ⟨m, ?_, ism⟩
    rw [hprocess, Kernel.process_set_of_ne s hp.symm]
    exact foundm
  · rw [hprocess] at found
    obtain ⟨-, old⟩ | ⟨rfl, rfl⟩ := Kernel.process_set_eq found
    · exact mirrors.worker q proc' hq old
    · rw [hthread, hgenerator, hown]
      exact is
  · refine mirrors.unborn q (hq.imp_right fun hnone => ?_)
    have hqp : q ≠ p := by
      rintro rfl
      rw [hprocess, Kernel.process_set_self] at hnone
      cases hnone
    rw [hprocess, Kernel.process_set_of_ne s hqp] at hnone
    exact hnone

lemma Mirrors.masterMove (mirrors : Mirrors serverFd now s log c) (numbered : Kernel.Numbered s)
    (found : s.process 0 = some m) (active : m.Active)
    (step : Kernel.Move (serverProgram outputs serverFd) s 0 m ev s') :
    ev = none ∧ Mirrors serverFd now s' log c := by
  obtain ⟨m₀, found₀, is⟩ := mirrors.master
  obtain rfl := Option.some.inj (found.symm.trans found₀)
  have place := is.place active.1
  generalize hcode : m.code = code at place
  generalize hfiles : m.files = files at place
  cases place with
  | head =>
      obtain ⟨code, again, rfl, rfl⟩ := step.of_done hcode
      obtain rfl := Option.some.inj again
      refine ⟨rfl, mirrors.setMaster rfl rfl ⟨is.orphan, is.memory, fun _ => ?_⟩⟩
      exact hfiles ▸ MasterAt.accepting
  | accepting =>
      obtain ⟨rfl, rfl | ⟨fd, free, rfl⟩⟩ := step.of_accept hcode
      · refine ⟨rfl, mirrors.setMaster rfl rfl ⟨is.orphan, is.memory, fun _ => ?_⟩⟩
        exact hfiles ▸ MasterAt.head
      · refine ⟨rfl, mirrors.setMaster rfl rfl ⟨is.orphan, is.memory, fun _ => ?_⟩⟩
        rw [hfiles] at free
        change MasterAt serverFd (forkWorker serverFd fd)
          (Function.update m.files fd (some (.connection s.accepted)))
        rw [hfiles]
        exact .accepted fd s.accepted (ne_of_free free)
  | accepted fd n distinct =>
      obtain ⟨rfl, rfl | rfl⟩ := step.of_fork hcode
      · refine ⟨rfl, mirrors.setMaster rfl rfl ⟨is.orphan, is.memory, fun _ => ?_⟩⟩
        exact hfiles ▸ MasterAt.closing fd n distinct
      · have hforks := numbered.lt_forks 0 m found
        have parent : Mirrors serverFd now (s.set 0 (m.proceed (closeAndContinue fd))) log c :=
          mirrors.setMaster rfl rfl
            ⟨is.orphan, is.memory, fun _ => hfiles ▸ MasterAt.closing fd n distinct⟩
        refine ⟨rfl, parent.addWorker ?_ hforks.ne' rfl rfl
          ⟨rfl, is.memory, fun _ => ⟨n, hfiles ▸ WorkerAt.starting fd distinct⟩,
            fun ended => absurd rfl ended⟩⟩
        rw [Kernel.process_set_of_ne s hforks.ne']
        refine Option.eq_none_iff_forall_ne_some.2 fun proc old => ?_
        exact lt_irrefl _ (numbered.lt_forks _ proc old)
  | closing fd n distinct =>
      obtain ⟨rfl, rfl⟩ := step.of_close hcode
      refine ⟨rfl, mirrors.setMaster rfl rfl ⟨is.orphan, is.memory, fun _ => ?_⟩⟩
      change MasterAt serverFd (.done .accepting) (Function.update m.files fd none)
      rw [hfiles, close_onlyFile distinct]
      exact .head

/-! ## Moves of a worker -/

/-- An operation of `handle_client`, as the raid sees it. -/
def workerEvent : ProcessEvent → Option (Event ℕ WorkerOp WorkerOp.Ret GameSharedData RaidEnv)
  | ⟨_, _, .handshake _, _, _, _⟩ => none
  | ⟨p, e, .client _ o, r, before, after⟩ => some ⟨p, e.raid, o, r, before, after⟩

/-- An event of the raid with seeded generators, without the generators. -/
def SeededState.view (e : SeededEvent ℕ) : Event ℕ WorkerOp WorkerOp.Ret GameSharedData RaidEnv :=
  ⟨e.thread, e.env, e.op, e.ret, e.before.shm, e.after.shm⟩

lemma Mirrors.setWorker {log' : List (SeededEvent ℕ)} {c' : SeededConfig}
    (mirrors : Mirrors serverFd now s log c) (hp : p ≠ 0) (found : s.process p = some proc)
    (hprocess : s'.process = (s.set p proc').process) (hshm : c'.shared.shm = s'.shared)
    (others : ∀ q, q ≠ p → c'.threads q = c.threads q ∧
      c'.shared.generator q = c.shared.generator q ∧ own q log' = own q log)
    (is : WorkerIs serverFd proc' (c'.threads p) (c'.shared.generator p) (own p log')) :
    Mirrors serverFd now s' log' c' := by
  refine ⟨hshm, ?_, fun q proc₁ hq foundq => ?_, fun q hq => ?_⟩
  · obtain ⟨m, foundm, ism⟩ := mirrors.master
    refine ⟨m, ?_, ism⟩
    rw [hprocess, Kernel.process_set_of_ne s hp.symm]
    exact foundm
  · rw [hprocess] at foundq
    obtain ⟨hqp, old⟩ | ⟨rfl, rfl⟩ := Kernel.process_set_eq foundq
    · obtain ⟨hthread, hgenerator, hown⟩ := others q hqp
      rw [hthread, hgenerator, hown]
      exact mirrors.worker q proc₁ hq old
    · exact is
  · have hqp : q ≠ p := by
      rintro rfl
      rw [hprocess, Kernel.process_set_self] at hq
      obtain rfl | hq := hq
      · exact hp rfl
      · cases hq
    obtain ⟨hthread, hgenerator, hown⟩ := others q hqp
    rw [hprocess, Kernel.process_set_of_ne s hqp] at hq
    rw [hthread, hgenerator, hown]
    exact mirrors.unborn q hq

/-- The effect of an operation of `handle_client` on its process and on the game state is that on
the raid with seeded generators. -/
lemma exec_client (outputs : ℤ → ℕ → ℕ) (e : ProcessEnv) (fd p : ℕ) (o : WorkerOp)
    (st : SeededState ℕ) :
    ServerOp.exec outputs e (.client fd o) (st.generator p) st.shm =
      ((st.exec outputs p e.raid o).1, (st.exec outputs p e.raid o).2.generator p,
        (st.exec outputs p e.raid o).2.shm) := by
  cases o with
  | rand =>
      change _ = (_, Function.update st.generator p _ p, _)
      rw [Function.update_self]
      rfl
  | _ => rfl

section WorkerMove

variable (mirrors : Mirrors serverFd now s log c) (hp : p ≠ 0) (found : s.process p = some proc)
  (active : proc.Active)

include mirrors hp found active

/-- A worker has moved without its session: what it is in the raid stays as it is. -/
lemma Mirrors.setPlace (hprocess : s'.process = (s.set p proc').process)
    (hshared : s'.shared = s.shared) (hparent : proc'.parent = proc.parent)
    (hmemory : proc'.memory = proc.memory) (hstatus : proc'.status = proc.status) {n : ℕ}
    {q : Worker (Option ClientLocals)} {h : WorkerHistory} (hthread : c.threads p = q)
    (hown : own p log = h) (place : WorkerAt serverFd n proc'.code proc'.files q h) :
    Mirrors serverFd now s' log c := by
  have is := mirrors.worker p proc hp found
  have still (q : ℕ) (_ : q ≠ p) : c.threads q = c.threads q ∧
      c.shared.generator q = c.shared.generator q ∧ own q log = own q log := ⟨rfl, rfl, rfl⟩
  refine mirrors.setWorker hp found hprocess (mirrors.shm.trans hshared.symm) still
    ⟨hparent.trans is.parent, hmemory.trans is.memory, fun _ => ⟨n, ?_⟩, fun ended => ?_⟩
  · rw [hthread, hown]
    exact place
  · exact absurd (hstatus.trans active.1) ended

variable (step : Kernel.Move (serverProgram outputs serverFd) s p proc ev s')

include step

lemma Mirrors.starts {fd n : ℕ} (distinct : fd ≠ serverFd)
    (hcode : proc.code = workerProcess serverFd fd)
    (hfiles : proc.files =
      Function.update (onlyFile serverFd .listening) fd (some (.connection n)))
    (hthread : c.threads p = handleClient) (hown : own p log = []) :
    ev = none ∧ Mirrors serverFd now s' log c := by
  obtain ⟨rfl, rfl⟩ := step.of_close hcode
  refine ⟨rfl, mirrors.setPlace (n := n) hp found active rfl rfl rfl rfl rfl hthread hown ?_⟩
  change WorkerAt serverFd n (shakeHands fd) (Function.update proc.files serverFd none) _ _
  rw [hfiles, close_listening distinct]
  exact .shaking fd

lemma Mirrors.shakes {fd n : ℕ} (hcode : proc.code = shakeHands fd)
    (hfiles : proc.files = onlyFile fd (.connection n))
    (hthread : c.threads p = handleClient) (hown : own p log = []) :
    ev.toList.filterMap workerEvent = [] ∧ Mirrors serverFd now s' log c := by
  obtain ⟨e, rfl, rfl⟩ := step.of_op hcode
  refine ⟨rfl, mirrors.setPlace (n := n) hp found active rfl rfl rfl rfl rfl hthread hown ?_⟩
  change WorkerAt serverFd n (if e.ssl then onSocket fd handleClient else closeAndExit fd)
    proc.files _ _
  rw [hfiles]
  split
  · exact .serving fd handleClient []
  · exact .refusing fd

/-- A client that has not shaken hands is dropped. -/
lemma Mirrors.refuses {fd n : ℕ} (hcode : proc.code = closeAndExit fd)
    (hfiles : proc.files = onlyFile fd (.connection n))
    (hthread : c.threads p = handleClient) (hown : own p log = []) :
    ev = none ∧ Mirrors serverFd now s' log c := by
  obtain ⟨rfl, rfl⟩ := step.of_close hcode
  refine ⟨rfl, mirrors.setPlace (n := n) hp found active rfl rfl rfl rfl rfl hthread hown ?_⟩
  change WorkerAt serverFd n (.done .ended) (Function.update proc.files fd none) _ _
  rw [hfiles, close_connection]
  exact .refused

lemma Mirrors.resumes (run : (seeded ℕ outputs).Run (seededInit ℕ now) log c) {fd n : ℕ}
    {locals : Option ClientLocals} (hcode : proc.code = onSocket fd (.done locals))
    (hfiles : proc.files = onlyFile fd (.connection n)) (hthread : c.threads p = .done locals) :
    ∃ c', (seeded ℕ outputs).Run (seededInit ℕ now) log c' ∧ ev = none ∧
      Mirrors serverFd now s' log c' := by
  have is := mirrors.worker p proc hp found
  obtain ⟨code, again, rfl, rfl⟩ := step.of_done hcode
  obtain ⟨l, rfl, rfl⟩ := Option.map_eq_some_iff.1 again
  refine ⟨_, run.resume p hthread rfl, rfl, mirrors.setWorker hp found rfl mirrors.shm
    (fun q hq => ⟨Function.update_of_ne hq _ _, rfl, rfl⟩)
    ⟨is.parent, is.memory, fun _ => ⟨n, ?_⟩, fun ended => absurd active.1 ended⟩⟩
  change WorkerAt serverFd n (onSocket fd (handleClientLoop l)) proc.files
    (Function.update c.threads p (handleClientLoop l) p) _
  rw [hfiles, Function.update_self]
  exact .serving fd (handleClientLoop l) _

/-- A session executes an operation, and so does its worker in the raid. -/
lemma Mirrors.executes (run : (seeded ℕ outputs).Run (seededInit ℕ now) log c) {fd n : ℕ}
    {o : WorkerOp} {k : o.Ret → Worker (Option ClientLocals)}
    (hcode : proc.code = onSocket fd (.call o k))
    (hfiles : proc.files = onlyFile fd (.connection n)) (hthread : c.threads p = .call o k) :
    ∃ e c', (seeded ℕ outputs).Run (seededInit ℕ now) (e :: log) c' ∧
      [e].map SeededState.view = ev.toList.filterMap workerEvent ∧
      Mirrors serverFd now s' (e :: log) c' := by
  have is := mirrors.worker p proc hp found
  obtain ⟨e, rfl, rfl⟩ := step.of_op hcode
  have hexec : (serverProgram outputs serverFd).exec e (.client fd o) proc.memory s.shared = _ :=
    is.memory ▸ mirrors.shm ▸ exec_client outputs e fd p o c.shared
  rw [hexec]
  refine ⟨_, _, run.act p e.raid hthread, ?_, mirrors.setWorker hp found rfl rfl
    (fun q hq => ⟨Function.update_of_ne hq _ _, ?_, ?_⟩)
    ⟨is.parent, rfl, fun _ => ⟨n, ?_⟩, fun ended => absurd active.1 ended⟩⟩
  · rw [List.map_singleton, ← mirrors.shm]
    rfl
  · exact SeededState.generator_exec (Or.inl hq) c.shared
  · exact Machine.own_event_of_ne _ hq.symm e.raid o c.shared log
  · change WorkerAt serverFd n (onSocket fd (k _)) proc.files (Function.update c.threads p _ p) _
    rw [hfiles, Function.update_self]
    exact .serving fd _ _

lemma Mirrors.workerMove (run : (seeded ℕ outputs).Run (seededInit ℕ now) log c) :
    ∃ new c', (seeded ℕ outputs).Run (seededInit ℕ now) (new ++ log) c' ∧
      new.map SeededState.view = ev.toList.filterMap workerEvent ∧
      Mirrors serverFd now s' (new ++ log) c' := by
  obtain ⟨n, place⟩ := (mirrors.worker p proc hp found).place active.1
  generalize hcode : proc.code = code at place
  generalize hfiles : proc.files = files at place
  generalize hthread : c.threads p = q at place
  generalize hown : own p log = h at place
  cases place with
  | starting fd distinct =>
      obtain ⟨rfl, mirrors'⟩ :=
        mirrors.starts hp found active step distinct hcode hfiles hthread hown
      exact ⟨[], c, run, rfl, mirrors'⟩
  | shaking fd =>
      obtain ⟨hev, mirrors'⟩ := mirrors.shakes hp found active step hcode hfiles hthread hown
      exact ⟨[], c, run, hev.symm, mirrors'⟩
  | refusing fd =>
      obtain ⟨rfl, mirrors'⟩ := mirrors.refuses hp found active step hcode hfiles hthread hown
      exact ⟨[], c, run, rfl, mirrors'⟩
  | refused =>
      obtain ⟨code, again, -⟩ := step.of_done hcode
      cases again
  | serving fd =>
      cases q with
      | done locals =>
          obtain ⟨c', run', rfl, mirrors'⟩ :=
            mirrors.resumes hp found active step run hcode hfiles hthread
          exact ⟨[], c', run', rfl, mirrors'⟩
      | call o k =>
          obtain ⟨e, c', run', hev, mirrors'⟩ :=
            mirrors.executes hp found active step run hcode hfiles hthread
          exact ⟨[e], c', run', hev, mirrors'⟩

end WorkerMove

/-! ## Who holds a connection -/

lemma WorkerAt.no_call {n : ℕ} {code : ServerCode ServerPoint} {files : ℕ → Option File}
    {q : Worker (Option ClientLocals)} {h : WorkerHistory}
    (place : WorkerAt serverFd n code files q h) :
    (∀ fd k, code ≠ .call (.accept fd) k) ∧ ∀ k, code ≠ .call .fork k := by
  refine ⟨fun fd k hcall => ?_, fun k hcall => ?_⟩
  · cases place with
    | serving fd q h => cases q <;> cases hcall
    | _ => cases hcall
  · cases place with
    | serving fd q h => cases q <;> cases hcall
    | _ => cases hcall

/-- A connection has one worker, and none while the master is about to fork it. -/
structure Private (serverFd : ℕ) (s : ServerKernel) : Prop where
  counted : ∀ p n, s.Holds p n → n < s.accepted
  apart : ∀ p q n, p ≠ 0 → q ≠ 0 → s.Holds p n → s.Holds q n → p = q
  unshared : ∀ m fd, s.process 0 = some m → m.code = forkWorker serverFd fd →
    ∀ q n, s.Holds 0 n → s.Holds q n → q = 0

lemma onlyFile_listening (fd n : ℕ) : onlyFile serverFd .listening fd ≠ some (.connection n) := by
  by_cases hfd : fd = serverFd
  · rw [hfd, onlyFile, Function.update_self]
    exact fun h => File.noConfusion (Option.some.inj h)
  · rw [onlyFile, Function.update_of_ne hfd]
    exact (Option.some_ne_none _).symm

lemma private_boot : Private serverFd (serverBoot serverFd now) := by
  have none_ (p n : ℕ) : ¬(serverBoot serverFd now).Holds p n := by
    rintro ⟨proc, fd, found, hfile⟩
    obtain ⟨-, rfl⟩ := Kernel.process_boot found
    exact onlyFile_listening fd n hfile
  exact ⟨fun p n h => absurd h (none_ p n), fun p _ n _ _ h => absurd h (none_ p n),
    fun _ _ _ _ q n _ h => absurd h (none_ q n)⟩

/-- A step that opens nothing, and after which the master is not about to fork if it was not. -/
lemma Private.shrink (prv : Private serverFd s) (haccepted : s'.accepted = s.accepted)
    (less : ∀ q n, s'.Holds q n → s.Holds q n)
    (still : ∀ m' fd, s'.process 0 = some m' → m'.code = forkWorker serverFd fd →
      ∃ m, s.process 0 = some m ∧ m.code = forkWorker serverFd fd) : Private serverFd s' := by
  refine ⟨fun q n h => ?_, fun p q n hp hq h h' => ?_, fun m' fd found' hcode q n h h' => ?_⟩
  · rw [haccepted]
    exact prv.counted q n (less q n h)
  · exact prv.apart p q n hp hq (less p n h) (less q n h')
  · obtain ⟨m, found, hm⟩ := still m' fd found' hcode
    exact prv.unshared m fd found hm q n (less 0 n h) (less q n h')

lemma Private.signal (prv : Private serverFd s)
    (step : Kernel.Signal (serverProgram outputs serverFd) s p proc s')
    (found : s.process p = some proc) (running : proc.status = .running) :
    Private serverFd s' := by
  refine prv.shrink step.frame.2.2 (fun q n h => step.holds found running h)
    fun m' fd found' hcode => ?_
  obtain ⟨m, old, aged⟩ := step.before found running found'
  exact ⟨m, old, aged.code.symm.trans hcode⟩

lemma Private.workerMove (prv : Private serverFd s) (mirrors : Mirrors serverFd now s log c)
    (numbered : Kernel.Numbered s) (hp : p ≠ 0) (found : s.process p = some proc)
    (active : proc.Active)
    (step : Kernel.Move (serverProgram outputs serverFd) s p proc ev s') : Private serverFd s' := by
  obtain ⟨n, place⟩ := (mirrors.worker p proc hp found).place active.1
  obtain ⟨not_accept, not_fork⟩ := place.no_call
  refine prv.shrink ?_ (fun q n h => ?_) fun m' fd found' hcode => ?_
  · exact step.accepted_eq not_accept
  · obtain old | ⟨-, -, -, fd, k, hcall⟩ | ⟨-, -, k, hcall⟩ := step.holds found h
    · exact old
    · exact absurd hcall (not_accept fd k)
    · exact absurd hcall (not_fork k)
  · obtain (⟨-, old⟩ | ⟨h0, -⟩) | ⟨h0, -⟩ := step.process_cases found'
    · exact ⟨m', old, hcode⟩
    · exact absurd h0.symm hp
    · exact absurd (numbered.lt_forks p proc found) (h0 ▸ Nat.not_lt_zero p)

/-- The master goes on to where it is not about to fork, and opens nothing. -/
lemma Private.setMaster (prv : Private serverFd s) (found : s.process 0 = some m)
    (less : ∀ fd f, m'.files fd = some f → m.files fd = some f)
    (elsewhere : ∀ fd, m'.code ≠ forkWorker serverFd fd) : Private serverFd (s.set 0 m') := by
  refine prv.shrink rfl (fun q n h => ?_) fun m₁ fd found₁ hcode => ?_
  · obtain old | ⟨rfl, fd, hfile⟩ := Kernel.holds_set h
    · exact old
    · exact ⟨m, fd, found, less fd _ hfile⟩
  · rw [Kernel.process_set_self] at found₁
    obtain rfl := Option.some.inj found₁
    exact absurd hcode (elsewhere fd)

/-- The master has accepted a connection: nobody else has it. -/
lemma Private.accept (prv : Private serverFd s) (found : s.process 0 = some m)
    (step : Kernel.Move (serverProgram outputs serverFd) s 0 m ev s')
    (haccepted : s'.accepted = s.accepted + 1) (not_fork : ∀ k, m.code ≠ .call .fork k)
    (only : ∀ n, ¬s.Holds 0 n) : Private serverFd s' := by
  have cases_ {q n : ℕ} (h : s'.Holds q n) : s.Holds q n ∨ q = 0 ∧ n = s.accepted := by
    obtain old | ⟨hq, hn, -⟩ | ⟨-, -, k, hcall⟩ := step.holds found h
    · exact Or.inl old
    · exact Or.inr ⟨hq, hn⟩
    · exact absurd hcall (not_fork k)
  refine ⟨fun q n h => ?_, fun p q n hp hq h h' => ?_, fun m' fd found' hcode q n h h' => ?_⟩
  · rw [haccepted]
    obtain old | ⟨-, rfl⟩ := cases_ h
    · exact (prv.counted q n old).trans (Nat.lt_succ_self _)
    · exact Nat.lt_succ_self _
  · exact prv.apart p q n hp hq ((cases_ h).resolve_right fun h => hp h.1)
      ((cases_ h').resolve_right fun h => hq h.1)
  · -- the master holds only the new connection, whose number nobody has seen
    obtain ⟨-, rfl⟩ := (cases_ h).resolve_left (only n)
    obtain old | ⟨rfl, -⟩ := cases_ h'
    · exact absurd (prv.counted q _ old) (lt_irrefl _)
    · rfl

/-- The master has forked: it was the only one to hold the connection, and goes on to close it. -/
lemma Private.fork (prv : Private serverFd s) (found : s.process 0 = some m) {fd : ℕ}
    (hcode : m.code = forkWorker serverFd fd)
    (step : Kernel.Move (serverProgram outputs serverFd) s 0 m ev s')
    (haccepted : s'.accepted = s.accepted)
    (elsewhere : ∀ m' fd, s'.process 0 = some m' → m'.code ≠ forkWorker serverFd fd) :
    Private serverFd s' := by
  have cases_ {q n : ℕ} (h : s'.Holds q n) : s.Holds q n ∨ q = s.forks ∧ s.Holds 0 n := by
    obtain old | ⟨-, -, -, fd, k, hcall⟩ | ⟨hq, h, -⟩ := step.holds found h
    · exact Or.inl old
    · cases hcode.symm.trans hcall
    · exact Or.inr ⟨hq, h⟩
  refine ⟨fun q n h => ?_, fun p q n hp hq h h' => ?_, fun m' fd found' hcode => ?_⟩
  · rw [haccepted]
    exact (cases_ h).elim (prv.counted q n) fun h => prv.counted 0 n h.2
  · have alone := prv.unshared m fd found hcode
    obtain old | ⟨rfl, new⟩ := cases_ h
    · obtain old' | ⟨rfl, new⟩ := cases_ h'
      · exact prv.apart p q n hp hq old old'
      · exact absurd (alone p n new old) hp
    · obtain old' | ⟨rfl, -⟩ := cases_ h'
      · exact absurd (alone q n new old') hq
      · rfl
  · exact absurd hcode (elsewhere m' fd found')

lemma Private.masterMove (prv : Private serverFd s) (mirrors : Mirrors serverFd now s log c)
    (numbered : Kernel.Numbered s) (found : s.process 0 = some m) (active : m.Active)
    (step : Kernel.Move (serverProgram outputs serverFd) s 0 m ev s') : Private serverFd s' := by
  obtain ⟨m₀, found₀, is⟩ := mirrors.master
  obtain rfl := Option.some.inj (found.symm.trans found₀)
  have place := is.place active.1
  generalize hcode : m.code = code at place
  generalize hfiles : m.files = files at place
  cases place with
  | head =>
      obtain ⟨code, again, -, rfl⟩ := step.of_done hcode
      obtain rfl := Option.some.inj again
      exact prv.setMaster found (fun _ _ h => h) fun fd h => by cases h
  | accepting =>
      have bare (n : ℕ) : ¬s.Holds 0 n := by
        rintro ⟨m₁, fd, found₁, hfile⟩
        obtain rfl := Option.some.inj (found.symm.trans found₁)
        rw [hfiles] at hfile
        exact onlyFile_listening fd n hfile
      obtain ⟨-, rfl | ⟨fd, -, rfl⟩⟩ := step.of_accept hcode
      · exact prv.setMaster found (fun _ _ h => h) fun fd h => by cases h
      · exact prv.accept found step rfl (fun k h => by cases hcode.symm.trans h) bare
  | accepted fd n distinct =>
      obtain ⟨-, rfl | rfl⟩ := step.of_fork hcode
      · exact prv.setMaster found (fun _ _ h => h) fun fd h => by cases h
      · refine prv.fork found hcode step rfl fun m' fd' found' h => ?_
        have hforks := numbered.lt_forks 0 m found
        rw [Kernel.process_set_of_ne _ hforks.ne, Kernel.process_set_self] at found'
        obtain rfl := Option.some.inj found'
        cases h
  | closing fd n distinct =>
      obtain ⟨-, rfl⟩ := step.of_close hcode
      refine prv.setMaster found (fun fd' f h => ?_) fun fd h => by cases h
      exact (Process.withFile_cases h).resolve_left fun h => by cases h

end Steps

/-! ## Whole runs -/

section Runs

variable {outputs : ℤ → ℕ → ℕ} {serverFd : ℕ} {now : ℤ} {s : ServerKernel}
  {log : List ProcessEvent}

lemma mirrors_boot : Mirrors serverFd now (serverBoot serverFd now) [] (seededInit ℕ now) := by
  refine ⟨rfl, ⟨master serverFd now, rfl, ⟨rfl, rfl, fun _ => .head⟩⟩,
    fun p proc hp found => ?_, fun p _ => ⟨rfl, rfl, rfl⟩⟩
  exact absurd (Kernel.process_boot found).1 hp

/-- Whatever the processes do next, the raid can do. -/
lemma Mirrors.run {s₀ : ServerKernel} {log₀ : List (SeededEvent ℕ)} {c₀ : SeededConfig}
    (mirrors₀ : Mirrors serverFd now s₀ log₀ c₀)
    (run₀ : (seeded ℕ outputs).Run (seededInit ℕ now) log₀ c₀) (numbered₀ : Kernel.Numbered s₀)
    (run : Kernel.Run (serverProgram outputs serverFd) s₀ log s) :
    ∃ log' c, (seeded ℕ outputs).Run (seededInit ℕ now) (log' ++ log₀) c ∧
      log'.map SeededState.view = log.filterMap workerEvent ∧
      Mirrors serverFd now s (log' ++ log₀) c := by
  induction run with
  | start => exact ⟨[], c₀, run₀, rfl, mirrors₀⟩
  | @move log s s' run p proc found active ev step ih =>
      obtain ⟨log', c, run', hlog, mirrors⟩ := ih
      by_cases hp : p = 0
      · subst hp
        obtain ⟨rfl, mirrors'⟩ := mirrors.masterMove (run.numbered numbered₀) found active step
        exact ⟨log', c, run', hlog, mirrors'⟩
      · obtain ⟨new, c₁, run₁, hnew, mirrors₁⟩ := mirrors.workerMove hp found active step run'
        rw [← List.append_assoc] at run₁ mirrors₁
        refine ⟨new ++ log', c₁, run₁, ?_, mirrors₁⟩
        rw [List.map_append, hnew, hlog, List.filterMap_append]
  | signal run found running step ih =>
      obtain ⟨log', c, run', hlog, mirrors⟩ := ih
      exact ⟨log', c, run', hlog, mirrors.signal step found running⟩

/-- Every run of the processes is mirrored by a run of the raid. -/
lemma serverRun_mirrors
    (run : Kernel.Run (serverProgram outputs serverFd) (serverBoot serverFd now) log s) :
    ∃ log' c, (seeded ℕ outputs).Run (seededInit ℕ now) log' c ∧
      log'.map SeededState.view = log.filterMap workerEvent ∧ Mirrors serverFd now s log' c := by
  obtain ⟨log', c, run', hlog, mirrors⟩ :=
    mirrors_boot.run (.start (M := seeded ℕ outputs)) (Kernel.numbered_boot rfl) run
  rw [List.append_nil] at run' mirrors
  exact ⟨log', c, run', hlog, mirrors⟩

lemma serverRun_private
    (run : Kernel.Run (serverProgram outputs serverFd) (serverBoot serverFd now) log s) :
    Private serverFd s := by
  induction run with
  | start => exact private_boot
  | @move log s s' run p proc found active ev step ih =>
      obtain ⟨log', c, -, -, mirrors⟩ := serverRun_mirrors run
      by_cases hp : p = 0
      · subst hp
        exact ih.masterMove mirrors (run.numbered (Kernel.numbered_boot rfl)) found active step
      · exact ih.workerMove mirrors (run.numbered (Kernel.numbered_boot rfl)) hp found active step
  | signal run found running step ih => exact ih.signal step found running

/-- **The processes are the raid.**  Whatever the order in which the processes of the server run,
whichever calls of `accept`, `fork` and `tls_server_handshake` fail and whichever processes are
killed, between whichever of their operations, the operations that the workers have executed, in
their order and with the game states before and after them, are those of a run of the raid in which
every worker's generator starts as `dice_init` left it, and the game state is the one of that
run. -/
theorem processTree_refines
    (run : Kernel.Run (serverProgram outputs serverFd) (serverBoot serverFd now) log s) :
    ∃ log' c, (seeded ℕ outputs).Run (seededInit ℕ now) log' c ∧
      log'.map SeededState.view = log.filterMap workerEvent ∧ c.shared.shm = s.shared ∧
      ∀ p proc, p ≠ 0 → s.process p = some proc → proc.memory = c.shared.generator p := by
  obtain ⟨log', c, run', hlog, mirrors⟩ := serverRun_mirrors run
  exact ⟨log', c, run', hlog, mirrors.shm, fun p proc hp found =>
    (mirrors.worker p proc hp found).memory⟩

/-- What the processes have open. -/
structure Descriptors (serverFd : ℕ) (s : ServerKernel) : Prop where
  /-- Where `main` waits for a client it has the listening socket and nothing else. -/
  waiting : ∀ m, s.process 0 = some m → m.status = .running → m.code = acceptLoop serverFd →
    m.files = onlyFile serverFd .listening
  /-- A session runs in a child, on a connection that is the only thing the child has open. -/
  serving : ∀ p proc fd o k, s.process p = some proc → proc.status = .running →
    proc.code = .call (.op (.client fd o)) k →
    p ≠ 0 ∧ ∃ n, n < s.accepted ∧ proc.files = onlyFile fd (.connection n)
  /-- No connection has two workers. -/
  apart : ∀ p q n, p ≠ 0 → q ≠ 0 → s.Holds p n → s.Holds q n → p = q
  /-- What is closed is open. -/
  closes : ∀ p proc fd k, s.process p = some proc → proc.status = .running →
    proc.code = .call (.close fd) k → proc.files fd ≠ none
  /-- What has ended has nothing open. -/
  ended : ∀ p proc fd, s.process p = some proc → proc.status ≠ .running → proc.files fd = none

lemma MasterAt.closes {code : ServerCode ServerPoint} {files : ℕ → Option File}
    (place : MasterAt serverFd code files) {fd : ℕ} {k : Bool → ServerCode ServerPoint}
    (hcode : code = .call (.close fd) k) : files fd ≠ none := by
  cases place with
  | closing fd' n distinct =>
      cases hcode
      rw [Function.update_self]
      exact Option.some_ne_none _
  | _ => cases hcode

lemma WorkerAt.closes {n : ℕ} {code : ServerCode ServerPoint} {files : ℕ → Option File}
    {q : Worker (Option ClientLocals)} {h : WorkerHistory}
    (place : WorkerAt serverFd n code files q h) {fd : ℕ} {k : Bool → ServerCode ServerPoint}
    (hcode : code = .call (.close fd) k) : files fd ≠ none := by
  cases place with
  | starting fd' distinct =>
      cases hcode
      rw [Function.update_of_ne distinct.symm, onlyFile, Function.update_self]
      exact Option.some_ne_none _
  | refusing fd' =>
      cases hcode
      rw [onlyFile, Function.update_self]
      exact Option.some_ne_none _
  | serving fd' q h => cases q <;> cases hcode
  | _ => cases hcode

/-- An operation of `handle_client` is issued by a session. -/
lemma WorkerAt.serves {n : ℕ} {code : ServerCode ServerPoint} {files : ℕ → Option File}
    {q : Worker (Option ClientLocals)} {h : WorkerHistory}
    (place : WorkerAt serverFd n code files q h) {fd : ℕ} {o : WorkerOp}
    {k : o.Ret → ServerCode ServerPoint} (hcode : code = .call (.op (.client fd o)) k) :
    files = onlyFile fd (.connection n) := by
  cases place with
  | serving fd' q h =>
      cases q with
      | done => cases hcode
      | call => cases hcode; rfl
  | _ => cases hcode

/-- **The descriptors of the server.**  However the processes run and fail, `main` is back at
`accept` with nothing open but the listening socket; every receive and send of a session is on a
connection that is all its process has open, and that no other worker has; nothing is closed that
is not open; and a process that has ended holds nothing, so that its client sees the connection
end. -/
theorem processTree_descriptors
    (run : Kernel.Run (serverProgram outputs serverFd) (serverBoot serverFd now) log s) :
    Descriptors serverFd s := by
  obtain ⟨log', c, -, -, mirrors⟩ := serverRun_mirrors run
  have prv := serverRun_private run
  obtain ⟨m, foundm, ism⟩ := mirrors.master
  refine ⟨fun m₁ found running hcode => ?_, fun p proc fd o k found running hcode => ?_,
    prv.apart, fun p proc fd k found running hcode => ?_, run.shut rfl⟩
  · obtain rfl := Option.some.inj (foundm.symm.trans found)
    have place := ism.place running
    rw [hcode] at place
    generalize m.files = files at place
    generalize hloop : acceptLoop serverFd = code at place
    cases place with
    | accepting => rfl
    | _ => cases hloop
  · by_cases hp : p = 0
    · subst hp
      obtain rfl := Option.some.inj (foundm.symm.trans found)
      have place := ism.place running
      rw [hcode] at place
      generalize hop : Prog.call (Call.op (ServerOp.client fd o)) k = code at place
      generalize m.files = files at place
      cases place <;> cases hop
    · obtain ⟨n, place⟩ := (mirrors.worker p proc hp found).place running
      have hfiles := place.serves hcode
      refine ⟨hp, n, prv.counted p n ⟨proc, fd, found, ?_⟩, hfiles⟩
      rw [hfiles, onlyFile, Function.update_self]
  · by_cases hp : p = 0
    · subst hp
      obtain rfl := Option.some.inj (foundm.symm.trans found)
      exact (ism.place running).closes hcode
    · obtain ⟨n, place⟩ := (mirrors.worker p proc hp found).place running
      exact place.closes hcode

/-- **No zombie is left behind.**  All processes but the first are its children; and whenever the
first one runs, its handler is not waiting and no `SIGCHLD` is pending, each of them is still
running or has been waited for, however many of them ended at once and whatever ended them. -/
theorem processTree_no_zombies
    (run : Kernel.Run (serverProgram outputs serverFd) (serverBoot serverFd now) log s)
    {m : Process ServerOp.Ret ServerPoint Generator} (found : s.process 0 = some m)
    (running : m.status = .running) :
    ∀ p proc, p ≠ 0 → s.process p = some proc → proc.parent = some 0 ∧
      (proc.status = .zombie → m.pending = true ∨ m.handler = .waiting) := by
  obtain ⟨log', c, -, -, mirrors⟩ := serverRun_mirrors run
  intro p proc hp found'
  have parent := (mirrors.worker p proc hp found').parent
  exact ⟨parent, fun zombie => run.awaited rfl 0 m p proc found running found' parent zombie⟩

lemma own_map_view (log : List (SeededEvent ℕ)) (p : ℕ) :
    own p (log.map SeededState.view) = own p log := by
  induction log with
  | nil => rfl
  | cons e log ih =>
      rw [List.map_cons, own_cons, own_cons, ih]
      rfl

/-- **The online count of the processes.**  It is the number of the workers that have joined and not
left, and each of them is a process that still runs or was killed; so once every client is gone
and no worker was killed it is 0. -/
theorem processTree_onlineCount
    (run : Kernel.Run (serverProgram outputs serverFd) (serverBoot serverFd now) log s) :
    s.shared.onlineCount = (online (log.filterMap workerEvent)).card ∧
      ∀ p ∈ online (log.filterMap workerEvent), p ≠ 0 ∧ ∃ proc, s.process p = some proc ∧
        (proc.status = .running ∨ proc.killed = true) := by
  obtain ⟨log', c, run', hlog, mirrors⟩ := serverRun_mirrors run
  have counted := raid_onlineCounted ((seededRaid ℕ outputs).run run')
  have hown (p : ℕ) : own p (log'.map (seededRaid ℕ outputs).event) = own p log' :=
    (seededRaid ℕ outputs).own_map_event p log'
  have honline : online (log'.map (seededRaid ℕ outputs).event) =
      online (log.filterMap workerEvent) := by
    ext p
    rw [mem_present, mem_present, hown, ← hlog, own_map_view]
  rw [← honline]
  refine ⟨?_, fun p hmem => ?_⟩
  · rw [← mirrors.shm]
    exact counted.count_eq
  · obtain ⟨joined, unleft⟩ := (counted.mem_online p).1 hmem
    rw [hown] at joined unleft
    have acted : own p log' ≠ [] := fun h => joined (by rw [h]; rfl)
    have hp : p ≠ 0 := fun h => acted (mirrors.unborn p (Or.inl h)).2.2
    cases hproc : s.process p with
    | none => exact absurd (mirrors.unborn p (Or.inr hproc)).2.2 acted
    | some proc =>
        refine ⟨hp, proc, rfl, or_iff_not_imp_left.2 fun ended => ?_⟩
        refine Bool.eq_true_of_not_eq_false fun unharmed => ?_
        obtain hdone | hnil := (mirrors.worker p proc hp hproc).settled ended unharmed
        · have left_ := counted.leaves_at_end p hdone
          rw [hown] at left_
          exact joined (left_.symm.trans unleft)
        · exact acted hnil

end Runs

/-! ## Two clients -/

/-- The program with its listening socket at 3. -/
def serverOnThree : Executable ServerOp.Ret ServerPoint Generator GameSharedData ProcessEnv :=
  serverProgram (fun _ _ => 1) 3

/-- The master takes two connections, both at 4, and forks a worker for each. -/
def twoForks : List (ℕ × ProcessEnv × ℕ) := List.replicate 8 (0, ⟨true, luckyEnv⟩, 4)

/-- The worker `p` shakes hands and is joined under a name. -/
def shakesAndJoins (p : ℕ) (name : List UInt8) : List (ℕ × ProcessEnv × ℕ) :=
  List.replicate 7 (p, ⟨true, receiving (joinPacket name)⟩, 0)

/-- Two clients that have joined. -/
def twoJoined : List (ℕ × ProcessEnv × ℕ) :=
  twoForks ++ shakesAndJoins 1 [97] ++ shakesAndJoins 2 [98]

/-- Two clients whose handshakes fail. -/
def twoRefused : List (ℕ × ProcessEnv × ℕ) :=
  twoForks ++ List.replicate 4 (1, ⟨false, luckyEnv⟩, 0) ++
    List.replicate 4 (2, ⟨false, luckyEnv⟩, 0)

theorem processTree_refines_joined :
    let x := Kernel.play serverOnThree (serverBoot 3 1000) twoJoined
    (∃ log' c, (seeded ℕ fun _ _ => 1).Run (seededInit ℕ 1000) log' c ∧
      log'.map SeededState.view = x.1.filterMap workerEvent ∧ c.shared.shm = x.2.shared ∧
      ∀ p proc, p ≠ 0 → x.2.process p = some proc → proc.memory = c.shared.generator p) ∧
      (x.1.filterMap workerEvent).length = 10 :=
  ⟨processTree_refines (Kernel.run_play _ twoJoined), by decide +kernel⟩

theorem processTree_descriptors_joined :
    let x := Kernel.play serverOnThree (serverBoot 3 1000) twoJoined
    Descriptors 3 x.2 ∧ x.2.Holds 1 0 ∧ x.2.Holds 2 1 :=
  ⟨processTree_descriptors (Kernel.run_play _ twoJoined), ⟨_, 4, rfl, rfl⟩, ⟨_, 4, rfl, rfl⟩⟩

theorem processTree_no_zombies_refused :
    let x := Kernel.play serverOnThree (serverBoot 3 1000) twoRefused
    ∃ m, x.2.process 0 = some m ∧ m.status = .running ∧ ∀ p proc, p ≠ 0 →
      x.2.process p = some proc → proc.parent = some 0 ∧
        (proc.status = .zombie → m.pending = true ∨ m.handler = .waiting) :=
  ⟨_, rfl, rfl, processTree_no_zombies (Kernel.run_play _ twoRefused) rfl rfl⟩

theorem processTree_onlineCount_joined :
    let x := Kernel.play serverOnThree (serverBoot 3 1000) twoJoined
    x.2.shared.onlineCount = 2 ∧
      x.2.shared.onlineCount = (online (x.1.filterMap workerEvent)).card ∧
      ∀ p ∈ online (x.1.filterMap workerEvent), p ≠ 0 ∧ ∃ proc, x.2.process p = some proc ∧
        (proc.status = .running ∨ proc.killed = true) :=
  ⟨by decide +kernel, processTree_onlineCount (Kernel.run_play _ twoJoined)⟩

end WorldBossRaid
