import WorldBossRaid.Framework.Interleave

/-!
# Forked processes and their signals

A server that forks a process for each connection rests on what the operating system promises of
processes.  A program of this module issues operations of its own and four calls: it takes a
connection from a listening socket, closes a descriptor, forks, and ends when it stops with a
value that nothing resumes.  A forked child is the rest of its parent's program, with copies of
the private memory and of the descriptors.

A process that ends, by itself or by a signal, leaves a zombie and a pending `SIGCHLD` for its
parent; pending signals do not count, so two children that end at about the same time may leave
one.  Every process has installed the handler `while (waitpid(-1, NULL, WNOHANG) > 0);`, which
interrupts the program between any two of its calls and is not interrupted by its own signal.

`Kernel.Run` is any order of all this, with the log of the programs' own operations, and
`Run.awaited` says that no zombie is forgotten although signals are merged.
-/

namespace Interaction

open Prog

/-! ## Programs -/

/-- What an open descriptor refers to. -/
inductive File where
  | listening
  /-- The connection that was accepted as the `n`-th of all. -/
  | connection (n : ℕ)
  deriving DecidableEq, Repr

/-- What `fork` returns. -/
inductive ForkRet where
  | failed
  | child
  | parent (pid : ℕ)
  deriving DecidableEq, Repr

/-- What a program asks for. -/
inductive Call (Op : Type) where
  | op (o : Op)
  | accept (fd : ℕ)
  | close (fd : ℕ)
  | fork
  deriving DecidableEq

/-- The answers.  `accept` gives the descriptor of the connection, or `none` for -1; `close` says
whether the descriptor was open. -/
abbrev Call.Ret {Op : Type} (Ret : Op → Type) : Call Op → Type
  | op o => Ret o
  | accept _ => Option ℕ
  | close _ => Bool
  | fork => ForkRet

/-- The code of a process. -/
abbrev Code {Op : Type} (Ret : Op → Type) (ν : Type) : Type := Prog (Call Op) (Call.Ret Ret) ν

variable {Op : Type} {Ret : Op → Type} {ν μ σ ε : Type}

/-- The meaning of the operations, on the memory of the process that issues them and on what all
processes share, and of the loops around the programs. -/
structure Executable {Op : Type} (Ret : Op → Type) (ν μ σ ε : Type) where
  exec : (e : ε) → (o : Op) → μ → σ → Ret o × μ × σ
  resume : ν → Option (Code Ret ν)

/-! ## Processes -/

/-- A process that has ended is a zombie until its parent has waited for it. -/
inductive Status where
  | running | zombie | reaped
  deriving DecidableEq, Repr

/-- Where a process is in its `SIGCHLD` handler: not in it, in the loop, or after the `waitpid`
that ended the loop. -/
inductive Handler where
  | idle | waiting | returning
  deriving DecidableEq, Repr

/-- A process. -/
structure Process {Op : Type} (Ret : Op → Type) (ν μ : Type) where
  memory : μ
  files : ℕ → Option File
  code : Code Ret ν
  /-- `none` for the process that everything starts with. -/
  parent : Option ℕ
  status : Status
  /-- Was it ended by a signal? -/
  killed : Bool
  /-- Is `SIGCHLD` pending? -/
  pending : Bool
  handler : Handler

namespace Process

/-- Does the program of the process move? -/
def Active (proc : Process Ret ν μ) : Prop := proc.status = .running ∧ proc.handler = .idle

/-- What `fork` makes of a process. -/
def forked (proc : Process Ret ν μ) (pid : ℕ) (rest : Code Ret ν) : Process Ret ν μ where
  memory := proc.memory
  files := proc.files
  code := rest
  parent := some pid
  status := .running
  killed := false
  pending := false
  handler := .idle

/-- The program goes on. -/
def proceed (proc : Process Ret ν μ) (code : Code Ret ν) : Process Ret ν μ := { proc with code }

/-- The memory has changed. -/
def withMemory (proc : Process Ret ν μ) (memory : μ) : Process Ret ν μ := { proc with memory }

/-- A descriptor has been opened or closed. -/
def withFile (proc : Process Ret ν μ) (fd : ℕ) (file : Option File) : Process Ret ν μ :=
  { proc with files := Function.update proc.files fd file }

/-- The pending signal or the handler has changed. -/
def withSignal (proc : Process Ret ν μ) (pending : Bool) (handler : Handler) : Process Ret ν μ :=
  { proc with pending, handler }

/-- A process whose parent has waited for it. -/
def reaped (proc : Process Ret ν μ) : Process Ret ν μ := { proc with status := .reaped }

/-- A process that has ended; its descriptors are closed. -/
def dead (proc : Process Ret ν μ) (killed : Bool) : Process Ret ν μ :=
  { proc with status := .zombie, killed, files := fun _ => none }

lemma withFile_cases {proc : Process Ret ν μ} {fd fd' : ℕ} {file : Option File} {f : File}
    (h : (proc.withFile fd file).files fd' = some f) : file = some f ∨ proc.files fd' = some f := by
  change Function.update proc.files fd file fd' = some f at h
  by_cases hfd : fd' = fd
  · subst hfd
    rw [Function.update_self] at h
    exact Or.inl h
  · rw [Function.update_of_ne hfd] at h
    exact Or.inr h

end Process

/-- What the kernel keeps. -/
structure Kernel {Op : Type} (Ret : Op → Type) (ν μ σ : Type) where
  shared : σ
  process : ℕ → Option (Process Ret ν μ)
  /-- The number of processes so far, and the id of the next one. -/
  forks : ℕ
  /-- The number of connections so far. -/
  accepted : ℕ

namespace Kernel

/-- Replace a process. -/
def set (s : Kernel Ret ν μ σ) (p : ℕ) (proc : Process Ret ν μ) : Kernel Ret ν μ σ :=
  { s with process := Function.update s.process p (some proc) }

/-- The process `p` ends. -/
def bury (s : Kernel Ret ν μ σ) (p : ℕ) (proc : Process Ret ν μ) (killed : Bool) :
    Kernel Ret ν μ σ :=
  { s with
    process := fun q =>
      if q = p then some (proc.dead killed)
      else if proc.parent = some q then
        (s.process q).map fun parent => parent.withSignal true parent.handler
      else s.process q }

/-- The program of the process `p`, which is `proc`, makes one call. -/
inductive Move (X : Executable Ret ν μ σ ε) (s : Kernel Ret ν μ σ) (p : ℕ)
    (proc : Process Ret ν μ) : Option (Event ℕ Op Ret σ ε) → Kernel Ret ν μ σ → Prop
  | op (e : ε) {o : Op} {k : Ret o → Code Ret ν} (next : proc.code = .call (.op o) k) :
      Move X s p proc
        (some ⟨p, e, o, (X.exec e o proc.memory s.shared).1, s.shared,
          (X.exec e o proc.memory s.shared).2.2⟩)
        { s.set p ((proc.withMemory (X.exec e o proc.memory s.shared).2.1).proceed
            (k (X.exec e o proc.memory s.shared).1)) with
          shared := (X.exec e o proc.memory s.shared).2.2 }
  | accept (fd : ℕ) {listener : ℕ} {k : Option ℕ → Code Ret ν}
      (next : proc.code = .call (.accept listener) k)
      (listening : proc.files listener = some .listening) (free : proc.files fd = none) :
      Move X s p proc none
        { s.set p ((proc.withFile fd (some (.connection s.accepted))).proceed (k (some fd))) with
          accepted := s.accepted + 1 }
  | acceptFails {listener : ℕ} {k : Option ℕ → Code Ret ν}
      (next : proc.code = .call (.accept listener) k) :
      Move X s p proc none (s.set p (proc.proceed (k none)))
  | close {fd : ℕ} {k : Bool → Code Ret ν} (next : proc.code = .call (.close fd) k) :
      Move X s p proc none
        (s.set p ((proc.withFile fd none).proceed (k (proc.files fd).isSome)))
  | fork {k : ForkRet → Code Ret ν} (next : proc.code = .call .fork k) :
      Move X s p proc none
        { (s.set p (proc.proceed (k (.parent s.forks)))).set s.forks
            (proc.forked p (k .child)) with
          forks := s.forks + 1 }
  | forkFails {k : ForkRet → Code Ret ν} (next : proc.code = .call .fork k) :
      Move X s p proc none (s.set p (proc.proceed (k .failed)))
  | resume {v : ν} {code : Code Ret ν} (stopped : proc.code = .done v)
      (again : X.resume v = some code) : Move X s p proc none (s.set p (proc.proceed code))

/-- Something happens to the process `p`, which is `proc`, or its handler does a step. -/
inductive Signal (X : Executable Ret ν μ σ ε) (s : Kernel Ret ν μ σ) (p : ℕ)
    (proc : Process Ret ν μ) : Kernel Ret ν μ σ → Prop
  | exits {v : ν} (idle : proc.handler = .idle) (stopped : proc.code = .done v)
      (ended : X.resume v = none) : Signal X s p proc (s.bury p proc false)
  /-- A signal ends it, between two of its operations. -/
  | killed : Signal X s p proc (s.bury p proc true)
  | interrupt (pending : proc.pending = true) (idle : proc.handler = .idle) :
      Signal X s p proc (s.set p (proc.withSignal false .waiting))
  | reaps {q : ℕ} {child : Process Ret ν μ} (waiting : proc.handler = .waiting)
      (found : s.process q = some child) (own : child.parent = some p)
      (zombie : child.status = .zombie) :
      Signal X s p proc (s.set q child.reaped)
  | waited (waiting : proc.handler = .waiting)
      (none_left : ∀ q child, s.process q = some child → child.parent = some p →
        child.status ≠ .zombie) :
      Signal X s p proc (s.set p (proc.withSignal proc.pending .returning))
  | returns (returning : proc.handler = .returning) :
      Signal X s p proc (s.set p (proc.withSignal proc.pending .idle))

/-- The system with one process, `root`. -/
def boot (shared : σ) (root : Process Ret ν μ) : Kernel Ret ν μ σ :=
  set ⟨shared, fun _ => none, 1, 0⟩ 0 root

/-- `Run X init log s`: some order of steps from `init` issues the operations of `log`, newest
first, and reaches `s`. -/
inductive Run (X : Executable Ret ν μ σ ε) (init : Kernel Ret ν μ σ) :
    List (Event ℕ Op Ret σ ε) → Kernel Ret ν μ σ → Prop
  | start : Run X init [] init
  | move {log : List (Event ℕ Op Ret σ ε)} {s s' : Kernel Ret ν μ σ} (run : Run X init log s)
      {p : ℕ} {proc : Process Ret ν μ} (found : s.process p = some proc) (active : proc.Active)
      {ev : Option (Event ℕ Op Ret σ ε)} (step : Move X s p proc ev s') :
      Run X init (ev.toList ++ log) s'
  | signal {log : List (Event ℕ Op Ret σ ε)} {s s' : Kernel Ret ν μ σ} (run : Run X init log s)
      {p : ℕ} {proc : Process Ret ν μ} (found : s.process p = some proc)
      (running : proc.status = .running) (step : Signal X s p proc s') : Run X init log s'

section Steps

variable {X : Executable Ret ν μ σ ε} {s s' : Kernel Ret ν μ σ} {p q : ℕ}
  {proc proc' : Process Ret ν μ} {ev : Option (Event ℕ Op Ret σ ε)}

/-! ## What a step changes -/

@[simp] lemma process_set_self (s : Kernel Ret ν μ σ) (p : ℕ) (proc : Process Ret ν μ) :
    (s.set p proc).process p = some proc := Function.update_self ..

lemma process_set_of_ne (s : Kernel Ret ν μ σ) (hqp : q ≠ p) (proc : Process Ret ν μ) :
    (s.set p proc).process q = s.process q := Function.update_of_ne hqp _ _

lemma process_bury_self (s : Kernel Ret ν μ σ) (p : ℕ) (proc : Process Ret ν μ) (killed : Bool) :
    (s.bury p proc killed).process p = some (proc.dead killed) := if_pos rfl

lemma process_bury_parent (s : Kernel Ret ν μ σ) (hqp : q ≠ p) (parent : proc.parent = some q)
    (killed : Bool) :
    (s.bury p proc killed).process q =
      (s.process q).map fun parent => parent.withSignal true parent.handler := by
  rw [bury]
  simp only [if_neg hqp, if_pos parent]

lemma process_bury_of_ne (s : Kernel Ret ν μ σ) (hqp : q ≠ p) (parent : proc.parent ≠ some q)
    (killed : Bool) : (s.bury p proc killed).process q = s.process q := by
  rw [bury]
  simp only [if_neg hqp, if_neg parent]

/-- What a move leaves of a process, whoever moves. -/
structure SameLife (proc proc' : Process Ret ν μ) : Prop where
  parent : proc'.parent = proc.parent
  status : proc'.status = proc.status
  killed : proc'.killed = proc.killed
  pending : proc'.pending = proc.pending
  handler : proc'.handler = proc.handler

/-- What a signal, a death or a wait leaves of a process, whomever it befalls. -/
structure Aged (X : Executable Ret ν μ σ ε) (proc proc' : Process Ret ν μ) : Prop where
  memory : proc'.memory = proc.memory
  code : proc'.code = proc.code
  parent : proc'.parent = proc.parent
  running : proc'.status = .running → proc.status = .running ∧ proc'.files = proc.files
  files : ∀ fd f, proc'.files fd = some f → proc.files fd = some f
  shut : proc'.status ≠ .running → proc.status = .running → ∀ fd, proc'.files fd = none
  /-- A process that was not killed has stopped for good. -/
  ended : proc'.status ≠ .running → proc'.killed = false →
    proc.status ≠ .running ∧ proc.killed = false ∨
      proc.status = .running ∧ ∃ v, proc.code = .done v ∧ X.resume v = none

lemma Aged.refl (proc : Process Ret ν μ) : Aged X proc proc :=
  ⟨rfl, rfl, rfl, fun running => ⟨running, rfl⟩, fun _ _ h => h,
    fun ended running => absurd running ended, fun ended unharmed => Or.inl ⟨ended, unharmed⟩⟩

/-- A process whose pending signal or handler has changed. -/
lemma Aged.of_signal (proc : Process Ret ν μ) (pending : Bool) (handler : Handler) :
    Aged X proc (proc.withSignal pending handler) :=
  ⟨rfl, rfl, rfl, fun running => ⟨running, rfl⟩, fun _ _ h => h,
    fun ended running => absurd running ended, fun ended unharmed => Or.inl ⟨ended, unharmed⟩⟩

lemma Aged.of_reaped (zombie : proc.status = .zombie) : Aged X proc proc.reaped := by
  have ended : proc.status ≠ .running := by
    rw [zombie]
    exact Status.noConfusion
  refine ⟨rfl, rfl, rfl, fun running => ?_, fun _ _ h => h, fun _ running => absurd running ended,
    fun _ unharmed => Or.inl ⟨ended, unharmed⟩⟩
  cases running

lemma aged_refl (s : Kernel Ret ν μ σ) (q : ℕ) :
    Option.Rel (Aged X) (s.process q) (s.process q) := by
  cases s.process q with
  | none => exact .none
  | some proc => exact .some (.refl proc)

lemma aged_set (found : s.process p = some proc) (aged : Aged X proc proc') (q : ℕ) :
    Option.Rel (Aged X) (s.process q) ((s.set p proc').process q) := by
  by_cases hqp : q = p
  · subst hqp
    rw [found, process_set_self]
    exact .some aged
  · rw [process_set_of_ne s hqp]
    exact aged_refl s q

lemma aged_bury (found : s.process p = some proc) (running : proc.status = .running)
    (killed : Bool) (ended : killed = false → ∃ v, proc.code = .done v ∧ X.resume v = none)
    (q : ℕ) :
    Option.Rel (Aged X) (s.process q) ((s.bury p proc killed).process q) := by
  by_cases hqp : q = p
  · subst hqp
    rw [found, process_bury_self]
    refine .some ⟨rfl, rfl, rfl, fun revived => ?_, fun fd f h => ?_, fun _ _ _ => rfl,
      fun _ unharmed => Or.inr ⟨running, ended unharmed⟩⟩
    · cases revived
    · cases h
  · by_cases hparent : proc.parent = some q
    · rw [process_bury_parent s hqp hparent]
      cases s.process q with
      | none => exact .none
      | some proc₀ => exact .some (.of_signal proc₀ true proc₀.handler)
    · rw [process_bury_of_ne s hqp hparent]
      exact aged_refl s q

/-- Signals, deaths and waits only age the processes. -/
lemma Signal.aged (step : Signal X s p proc s') (found : s.process p = some proc)
    (running : proc.status = .running) (q : ℕ) :
    Option.Rel (Aged X) (s.process q) (s'.process q) := by
  cases step with
  | exits idle stopped ended => exact aged_bury found running false (fun _ => ⟨_, stopped, ended⟩) q
  | killed => exact aged_bury found running true (fun h => Bool.noConfusion h) q
  | interrupt pending idle => exact aged_set found (.of_signal proc false .waiting) q
  | reaps waiting found' own zombie =>
      exact aged_set found' (.of_reaped zombie) q
  | waited waiting none_left => exact aged_set found (.of_signal proc proc.pending .returning) q
  | returns returning => exact aged_set found (.of_signal proc proc.pending .idle) q

lemma Signal.before (step : Signal X s p proc s') (found : s.process p = some proc)
    (running : proc.status = .running) (found' : s'.process q = some proc') :
    ∃ proc₀, s.process q = some proc₀ ∧ Aged X proc₀ proc' := by
  have aged := step.aged found running q
  rw [found'] at aged
  cases hold : s.process q with
  | none =>
      rw [hold] at aged
      cases aged
  | some proc₀ =>
      rw [hold] at aged
      cases aged with
      | some aged => exact ⟨proc₀, rfl, aged⟩

lemma Signal.later (step : Signal X s p proc s') (found : s.process p = some proc)
    (running : proc.status = .running) {proc₀ : Process Ret ν μ}
    (found₀ : s.process q = some proc₀) :
    ∃ proc', s'.process q = some proc' ∧ Aged X proc₀ proc' := by
  have aged := step.aged found running q
  rw [found₀] at aged
  cases hnew : s'.process q with
  | none =>
      rw [hnew] at aged
      cases aged
  | some proc' =>
      rw [hnew] at aged
      cases aged with
      | some aged => exact ⟨proc', rfl, aged⟩

lemma Signal.frame (step : Signal X s p proc s') :
    s'.shared = s.shared ∧ s'.forks = s.forks ∧ s'.accepted = s.accepted := by
  cases step <;> exact ⟨rfl, rfl, rfl⟩

lemma process_set_eq {proc₁ : Process Ret ν μ} (found : (s.set p proc₁).process q = some proc') :
    q ≠ p ∧ s.process q = some proc' ∨ q = p ∧ proc' = proc₁ := by
  by_cases hqp : q = p
  · subst hqp
    rw [process_set_self] at found
    exact Or.inr ⟨rfl, (Option.some.inj found).symm⟩
  · rw [process_set_of_ne s hqp] at found
    exact Or.inl ⟨hqp, found⟩

lemma process_set_cases {proc₁ : Process Ret ν μ}
    (found : (s.set p proc₁).process q = some proc') (same : SameLife proc proc₁) :
    q ≠ p ∧ s.process q = some proc' ∨ q = p ∧ SameLife proc proc' := by
  obtain old | ⟨rfl, rfl⟩ := process_set_eq found
  · exact Or.inl old
  · exact Or.inr ⟨rfl, same⟩

/-- After a move there are the processes from before it, all but one of them unchanged, and perhaps
a new child. -/
lemma Move.process_cases (step : Move X s p proc ev s') (found : s'.process q = some proc') :
    (q ≠ p ∧ s.process q = some proc' ∨ q = p ∧ SameLife proc proc') ∨
      q = s.forks ∧ s.forks < s'.forks ∧ proc'.parent = some p ∧ proc'.status = .running := by
  cases step with
  | @fork k next =>
      by_cases hq : q = s.forks
      · subst hq
        obtain rfl := Option.some.inj ((process_set_self _ _ _).symm.trans found)
        exact Or.inr ⟨rfl, Nat.lt_succ_self _, rfl, rfl⟩
      · exact Or.inl (process_set_cases ((process_set_of_ne _ hq _).symm.trans found)
          ⟨rfl, rfl, rfl, rfl, rfl⟩)
  | op e next => exact Or.inl (process_set_cases found ⟨rfl, rfl, rfl, rfl, rfl⟩)
  | accept fd next => exact Or.inl (process_set_cases found ⟨rfl, rfl, rfl, rfl, rfl⟩)
  | acceptFails next => exact Or.inl (process_set_cases found ⟨rfl, rfl, rfl, rfl, rfl⟩)
  | close next => exact Or.inl (process_set_cases found ⟨rfl, rfl, rfl, rfl, rfl⟩)
  | forkFails next => exact Or.inl (process_set_cases found ⟨rfl, rfl, rfl, rfl, rfl⟩)
  | resume stopped again => exact Or.inl (process_set_cases found ⟨rfl, rfl, rfl, rfl, rfl⟩)

lemma Move.process_of_ne (step : Move X s p proc ev s') (hqp : q ≠ p) (hq : q < s.forks) :
    s'.process q = s.process q := by
  cases step with
  | fork next =>
      exact (process_set_of_ne _ hq.ne _).trans (process_set_of_ne s hqp _)
  | _ => exact process_set_of_ne s hqp _

/-- An operation is executed by the process that moves. -/
lemma Move.thread_eq (step : Move X s p proc ev s') {e : Event ℕ Op Ret σ ε}
    (he : e ∈ ev) : e.thread = p := by
  cases step with
  | op _ next =>
      obtain rfl := Option.some.inj he
      rfl
  | _ => cases he

lemma Move.forks_le (step : Move X s p proc ev s') : s.forks ≤ s'.forks := by
  cases step with
  | fork next => exact Nat.le_succ _
  | _ => exact le_rfl

/-! ## The moves of a program -/

lemma Move.of_op (step : Move X s p proc ev s') {o : Op} {k : Ret o → Code Ret ν}
    (code : proc.code = .call (.op o) k) :
    ∃ e, ev = some ⟨p, e, o, (X.exec e o proc.memory s.shared).1, s.shared,
        (X.exec e o proc.memory s.shared).2.2⟩ ∧
      s' = { s.set p ((proc.withMemory (X.exec e o proc.memory s.shared).2.1).proceed
          (k (X.exec e o proc.memory s.shared).1)) with
        shared := (X.exec e o proc.memory s.shared).2.2 } := by
  cases step with
  | op e next =>
      cases code.symm.trans next
      exact ⟨e, rfl, rfl⟩
  | accept _ next | acceptFails next | close next | fork next | forkFails next =>
      cases code.symm.trans next
  | resume stopped => cases code.symm.trans stopped

lemma Move.of_accept (step : Move X s p proc ev s') {listener : ℕ} {k : Option ℕ → Code Ret ν}
    (code : proc.code = .call (.accept listener) k) :
    ev = none ∧ (s' = s.set p (proc.proceed (k none)) ∨
      ∃ fd, proc.files fd = none ∧ s' =
        { s.set p ((proc.withFile fd (some (.connection s.accepted))).proceed (k (some fd))) with
          accepted := s.accepted + 1 }) := by
  cases step with
  | accept fd next listening free =>
      cases code.symm.trans next
      exact ⟨rfl, Or.inr ⟨fd, free, rfl⟩⟩
  | acceptFails next =>
      cases code.symm.trans next
      exact ⟨rfl, Or.inl rfl⟩
  | op _ next | close next | fork next | forkFails next => cases code.symm.trans next
  | resume stopped => cases code.symm.trans stopped

lemma Move.of_close (step : Move X s p proc ev s') {fd : ℕ} {k : Bool → Code Ret ν}
    (code : proc.code = .call (.close fd) k) :
    ev = none ∧
      s' = s.set p ((proc.withFile fd none).proceed (k (proc.files fd).isSome)) := by
  cases step with
  | close next =>
      cases code.symm.trans next
      exact ⟨rfl, rfl⟩
  | op _ next | accept _ next | acceptFails next | fork next | forkFails next =>
      cases code.symm.trans next
  | resume stopped => cases code.symm.trans stopped

lemma Move.of_fork (step : Move X s p proc ev s') {k : ForkRet → Code Ret ν}
    (code : proc.code = .call .fork k) :
    ev = none ∧ (s' = s.set p (proc.proceed (k .failed)) ∨
      s' = { (s.set p (proc.proceed (k (.parent s.forks)))).set s.forks
          (proc.forked p (k .child)) with
        forks := s.forks + 1 }) := by
  cases step with
  | fork next =>
      cases code.symm.trans next
      exact ⟨rfl, Or.inr rfl⟩
  | forkFails next =>
      cases code.symm.trans next
      exact ⟨rfl, Or.inl rfl⟩
  | op _ next | accept _ next | acceptFails next | close next => cases code.symm.trans next
  | resume stopped => cases code.symm.trans stopped

lemma Move.of_done (step : Move X s p proc ev s') {v : ν} (stopped : proc.code = .done v) :
    ∃ code, X.resume v = some code ∧ ev = none ∧ s' = s.set p (proc.proceed code) := by
  cases step with
  | resume stopped' again =>
      cases stopped.symm.trans stopped'
      exact ⟨_, again, rfl, rfl⟩
  | op _ next | accept _ next | acceptFails next | close next | fork next | forkFails next =>
      cases stopped.symm.trans next

/-! ## Who holds a connection -/

/-- The process `p` has the connection `n` open. -/
def Holds (s : Kernel Ret ν μ σ) (p n : ℕ) : Prop :=
  ∃ proc fd, s.process p = some proc ∧ proc.files fd = some (.connection n)

variable {n : ℕ}

lemma holds_set {proc₁ : Process Ret ν μ} (h : Holds (s.set p proc₁) q n) :
    Holds s q n ∨ q = p ∧ ∃ fd, proc₁.files fd = some (.connection n) := by
  obtain ⟨proc', fd, found, hfile⟩ := h
  obtain ⟨-, old⟩ | ⟨rfl, rfl⟩ := process_set_eq found
  · exact Or.inl ⟨proc', fd, old, hfile⟩
  · exact Or.inr ⟨rfl, fd, hfile⟩

/-- Nothing is opened by a signal, a death or a wait. -/
lemma Signal.holds (step : Signal X s p proc s') (found : s.process p = some proc)
    (running : proc.status = .running) (h : Holds s' q n) : Holds s q n := by
  obtain ⟨proc', fd, found', hfile⟩ := h
  obtain ⟨proc₀, old, aged⟩ := step.before found running found'
  exact ⟨proc₀, fd, old, aged.files fd _ hfile⟩

lemma Move.accepted_eq (step : Move X s p proc ev s')
    (not_accept : ∀ listener k, proc.code ≠ .call (.accept listener) k) :
    s'.accepted = s.accepted := by
  cases step with
  | accept fd next listening free => exact absurd next (not_accept _ _)
  | _ => rfl

/-- A connection is held by who held it, by who has just accepted it, and by a new child of who
held it. -/
lemma Move.holds (step : Move X s p proc ev s') (found : s.process p = some proc)
    (h : Holds s' q n) :
    Holds s q n ∨
      (q = p ∧ n = s.accepted ∧ s'.accepted = s.accepted + 1 ∧
        ∃ listener k, proc.code = .call (.accept listener) k) ∨
      (q = s.forks ∧ Holds s p n ∧ ∃ k, proc.code = .call .fork k) := by
  -- a process that has only gone on holds what it held
  have same {r : ℕ} {files : ℕ → Option File} (hfiles : files = proc.files)
      (h : r = p ∧ ∃ fd, files fd = some (.connection n)) : Holds s r n := by
    obtain ⟨rfl, fd, hfile⟩ := h
    exact ⟨proc, fd, found, hfiles ▸ hfile⟩
  cases step with
  | op e next => exact Or.inl ((holds_set h).elim id (same rfl))
  | accept fd next listening free =>
      obtain old | ⟨rfl, fd', hfile⟩ := holds_set h
      · exact Or.inl old
      · obtain hn | hfile := Process.withFile_cases hfile
        · cases hn
          exact Or.inr (Or.inl ⟨rfl, rfl, rfl, _, _, next⟩)
        · exact Or.inl ⟨proc, fd', found, hfile⟩
  | acceptFails next => exact Or.inl ((holds_set h).elim id (same rfl))
  | close next =>
      obtain old | ⟨rfl, fd', hfile⟩ := holds_set h
      · exact Or.inl old
      · obtain hn | hfile := Process.withFile_cases hfile
        · cases hn
        · exact Or.inl ⟨proc, fd', found, hfile⟩
  | fork next =>
      obtain old | ⟨hq, fd, hfile⟩ := holds_set h
      · exact Or.inl ((holds_set old).elim id (same rfl))
      · exact Or.inr (Or.inr ⟨hq, ⟨proc, fd, found, hfile⟩, _, next⟩)
  | forkFails next => exact Or.inl ((holds_set h).elim id (same rfl))
  | resume stopped again => exact Or.inl ((holds_set h).elim id (same rfl))

/-! ## What every run keeps -/

/-- Processes are numbered in the order in which they were forked. -/
structure Numbered (s : Kernel Ret ν μ σ) : Prop where
  lt_forks : ∀ p proc, s.process p = some proc → p < s.forks
  parent_lt : ∀ p proc q, s.process p = some proc → proc.parent = some q → q < p

/-- No child that has ended is forgotten: its parent has a signal or is still waiting. -/
def Awaited (s : Kernel Ret ν μ σ) : Prop :=
  ∀ p proc q child, s.process p = some proc → proc.status = .running →
    s.process q = some child → child.parent = some p → child.status = .zombie →
    proc.pending = true ∨ proc.handler = .waiting

/-- A process that has ended has no open descriptors. -/
def Shut (s : Kernel Ret ν μ σ) : Prop :=
  ∀ p proc fd, s.process p = some proc → proc.status ≠ .running → proc.files fd = none

lemma Move.numbered (step : Move X s p proc ev s') (found : s.process p = some proc)
    (numbered : Numbered s) : Numbered s' := by
  refine ⟨fun q proc' found' => ?_, fun q proc' r found' parent => ?_⟩
  · obtain (⟨-, old⟩ | ⟨rfl, -⟩) | ⟨rfl, more, -⟩ := step.process_cases found'
    · exact (numbered.lt_forks q proc' old).trans_le step.forks_le
    · exact (numbered.lt_forks q proc found).trans_le step.forks_le
    · exact more
  · obtain (⟨-, old⟩ | ⟨rfl, same⟩) | ⟨rfl, -, child, -⟩ := step.process_cases found'
    · exact numbered.parent_lt q proc' r old parent
    · exact numbered.parent_lt q proc r found (same.parent.symm.trans parent)
    · obtain rfl := Option.some.inj (child.symm.trans parent)
      exact numbered.lt_forks p proc found

lemma Signal.numbered (step : Signal X s p proc s') (found : s.process p = some proc)
    (running : proc.status = .running) (numbered : Numbered s) : Numbered s' := by
  refine ⟨fun q proc' found' => ?_, fun q proc' r found' parent => ?_⟩
  · obtain ⟨proc₀, old, -⟩ := step.before found running found'
    rw [step.frame.2.1]
    exact numbered.lt_forks q proc₀ old
  · obtain ⟨proc₀, old, aged⟩ := step.before found running found'
    exact numbered.parent_lt q proc₀ r old (aged.parent.symm.trans parent)

lemma Move.shut (step : Move X s p proc ev s') (active : proc.Active) (shut : Shut s) :
    Shut s' := by
  intro q proc' fd found ended
  obtain (⟨-, old⟩ | ⟨rfl, same⟩) | ⟨rfl, -, -, running⟩ := step.process_cases found
  · exact shut q proc' fd old ended
  · exact absurd (same.status.trans active.1) ended
  · exact absurd running ended

lemma Signal.shut (step : Signal X s p proc s') (found : s.process p = some proc)
    (running : proc.status = .running) (shut : Shut s) : Shut s' := by
  intro q proc' fd found' ended
  obtain ⟨proc₀, old, aged⟩ := step.before found running found'
  by_cases alive : proc₀.status = .running
  · exact aged.shut ended alive fd
  · refine Option.eq_none_iff_forall_ne_some.2 fun f open_ => ?_
    have hnone := shut q proc₀ fd old alive
    rw [aged.files fd f open_] at hnone
    cases hnone

lemma Move.awaited (step : Move X s p proc ev s') (active : proc.Active) (numbered : Numbered s)
    (found : s.process p = some proc) (awaited : Awaited s) : Awaited s' := by
  intro r parent q child foundr running foundq own zombie
  -- a child that is a zombie was one before, because who moves or is new is running
  have old : s.process q = some child := by
    obtain (⟨-, old⟩ | ⟨-, same⟩) | ⟨-, -, -, new⟩ := step.process_cases foundq
    · exact old
    · rw [same.status, active.1] at zombie
      cases zombie
    · rw [new] at zombie
      cases zombie
  obtain (⟨-, oldr⟩ | ⟨rfl, same⟩) | ⟨rfl, -⟩ := step.process_cases foundr
  · exact awaited r parent q child oldr running old own zombie
  · rw [same.pending, same.handler]
    exact awaited r proc q child found active.1 old own zombie
  · exact absurd ((numbered.parent_lt q child _ old own).trans (numbered.lt_forks q child old))
      (lt_irrefl _)

/-- The pending signal or the handler of a parent changes. -/
lemma awaited_signal (found : s.process p = some proc) {pending : Bool} {handler : Handler}
    (still : ∀ q child, s.process q = some child → child.parent = some p →
      child.status = .zombie → pending = true ∨ handler = .waiting)
    (awaited : Awaited s) : Awaited (s.set p (proc.withSignal pending handler)) := by
  -- seen as a child, the process is what it was
  have asChild {q : ℕ} {child : Process Ret ν μ}
      (foundq : (s.set p (proc.withSignal pending handler)).process q = some child) :
      ∃ child₀, s.process q = some child₀ ∧ child₀.parent = child.parent ∧
        child₀.status = child.status := by
    obtain ⟨-, old⟩ | ⟨rfl, rfl⟩ := process_set_eq foundq
    · exact ⟨child, old, rfl, rfl⟩
    · exact ⟨proc, found, rfl, rfl⟩
  intro r parent q child foundr running foundq own zombie
  obtain ⟨child₀, old, hparent, hstatus⟩ := asChild foundq
  obtain ⟨-, oldr⟩ | ⟨rfl, rfl⟩ := process_set_eq foundr
  · exact awaited r parent q child₀ oldr running old (hparent.trans own) (hstatus.trans zombie)
  · exact still q child₀ old (hparent.trans own) (hstatus.trans zombie)

/-- A process ends: its parent gets the signal. -/
lemma awaited_bury (found : s.process p = some proc) (killed : Bool) (awaited : Awaited s) :
    Awaited (s.bury p proc killed) := by
  intro r parent q child foundr running foundq own zombie
  by_cases hrp : r = p
  · subst hrp
    rw [process_bury_self] at foundr
    obtain rfl := Option.some.inj foundr
    cases running
  by_cases hparent : proc.parent = some r
  · rw [process_bury_parent s hrp hparent] at foundr
    obtain ⟨parent₀, -, rfl⟩ := Option.map_eq_some_iff.1 foundr
    exact Or.inl rfl
  rw [process_bury_of_ne s hrp hparent] at foundr
  by_cases hqp : q = p
  · subst hqp
    rw [process_bury_self] at foundq
    obtain rfl := Option.some.inj foundq
    exact absurd own hparent
  by_cases hq : proc.parent = some q
  · rw [process_bury_parent s hqp hq] at foundq
    obtain ⟨child₀, old, rfl⟩ := Option.map_eq_some_iff.1 foundq
    exact awaited r parent q child₀ foundr running old own zombie
  · rw [process_bury_of_ne s hqp hq] at foundq
    exact awaited r parent q child foundr running foundq own zombie

lemma Signal.awaited (step : Signal X s p proc s') (found : s.process p = some proc)
    (running : proc.status = .running) (awaited : Awaited s) : Awaited s' := by
  cases step with
  | exits idle stopped ended => exact awaited_bury found false awaited
  | killed => exact awaited_bury found true awaited
  | interrupt pending idle => exact awaited_signal found (fun _ _ _ _ _ => Or.inr rfl) awaited
  | @reaps q child waiting found' own zombie =>
      intro r parent q' child' foundr running' foundq own' zombie'
      obtain ⟨-, oldr⟩ | ⟨rfl, rfl⟩ := process_set_eq foundr
      · obtain ⟨-, oldq⟩ | ⟨rfl, rfl⟩ := process_set_eq foundq
        · exact awaited r parent q' child' oldr running' oldq own' zombie'
        · cases zombie'
      · cases running'
  | waited waiting none_left =>
      exact awaited_signal found
        (fun q child old own zombie => absurd zombie (none_left q child old own)) awaited
  | returns returning =>
      refine awaited_signal found (fun q child old own zombie => ?_) awaited
      -- a handler that has left its loop has seen no zombie, so the signal is a later one
      obtain pending | waiting := awaited p proc q child found running old own zombie
      · exact Or.inl pending
      · rw [returning] at waiting
        cases waiting

end Steps

/-! ## Schedules -/

section Schedules

variable (X : Executable Ret ν μ σ ε)

/-- Let the process `p` take its next step, where nothing fails and `accept` takes the descriptor
`fd`. -/
def turn (p : ℕ) (e : ε) (fd : ℕ) (log : List (Event ℕ Op Ret σ ε)) (s : Kernel Ret ν μ σ) :
    List (Event ℕ Op Ret σ ε) × Kernel Ret ν μ σ :=
  match s.process p with
  | none => (log, s)
  | some proc =>
    if proc.status = .running ∧ proc.handler = .idle then
      match proc.code with
      | .call (.op o) k =>
        let r := X.exec e o proc.memory s.shared
        (⟨p, e, o, r.1, s.shared, r.2.2⟩ :: log,
          { s.set p ((proc.withMemory r.2.1).proceed (k r.1)) with shared := r.2.2 })
      | .call (.accept listener) k =>
        if proc.files listener = some .listening ∧ proc.files fd = none then
          (log, { s.set p ((proc.withFile fd (some (.connection s.accepted))).proceed
            (k (some fd))) with accepted := s.accepted + 1 })
        else (log, s.set p (proc.proceed (k none)))
      | .call (.close fd) k =>
        (log, s.set p ((proc.withFile fd none).proceed (k (proc.files fd).isSome)))
      | .call .fork k =>
        (log, { (s.set p (proc.proceed (k (.parent s.forks)))).set s.forks
          (proc.forked p (k .child)) with forks := s.forks + 1 })
      | .done v =>
        match X.resume v with
        | some code => (log, s.set p (proc.proceed code))
        | none => (log, s.bury p proc false)
    else (log, s)

/-- Let the processes take their steps in the order of a schedule. -/
def play (init : Kernel Ret ν μ σ) (schedule : List (ℕ × ε × ℕ)) :
    List (Event ℕ Op Ret σ ε) × Kernel Ret ν μ σ :=
  schedule.foldl (fun x t => turn X t.1 t.2.1 t.2.2 x.1 x.2) ([], init)

variable {X} {init s : Kernel Ret ν μ σ} {log : List (Event ℕ Op Ret σ ε)}

lemma Run.turn (run : Run X init log s) (p : ℕ) (e : ε) (fd : ℕ) :
    Run X init (turn X p e fd log s).1 (turn X p e fd log s).2 := by
  unfold Kernel.turn
  split
  · exact run
  · next proc found =>
      split_ifs with active
      · split
        · next o k next => exact run.move found active (.op e next)
        · next listener k next =>
            split_ifs with h
            · exact run.move found active (.accept fd next h.1 h.2)
            · exact run.move found active (.acceptFails next)
        · next fd k next => exact run.move found active (.close next)
        · next k next => exact run.move found active (.fork next)
        · next v stopped =>
            split
            · next code again => exact run.move found active (.resume stopped again)
            · next ended => exact run.signal found active.1 (.exits active.2 stopped ended)
      · exact run

/-- Every schedule is a run. -/
theorem run_play (init : Kernel Ret ν μ σ) (schedule : List (ℕ × ε × ℕ)) :
    Run X init (play X init schedule).1 (play X init schedule).2 := by
  have hfold : ∀ (schedule : List (ℕ × ε × ℕ))
      (x : List (Event ℕ Op Ret σ ε) × Kernel Ret ν μ σ), Run X init x.1 x.2 →
      Run X init (schedule.foldl (fun x t => Kernel.turn X t.1 t.2.1 t.2.2 x.1 x.2) x).1
        (schedule.foldl (fun x t => Kernel.turn X t.1 t.2.1 t.2.2 x.1 x.2) x).2 := by
    intro schedule
    induction schedule with
    | nil => exact fun x run => run
    | cons t schedule ih => exact fun x run => ih _ (run.turn t.1 t.2.1 t.2.2)
  exact hfold schedule ([], init) .start

end Schedules

section Runs

variable {X : Executable Ret ν μ σ ε} {shared : σ} {root : Process Ret ν μ}
  {log : List (Event ℕ Op Ret σ ε)} {s : Kernel Ret ν μ σ}

lemma process_boot {p : ℕ} {proc : Process Ret ν μ}
    (found : (boot shared root).process p = some proc) : p = 0 ∧ proc = root := by
  obtain ⟨-, other⟩ | started := process_set_eq found
  · cases other
  · exact started

lemma numbered_boot (orphan : root.parent = none) : Numbered (boot shared root) := by
  refine ⟨fun p proc found => ?_, fun p proc q found parent => ?_⟩
  · obtain ⟨rfl, -⟩ := process_boot found
    exact Nat.zero_lt_one
  · obtain ⟨-, rfl⟩ := process_boot found
    rw [orphan] at parent
    cases parent

lemma Run.numbered {s₀ : Kernel Ret ν μ σ} (start : Numbered s₀) (run : Run X s₀ log s) :
    Numbered s := by
  induction run with
  | start => exact start
  | move run found active step ih => exact step.numbered found ih
  | signal run found running step ih => exact step.numbered found running ih

/-- Who has ended holds nothing open. -/
lemma Run.shut (running : root.status = .running) (run : Run X (boot shared root) log s) :
    Shut s := by
  induction run with
  | start =>
      intro p proc fd found ended
      obtain ⟨-, rfl⟩ := process_boot found
      exact absurd running ended
  | move run found active step ih => exact step.shut active ih
  | signal run found running step ih => exact step.shut found running ih

/-- **No zombie is forgotten**: as long as a process runs, each of its children that has ended and
has not been waited for is announced by a pending signal, or will be found by the loop the handler
is in. -/
theorem Run.awaited (orphan : root.parent = none) (run : Run X (boot shared root) log s) :
    Awaited s := by
  induction run with
  | start =>
      intro p proc q child found running found' own zombie
      obtain ⟨-, rfl⟩ := process_boot found'
      rw [orphan] at own
      cases own
  | move run found active step ih =>
      exact step.awaited active (run.numbered (numbered_boot orphan)) found ih
  | signal run found running step ih => exact step.awaited found running ih

lemma Run.trans {init s' : Kernel Ret ν μ σ} {later : List (Event ℕ Op Ret σ ε)}
    (run : Run X init log s) (run' : Run X s later s') : Run X init (later ++ log) s' := by
  induction run' with
  | start => exact run
  | move _ found active step ih =>
      rw [List.append_assoc]
      exact ih.move found active step
  | signal _ found running step ih => exact ih.signal found running step

/-- **The dead stay dead**: a process that has ended executes nothing any more. -/
theorem Run.silent {s' : Kernel Ret ν μ σ} {later : List (Event ℕ Op Ret σ ε)} {p : ℕ}
    {proc : Process Ret ν μ} (numbered : Numbered s) (found : s.process p = some proc)
    (ended : proc.status ≠ .running) (run : Run X s later s') :
    (∃ proc', s'.process p = some proc' ∧ proc'.status ≠ .running) ∧
      ∀ e ∈ later, e.thread ≠ p := by
  induction run with
  | start => exact ⟨⟨proc, found, ended⟩, List.forall_mem_nil _⟩
  | @move later s₁ s₂ run q mover foundq active ev step ih =>
      obtain ⟨⟨proc₁, found₁, ended₁⟩, silent⟩ := ih
      have hpq : p ≠ q := by
        rintro rfl
        obtain rfl := Option.some.inj (foundq.symm.trans found₁)
        exact ended₁ active.1
      have hforks := (run.numbered numbered).lt_forks p proc₁ found₁
      refine ⟨⟨proc₁, (step.process_of_ne hpq hforks).trans found₁, ended₁⟩, fun e he => ?_⟩
      obtain he | he := List.mem_append.1 he
      · rw [step.thread_eq (Option.mem_toList.1 he)]
        exact hpq.symm
      · exact silent e he
  | signal run foundq running step ih =>
      obtain ⟨⟨proc₁, found₁, ended₁⟩, silent⟩ := ih
      obtain ⟨proc₂, found₂, aged⟩ := step.later foundq running found₁
      exact ⟨⟨proc₂, found₂, fun alive => ended₁ (aged.running alive).1⟩, silent⟩

end Runs

end Kernel

end Interaction
