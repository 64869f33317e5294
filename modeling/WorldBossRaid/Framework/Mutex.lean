import WorldBossRaid.Framework.Interleave

/-!
# Critical sections in place of atomic operations

The machines of `Interleave` take each operation as one atomic step.  Code that shares memory
reaches that effect with a mutex: an operation takes the mutex, reads and writes the memory piece
by piece, and releases the mutex, while other threads may be scheduled between any two pieces.

A `Locking` of a machine gives some of its operations such a body.  `Locking.machine` runs the
same programs with the bodies in place, every single access being a step of its own.  Nothing
keeps two bodies apart there but the mutex: `Exclusive` says of a log that the mutex was free
whenever it was taken, which is what a lock call waits for.

`Locking.Simulates` relates the two machines, and the main results are drawn from it.

* `Run.refines`: an exclusive run looks to its threads like a run of the atomic machine, in which
  each section takes effect at its release.
* `Run.guarded`: memory is only accessed, and the mutex only released, by the thread that holds it.
* `Run.frees`: the holder reaches its release in steps of its own.
-/

namespace Interaction

open Prog

/-- What a thread does when its operations on the shared memory are spelled out. -/
inductive LockOp (Op Access : Type) where
  | acquire
  | release
  /-- One piece of a section. -/
  | access (a : Access)
  /-- An operation that is not about the memory. -/
  | outer (o : Op)
  deriving DecidableEq

/-- Does the operation take the mutex? -/
def LockOp.acquires {Op Access : Type} : LockOp Op Access → Bool
  | acquire => true
  | _ => false

/-- Is the operation one that only the holder of the mutex may issue? -/
def LockOp.inside {Op Access : Type} : LockOp Op Access → Bool
  | release => true
  | access _ => true
  | _ => false

/-- The answers. -/
abbrev LockOp.Ret {Op Access : Type} (Ret : Op → Type) (Answer : Access → Type) :
    LockOp Op Access → Type
  | acquire => Unit
  | release => Unit
  | access a => Answer a
  | outer o => Ret o

variable {ι Op Access : Type} {Ret : Op → Type} {Answer : Access → Type} {ν σ ε α β : Type}

/-- A program in which the accesses are spelled out. -/
abbrev Locked (Ret : Op → Type) (Answer : Access → Type) : Type → Type :=
  Prog (LockOp Op Access) (LockOp.Ret Ret Answer)

/-- A memory and the thread that holds its mutex. -/
structure Guarded (ι σ : Type) where
  memory : σ
  owner : Option ι

/-! ## Sections -/

namespace Locked

/-- The rest of a section: accesses, then the release, then nothing. -/
def Holding : Locked Ret Answer α → Prop
  | .done _ => False
  | .call .acquire _ => False
  | .call .release k => ∃ a, k () = .done a
  | .call (.access _) k => ∀ r, Holding (k r)
  | .call (.outer _) _ => False

/-- A whole section. -/
def Section : Locked Ret Answer α → Prop
  | .call .acquire k => Holding (k ())
  | _ => False

@[simp] lemma section_acquire {k : Unit → Locked Ret Answer α} :
    Section (.call .acquire k) ↔ Holding (k ()) := Iff.rfl

@[simp] lemma holding_access {a : Access} {k : Answer a → Locked Ret Answer α} :
    Holding (.call (.access a) k) ↔ ∀ r, Holding (k r) := Iff.rfl

@[simp] lemma holding_release_pure (a : α) :
    Holding (.call .release fun _ => pure a : Locked Ret Answer α) := ⟨a, rfl⟩

/-- The operations between the two calls on the mutex. -/
def IsAccess : LockOp Op Access → Prop
  | .access _ => True
  | _ => False

lemma Holding.bind {p : Locked Ret Answer α} {f : α → Locked Ret Answer β}
    (hp : Issues IsAccess p) (hf : ∀ a, Holding (f a)) : Holding (p >>= f) := by
  induction p with
  | done a => exact hf a
  | call o k ih =>
      cases o with
      | access a => exact fun r => ih r (hp.2 r)
      | acquire => exact hp.1.elim
      | release => exact hp.1.elim
      | outer o => exact hp.1.elim

/-- The results `r` and memories `s'` that a section can leave, when nobody else accesses the
memory `s` meanwhile. -/
def Executes (access : ε → (a : Access) → σ → Answer a × σ) :
    Locked Ret Answer α → σ → α → σ → Prop
  | .done a, s, r, s' => r = a ∧ s' = s
  | .call .acquire k, s, r, s' => Executes access (k ()) s r s'
  | .call .release k, s, r, s' => Executes access (k ()) s r s'
  | .call (.access a) k, s, r, s' =>
      ∃ e, Executes access (k (access e a s).1) (access e a s).2 r s'
  | .call (.outer _) _, _, _, _ => False

section Executes

variable {access : ε → (a : Access) → σ → Answer a × σ} {s s' : σ} {r : α}

@[simp] lemma executes_done {a : α} :
    Executes access (.done a : Locked Ret Answer α) s r s' ↔ r = a ∧ s' = s := Iff.rfl

@[simp] lemma executes_pure {a : α} :
    Executes access (pure a : Locked Ret Answer α) s r s' ↔ r = a ∧ s' = s := Iff.rfl

@[simp] lemma executes_acquire {k : Unit → Locked Ret Answer α} :
    Executes access (.call .acquire k) s r s' ↔ Executes access (k ()) s r s' := Iff.rfl

@[simp] lemma executes_release {k : Unit → Locked Ret Answer α} :
    Executes access (.call .release k) s r s' ↔ Executes access (k ()) s r s' := Iff.rfl

lemma executes_access {a : Access} {k : Answer a → Locked Ret Answer α} :
    Executes access (.call (.access a) k) s r s' ↔
      ∃ e, Executes access (k (access e a s).1) (access e a s).2 r s' := Iff.rfl

lemma executes_bind {p : Locked Ret Answer β} {f : β → Locked Ret Answer α} :
    Executes access (p >>= f) s r s' ↔
      ∃ b m, Executes access p s b m ∧ Executes access (f b) m r s' := by
  induction p generalizing s with
  | done b =>
      refine ⟨fun h => ⟨b, s, ⟨rfl, rfl⟩, h⟩, ?_⟩
      rintro ⟨_, _, ⟨rfl, rfl⟩, h⟩
      exact h
  | call o k ih =>
      cases o with
      | acquire => exact ih ()
      | release => exact ih ()
      | outer o => exact ⟨False.elim, fun ⟨_, _, h, _⟩ => h⟩
      | access a =>
          rw [call_bind, executes_access]
          constructor
          · rintro ⟨e, h⟩
            obtain ⟨b, m, hp, hf⟩ := (ih _).1 h
            exact ⟨b, m, ⟨e, hp⟩, hf⟩
          · rintro ⟨b, m, ⟨e, hp⟩, hf⟩
            exact ⟨e, (ih _).2 ⟨b, m, hp, hf⟩⟩

end Executes

end Locked

/-! ## The machine with its sections spelled out -/

open Locked

/-- Sections for the operations of a machine that touch its shared state. -/
structure Locking (A : Machine ι Op Ret ν σ ε) (Access : Type) (Answer : Access → Type) where
  /-- The meaning of one access. -/
  access : ε → (a : Access) → σ → Answer a × σ
  /-- The code of an operation; `none` if it does not touch the memory. -/
  body : (o : Op) → Option (Locked Ret Answer (Ret o))
  critical : ∀ {o p}, body o = some p → Section p
  /-- Undisturbed, a section does what the atomic operation does. -/
  sound : ∀ {o p s r s'}, body o = some p → Executes access p s r s' →
    ∀ i, ∃ e, A.exec i e o s = (r, s')
  outer_answer : ∀ {o}, body o = none → ∀ i e s s', (A.exec i e o s).1 = (A.exec i e o s').1
  outer_state : ∀ {o}, body o = none → ∀ i e s, (A.exec i e o s).2 = s

namespace Locking

variable {A : Machine ι Op Ret ν σ ε} (L : Locking A Access Answer)

/-- A program with the bodies in place of the operations. -/
def implement : Prog Op Ret α → Locked Ret Answer α
  | .done a => .done a
  | .call o k =>
    match L.body o with
    | some p => p >>= fun r => implement (k r)
    | none => .call (.outer o) fun r => implement (k r)

lemma implement_section {o : Op} {p : Locked Ret Answer (Ret o)} (hp : L.body o = some p)
    (k : Ret o → Prog Op Ret α) :
    L.implement (.call o k) = p >>= fun r => L.implement (k r) := by
  simp only [implement, hp]

lemma implement_outer {o : Op} (ho : L.body o = none) (k : Ret o → Prog Op Ret α) :
    L.implement (.call o k) = .call (.outer o) fun r => L.implement (k r) := by
  simp only [implement, ho]

/-- One step of a thread. -/
def exec (i : ι) (e : ε) :
    (o : LockOp Op Access) → Guarded ι σ → LockOp.Ret Ret Answer o × Guarded ι σ
  | .acquire, g => ((), { g with owner := some i })
  | .release, g => ((), { g with owner := none })
  | .access a, g => ((L.access e a g.memory).1, { g with memory := (L.access e a g.memory).2 })
  | .outer o, g => ((A.exec i e o g.memory).1, g)

/-- The machine in which every access is a step. -/
def machine : Machine ι (LockOp Op Access) (LockOp.Ret Ret Answer) ν (Guarded ι σ) ε where
  exec := L.exec
  resume a := (A.resume a).map L.implement

/-- The start of the atomic machine, with the mutex free. -/
def config (c : Config ι Op Ret ν σ) :
    Config ι (LockOp Op Access) (LockOp.Ret Ret Answer) ν (Guarded ι σ) where
  shared := ⟨c.shared, none⟩
  threads i := L.implement (c.threads i)

end Locking

/-- The mutex was free whenever it was taken. -/
def Exclusive (log : List (Event ι (LockOp Op Access) (LockOp.Ret Ret Answer) (Guarded ι σ) ε)) :
    Prop :=
  ∀ e ∈ log, e.op.acquires = true → e.before.owner = none

instance [DecidableEq ι]
    {log : List (Event ι (LockOp Op Access) (LockOp.Ret Ret Answer) (Guarded ι σ) ε)} :
    Decidable (Exclusive log) :=
  inferInstanceAs (Decidable (∀ e ∈ log, e.op.acquires = true → e.before.owner = none))

/-! ## Where threads stand -/

lemma Locked.Section.cases {p : Locked Ret Answer α} (hp : Section p) :
    ∃ k, p = .call .acquire k ∧ Holding (k ()) := by
  cases p with
  | done a => exact hp.elim
  | call o k =>
      cases o with
      | acquire => exact ⟨k, rfl, hp⟩
      | release => exact hp.elim
      | access a => exact hp.elim
      | outer o => exact hp.elim

lemma Locked.Holding.cases {q : Locked Ret Answer α} (hq : Holding q) :
    (∃ k a, q = .call .release k ∧ k () = .done a) ∨
      ∃ a k, q = .call (.access a) k ∧ ∀ r, Holding (k r) := by
  cases q with
  | done a => exact hq.elim
  | call o k =>
      cases o with
      | acquire => exact hq.elim
      | release =>
          obtain ⟨a, ha⟩ := hq
          exact .inl ⟨k, a, rfl, ha⟩
      | access a => exact .inr ⟨a, k, rfl, hq⟩
      | outer o => exact hq.elim

namespace Locking

variable {A : Machine ι Op Ret ν σ ε} {L : Locking A Access Answer}

/-- Outside a section a thread is about to take the mutex, or to do something else, or stops. -/
lemma implement_cases (p : Prog Op Ret α) :
    (∃ a, p = .done a ∧ L.implement p = .done a) ∨
      (∃ o k b q, p = .call o k ∧ L.body o = some b ∧ b = .call .acquire q ∧ Holding (q ()) ∧
        L.implement p = .call .acquire fun u => q u >>= fun r => L.implement (k r)) ∨
      ∃ o k, p = .call o k ∧ L.body o = none ∧
        L.implement p = .call (.outer o) fun r => L.implement (k r) := by
  cases p with
  | done a => exact .inl ⟨a, rfl, rfl⟩
  | call o k =>
      cases hb : L.body o with
      | none => exact .inr (.inr ⟨o, k, rfl, hb, L.implement_outer hb k⟩)
      | some b =>
          obtain ⟨q, rfl, hq⟩ := (L.critical hb).cases
          exact .inr (.inl ⟨o, k, _, q, rfl, hb, rfl, hq, L.implement_section hb k⟩)

/-- The machine in which accesses are steps, and the atomic one, at the same place. -/
inductive Simulates (L : Locking A Access Answer)
    (c : Config ι (LockOp Op Access) (LockOp.Ret Ret Answer) ν (Guarded ι σ))
    (a : Config ι Op Ret ν σ) : Prop
  | free (owner : c.shared.owner = none) (memory : c.shared.memory = a.shared)
      (threads : ∀ i, c.threads i = L.implement (a.threads i))
  /-- Thread `j` has taken the mutex; what it may still do to the memory, the whole section
  `b` may do to the state of the atomic machine. -/
  | held (j : ι) (owner : c.shared.owner = some j) {o : Op} {k : Ret o → Prog Op Ret ν}
      {b q : Locked Ret Answer (Ret o)} (waits : a.threads j = .call o k) (body : L.body o = some b)
      (rest : c.threads j = q >>= fun r => L.implement (k r)) (holding : Holding q)
      (executes : ∀ r s', Executes L.access q c.shared.memory r s' →
        Executes L.access b a.shared r s')
      (threads : ∀ i, i ≠ j → c.threads i = L.implement (a.threads i))

variable {c : Config ι (LockOp Op Access) (LockOp.Ret Ret Answer) ν (Guarded ι σ)}
  {a : Config ι Op Ret ν σ}

/-- All threads but the holder are outside their sections. -/
lemma Simulates.outside (S : L.Simulates c a) {i : ι} (hi : c.shared.owner ≠ some i) :
    c.threads i = L.implement (a.threads i) := by
  cases S with
  | free owner memory threads => exact threads i
  | held j owner waits body rest holding executes threads =>
      refine threads i fun hij => hi ?_
      rw [owner, hij]

/-- While the mutex is free, the two machines are at the same place. -/
lemma Simulates.of_free (S : L.Simulates c a) (hfree : c.shared.owner = none) :
    c.shared.memory = a.shared ∧ ∀ i, c.threads i = L.implement (a.threads i) := by
  cases S with
  | free owner memory threads => exact ⟨memory, threads⟩
  | held j owner => rw [owner] at hfree; cases hfree

lemma Simulates.owner_of_inside (S : L.Simulates c a) {i : ι} {o : LockOp Op Access}
    {k : LockOp.Ret Ret Answer o → Locked Ret Answer ν} (next : c.threads i = .call o k)
    (inside : o.inside = true) : c.shared.owner = some i := by
  by_contra hi
  rw [S.outside hi] at next
  obtain ⟨x, -, hx⟩ | ⟨o', k', b, q, -, -, -, -, hx⟩ | ⟨o', k', -, -, hx⟩ :=
    L.implement_cases (a.threads i)
  all_goals
    rw [hx] at next
    cases next
  · cases inside
  · cases inside

lemma Simulates.inside_of_owner (S : L.Simulates c a) {i : ι} (hi : c.shared.owner = some i) :
    ∃ o k, c.threads i = .call o k ∧ o.inside = true := by
  cases S with
  | free owner memory threads => rw [owner] at hi; cases hi
  | @held j owner o k b q waits body rest holding executes threads =>
      obtain rfl : j = i := by
        rw [owner] at hi
        exact Option.some.inj hi
      obtain ⟨k', r, rfl, -⟩ | ⟨x, k', rfl, -⟩ := holding.cases
      · exact ⟨_, _, rest, rfl⟩
      · exact ⟨_, _, rest, rfl⟩

/-! ## One step -/

section Step

variable [DecidableEq ι]

lemma Simulates.acquire (S : L.Simulates c a) {i : ι} {k : Unit → Locked Ret Answer ν}
    (next : c.threads i = .call .acquire k) (hfree : c.shared.owner = none) :
    L.Simulates ⟨{ c.shared with owner := some i }, Function.update c.threads i (k ())⟩ a := by
  cases S with
  | held j owner => rw [hfree] at owner; cases owner
  | free owner memory threads =>
      rw [threads i] at next
      obtain ⟨x, -, hx⟩ | ⟨o, k', b, q, waits, body, rfl, holding, hx⟩ | ⟨o, k', -, -, hx⟩ :=
        L.implement_cases (a.threads i)
      · rw [hx] at next
        cases next
      · rw [hx] at next
        obtain rfl : (fun u => q u >>= fun r => L.implement (k' r)) = k := by
          injection next
        refine .held i rfl waits body (Function.update_self i _ _) holding ?_ fun i' hi' => ?_
        · intro r s' h
          rw [← memory]
          exact h
        · exact (Function.update_of_ne hi' _ _).trans (threads i')
      · rw [hx] at next
        cases next

lemma Simulates.access (S : L.Simulates c a) {i : ι} {x : Access}
    {k : Answer x → Locked Ret Answer ν} (next : c.threads i = .call (.access x) k) (e : ε) :
    L.Simulates ⟨{ c.shared with memory := (L.access e x c.shared.memory).2 },
      Function.update c.threads i (k (L.access e x c.shared.memory).1)⟩ a := by
  have howner := S.owner_of_inside next rfl
  cases S with
  | free owner memory threads => rw [owner] at howner; cases howner
  | @held j owner o k' b q waits body rest holding executes threads =>
      obtain rfl : i = j := by
        rw [owner] at howner
        exact (Option.some.inj howner).symm
      obtain ⟨k₀, r, rfl, -⟩ | ⟨y, k₀, rfl, hk₀⟩ := holding.cases
      · rw [rest] at next
        cases next
      · rw [rest] at next
        cases next
        refine .held i owner waits body (Function.update_self i _ _) (hk₀ _) ?_ fun i' hi' => ?_
        · exact fun r s' h => executes r s' ⟨e, h⟩
        · exact (Function.update_of_ne hi' _ _).trans (threads i' hi')

/-- The release of the mutex is the moment at which the atomic machine moves. -/
lemma Simulates.release (S : L.Simulates c a) {i : ι} {k : Unit → Locked Ret Answer ν}
    (next : c.threads i = .call .release k) :
    ∃ e o k', a.threads i = .call o k' ∧ (L.body o).isSome ∧
      (A.exec i e o a.shared).2 = c.shared.memory ∧
      L.Simulates ⟨{ c.shared with owner := none }, Function.update c.threads i (k ())⟩
        ⟨(A.exec i e o a.shared).2,
          Function.update a.threads i (k' (A.exec i e o a.shared).1)⟩ := by
  have howner := S.owner_of_inside next rfl
  cases S with
  | free owner memory threads => rw [owner] at howner; cases howner
  | @held j owner o k' b q waits body rest holding executes threads =>
      obtain rfl : i = j := by
        rw [owner] at howner
        exact (Option.some.inj howner).symm
      obtain ⟨k₀, r, rfl, hr⟩ | ⟨y, k₀, rfl, -⟩ := holding.cases
      · obtain ⟨e, he⟩ := L.sound body (executes r c.shared.memory (by
          rw [executes_release, hr]
          exact ⟨rfl, rfl⟩)) i
        rw [rest] at next
        obtain rfl : (fun u => k₀ u >>= fun r => L.implement (k' r)) = k := by
          injection next
        refine ⟨e, o, k', waits, by rw [body]; rfl, by rw [he], .free rfl (by rw [he]) ?_⟩
        intro i'
        by_cases hi' : i' = i
        · subst hi'
          change Function.update c.threads i' _ i' = L.implement (Function.update a.threads i' _ i')
          rw [Function.update_self, Function.update_self, he, hr]
          rfl
        · change Function.update c.threads i _ i' = L.implement (Function.update a.threads i _ i')
          rw [Function.update_of_ne hi', Function.update_of_ne hi', threads i' hi']
      · rw [rest] at next
        cases next

/-- A thread outside its sections may move whoever holds the mutex. -/
lemma Simulates.move (S : L.Simulates c a) {i : ι} (hi : c.shared.owner ≠ some i)
    (p : Prog Op Ret ν) :
    L.Simulates ⟨c.shared, Function.update c.threads i (L.implement p)⟩
      ⟨a.shared, Function.update a.threads i p⟩ := by
  have hthreads : ∀ i', c.threads i' = L.implement (a.threads i') →
      Function.update c.threads i (L.implement p) i' =
        L.implement (Function.update a.threads i p i') := by
    intro i' h
    by_cases hi' : i' = i
    · subst hi'
      rw [Function.update_self, Function.update_self]
    · rw [Function.update_of_ne hi', Function.update_of_ne hi', h]
  cases S with
  | free owner memory threads => exact .free owner memory fun i' => hthreads i' (threads i')
  | @held j owner o k b q waits body rest holding executes threads =>
      have hij : j ≠ i := by
        rintro rfl
        exact hi owner
      exact .held j owner ((Function.update_of_ne hij _ _).trans waits) body
        ((Function.update_of_ne hij _ _).trans rest) holding executes
        fun i' hi' => hthreads i' (threads i' hi')

lemma Simulates.outer (S : L.Simulates c a) {i : ι} {o : Op} {k : Ret o → Locked Ret Answer ν}
    (next : c.threads i = .call (.outer o) k) (e : ε) :
    ∃ k', a.threads i = .call o k' ∧ L.body o = none ∧
      A.exec i e o a.shared = ((A.exec i e o c.shared.memory).1, a.shared) ∧
      L.Simulates ⟨c.shared, Function.update c.threads i (k (A.exec i e o c.shared.memory).1)⟩
        ⟨a.shared, Function.update a.threads i (k' (A.exec i e o c.shared.memory).1)⟩ := by
  have hi : c.shared.owner ≠ some i := by
    intro howner
    obtain ⟨o', k', next', inside⟩ := S.inside_of_owner howner
    rw [next'] at next
    cases next
    cases inside
  have hnext := next
  rw [S.outside hi] at hnext
  obtain ⟨x, -, hx⟩ | ⟨o', k', b, q, -, -, -, -, hx⟩ | ⟨o', k', waits, body, hx⟩ :=
    L.implement_cases (a.threads i)
  · rw [hx] at hnext
    cases hnext
  · rw [hx] at hnext
    cases hnext
  · rw [hx] at hnext
    cases hnext
    exact ⟨k', waits, body, Prod.ext (L.outer_answer body i e _ _) (L.outer_state body i e _),
      S.move hi _⟩

end Step

/-! ## Runs -/

/-- What others can tell of a step: the memory that a release leaves, and an operation outside
the sections with its answer. -/
def observe :
    Event ι (LockOp Op Access) (LockOp.Ret Ret Answer) (Guarded ι σ) ε →
      Option (ι × (σ ⊕ Answered Op Ret))
  | ⟨i, _, .release, _, _, after⟩ => some (i, .inl after.memory)
  | ⟨i, _, .outer o, r, _, _⟩ => some (i, .inr ⟨o, r⟩)
  | ⟨_, _, .acquire, _, _, _⟩ => none
  | ⟨_, _, .access _, _, _, _⟩ => none

/-- The same of a step of the atomic machine. -/
def seen (L : Locking A Access Answer) (e : Event ι Op Ret σ ε) : ι × (σ ⊕ Answered Op Ret) :=
  (e.thread, if (L.body e.op).isSome then .inl e.after else .inr e.answered)

section Run

variable [DecidableEq ι] {init : Config ι Op Ret ν σ}
  {log : List (Event ι (LockOp Op Access) (LockOp.Ret Ret Answer) (Guarded ι σ) ε)}

/-- **Every exclusive run refines a run of the atomic machine**, with the same steps to be seen
in the same order. -/
theorem refines (run : L.machine.Run (L.config init) log c) (hlog : Exclusive log) :
    ∃ log' a, A.Run init log' a ∧ L.Simulates c a ∧ log.filterMap observe = log'.map L.seen := by
  induction run with
  | start => exact ⟨[], init, .start, .free rfl rfl fun _ => rfl, rfl⟩
  | @act log c run i e o k next ih =>
      obtain ⟨log', a, run', S, hseen⟩ := ih fun e he => hlog e (List.mem_cons_of_mem _ he)
      cases o with
      | acquire =>
          have hfree : c.shared.owner = none := hlog _ List.mem_cons_self rfl
          exact ⟨log', a, run', S.acquire next hfree, hseen⟩
      | access x => exact ⟨log', a, run', S.access next e, hseen⟩
      | release =>
          obtain ⟨e', o, k', next', hsome, hmemory, S'⟩ := S.release next
          refine ⟨_, _, run'.act i e' next', S', ?_⟩
          rw [List.map_cons, ← hseen]
          simp [observe, seen, machine, exec, Machine.event, hsome, hmemory]
      | outer o =>
          obtain ⟨k', next', hnone, hexec, S'⟩ := S.outer next e
          have run'' := run'.act i e next'
          rw [hexec] at run''
          refine ⟨_, _, run'', S', ?_⟩
          rw [List.map_cons, ← hseen]
          simp [observe, seen, machine, exec, Machine.event, Event.answered, hnone, hexec]
  | @resume log c run i x p stopped again ih =>
      obtain ⟨log', a, run', S, hseen⟩ := ih hlog
      have hi : c.shared.owner ≠ some i := by
        intro howner
        obtain ⟨o, k, next, -⟩ := S.inside_of_owner howner
        rw [stopped] at next
        cases next
      obtain ⟨q, hq, rfl⟩ := Option.map_eq_some_iff.1 again
      rw [S.outside hi] at stopped
      obtain ⟨y, hy, hdone⟩ | ⟨o, k, b, q, -, -, -, -, hx⟩ | ⟨o, k, -, -, hx⟩ :=
        L.implement_cases (a.threads i)
      · rw [hdone] at stopped
        cases stopped
        exact ⟨log', _, .resume run' i hy hq, S.move hi q, hseen⟩
      · rw [hx] at stopped
        cases stopped
      · rw [hx] at stopped
        cases stopped

variable {log' : List (Event ι Op Ret σ ε)}

omit [DecidableEq ι] in
/-- The memory that a release leaves is a state of the atomic run. -/
lemma event_of_release (hseen : log.filterMap observe = log'.map L.seen)
    {e : Event ι (LockOp Op Access) (LockOp.Ret Ret Answer) (Guarded ι σ) ε} (he : e ∈ log)
    (hop : e.op = .release) : ∃ e' ∈ log', e'.after = e.after.memory := by
  have hobserve : observe e = some (e.thread, .inl e.after.memory) := by
    obtain ⟨i, env, o, r, before, after⟩ := e
    cases hop
    rfl
  have hmem : (e.thread, .inl e.after.memory) ∈ log'.map L.seen :=
    hseen ▸ List.mem_filterMap.2 ⟨e, he, hobserve⟩
  obtain ⟨e', he', hsees⟩ := List.mem_map.1 hmem
  refine ⟨e', he', ?_⟩
  have hsnd := congrArg Prod.snd hsees
  unfold seen at hsnd
  split_ifs at hsnd
  · exact Sum.inl.inj hsnd

omit [DecidableEq ι] in
/-- An operation outside the sections is one of the atomic run. -/
lemma event_of_outer (hseen : log.filterMap observe = log'.map L.seen)
    {e : Event ι (LockOp Op Access) (LockOp.Ret Ret Answer) (Guarded ι σ) ε} (he : e ∈ log) {o : Op}
    (hop : e.op = .outer o) : ∃ e' ∈ log', e'.thread = e.thread ∧ e'.op = o := by
  obtain ⟨r, hobserve⟩ : ∃ r, observe e = some (e.thread, .inr ⟨o, r⟩) := by
    obtain ⟨i, env, o', r, before, after⟩ := e
    cases hop
    exact ⟨r, rfl⟩
  have hmem : (e.thread, .inr ⟨o, r⟩) ∈ log'.map L.seen :=
    hseen ▸ List.mem_filterMap.2 ⟨e, he, hobserve⟩
  obtain ⟨e', he', hsees⟩ := List.mem_map.1 hmem
  refine ⟨e', he', congrArg Prod.fst hsees, ?_⟩
  have hsnd := congrArg Prod.snd hsees
  unfold seen at hsnd
  split_ifs at hsnd
  · exact congrArg Sigma.fst (Sum.inr.inj hsnd)

/-- **Memory is only accessed, and the mutex only released, by its holder.** -/
theorem guarded (run : L.machine.Run (L.config init) log c) (hlog : Exclusive log)
    {e : Event ι (LockOp Op Access) (LockOp.Ret Ret Answer) (Guarded ι σ) ε} (he : e ∈ log)
    (inside : e.op.inside = true) : e.before.owner = some e.thread := by
  obtain ⟨log', log₀, rfl⟩ := List.append_of_mem he
  obtain ⟨c', k, run', next, hevent⟩ := run.at_event
  have hlog₀ : Exclusive log₀ := fun e' he' => hlog e' (by simp [he'])
  obtain ⟨-, a, -, S, -⟩ := refines run' hlog₀
  have hbefore : e.before = c'.shared := by rw [hevent]; rfl
  rw [hbefore]
  exact S.owner_of_inside next inside

/-- **The holder reaches its release**, by steps of its own. -/
theorem frees (run : L.machine.Run (L.config init) log c) (hlog : Exclusive log) {j : ι}
    (hj : c.shared.owner = some j) (e : ε) :
    ∃ log' c', L.machine.Run (L.config init) (log' ++ log) c' ∧ Exclusive (log' ++ log) ∧
      (∀ ev ∈ log', ev.thread = j) ∧ c'.shared.owner = none := by
  obtain ⟨-, a, -, S, -⟩ := refines run hlog
  cases S with
  | free owner memory threads => rw [owner] at hj; cases hj
  | @held i owner o k b q waits body rest holding executes threads =>
      obtain rfl : i = j := by
        rw [owner] at hj
        exact Option.some.inj hj
      clear owner waits body executes threads
      induction q generalizing log c with
      | done x => exact holding.elim
      | call x k' ih =>
          cases x with
          | acquire => exact holding.elim
          | outer x => exact holding.elim
          | release =>
              refine ⟨[_], _, run.act i e rest, ?_, ?_, rfl⟩
              · exact List.forall_mem_cons.2 ⟨fun h => (by cases h), hlog⟩
              · exact List.forall_mem_singleton.2 rfl
          | access x =>
              obtain ⟨log', c', run', hlog', hown, hfree⟩ :=
                ih (L.access e x c.shared.memory).1 (run.act i e rest)
                  (List.forall_mem_cons.2 ⟨fun h => (by cases h), hlog⟩)
                  (Function.update_self i _ _) (holding _) hj
              refine ⟨log' ++ [L.machine.event i e (.access x) c.shared], c', ?_, ?_, ?_, hfree⟩
              · rw [List.append_assoc]
                exact run'
              · rw [List.append_assoc]
                exact hlog'
              · exact List.forall_mem_append.2 ⟨hown, List.forall_mem_singleton.2 rfl⟩

end Run

end Locking

end Interaction
