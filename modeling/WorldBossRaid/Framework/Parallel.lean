import WorldBossRaid.Framework.Projection

/-!
# Two machines side by side

A client and a server are programs over different operations that run against one world.
`Machine.beside` lets the threads of two machines over the same states run side by side; a thread
is a side and an index.  A program of one machine keeps its shape under `Prog.inLeft` and
`Prog.inRight`, and a history of the whole holds one of each machine, `History.lefts` and
`History.rights`.

`Beside.invariant` is the induction rule: each step may be assumed to obey the discipline of its
own machine.  `Beside.right_run` forgets the left machine where it leaves alone the part of the
state that the right one is seen to keep.
-/

namespace Interaction

open Prog

/-- Which of two machines. -/
inductive Side where
  | left | right
  deriving DecidableEq, Repr

variable {ι Op₁ Op₂ : Type} {Ret₁ : Op₁ → Type} {Ret₂ : Op₂ → Type} {ν₁ ν₂ α β σ σ' ε ε' : Type}

namespace Prog

/-! ## Programs and histories -/

/-- A program of the left machine among both. -/
def inLeft : Prog Op₁ Ret₁ α → Prog (Op₁ ⊕ Op₂) (Sum.elim Ret₁ Ret₂) (α ⊕ β)
  | .done a => .done (.inl a)
  | .call o k => .call (.inl o) fun r => inLeft (k r)

/-- A program of the right machine among both. -/
def inRight : Prog Op₂ Ret₂ β → Prog (Op₁ ⊕ Op₂) (Sum.elim Ret₁ Ret₂) (α ⊕ β)
  | .done b => .done (.inr b)
  | .call o k => .call (.inr o) fun r => inRight (k r)

/-- What the left machine has done. -/
def History.lefts : History (Op₁ ⊕ Op₂) (Sum.elim Ret₁ Ret₂) → History Op₁ Ret₁
  | [] => []
  | ⟨.inl o, r⟩ :: h => ⟨o, r⟩ :: History.lefts h
  | ⟨.inr _, _⟩ :: h => History.lefts h

/-- What the right machine has done. -/
def History.rights : History (Op₁ ⊕ Op₂) (Sum.elim Ret₁ Ret₂) → History Op₂ Ret₂
  | [] => []
  | ⟨.inl _, _⟩ :: h => History.rights h
  | ⟨.inr o, r⟩ :: h => ⟨o, r⟩ :: History.rights h

/-- A discipline of the left machine, for its threads among both. -/
def allowLeft (A : History Op₁ Ret₁ → Op₁ → Prop)
    (h : History (Op₁ ⊕ Op₂) (Sum.elim Ret₁ Ret₂)) : Op₁ ⊕ Op₂ → Prop
  | .inl o => A h.lefts o
  | .inr _ => False

/-- A discipline of the right machine, for its threads among both. -/
def allowRight (A : History Op₂ Ret₂ → Op₂ → Prop)
    (h : History (Op₁ ⊕ Op₂) (Sum.elim Ret₁ Ret₂)) : Op₁ ⊕ Op₂ → Prop
  | .inl _ => False
  | .inr o => A h.rights o

/-- A postcondition of the left machine. -/
def stopLeft (Q : History Op₁ Ret₁ → α → Prop)
    (h : History (Op₁ ⊕ Op₂) (Sum.elim Ret₁ Ret₂)) : α ⊕ β → Prop
  | .inl a => Q h.lefts a
  | .inr _ => False

/-- A postcondition of the right machine. -/
def stopRight (Q : History Op₂ Ret₂ → β → Prop)
    (h : History (Op₁ ⊕ Op₂) (Sum.elim Ret₁ Ret₂)) : α ⊕ β → Prop
  | .inl _ => False
  | .inr b => Q h.rights b

lemma Conforms.inLeft {A : History Op₁ Ret₁ → Op₁ → Prop} {Q : History Op₁ Ret₁ → α → Prop}
    {h : History (Op₁ ⊕ Op₂) (Sum.elim Ret₁ Ret₂)} {p : Prog Op₁ Ret₁ α}
    (hp : Conforms A Q h.lefts p) :
    Conforms (allowLeft A) (stopLeft (β := β) Q) h p.inLeft := by
  induction p generalizing h with
  | done a => exact hp
  | call o k ih => exact ⟨hp.1, fun r => ih r (h := ⟨.inl o, r⟩ :: h) (hp.2 r)⟩

lemma Conforms.inRight {A : History Op₂ Ret₂ → Op₂ → Prop} {Q : History Op₂ Ret₂ → β → Prop}
    {h : History (Op₁ ⊕ Op₂) (Sum.elim Ret₁ Ret₂)} {p : Prog Op₂ Ret₂ β}
    (hp : Conforms A Q h.rights p) :
    Conforms (allowRight A) (stopRight (α := α) Q) h p.inRight := by
  induction p generalizing h with
  | done b => exact hp
  | call o k ih => exact ⟨hp.1, fun r => ih r (h := ⟨.inr o, r⟩ :: h) (hp.2 r)⟩

end Prog

/-! ## The machine -/

/-- Two machines side by side over one state. -/
def Machine.beside (A : Machine ι Op₁ Ret₁ ν₁ σ ε) (B : Machine ι Op₂ Ret₂ ν₂ σ ε) :
    Machine (Side × ι) (Op₁ ⊕ Op₂) (Sum.elim Ret₁ Ret₂) (ν₁ ⊕ ν₂) σ ε where
  exec i e
    | .inl o => A.exec i.2 e o
    | .inr o => B.exec i.2 e o
  resume
    | .inl a => (A.resume a).map inLeft
    | .inr b => (B.resume b).map inRight

/-- The threads of both. -/
def besideInit (s : σ) (left : ι → Prog Op₁ Ret₁ ν₁) (right : ι → Prog Op₂ Ret₂ ν₂) :
    Config (Side × ι) (Op₁ ⊕ Op₂) (Sum.elim Ret₁ Ret₂) (ν₁ ⊕ ν₂) σ where
  shared := s
  threads
    | (.left, i) => (left i).inLeft
    | (.right, i) => (right i).inRight

/-- An event of two machines side by side. -/
abbrev BesideEvent (ι : Type) (Ret₁ : Op₁ → Type) (Ret₂ : Op₂ → Type) (σ ε : Type) : Type :=
  Event (Side × ι) (Op₁ ⊕ Op₂) (Sum.elim Ret₁ Ret₂) σ ε

section Own

variable [DecidableEq ι]

/-- The history of a thread of the left machine. -/
def leftOwn (i : ι) (log : List (BesideEvent ι Ret₁ Ret₂ σ ε)) : History Op₁ Ret₁ :=
  (own (.left, i) log).lefts

/-- The history of a thread of the right machine. -/
def rightOwn (i : ι) (log : List (BesideEvent ι Ret₁ Ret₂ σ ε)) : History Op₂ Ret₂ :=
  (own (.right, i) log).rights

namespace Beside

variable {A : Machine ι Op₁ Ret₁ ν₁ σ ε} {B : Machine ι Op₂ Ret₂ ν₂ σ ε} {i j : ι} {e : ε}
  {o₁ : Op₁} {o₂ : Op₂} {s : σ} {log : List (BesideEvent ι Ret₁ Ret₂ σ ε)}

lemma leftOwn_self : leftOwn i ((A.beside B).event (.left, i) e (.inl o₁) s :: log) =
    ⟨o₁, (A.exec i e o₁ s).1⟩ :: leftOwn i log := by
  rw [leftOwn, Machine.own_event_self]
  rfl

lemma leftOwn_of_ne (h : j ≠ i) (o : Op₁ ⊕ Op₂) :
    leftOwn i ((A.beside B).event (.left, j) e o s :: log) = leftOwn i log := by
  rw [leftOwn, Machine.own_event_of_ne _ fun hij => h (congrArg Prod.snd hij)]
  rfl

lemma leftOwn_right (o : Op₁ ⊕ Op₂) :
    leftOwn i ((A.beside B).event (.right, j) e o s :: log) = leftOwn i log := by
  have hne : (Side.right, j) ≠ (Side.left, i) := fun hij => Side.noConfusion (congrArg Prod.fst hij)
  rw [leftOwn, Machine.own_event_of_ne _ hne]
  rfl

lemma rightOwn_self : rightOwn i ((A.beside B).event (.right, i) e (.inr o₂) s :: log) =
    ⟨o₂, (B.exec i e o₂ s).1⟩ :: rightOwn i log := by
  rw [rightOwn, Machine.own_event_self]
  rfl

lemma rightOwn_of_ne (h : j ≠ i) (o : Op₁ ⊕ Op₂) :
    rightOwn i ((A.beside B).event (.right, j) e o s :: log) = rightOwn i log := by
  rw [rightOwn, Machine.own_event_of_ne _ fun hij => h (congrArg Prod.snd hij)]
  rfl

lemma rightOwn_left (o : Op₁ ⊕ Op₂) :
    rightOwn i ((A.beside B).event (.left, j) e o s :: log) = rightOwn i log := by
  have hne : (Side.left, j) ≠ (Side.right, i) := fun hij => Side.noConfusion (congrArg Prod.fst hij)
  rw [rightOwn, Machine.own_event_of_ne _ hne]
  rfl

end Beside

end Own

/-! ## Runs -/

namespace Beside

variable {A : Machine ι Op₁ Ret₁ ν₁ σ ε} {B : Machine ι Op₂ Ret₂ ν₂ σ ε}
  {A₁ : ι → History Op₁ Ret₁ → Op₁ → Prop} {Q₁ : ι → History Op₁ Ret₁ → ν₁ → Prop}
  {A₂ : ι → History Op₂ Ret₂ → Op₂ → Prop} {Q₂ : ι → History Op₂ Ret₂ → ν₂ → Prop}

/-- The disciplines of both machines. -/
def allow (A₁ : ι → History Op₁ Ret₁ → Op₁ → Prop) (A₂ : ι → History Op₂ Ret₂ → Op₂ → Prop) :
    Side × ι → History (Op₁ ⊕ Op₂) (Sum.elim Ret₁ Ret₂) → Op₁ ⊕ Op₂ → Prop
  | (.left, i) => allowLeft (A₁ i)
  | (.right, i) => allowRight (A₂ i)

/-- The postconditions of both machines. -/
def stop (Q₁ : ι → History Op₁ Ret₁ → ν₁ → Prop) (Q₂ : ι → History Op₂ Ret₂ → ν₂ → Prop) :
    Side × ι → History (Op₁ ⊕ Op₂) (Sum.elim Ret₁ Ret₂) → ν₁ ⊕ ν₂ → Prop
  | (.left, i) => stopLeft (Q₁ i)
  | (.right, i) => stopRight (Q₂ i)

variable [DecidableEq ι]

omit [DecidableEq ι] in
lemma disciplined {c₁ : Config ι Op₁ Ret₁ ν₁ σ} {c₂ : Config ι Op₂ Ret₂ ν₂ σ}
    (D₁ : A.Disciplined A₁ Q₁ c₁) (D₂ : B.Disciplined A₂ Q₂ c₂) (s : σ) :
    (A.beside B).Disciplined (allow A₁ A₂) (stop Q₁ Q₂)
      (besideInit s c₁.threads c₂.threads) where
  first
    | (.left, i) => (D₁.first i).inLeft (h := [])
    | (.right, i) => (D₂.first i).inRight (h := [])
  again := by
    rintro ⟨side, i⟩ h v p hv hp
    cases side with
    | left =>
        cases v with
        | inr b => exact hv.elim
        | inl a =>
            obtain ⟨q, hq, rfl⟩ := Option.map_eq_some_iff.1 hp
            exact (D₁.again i _ a q hv hq).inLeft
    | right =>
        cases v with
        | inl a => exact hv.elim
        | inr b =>
            obtain ⟨q, hq, rfl⟩ := Option.map_eq_some_iff.1 hp
            exact (D₂.again i _ b q hv hq).inRight

variable {s : σ} {log : List (BesideEvent ι Ret₁ Ret₂ σ ε)}
  {c : Config (Side × ι) (Op₁ ⊕ Op₂) (Sum.elim Ret₁ Ret₂) (ν₁ ⊕ ν₂) σ}

/-- **The induction rule for two machines side by side.** -/
theorem invariant {c₁ : Config ι Op₁ Ret₁ ν₁ σ} {c₂ : Config ι Op₂ Ret₂ ν₂ σ}
    (D₁ : A.Disciplined A₁ Q₁ c₁) (D₂ : B.Disciplined A₂ Q₂ c₂)
    (I : List (BesideEvent ι Ret₁ Ret₂ σ ε) → σ → Prop) (start : I [] s)
    (left : ∀ log s i e o, I log s → A₁ i (leftOwn i log) o →
      I ((A.beside B).event (.left, i) e (.inl o) s :: log) (A.exec i e o s).2)
    (right : ∀ log s i e o, I log s → A₂ i (rightOwn i log) o →
      I ((A.beside B).event (.right, i) e (.inr o) s :: log) (B.exec i e o s).2)
    (run : (A.beside B).Run (besideInit s c₁.threads c₂.threads) log c) : I log c.shared := by
  refine run.invariant (disciplined D₁ D₂ s) I start ?_
  rintro log s ⟨side, i⟩ e o hI allowed
  cases side with
  | left =>
      cases o with
      | inl o => exact left log s i e o hI allowed
      | inr o => exact allowed.elim
  | right =>
      cases o with
      | inl o => exact allowed.elim
      | inr o => exact right log s i e o hI allowed

/-! ## Forgetting the left machine -/

/-- An event as the right machine sees it, through a projection. -/
def rightEvent {B' : Machine ι Op₂ Ret₂ ν₂ σ' ε'} (P : Projection B B') :
    BesideEvent ι Ret₁ Ret₂ σ ε → Option (Event ι Op₂ Ret₂ σ' ε')
  | ⟨_, _, .inl _, _, _, _⟩ => none
  | ⟨i, e, .inr o, r, before, after⟩ => some (P.event ⟨i.2, e, o, r, before, after⟩)

omit [DecidableEq ι] in
lemma inLeft_eq_call {p : Prog Op₁ Ret₁ ν₁} {o : Op₁ ⊕ Op₂}
    {k : Sum.elim Ret₁ Ret₂ o → Prog (Op₁ ⊕ Op₂) (Sum.elim Ret₁ Ret₂) (ν₁ ⊕ ν₂)}
    (h : p.inLeft = .call o k) :
    ∃ o₁, o = .inl o₁ ∧ ∀ r, ∃ q : Prog Op₁ Ret₁ ν₁, q.inLeft = k r := by
  cases p with
  | done a => cases h
  | call o₁ k₁ =>
      cases h
      exact ⟨o₁, rfl, fun r => ⟨k₁ r, rfl⟩⟩

/-- The threads are programs of their machines, on the right the given ones. -/
structure Placed (threads : Side × ι → Prog (Op₁ ⊕ Op₂) (Sum.elim Ret₁ Ret₂) (ν₁ ⊕ ν₂))
    (right : ι → Prog Op₂ Ret₂ ν₂) : Prop where
  right_eq : ∀ i, threads (.right, i) = (right i).inRight
  left_eq : ∀ i, ∃ p : Prog Op₁ Ret₁ ν₁, threads (.left, i) = p.inLeft

variable {threads : Side × ι → Prog (Op₁ ⊕ Op₂) (Sum.elim Ret₁ Ret₂) (ν₁ ⊕ ν₂)}
  {right : ι → Prog Op₂ Ret₂ ν₂}

lemma Placed.updateLeft (h : Placed threads right) (i : ι) (p : Prog Op₁ Ret₁ ν₁) :
    Placed (Function.update threads (.left, i) p.inLeft) right where
  right_eq j := by
    have hne : (Side.right, j) ≠ (Side.left, i) :=
      fun hij => Side.noConfusion (congrArg Prod.fst hij)
    rw [Function.update_of_ne hne, h.right_eq]
  left_eq j := by
    by_cases hij : j = i
    · subst hij
      exact ⟨p, Function.update_self _ _ _⟩
    · rw [Function.update_of_ne fun h => hij (congrArg Prod.snd h)]
      exact h.left_eq j

lemma Placed.updateRight (h : Placed threads right) (i : ι) (q : Prog Op₂ Ret₂ ν₂) :
    Placed (Function.update threads (.right, i) q.inRight) (Function.update right i q) where
  right_eq j := by
    by_cases hij : j = i
    · subst hij
      rw [Function.update_self, Function.update_self]
    · rw [Function.update_of_ne fun h => hij (congrArg Prod.snd h), Function.update_of_ne hij,
        h.right_eq]
  left_eq j := by
    have hne : (Side.left, j) ≠ (Side.right, i) :=
      fun hij => Side.noConfusion (congrArg Prod.fst hij)
    rw [Function.update_of_ne hne]
    exact h.left_eq j

/-- A run of both machines to `c`, and one of the right machine alone to `c'` that goes with it. -/
structure GoesWith {B' : Machine ι Op₂ Ret₂ ν₂ σ' ε'} (P : Projection B B')
    (init : Config ι Op₂ Ret₂ ν₂ σ') (log : List (BesideEvent ι Ret₁ Ret₂ σ ε))
    (c : Config (Side × ι) (Op₁ ⊕ Op₂) (Sum.elim Ret₁ Ret₂) (ν₁ ⊕ ν₂) σ)
    (c' : Config ι Op₂ Ret₂ ν₂ σ') : Prop where
  run : B'.Run init (log.filterMap (rightEvent P)) c'
  shared : c'.shared = P.state c.shared
  placed : Placed c.threads c'.threads
  owns : ∀ i, own i (log.filterMap (rightEvent P)) = rightOwn i log

section GoesWith

variable {B' : Machine ι Op₂ Ret₂ ν₂ σ' ε'} {P : Projection B B'} {init : Config ι Op₂ Ret₂ ν₂ σ'}
  {c' : Config ι Op₂ Ret₂ ν₂ σ'} {i : ι}

/-- The right machine stands still while the left one executes an operation. -/
lemma GoesWith.actLeft (goes : GoesWith P init log c c')
    (apart : ∀ i e o s, P.state (A.exec i e o s).2 = P.state s) (e : ε) {o : Op₁ ⊕ Op₂}
    {k : Sum.elim Ret₁ Ret₂ o → Prog (Op₁ ⊕ Op₂) (Sum.elim Ret₁ Ret₂) (ν₁ ⊕ ν₂)}
    (next : c.threads (.left, i) = .call o k) :
    GoesWith P init ((A.beside B).event (.left, i) e o c.shared :: log)
      ⟨((A.beside B).exec (.left, i) e o c.shared).2, Function.update c.threads (.left, i)
        (k ((A.beside B).exec (.left, i) e o c.shared).1)⟩ c' := by
  obtain ⟨p, hp⟩ := goes.placed.left_eq i
  rw [hp] at next
  obtain ⟨o, rfl, hk⟩ := inLeft_eq_call next
  obtain ⟨q, hq⟩ := hk ((A.beside B).exec (.left, i) e (.inl o) c.shared).1
  refine ⟨goes.run, goes.shared.trans (apart i e o c.shared).symm, ?_, fun j => ?_⟩
  · rw [← hq]
    exact goes.placed.updateLeft i q
  · rw [rightOwn_left]
    exact goes.owns j

lemma GoesWith.actRight (goes : GoesWith P init log c c') (e : ε) {o : Op₁ ⊕ Op₂}
    {k : Sum.elim Ret₁ Ret₂ o → Prog (Op₁ ⊕ Op₂) (Sum.elim Ret₁ Ret₂) (ν₁ ⊕ ν₂)}
    (next : c.threads (.right, i) = .call o k) :
    ∃ c'', GoesWith P init ((A.beside B).event (.right, i) e o c.shared :: log)
      ⟨((A.beside B).exec (.right, i) e o c.shared).2, Function.update c.threads (.right, i)
        (k ((A.beside B).exec (.right, i) e o c.shared).1)⟩ c'' := by
  rw [goes.placed.right_eq i] at next
  cases hp : c'.threads i with
  | done b => rw [hp] at next; cases next
  | call o k' =>
      rw [hp] at next
      cases next
      have step := goes.run.act i (P.env i e o c.shared) hp
      rw [goes.shared, P.exec_eq, ← P.event_event] at step
      refine ⟨_, step, rfl, goes.placed.updateRight i _, fun j => ?_⟩
      change own j (P.event (B.event i e o c.shared) :: _) = _
      by_cases hij : i = j
      · subst hij
        rw [rightOwn_self, own_cons, goes.owns]
        exact if_pos rfl
      · rw [rightOwn_of_ne hij, own_cons, goes.owns]
        exact if_neg hij

lemma GoesWith.resumeLeft (goes : GoesWith P init log c c') {v : ν₁ ⊕ ν₂}
    {p : Prog (Op₁ ⊕ Op₂) (Sum.elim Ret₁ Ret₂) (ν₁ ⊕ ν₂)}
    (stopped : c.threads (.left, i) = .done v) (again : (A.beside B).resume v = some p) :
    GoesWith P init log ⟨c.shared, Function.update c.threads (.left, i) p⟩ c' := by
  obtain ⟨q, hq⟩ := goes.placed.left_eq i
  rw [hq] at stopped
  cases q with
  | call o k => cases stopped
  | done a =>
      cases stopped
      obtain ⟨q, -, rfl⟩ := Option.map_eq_some_iff.1 again
      exact ⟨goes.run, goes.shared, goes.placed.updateLeft i q, goes.owns⟩

lemma GoesWith.resumeRight (goes : GoesWith P init log c c') {v : ν₁ ⊕ ν₂}
    {p : Prog (Op₁ ⊕ Op₂) (Sum.elim Ret₁ Ret₂) (ν₁ ⊕ ν₂)}
    (stopped : c.threads (.right, i) = .done v) (again : (A.beside B).resume v = some p) :
    ∃ c'', GoesWith P init log ⟨c.shared, Function.update c.threads (.right, i) p⟩ c'' := by
  rw [goes.placed.right_eq i] at stopped
  cases hp : c'.threads i with
  | call o k => rw [hp] at stopped; cases stopped
  | done b =>
      rw [hp] at stopped
      cases stopped
      obtain ⟨q, hq, rfl⟩ := Option.map_eq_some_iff.1 again
      exact ⟨_, goes.run.resume i hp (by rw [P.resume_eq]; exact hq), goes.shared,
        goes.placed.updateRight i q, goes.owns⟩

end GoesWith

/-- **The right machine runs as if it were alone**, if what is seen of the state is its own. -/
theorem right_run {B' : Machine ι Op₂ Ret₂ ν₂ σ' ε'} (P : Projection B B')
    (apart : ∀ i e o s, P.state (A.exec i e o s).2 = P.state s) {left : ι → Prog Op₁ Ret₁ ν₁}
    (run : (A.beside B).Run (besideInit s left right) log c) :
    ∃ c', GoesWith P ⟨P.state s, right⟩ log c c' := by
  induction run with
  | start => exact ⟨_, .start, rfl, ⟨fun _ => rfl, fun i => ⟨left i, rfl⟩⟩, fun _ => rfl⟩
  | @act log c run i e o k next ih =>
      obtain ⟨c', goes⟩ := ih
      obtain ⟨side, i⟩ := i
      cases side with
      | left => exact ⟨c', goes.actLeft apart e next⟩
      | right => exact goes.actRight e next
  | @resume log c run i v p stopped again ih =>
      obtain ⟨c', goes⟩ := ih
      obtain ⟨side, i⟩ := i
      cases side with
      | left => exact ⟨c', goes.resumeLeft stopped again⟩
      | right => exact goes.resumeRight stopped again

end Beside

end Interaction
