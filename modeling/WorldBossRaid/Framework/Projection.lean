import WorldBossRaid.Framework.Interleave

/-!
# Projections of machines

Two machines may run the same programs over different states, the second one keeping only a part
of what the first one keeps and leaving the rest to its environment.  A `Projection` says how the
state and the supplies of the first machine are seen by the second; `Projection.run` then carries
every run over, with the same threads at the same places and the same history for each of them, so
that what is proved about all runs of the second machine holds of the first.
-/

namespace Interaction

variable {ι Op : Type} {Ret : Op → Type} {ν σ σ' ε ε' : Type}

/-- How the machine `M` looks to the machine `M'`. -/
structure Projection (M : Machine ι Op Ret ν σ ε) (M' : Machine ι Op Ret ν σ' ε') where
  /-- The part of the state that `M'` keeps. -/
  state : σ → σ'
  /-- What the environment of `M'` has to supply. -/
  env : ι → ε → Op → σ → ε'
  exec_eq : ∀ i e o s, M'.exec i (env i e o s) o (state s) =
    ((M.exec i e o s).1, state (M.exec i e o s).2)
  resume_eq : M'.resume = M.resume

namespace Projection

variable {M : Machine ι Op Ret ν σ ε} {M' : Machine ι Op Ret ν σ' ε'} (P : Projection M M')

/-- An event as `M'` sees it. -/
def event (e : Event ι Op Ret σ ε) : Event ι Op Ret σ' ε' :=
  ⟨e.thread, P.env e.thread e.env e.op e.before, e.op, e.ret, P.state e.before, P.state e.after⟩

/-- A configuration as `M'` sees it. -/
def config (c : Config ι Op Ret ν σ) : Config ι Op Ret ν σ' := ⟨P.state c.shared, c.threads⟩

lemma event_event (i : ι) (e : ε) (o : Op) (s : σ) :
    P.event (M.event i e o s) = M'.event i (P.env i e o s) o (P.state s) := by
  rw [Machine.event, Machine.event, P.exec_eq]
  rfl

variable [DecidableEq ι]

lemma own_map_event (i : ι) (log : List (Event ι Op Ret σ ε)) :
    own i (log.map P.event) = own i log := by
  induction log with
  | nil => rfl
  | cons e log ih =>
      rw [List.map_cons, own_cons, own_cons, ih]
      rfl

/-- **Every run is a run of the machine it is projected to.** -/
theorem run {init c : Config ι Op Ret ν σ} {log : List (Event ι Op Ret σ ε)}
    (run : M.Run init log c) : M'.Run (P.config init) (log.map P.event) (P.config c) := by
  induction run with
  | start => exact .start
  | @act log c run i e o k next ih =>
      have step := Machine.Run.act ih i (P.env i e o c.shared) (show
        (P.config c).threads i = .call o k from next)
      change M'.Run _ (M'.event i (P.env i e o c.shared) o (P.state c.shared) :: _)
        ⟨(M'.exec i (P.env i e o c.shared) o (P.state c.shared)).2, Function.update c.threads i
          (k (M'.exec i (P.env i e o c.shared) o (P.state c.shared)).1)⟩ at step
      rw [← P.event_event, P.exec_eq] at step
      exact step
  | @resume log c run i a p stopped again ih =>
      exact .resume ih i stopped (by rw [P.resume_eq]; exact again)

end Projection

end Interaction
