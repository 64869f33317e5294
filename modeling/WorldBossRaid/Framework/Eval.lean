import WorldBossRaid.Framework.Interleave

/-!
# Running one program against a state

`Prog.eval exec p s` runs `p` alone: every operation is answered by `exec`, which also moves the
state on.  A loop whose body is a program stops once per turn with the variables the next turn
starts with, or with nothing; `Prog.atHead` is where it stands after a number of turns.

`Prog.trace` is the history that the run leaves.  In a machine, a thread may at any time run alone
up to the end of its program: `Machine.Run.alone`.
-/

namespace Interaction.Prog

variable {Op : Type} {Ret : Op → Type} {σ α β ν : Type}

/-- Run a program from a state. -/
def eval (exec : (o : Op) → σ → Ret o × σ) : Prog Op Ret α → σ → α × σ
  | done a, s => (a, s)
  | call o k, s => eval exec (k (exec o s).1) (exec o s).2

variable {exec : (o : Op) → σ → Ret o × σ}

@[simp] lemma eval_done (a : α) (s : σ) : eval exec (done a : Prog Op Ret α) s = (a, s) := rfl

@[simp] lemma eval_pure (a : α) (s : σ) : eval exec (pure a : Prog Op Ret α) s = (a, s) := rfl

@[simp] lemma eval_call (o : Op) (k : Ret o → Prog Op Ret α) (s : σ) :
    eval exec (call o k) s = eval exec (k (exec o s).1) (exec o s).2 := rfl

@[simp] lemma eval_perform (o : Op) (s : σ) :
    eval exec (perform o : Prog Op Ret (Ret o)) s = exec o s := rfl

lemma eval_bind (p : Prog Op Ret α) (f : α → Prog Op Ret β) (s : σ) :
    eval exec (p >>= f) s = eval exec (f (eval exec p s).1) (eval exec p s).2 := by
  induction p generalizing s with
  | done a => rfl
  | call o k ih => exact ih _ _

/-- A relation to the state at the start that every operation of the footprint keeps. -/
lemma Issues.eval {P : Op → Prop} {p : Prog Op Ret α} (hp : Issues P p) {I : σ → Prop}
    (keeps : ∀ o s, P o → I s → I (exec o s).2) {s : σ} (hs : I s) : I (eval exec p s).2 := by
  induction p generalizing s with
  | done a => exact hs
  | call o k ih => exact ih _ (hp.2 _) (keeps o s hp.1 hs)

/-! ## Loops -/

/-- Where a loop goes on after a turn, if it does. -/
def headOf (x : Option ν × σ) : Option (ν × σ) := x.1.map fun v => (v, x.2)

lemma headOf_eq_some {x : Option ν × σ} {v : ν} {s : σ} :
    headOf x = some (v, s) ↔ x = (some v, s) := by
  obtain ⟨y, t⟩ := x
  cases y <;> simp [headOf]

/-- The variables and the state after `n` turns of the loop `body`, which `first` leads to. -/
def atHead (exec : (o : Op) → σ → Ret o × σ) (first : Prog Op Ret (Option ν))
    (body : ν → Prog Op Ret (Option ν)) (s : σ) : ℕ → Option (ν × σ)
  | 0 => headOf (eval exec first s)
  | n + 1 => (atHead exec first body s n).bind fun x => headOf (eval exec (body x.1) x.2)

/-- **The induction rule for loops.** -/
theorem atHead_induction {first : Prog Op Ret (Option ν)} {body : ν → Prog Op Ret (Option ν)}
    {s : σ} (I : ν → σ → Prop) (start : ∀ v t, eval exec first s = (some v, t) → I v t)
    (turn : ∀ v t v' t', I v t → eval exec (body v) t = (some v', t') → I v' t') {n : ℕ} {v : ν}
    {t : σ} (h : atHead exec first body s n = some (v, t)) : I v t := by
  induction n generalizing v t with
  | zero => exact start v t (headOf_eq_some.1 h)
  | succ n ih =>
      obtain ⟨x, hx, hturn⟩ := Option.bind_eq_some_iff.1 h
      exact turn x.1 x.2 v t (ih hx) (headOf_eq_some.1 hturn)

/-! ## Histories -/

/-- The operations of a run and their answers, newest first. -/
def trace (exec : (o : Op) → σ → Ret o × σ) : Prog Op Ret α → σ → History Op Ret
  | done _, _ => []
  | call o k, s => trace exec (k (exec o s).1) (exec o s).2 ++ [⟨o, (exec o s).1⟩]

@[simp] lemma trace_done (a : α) (s : σ) : trace exec (done a : Prog Op Ret α) s = [] := rfl

@[simp] lemma trace_pure (a : α) (s : σ) : trace exec (pure a : Prog Op Ret α) s = [] := rfl

@[simp] lemma trace_call (o : Op) (k : Ret o → Prog Op Ret α) (s : σ) :
    trace exec (call o k) s =
      trace exec (k (exec o s).1) (exec o s).2 ++ [⟨o, (exec o s).1⟩] := rfl

@[simp] lemma trace_perform (o : Op) (s : σ) :
    trace exec (perform o : Prog Op Ret (Ret o)) s = [⟨o, (exec o s).1⟩] := rfl

lemma trace_bind (p : Prog Op Ret α) (f : α → Prog Op Ret β) (s : σ) :
    trace exec (p >>= f) s =
      trace exec (f (eval exec p s).1) (eval exec p s).2 ++ trace exec p s := by
  induction p generalizing s with
  | done a => exact (List.append_nil _).symm
  | call o k ih =>
      rw [call_bind, trace_call, trace_call, ih, List.append_assoc]
      rfl

end Interaction.Prog

namespace Interaction.Machine

open Prog

variable {ι Op : Type} {Ret : Op → Type} {ν σ ε : Type} [DecidableEq ι]
  {M : Machine ι Op Ret ν σ ε} {init c : Config ι Op Ret ν σ} {log : List (Event ι Op Ret σ ε)}

/-- **One thread runs alone**, with the given supplies, to the end of its program. -/
theorem Run.alone (run : M.Run init log c) (i : ι) (env : Op → ε) :
    ∃ log', M.Run init (log' ++ log)
        ⟨(eval (fun o => M.exec i (env o) o) (c.threads i) c.shared).2,
          Function.update c.threads i
            (done (eval (fun o => M.exec i (env o) o) (c.threads i) c.shared).1)⟩ ∧
      own i log' = trace (fun o => M.exec i (env o) o) (c.threads i) c.shared ∧
      ∀ ev ∈ log', ev.thread = i := by
  generalize hp : c.threads i = p
  induction p generalizing log c with
  | done a =>
      refine ⟨[], ?_, rfl, List.forall_mem_nil _⟩
      rw [eval_done, ← hp, Function.update_eq_self]
      exact run
  | call o k ih =>
      obtain ⟨log', run', history, alone⟩ :=
        ih _ (run.act i (env o) hp) (Function.update_self i _ c.threads)
      refine ⟨log' ++ [M.event i (env o) o c.shared], ?_, ?_, ?_⟩
      · rw [Function.update_idem] at run'
        rw [List.append_assoc]
        exact run'
      · rw [own_append, history]
        simp [own_cons, Machine.event, Event.answered]
      · intro ev hev
        obtain hev | hev := List.mem_append.1 hev
        · exact alone ev hev
        · rw [List.mem_singleton.1 hev]
          rfl

end Interaction.Machine
