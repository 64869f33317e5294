import WorldBossRaid.Model.Server

/-!
# The generator behind the dice

`main` calls `dice_init` once, before it accepts the first connection, and never calls `rand`.
The state of the generator belongs to the process, and `fork` copies it like all memory that is not
shared, so every worker starts with the state that `dice_init` left, and moves only its own.

What the C library returns for a seed is not modelled: `outputs seed n` is the output at position
`n` of the sequence that `srand(seed)` starts.
-/

namespace WorldBossRaid

open Bytes Interaction

/-- The state of the generator of a process. -/
structure Generator where
  /-- The argument of `srand`. -/
  seed : ℤ
  /-- The position of the next output. -/
  drawn : ℕ
  deriving DecidableEq

/-- `dice_init`, at the clock reading `now`. -/
def diceInit (now : ℤ) : Generator := ⟨now, 0⟩

/-- `rand`. -/
def Generator.rand (outputs : ℤ → ℕ → ℕ) (g : Generator) : ℕ × Generator :=
  (outputs g.seed g.drawn, { g with drawn := g.drawn + 1 })

/-- The shared game state, and the generator of every worker. -/
structure SeededState (ι : Type) where
  shm : GameSharedData
  generator : ι → Generator

section Seeded

variable {ι : Type} [DecidableEq ι]

/-- The effect of an operation of worker `i`; the environment supplies no rolls. -/
def SeededState.exec (outputs : ℤ → ℕ → ℕ) (i : ι) (e : RaidEnv) :
    (o : WorkerOp) → SeededState ι → o.Ret × SeededState ι
  | .rand, s =>
      let r := (s.generator i).rand outputs
      (r.1, { s with generator := Function.update s.generator i r.2 })
  | o, s => ((o.exec e s.shm).1, { s with shm := (o.exec e s.shm).2 })

/-- The workers with their generators. -/
def seeded (ι : Type) [DecidableEq ι] (outputs : ℤ → ℕ → ℕ) :
    Machine ι WorkerOp WorkerOp.Ret (Option ClientLocals) (SeededState ι) RaidEnv where
  exec i e o s := s.exec outputs i e o
  resume v := v.map handleClientLoop

/-- The workers as they are forked by a `main` that has called `dice_init` at `now`. -/
def seededInit (ι : Type) (now : ℤ) :
    Config ι WorkerOp WorkerOp.Ret (Option ClientLocals) (SeededState ι) where
  shared := ⟨gamestateInit, fun _ => diceInit now⟩
  threads _ := handleClient

/-- An event of it. -/
abbrev SeededEvent (ι : Type) : Type :=
  Event ι WorkerOp WorkerOp.Ret (SeededState ι) RaidEnv

/-- What the environment and the generator of worker `i` supply to a worker of the raid. -/
def SeededState.supply (outputs : ℤ → ℕ → ℕ) (i : ι) (e : RaidEnv) (s : SeededState ι) : RaidEnv :=
  { e with roll := ((s.generator i).rand outputs).1 }

lemma SeededState.exec_supply (outputs : ℤ → ℕ → ℕ) (i : ι) (e : RaidEnv) (o : WorkerOp)
    (s : SeededState ι) :
    o.exec (s.supply outputs i e) s.shm =
      ((s.exec outputs i e o).1, (s.exec outputs i e o).2.shm) := by
  cases o <;> rfl

lemma seeded_resume (outputs : ℤ → ℕ → ℕ) : (raid ι).resume = (seeded ι outputs).resume := rfl

/-- It is a raid in which the generators decide the rolls. -/
def seededRaid (ι : Type) [DecidableEq ι] (outputs : ℤ → ℕ → ℕ) :
    Projection (seeded ι outputs) (raid ι) where
  state := SeededState.shm
  env i e _ s := s.supply outputs i e
  exec_eq := SeededState.exec_supply outputs
  resume_eq := seeded_resume outputs

/-- Only a draw of the worker itself moves its generator. -/
lemma SeededState.generator_exec {outputs : ℤ → ℕ → ℕ} {i j : ι} {e : RaidEnv} {o : WorkerOp}
    (aside : i ≠ j ∨ o ≠ .rand) (s : SeededState ι) :
    (s.exec outputs j e o).2.generator i = s.generator i := by
  cases o with
  | rand => exact Function.update_of_ne (aside.resolve_right (not_not.2 rfl)) _ _
  | _ => rfl

end Seeded

end WorldBossRaid
