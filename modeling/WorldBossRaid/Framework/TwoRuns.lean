import WorldBossRaid.Framework.Interleave

/-!
# Comparing two runs

Two runs that follow one schedule, with the same supplies of the environment, but start from
different states.  A `Likeness` says which operations and which answers are to be taken for alike;
`Alike` lifts it to programs: they issue alike operations, go on alike after all alike answers,
and stop with equal values.

`play_alike` is the rule for machines.  If alike operations in alike states get alike answers and
leave alike states, then the logs of the two runs are alike, event by event, and so are their
final states.
-/

namespace Interaction

open Prog

variable {ι Op : Type} {Ret : Op → Type} {ν σ ε α β : Type}

/-- Which operations and which of their answers are to be taken for alike. -/
structure Likeness (Op : Type) (Ret : Op → Type) where
  op : Op → Op → Prop
  ret : (o o' : Op) → Ret o → Ret o' → Prop

variable {L : Likeness Op Ret}

/-- The programs issue alike operations, go on alike after alike answers, and stop with equal
values. -/
def Alike (L : Likeness Op Ret) : Prog Op Ret α → Prog Op Ret α → Prop
  | done a, done b => a = b
  | call o k, call o' k' => L.op o o' ∧ ∀ r r', L.ret o o' r r' → Alike L (k r) (k' r')
  | _, _ => False

@[simp] lemma alike_done {a b : α} :
    Alike L (done a : Prog Op Ret α) (done b) ↔ a = b := Iff.rfl

lemma Alike.bind {p p' : Prog Op Ret α} {f f' : α → Prog Op Ret β} (hp : Alike L p p')
    (hf : ∀ a, Alike L (f a) (f' a)) : Alike L (p >>= f) (p' >>= f') := by
  induction p generalizing p' with
  | done a =>
      cases p' with
      | done b => exact alike_done.1 hp ▸ hf a
      | call o' k' => exact hp.elim
  | call o k ih =>
      cases p' with
      | done b => exact hp.elim
      | call o' k' => exact ⟨hp.1, fun r r' hr => ih r (hp.2 r r' hr)⟩

/-- An operation whose alike answers are equal. -/
def Likeness.Plain (L : Likeness Op Ret) (o : Op) : Prop :=
  L.op o o ∧ ∀ r r', L.ret o o r r' → r = r'

/-- A program that only issues plain operations is alike itself. -/
lemma Alike.of_plain {Q : History Op Ret → α → Prop} {h : History Op Ret} {p : Prog Op Ret α}
    (hp : Conforms (fun _ o => L.Plain o) Q h p) : Alike L p p := by
  induction p generalizing h with
  | done a => exact rfl
  | call o k ih =>
      refine ⟨hp.1.1, ?_⟩
      intro r r' hr
      obtain rfl := hp.1.2 r r' hr
      exact ih r (hp.2 r)

/-- The events of two logs are alike: the same threads issued alike operations. -/
def LogsAlike (L : Likeness Op Ret) :
    List (Event ι Op Ret σ ε) → List (Event ι Op Ret σ ε) → Prop :=
  List.Forall₂ fun e e' => e.thread = e'.thread ∧ L.op e.op e'.op

/-- Alike configurations. -/
structure ConfigsAlike (L : Likeness Op Ret) (S : σ → σ → Prop)
    (c c' : Config ι Op Ret ν σ) : Prop where
  shared : S c.shared c'.shared
  threads : ∀ i, Alike L (c.threads i) (c'.threads i)

lemma ConfigsAlike.update [DecidableEq ι] {S : σ → σ → Prop} {c c' : Config ι Op Ret ν σ}
    (configs : ConfigsAlike L S c c') {s s' : σ} (shared : S s s') (i : ι) {p p' : Prog Op Ret ν}
    (hp : Alike L p p') :
    ConfigsAlike L S ⟨s, Function.update c.threads i p⟩ ⟨s', Function.update c'.threads i p'⟩ where
  shared := shared
  threads j := by
    by_cases hj : j = i
    · subst hj
      simpa only [Function.update_self] using hp
    · simpa only [Function.update_of_ne hj] using configs.threads j

/-- Alike operations in alike states get alike answers and leave alike states.  The first run, up
to the operation, may be used. -/
def PreservesAlike [DecidableEq ι] (M : Machine ι Op Ret ν σ ε) (init : Config ι Op Ret ν σ)
    (L : Likeness Op Ret) (S : σ → σ → Prop) : Prop :=
  ∀ log c i e o o' s' k, M.Run init log c → c.threads i = .call o k → S c.shared s' → L.op o o' →
    L.ret o o' (M.exec i e o c.shared).1 (M.exec i e o' s').1 ∧
      S (M.exec i e o c.shared).2 (M.exec i e o' s').2

namespace Machine

variable [DecidableEq ι] {M : Machine ι Op Ret ν σ ε} {S : σ → σ → Prop}
  {init init' c c' : Config ι Op Ret ν σ} {log log' : List (Event ι Op Ret σ ε)}

lemma turn_alike (preserves : PreservesAlike M init L S)
    (again : ∀ a p, M.resume a = some p → Alike L p p) (run : M.Run init log c)
    (logs : LogsAlike L log log') (configs : ConfigsAlike L S c c') (i : ι) (e : ε) :
    LogsAlike L (M.turn i e log c).1 (M.turn i e log' c').1 ∧
      ConfigsAlike L S (M.turn i e log c).2 (M.turn i e log' c').2 := by
  have hthread := configs.threads i
  cases next : c.threads i with
  | call o k =>
      cases next' : c'.threads i with
      | done b =>
          rw [next, next'] at hthread
          exact hthread.elim
      | call o' k' =>
          rw [next, next'] at hthread
          obtain ⟨hret, hshared⟩ :=
            preserves log c i e o o' c'.shared k run next configs.shared hthread.1
          rw [turn_call next, turn_call next']
          exact ⟨.cons ⟨rfl, hthread.1⟩ logs, configs.update hshared i (hthread.2 _ _ hret)⟩
  | done a =>
      cases next' : c'.threads i with
      | call o' k' =>
          rw [next, next'] at hthread
          exact hthread.elim
      | done b =>
          rw [next, next'] at hthread
          obtain rfl := alike_done.1 hthread
          cases hresume : M.resume a with
          | none =>
              rw [turn_ended next hresume, turn_ended next' hresume]
              exact ⟨logs, configs⟩
          | some p =>
              rw [turn_resume next hresume, turn_resume next' hresume]
              exact ⟨logs, configs.update configs.shared i (again a p hresume)⟩

/-- **The rule for two runs** on one schedule. -/
theorem play_alike (preserves : PreservesAlike M init L S)
    (again : ∀ a p, M.resume a = some p → Alike L p p) (start : ConfigsAlike L S init init')
    (schedule : List (ι × ε)) :
    LogsAlike L (M.play init schedule).1 (M.play init' schedule).1 ∧
      ConfigsAlike L S (M.play init schedule).2 (M.play init' schedule).2 := by
  induction schedule using List.reverseRecOn with
  | nil => exact ⟨.nil, start⟩
  | append_singleton schedule t ih =>
      simp only [play, List.foldl_append, List.foldl_cons, List.foldl_nil]
      exact turn_alike preserves again (run_play init schedule) ih.1 ih.2 t.1 t.2

end Machine

end Interaction
