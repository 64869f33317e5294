import Mathlib

/-!
# Interaction programs and their histories

A sequential program that talks to the world outside it is a tree: it stops with a value, or
it issues one operation and goes on with the answer.  `Prog` is that tree, with the monad
structure that lets a program be written in the order of its source.

What a program may do next usually depends on what it has done so far, so the logic of this
module is about *histories*: the list of operations a program has issued, each with its answer,
newest first.  `Prog.Conforms A h p Q` says that `p`, started after the history `h`, only issues
operations that the discipline `A` allows after the history at that point, whatever the answers
are, and that every value it stops with satisfies `Q` together with the history then reached.
The rules are equivalences, so a conformance goal about a program text unfolds by `simp` into
one goal per branch.

Where the history does not matter, `Prog.Issues P p` says which operations `p` issues at all;
`Issues.conforms` turns such a footprint into conformance.
-/

namespace Interaction

/-- A program over the operations `Op`, whose operation `o` is answered by a `Ret o`. -/
inductive Prog (Op : Type) (Ret : Op → Type) (α : Type) where
  | done (a : α)
  | call (o : Op) (k : Ret o → Prog Op Ret α)

namespace Prog

variable {Op : Type} {Ret : Op → Type} {α β : Type}

/-- Run `p`, then the program `f` chooses from its value. -/
def bind : Prog Op Ret α → (α → Prog Op Ret β) → Prog Op Ret β
  | done a, f => f a
  | call o k, f => call o fun r => (k r).bind f

instance : Monad (Prog Op Ret) where
  pure := done
  bind := bind

/-- Issue one operation and return its answer. -/
def perform (o : Op) : Prog Op Ret (Ret o) :=
  call o done

@[simp] lemma call_bind (o : Op) (k : Ret o → Prog Op Ret α) (f : α → Prog Op Ret β) :
    call o k >>= f = call o fun r => k r >>= f := rfl

@[simp] lemma perform_bind (o : Op) (f : Ret o → Prog Op Ret β) :
    perform o >>= f = call o f := rfl

/-! ## Histories -/

/-- An operation together with the answer it got. -/
abbrev Answered (Op : Type) (Ret : Op → Type) : Type := (o : Op) × Ret o

/-- The answered operations of one program, newest first. -/
abbrev History (Op : Type) (Ret : Op → Type) : Type := List (Answered Op Ret)

/-- Started after the history `h`, the program issues only operations `A` allows and stops only
in histories and values that satisfy `Q`. -/
def Conforms (A : History Op Ret → Op → Prop) (Q : History Op Ret → α → Prop) :
    History Op Ret → Prog Op Ret α → Prop
  | h, done a => Q h a
  | h, call o k => A h o ∧ ∀ r, Conforms A Q (⟨o, r⟩ :: h) (k r)

section Rules

variable {A : History Op Ret → Op → Prop} {Q : History Op Ret → α → Prop}
  {R : History Op Ret → β → Prop} {h : History Op Ret}

@[simp] lemma conforms_call {o : Op} {k : Ret o → Prog Op Ret α} :
    Conforms A Q h (call o k) ↔ A h o ∧ ∀ r, Conforms A Q (⟨o, r⟩ :: h) (k r) := Iff.rfl

/-- The rule of sequencing: the second program starts from the history the first one leaves. -/
lemma conforms_bind {p : Prog Op Ret α} {f : α → Prog Op Ret β} :
    Conforms A R h (p >>= f) ↔ Conforms A (fun h' a => Conforms A R h' (f a)) h p := by
  induction p generalizing h with
  | done a => rfl
  | call o k ih =>
      rw [call_bind, conforms_call, conforms_call]
      exact and_congr_right fun _ => forall_congr' fun r => ih r

/-- The rule of consequence. -/
lemma Conforms.mono {B : History Op Ret → Op → Prop} {Q' : History Op Ret → α → Prop}
    {p : Prog Op Ret α} (hp : Conforms A Q h p)
    (hA : ∀ h o, A h o → B h o) (hQ : ∀ h a, Q h a → Q' h a) : Conforms B Q' h p := by
  induction p generalizing h with
  | done a => exact hQ _ _ hp
  | call o k ih => exact ⟨hA _ _ hp.1, fun r => ih r (hp.2 r)⟩

lemma Conforms.weaken {Q' : History Op Ret → α → Prop} {p : Prog Op Ret α} (hp : Conforms A Q h p)
    (hQ : ∀ h a, Q h a → Q' h a) : Conforms A Q' h p :=
  hp.mono (fun _ _ ha => ha) hQ

/-- A specification of a called program, used in its caller. -/
lemma Conforms.seq {p : Prog Op Ret α} {f : α → Prog Op Ret β}
    (hp : Conforms A Q h p) (hf : ∀ h' a, Q h' a → Conforms A R h' (f a)) :
    Conforms A R h (p >>= f) :=
  conforms_bind.2 (hp.weaken hf)

end Rules

/-! ## Footprints -/

/-- Whatever the answers are, the program issues only operations in `P`. -/
def Issues (P : Op → Prop) : Prog Op Ret α → Prop
  | done _ => True
  | call o k => P o ∧ ∀ r, Issues P (k r)

section Footprint

variable {P : Op → Prop} {p : Prog Op Ret α}

@[simp] lemma issues_done {a : α} : Issues P (done a : Prog Op Ret α) := trivial

@[simp] lemma issues_call {o : Op} {k : Ret o → Prog Op Ret α} :
    Issues P (call o k) ↔ P o ∧ ∀ r, Issues P (k r) := Iff.rfl

lemma Issues.bind {f : α → Prog Op Ret β} (hp : Issues P p) (hf : ∀ a, Issues P (f a)) :
    Issues P (p >>= f) := by
  induction p with
  | done a => exact hf a
  | call o k ih => exact ⟨hp.1, fun r => ih r (hp.2 r)⟩

lemma Issues.mono {P' : Op → Prop} (hp : Issues P p) (hP : ∀ o, P o → P' o) : Issues P' p := by
  induction p with
  | done a => trivial
  | call o k ih => exact ⟨hP o hp.1, fun r => ih r (hp.2 r)⟩

/-- What every operation of the footprint keeps and needs, the program keeps, and it conforms. -/
lemma Issues.conforms {A : History Op Ret → Op → Prop} {I : History Op Ret → Prop}
    (hp : Issues P p) (allowed : ∀ h o, I h → P o → A h o)
    (keeps : ∀ h o r, I h → P o → I (⟨o, r⟩ :: h)) {h : History Op Ret} (hI : I h) :
    Conforms A (fun h' _ => I h') h p := by
  induction p generalizing h with
  | done a => exact hI
  | call o k ih => exact ⟨allowed h o hI hp.1, fun r => ih r (hp.2 r) (keeps h o r hI hp.1)⟩

end Footprint

end Prog

end Interaction
