import WorldBossRaid.Framework.Prog

/-!
# Interleaved runs of looping programs

Any number of threads run interaction programs over one shared state.  A `Machine` says how an
operation of a thread is answered (`exec`, given what the environment supplies at that moment)
and which program a thread starts when its present one stops with a value (`resume`): a thread
whose source is an endless loop stops once per iteration and is resumed with the loop body.

One operation is one atomic step, so a run is determined by the order in which the threads'
operations are taken.  `Machine.Run` records it as a log of events, newest first; every event
keeps the shared state before and after it, so that statements about whole runs are statements
about logs.

`Run.conforms` carries a discipline that every single program respects to every thread of every
run, and `Run.invariant` is the induction rule: an invariant of logs and shared states has to be
checked only for operations the discipline allows at that point.
-/

namespace Interaction

open Prog

variable {ι Op : Type} {Ret : Op → Type} {ν σ ε : Type}

/-- The meaning of the operations and of the loops around the programs. -/
structure Machine (ι Op : Type) (Ret : Op → Type) (ν σ ε : Type) where
  /-- The answer and the new shared state, when thread `i` issues `o` and the environment
  supplies `e`. -/
  exec : (i : ι) → (e : ε) → (o : Op) → σ → Ret o × σ
  /-- What a thread does after its program stopped with a value; `none` ends it. -/
  resume : ν → Option (Prog Op Ret ν)

/-- One executed operation. -/
structure Event (ι Op : Type) (Ret : Op → Type) (σ ε : Type) where
  thread : ι
  env : ε
  op : Op
  ret : Ret op
  before : σ
  after : σ

/-- The event as its own thread sees it. -/
def Event.answered (e : Event ι Op Ret σ ε) : Answered Op Ret := ⟨e.op, e.ret⟩

/-- The shared state and the rest of each thread's program. -/
structure Config (ι Op : Type) (Ret : Op → Type) (ν σ : Type) where
  shared : σ
  threads : ι → Prog Op Ret ν

section Own

variable [DecidableEq ι]

/-- The history of one thread in a log. -/
def own (i : ι) (log : List (Event ι Op Ret σ ε)) : History Op Ret :=
  (log.filter fun e => e.thread = i).map Event.answered

@[simp] lemma own_nil (i : ι) : own i ([] : List (Event ι Op Ret σ ε)) = [] := rfl

lemma own_cons (i : ι) (e : Event ι Op Ret σ ε) (log : List (Event ι Op Ret σ ε)) :
    own i (e :: log) = if e.thread = i then e.answered :: own i log else own i log := by
  by_cases h : e.thread = i <;> simp [own, h]

lemma own_append (i : ι) (log log' : List (Event ι Op Ret σ ε)) :
    own i (log ++ log') = own i log ++ own i log' := by
  rw [own, List.filter_append, List.map_append]
  rfl

/-- A place in a thread's history is a place in the log. -/
lemma exists_split_of_own {i : ι} {log : List (Event ι Op Ret σ ε)} {a : Answered Op Ret}
    {h₁ h₂ : History Op Ret} (h : own i log = h₂ ++ a :: h₁) :
    ∃ log₂ e log₁, log = log₂ ++ e :: log₁ ∧ e.thread = i ∧ e.answered = a ∧
      own i log₂ = h₂ ∧ own i log₁ = h₁ := by
  induction log generalizing h₂ with
  | nil => simp at h
  | cons e log ih =>
      rw [own_cons] at h
      by_cases he : e.thread = i
      · rw [if_pos he] at h
        cases h₂ with
        | nil =>
            obtain ⟨hanswered, htail⟩ := List.cons.inj h
            exact ⟨[], e, log, rfl, he, hanswered, rfl, htail⟩
        | cons b h₂ =>
            obtain ⟨hb, htail⟩ := List.cons.inj h
            obtain ⟨log₂, e', log₁, rfl, he', ha, h₂', h₁'⟩ := ih htail
            refine ⟨e :: log₂, e', log₁, rfl, he', ha, ?_, h₁'⟩
            rw [own_cons, if_pos he, h₂', hb]
      · rw [if_neg he] at h
        obtain ⟨log₂, e', log₁, rfl, he', ha, h₂', h₁'⟩ := ih h
        refine ⟨e :: log₂, e', log₁, rfl, he', ha, ?_, h₁'⟩
        rw [own_cons, if_neg he, h₂']

/-- The events of a thread in the log are those of its history. -/
lemma answered_mem_own {i : ι} {log : List (Event ι Op Ret σ ε)} {e : Event ι Op Ret σ ε}
    (he : e ∈ log) (hi : e.thread = i) : e.answered ∈ own i log :=
  List.mem_map_of_mem (List.mem_filter.2 ⟨he, decide_eq_true hi⟩)

end Own

namespace Machine

variable [DecidableEq ι] (M : Machine ι Op Ret ν σ ε)

/-- The event of thread `i` issuing `o` in the shared state `s`. -/
def event (i : ι) (e : ε) (o : Op) (s : σ) : Event ι Op Ret σ ε :=
  ⟨i, e, o, (M.exec i e o s).1, s, (M.exec i e o s).2⟩

lemma own_event_self (i : ι) (e : ε) (o : Op) (s : σ) (log : List (Event ι Op Ret σ ε)) :
    own i (M.event i e o s :: log) = ⟨o, (M.exec i e o s).1⟩ :: own i log := by
  rw [own_cons, if_pos (show (M.event i e o s).thread = i from rfl)]
  rfl

lemma own_event_of_ne {i j : ι} (h : j ≠ i) (e : ε) (o : Op) (s : σ)
    (log : List (Event ι Op Ret σ ε)) : own i (M.event j e o s :: log) = own i log := by
  rw [own_cons, if_neg (show ¬(M.event j e o s).thread = i from h)]

/-- `M.Run init log c`: some interleaving of the threads of `init` executes the events of `log`
and reaches `c`. -/
inductive Run (init : Config ι Op Ret ν σ) :
    List (Event ι Op Ret σ ε) → Config ι Op Ret ν σ → Prop
  | start : Run init [] init
  | act {log : List (Event ι Op Ret σ ε)} {c : Config ι Op Ret ν σ} (run : Run init log c)
      (i : ι) (e : ε) {o : Op} {k : Ret o → Prog Op Ret ν} (next : c.threads i = .call o k) :
      Run init (M.event i e o c.shared :: log)
        ⟨(M.exec i e o c.shared).2,
          Function.update c.threads i (k (M.exec i e o c.shared).1)⟩
  | resume {log : List (Event ι Op Ret σ ε)} {c : Config ι Op Ret ν σ} (run : Run init log c)
      (i : ι) {a : ν} {p : Prog Op Ret ν} (stopped : c.threads i = .done a)
      (again : M.resume a = some p) :
      Run init log ⟨c.shared, Function.update c.threads i p⟩

lemma Run.earlier {M : Machine ι Op Ret ν σ ε} {init c : Config ι Op Ret ν σ}
    {log log' : List (Event ι Op Ret σ ε)} (run : M.Run init (log' ++ log) c) :
    ∃ c', M.Run init log c' := by
  generalize hall : log' ++ log = all at run
  induction run generalizing log' with
  | start =>
      obtain ⟨-, rfl⟩ := List.append_eq_nil_iff.1 hall
      exact ⟨_, .start⟩
  | act run i e next ih =>
      cases log' with
      | nil =>
          obtain rfl := hall
          exact ⟨_, .act run i e next⟩
      | cons e' log' => exact ih (List.cons.inj hall).2
  | resume run i stopped again ih => exact ih hall

/-- The event at any place of a run was executed after a run of everything before it. -/
lemma Run.at_event {M : Machine ι Op Ret ν σ ε} {init c : Config ι Op Ret ν σ}
    {log log' : List (Event ι Op Ret σ ε)} {e : Event ι Op Ret σ ε}
    (run : M.Run init (log' ++ e :: log) c) :
    ∃ c' k, M.Run init log c' ∧ c'.threads e.thread = .call e.op k ∧
      e = M.event e.thread e.env e.op c'.shared := by
  obtain ⟨c₁, run₁⟩ := run.earlier
  generalize hall : e :: log = all at run₁
  induction run₁ with
  | start => cases hall
  | @act _ c run i env o k next ih =>
      obtain ⟨rfl, rfl⟩ := List.cons.inj hall
      exact ⟨c, k, run, next, rfl⟩
  | resume run i stopped again ih => exact ih hall

/-- The state before an event is the shared state of the run up to there. -/
lemma Run.before_event {M : Machine ι Op Ret ν σ ε} {init c : Config ι Op Ret ν σ}
    {log log' : List (Event ι Op Ret σ ε)} {e : Event ι Op Ret σ ε}
    (run : M.Run init (log' ++ e :: log) c) :
    ∃ c', M.Run init log c' ∧ e.before = c'.shared := by
  obtain ⟨c', k, run', -, hevent⟩ := run.at_event
  refine ⟨c', run', ?_⟩
  rw [hevent]
  rfl

lemma Run.after_event {M : Machine ι Op Ret ν σ ε} {init c : Config ι Op Ret ν σ}
    {log log' : List (Event ι Op Ret σ ε)} {e : Event ι Op Ret σ ε}
    (run : M.Run init (log' ++ e :: log) c) :
    ∃ c', M.Run init (e :: log) c' ∧ e.after = c'.shared := by
  obtain ⟨c', k, run', next, hevent⟩ := run.at_event
  have run'' := run'.act e.thread e.env next
  rw [← hevent] at run''
  exact ⟨_, run'', congrArg Event.after hevent⟩

lemma Run.event_eq {M : Machine ι Op Ret ν σ ε} {init c : Config ι Op Ret ν σ}
    {log : List (Event ι Op Ret σ ε)} (run : M.Run init log c) {e : Event ι Op Ret σ ε}
    (he : e ∈ log) : e = M.event e.thread e.env e.op e.before := by
  obtain ⟨log', log₀, rfl⟩ := List.append_of_mem he
  obtain ⟨c', -, -, -, hevent⟩ := run.at_event
  have hbefore : e.before = c'.shared := by rw [hevent]; rfl
  rw [hbefore]
  exact hevent

/-- The shared state of a run is the one its last event left. -/
lemma Run.shared_eq {M : Machine ι Op Ret ν σ ε} {init c : Config ι Op Ret ν σ}
    {log : List (Event ι Op Ret σ ε)} (run : M.Run init log c) :
    c.shared = (log.head?.map Event.after).getD init.shared := by
  induction run with
  | start => rfl
  | act => rfl
  | resume _ _ _ _ ih => exact ih

/-! ## Schedules -/

/-- Let thread `i` take its next step, if it has one. -/
def turn (i : ι) (e : ε) (log : List (Event ι Op Ret σ ε)) (c : Config ι Op Ret ν σ) :
    List (Event ι Op Ret σ ε) × Config ι Op Ret ν σ :=
  match c.threads i with
  | .call o k =>
      (M.event i e o c.shared :: log,
        ⟨(M.exec i e o c.shared).2,
          Function.update c.threads i (k (M.exec i e o c.shared).1)⟩)
  | .done a =>
    match M.resume a with
    | some p => (log, ⟨c.shared, Function.update c.threads i p⟩)
    | none => (log, c)

/-- Let the threads take their steps in the order of a schedule. -/
def play (init : Config ι Op Ret ν σ) (schedule : List (ι × ε)) :
    List (Event ι Op Ret σ ε) × Config ι Op Ret ν σ :=
  schedule.foldl (fun x turn => M.turn turn.1 turn.2 x.1 x.2) ([], init)

variable {M}

lemma turn_call {i : ι} {e : ε} {log : List (Event ι Op Ret σ ε)} {c : Config ι Op Ret ν σ} {o : Op}
    {k : Ret o → Prog Op Ret ν} (next : c.threads i = .call o k) :
    M.turn i e log c = (M.event i e o c.shared :: log,
      ⟨(M.exec i e o c.shared).2,
        Function.update c.threads i (k (M.exec i e o c.shared).1)⟩) := by
  rw [Machine.turn, next]

lemma turn_resume {i : ι} {e : ε} {log : List (Event ι Op Ret σ ε)} {c : Config ι Op Ret ν σ}
    {a : ν} {p : Prog Op Ret ν} (stopped : c.threads i = .done a) (again : M.resume a = some p) :
    M.turn i e log c = (log, ⟨c.shared, Function.update c.threads i p⟩) := by
  rw [Machine.turn, stopped]
  simp only [again]

lemma turn_ended {i : ι} {e : ε} {log : List (Event ι Op Ret σ ε)} {c : Config ι Op Ret ν σ} {a : ν}
    (stopped : c.threads i = .done a) (ended : M.resume a = none) :
    M.turn i e log c = (log, c) := by
  rw [Machine.turn, stopped]
  simp only [ended]

lemma Run.turn {init c : Config ι Op Ret ν σ} {log : List (Event ι Op Ret σ ε)}
    (run : M.Run init log c) (i : ι) (e : ε) :
    M.Run init (M.turn i e log c).1 (M.turn i e log c).2 := by
  unfold Machine.turn
  split
  · next o k next => exact .act run i e next
  · next a stopped =>
      split
      · next p again => exact .resume run i stopped again
      · exact run

/-- Every schedule is a run. -/
theorem run_play (init : Config ι Op Ret ν σ) (schedule : List (ι × ε)) :
    M.Run init (M.play init schedule).1 (M.play init schedule).2 := by
  have hfold : ∀ (schedule : List (ι × ε)) (x : List (Event ι Op Ret σ ε) × Config ι Op Ret ν σ),
      M.Run init x.1 x.2 →
      M.Run init (schedule.foldl (fun x turn => M.turn turn.1 turn.2 x.1 x.2) x).1
        (schedule.foldl (fun x turn => M.turn turn.1 turn.2 x.1 x.2) x).2 := by
    intro schedule
    induction schedule with
    | nil => exact fun x run => run
    | cons t schedule ih => exact fun x run => ih _ (run.turn t.1 t.2)
  exact hfold schedule ([], init) .start

/-- Every thread respects its discipline in every run if its first program does and every
program it is resumed with does, after any history and value its predecessor can leave. -/
structure Disciplined (M : Machine ι Op Ret ν σ ε) (A : ι → History Op Ret → Op → Prop)
    (Q : ι → History Op Ret → ν → Prop) (init : Config ι Op Ret ν σ) : Prop where
  first : ∀ i, Conforms (A i) (Q i) [] (init.threads i)
  again : ∀ i h a p, Q i h a → M.resume a = some p → Conforms (A i) (Q i) h p

variable {A : ι → History Op Ret → Op → Prop} {Q : ι → History Op Ret → ν → Prop}
  {init c : Config ι Op Ret ν σ} {log : List (Event ι Op Ret σ ε)}

/-- Every thread of every run still conforms, after its own history. -/
theorem Run.conforms (D : M.Disciplined A Q init) (run : M.Run init log c) (i : ι) :
    Conforms (A i) (Q i) (own i log) (c.threads i) := by
  induction run with
  | start => exact D.first i
  | @act log c run j e o k next ih =>
      change Conforms (A i) (Q i) (own i (M.event j e o c.shared :: log))
        (Function.update c.threads j _ i)
      by_cases hij : j = i
      · subst hij
        rw [next] at ih
        rw [Function.update_self, own_event_self]
        exact ih.2 _
      · rw [Function.update_of_ne (Ne.symm hij), own_event_of_ne M hij]
        exact ih
  | @resume log c run j a p stopped again ih =>
      change Conforms (A i) (Q i) (own i log) (Function.update c.threads j p i)
      by_cases hij : j = i
      · subst hij
        rw [stopped] at ih
        rw [Function.update_self]
        exact D.again _ _ a p ih again
      · rw [Function.update_of_ne (Ne.symm hij)]
        exact ih

/-- Every operation of a run was allowed after its thread's history. -/
theorem Run.allowed (D : M.Disciplined A Q init) {log' : List (Event ι Op Ret σ ε)}
    {e : Event ι Op Ret σ ε} (run : M.Run init (log' ++ e :: log) c) :
    A e.thread (own e.thread log) e.op := by
  obtain ⟨c', k, run', next, -⟩ := run.at_event
  have hconf := run'.conforms D e.thread
  rw [next] at hconf
  exact hconf.1

/-- **The induction rule for runs.**  The step is to be shown only for operations that the
discipline allows after the issuing thread's own history. -/
theorem Run.invariant (D : M.Disciplined A Q init)
    (I : List (Event ι Op Ret σ ε) → σ → Prop) (start : I [] init.shared)
    (step : ∀ log s i e o, I log s → A i (own i log) o →
      I (M.event i e o s :: log) (M.exec i e o s).2)
    (run : M.Run init log c) : I log c.shared := by
  induction run with
  | start => exact start
  | @act log c run i e o k next ih =>
      have hconf := run.conforms D i
      rw [next] at hconf
      exact step log c.shared i e o ih hconf.1
  | resume _ _ _ _ ih => exact ih

end Machine

end Interaction
