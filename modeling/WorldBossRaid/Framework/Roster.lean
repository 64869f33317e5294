import WorldBossRaid.Framework.Interleave

/-!
# A shared counter and the threads it counts

Threads enter and leave, each at most once and in this order, and a counter in the shared state
goes up and down with them.  `Roster` states these assumptions about a machine and its discipline;
`Roster.booked` is what they give for every run: the counter is the number of threads that have
entered and not left.

Events of any kind can be counted thread by thread: `sum_countOf`.
-/

namespace Interaction

open Prog

variable {ι Op : Type} {Ret : Op → Type} {ν σ ε : Type}

/-- How often a history contains an operation of a kind. -/
def times (P : Op → Bool) (h : History Op Ret) : ℕ := h.countP fun a => P a.1

@[simp] lemma times_nil (P : Op → Bool) : times P ([] : History Op Ret) = 0 := rfl

lemma times_cons_of_pos {P : Op → Bool} {o : Op} (ho : P o = true) (r : Ret o)
    (h : History Op Ret) : times P (⟨o, r⟩ :: h) = times P h + 1 :=
  List.countP_cons_of_pos ho

lemma times_cons_of_neg {P : Op → Bool} {o : Op} (ho : P o = false) (r : Ret o)
    (h : History Op Ret) : times P (⟨o, r⟩ :: h) = times P h :=
  List.countP_cons_of_neg (by simp [ho])

/-- How often a log contains one. -/
def occurrences (P : Op → Bool) (log : List (Event ι Op Ret σ ε)) : ℕ := log.countP fun e => P e.op

lemma occurrences_cons_of_pos {P : Op → Bool} {e : Event ι Op Ret σ ε} (he : P e.op = true)
    (log : List (Event ι Op Ret σ ε)) : occurrences P (e :: log) = occurrences P log + 1 :=
  List.countP_cons_of_pos he

lemma occurrences_cons_of_neg {P : Op → Bool} {e : Event ι Op Ret σ ε} (he : P e.op = false)
    (log : List (Event ι Op Ret σ ε)) : occurrences P (e :: log) = occurrences P log :=
  List.countP_cons_of_neg (by simp [he])

lemma occurrences_append (P : Op → Bool) (log log' : List (Event ι Op Ret σ ε)) :
    occurrences P (log ++ log') = occurrences P log + occurrences P log' :=
  List.countP_append

/-- How many events of a kind a log has of one thread. -/
def countOf [DecidableEq ι] (i : ι) (P : Event ι Op Ret σ ε → Bool)
    (log : List (Event ι Op Ret σ ε)) : ℕ :=
  log.countP fun e => decide (e.thread = i) && P e

lemma countOf_cons_self [DecidableEq ι] (P : Event ι Op Ret σ ε → Bool) (e : Event ι Op Ret σ ε)
    (log : List (Event ι Op Ret σ ε)) :
    countOf e.thread P (e :: log) = countOf e.thread P log + (P e).toNat := by
  rw [countOf, countOf, List.countP_cons, decide_eq_true rfl, Bool.true_and]
  cases P e <;> rfl

lemma countOf_cons_of_ne [DecidableEq ι] {i : ι} {e : Event ι Op Ret σ ε} (h : e.thread ≠ i)
    (P : Event ι Op Ret σ ε → Bool) (log : List (Event ι Op Ret σ ε)) :
    countOf i P (e :: log) = countOf i P log :=
  List.countP_cons_of_neg (by simp [h])

/-- Every event is one of some thread. -/
lemma sum_countOf [DecidableEq ι] {S : Finset ι} {log : List (Event ι Op Ret σ ε)}
    (covers : ∀ e ∈ log, e.thread ∈ S) (P : Event ι Op Ret σ ε → Bool) :
    ∑ i ∈ S, countOf i P log = log.countP P := by
  induction log with
  | nil => exact Finset.sum_const_zero
  | cons e log ih =>
      obtain ⟨he, hlog⟩ := List.forall_mem_cons.1 covers
      have split (i : ι) : countOf i P (e :: log) =
          countOf i P log + if e.thread = i then (P e).toNat else 0 := by
        split_ifs with h
        · exact h ▸ countOf_cons_self P e log
        · exact countOf_cons_of_ne h P log
      simp only [split]
      rw [Finset.sum_add_distrib, ih hlog, Finset.sum_ite_eq, if_pos he, List.countP_cons]
      cases P e <;> rfl

/-- The threads that have entered and not left. -/
def present [DecidableEq ι] (enters leaves : Op → Bool) (log : List (Event ι Op Ret σ ε)) :
    Finset ι :=
  (log.map Event.thread).toFinset.filter fun i =>
    times enters (own i log) ≠ 0 ∧ times leaves (own i log) = 0

lemma mem_present [DecidableEq ι] {enters leaves : Op → Bool} {log : List (Event ι Op Ret σ ε)}
    {i : ι} : i ∈ present enters leaves log ↔
      times enters (own i log) ≠ 0 ∧ times leaves (own i log) = 0 := by
  rw [present, Finset.mem_filter, List.mem_toFinset, and_iff_right_iff_imp]
  rintro ⟨entered, -⟩
  by_contra absent
  apply entered
  have hnone : log.filter (fun e => e.thread = i) = [] := by
    refine List.filter_eq_nil_iff.2 fun e he hthread => absent ?_
    exact of_decide_eq_true hthread ▸ List.mem_map_of_mem he
  rw [own, hnone]
  rfl

/-- Operations that enter and leave, and a counter that follows them where the discipline `A` is
respected.  A leave is only known to count down from a positive number. -/
structure Roster (M : Machine ι Op Ret ν σ ε) (A : ι → History Op Ret → Op → Prop) where
  enters : Op → Bool
  leaves : Op → Bool
  count : σ → ℤ
  enters_first : ∀ i h o, A i h o → enters o = true → times enters h = 0 ∧ times leaves h = 0
  leaves_after : ∀ i h o, A i h o → leaves o = true → times enters h = 1 ∧ times leaves h = 0
  count_enters : ∀ i e o s, enters o = true → count (M.exec i e o s).2 = count s + 1
  count_leaves : ∀ i e o s, leaves o = true → 0 < count s →
    count (M.exec i e o s).2 = count s - 1
  count_keeps : ∀ i e o s, enters o = false → leaves o = false →
    count (M.exec i e o s).2 = count s

namespace Roster

variable [DecidableEq ι] {M : Machine ι Op Ret ν σ ε} {A : ι → History Op Ret → Op → Prop}
  (R : Roster M A) {Q : ι → History Op Ret → ν → Prop} {init c : Config ι Op Ret ν σ}
  {log : List (Event ι Op Ret σ ε)}

/-- What a run has entered in the books. -/
structure Booked (log : List (Event ι Op Ret σ ε)) (s : σ) : Prop where
  enters_le : ∀ i, times R.enters (own i log) ≤ 1
  leaves_le : ∀ i, times R.leaves (own i log) ≤ times R.enters (own i log)
  count_present : R.count s = (present R.enters R.leaves log).card
  count_log : R.count s = occurrences R.enters log - occurrences R.leaves log

variable {R}

section Event

variable {s : σ} {i : ι} {e : ε} {o : Op}

/-- Only the thread of an event has a new history. -/
lemma Booked.times_event (booked : R.Booked log s)
    (once : times R.enters (own i (M.event i e o s :: log)) ≤ 1)
    (after : times R.leaves (own i (M.event i e o s :: log)) ≤
      times R.enters (own i (M.event i e o s :: log))) (j : ι) :
    times R.enters (own j (M.event i e o s :: log)) ≤ 1 ∧
      times R.leaves (own j (M.event i e o s :: log)) ≤
        times R.enters (own j (M.event i e o s :: log)) := by
  by_cases hij : i = j
  · exact hij ▸ ⟨once, after⟩
  · rw [Machine.own_event_of_ne M hij]
    exact ⟨booked.enters_le j, booked.leaves_le j⟩

lemma present_event_of_entered (entered : times R.enters (own i (M.event i e o s :: log)) ≠ 0)
    (unleft : times R.leaves (own i (M.event i e o s :: log)) = 0) :
    present R.enters R.leaves (M.event i e o s :: log) =
      insert i (present R.enters R.leaves log) := by
  ext j
  rw [Finset.mem_insert, mem_present, mem_present]
  by_cases hij : i = j
  · subst hij
    exact iff_of_true ⟨entered, unleft⟩ (Or.inl rfl)
  · rw [Machine.own_event_of_ne M hij, or_iff_right (Ne.symm hij)]

lemma present_event_of_left (left_ : times R.leaves (own i (M.event i e o s :: log)) ≠ 0) :
    present R.enters R.leaves (M.event i e o s :: log) =
      (present R.enters R.leaves log).erase i := by
  ext j
  rw [Finset.mem_erase, mem_present, mem_present]
  by_cases hij : i = j
  · subst hij
    exact iff_of_false (fun h => left_ h.2) fun h => h.1 rfl
  · rw [Machine.own_event_of_ne M hij, and_iff_right (Ne.symm hij)]

lemma Booked.enters (booked : R.Booked log s) (allowed : A i (own i log) o)
    (ho : R.enters o = true) : R.Booked (M.event i e o s :: log) (M.exec i e o s).2 := by
  obtain ⟨fresh, unleft⟩ := R.enters_first i _ o allowed ho
  have hleaves : R.leaves o = false := by
    by_contra hleaves
    have := (R.leaves_after i _ o allowed (by simpa using hleaves)).1
    omega
  have henters_self : times R.enters (own i (M.event i e o s :: log)) = 1 := by
    rw [Machine.own_event_self, times_cons_of_pos ho, fresh]
  have hleaves_self : times R.leaves (own i (M.event i e o s :: log)) = 0 := by
    rw [Machine.own_event_self, times_cons_of_neg hleaves, unleft]
  have times_le := booked.times_event henters_self.le (by omega)
  have hpresent := present_event_of_entered (by omega) hleaves_self
  have hnew : i ∉ present R.enters R.leaves log := fun hi => (mem_present.1 hi).1 fresh
  have hcount := R.count_enters i e o s ho
  refine ⟨fun j => (times_le j).1, fun j => (times_le j).2, ?_, ?_⟩
  · rw [hcount, hpresent, Finset.card_insert_of_notMem hnew, booked.count_present]
    push_cast
    rfl
  · rw [hcount, booked.count_log,
      occurrences_cons_of_pos (show R.enters (M.event i e o s).op = true from ho),
      occurrences_cons_of_neg (show R.leaves (M.event i e o s).op = false from hleaves)]
    push_cast
    ring

/-- The thread that leaves is present, so the counter is positive. -/
lemma Booked.pos (booked : R.Booked log s) (allowed : A i (own i log) o)
    (ho : R.leaves o = true) : 0 < R.count s := by
  obtain ⟨entered, unleft⟩ := R.leaves_after i _ o allowed ho
  rw [booked.count_present]
  exact_mod_cast Finset.card_pos.2 ⟨i, mem_present.2 ⟨by omega, unleft⟩⟩

lemma Booked.leaves (booked : R.Booked log s) (allowed : A i (own i log) o)
    (ho : R.leaves o = true) : R.Booked (M.event i e o s :: log) (M.exec i e o s).2 := by
  obtain ⟨entered, unleft⟩ := R.leaves_after i _ o allowed ho
  have henters : R.enters o = false := by
    by_contra henters
    have := (R.enters_first i _ o allowed (by simpa using henters)).1
    omega
  have henters_self : times R.enters (own i (M.event i e o s :: log)) = 1 := by
    rw [Machine.own_event_self, times_cons_of_neg henters, entered]
  have hleaves_self : times R.leaves (own i (M.event i e o s :: log)) = 1 := by
    rw [Machine.own_event_self, times_cons_of_pos ho, unleft]
  have times_le := booked.times_event henters_self.le (by omega)
  have hpresent := present_event_of_left (hleaves_self ▸ one_ne_zero)
  have hmem : i ∈ present R.enters R.leaves log := mem_present.2 ⟨by omega, unleft⟩
  have hpos := Finset.card_pos.2 ⟨i, hmem⟩
  have hcount := R.count_leaves i e o s ho (booked.pos allowed ho)
  refine ⟨fun j => (times_le j).1, fun j => (times_le j).2, ?_, ?_⟩
  · rw [hcount, hpresent, Finset.card_erase_of_mem hmem, booked.count_present]
    omega
  · rw [hcount, booked.count_log,
      occurrences_cons_of_neg (show R.enters (M.event i e o s).op = false from henters),
      occurrences_cons_of_pos (show R.leaves (M.event i e o s).op = true from ho)]
    push_cast
    ring

lemma Booked.keeps (booked : R.Booked log s) (henters : R.enters o = false)
    (hleaves : R.leaves o = false) : R.Booked (M.event i e o s :: log) (M.exec i e o s).2 := by
  have hsame (j : ι) :
      times R.enters (own j (M.event i e o s :: log)) = times R.enters (own j log) ∧
        times R.leaves (own j (M.event i e o s :: log)) = times R.leaves (own j log) := by
    by_cases hij : i = j
    · subst hij
      rw [Machine.own_event_self, times_cons_of_neg henters, times_cons_of_neg hleaves]
      exact ⟨rfl, rfl⟩
    · rw [Machine.own_event_of_ne M hij]
      exact ⟨rfl, rfl⟩
  have hcount := R.count_keeps i e o s henters hleaves
  refine ⟨fun j => ?_, fun j => ?_, ?_, ?_⟩
  · rw [(hsame j).1]
    exact booked.enters_le j
  · rw [(hsame j).1, (hsame j).2]
    exact booked.leaves_le j
  · have hpresent : present R.enters R.leaves (M.event i e o s :: log) =
        present R.enters R.leaves log := by
      ext j
      rw [mem_present, mem_present, (hsame j).1, (hsame j).2]
    rw [hcount, hpresent, booked.count_present]
  · rw [hcount, booked.count_log,
      occurrences_cons_of_neg (show R.enters (M.event i e o s).op = false from henters),
      occurrences_cons_of_neg (show R.leaves (M.event i e o s).op = false from hleaves)]

end Event

variable (R)

/-- **The books are right in every run.** -/
theorem booked (D : M.Disciplined A Q init) (start : R.count init.shared = 0)
    (run : M.Run init log c) : R.Booked log c.shared := by
  refine run.invariant D R.Booked ?_ fun log s i e o booked allowed => ?_
  · exact ⟨fun _ => zero_le_one, fun _ => le_rfl, start, start⟩
  · cases henters : R.enters o with
    | true => exact booked.enters allowed henters
    | false =>
        cases hleaves : R.leaves o with
        | true => exact booked.leaves allowed hleaves
        | false => exact booked.keeps henters hleaves

/-- Whenever a thread leaves, the counter it takes one off is positive. -/
theorem count_pos (D : M.Disciplined A Q init) (start : R.count init.shared = 0)
    (run : M.Run init log c) {e : Event ι Op Ret σ ε} (he : e ∈ log)
    (hleaves : R.leaves e.op = true) : 0 < R.count e.before := by
  obtain ⟨log', log₀, rfl⟩ := List.append_of_mem he
  obtain ⟨c', run', hbefore⟩ := run.before_event
  rw [hbefore]
  exact (R.booked D start run').pos (run.allowed D) hleaves

end Roster

end Interaction
