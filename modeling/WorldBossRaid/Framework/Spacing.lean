import Mathlib

/-!
# Sorted instants, counted in every interval

A sorted list of instants has at most `M` of them in every half-open interval of length `D`
exactly if each of them comes at least `D` after the one `M` places before it (`Spaced`).
`spaced_flatten_iff` is for instants that come in blocks of at most `M`, any two blocks that are
not neighbours lying `D` apart: then only neighbouring blocks have to be compared.
-/

namespace Spacing

variable {α : Type*} [LinearOrder α] [Add α] {M : ℕ} {D : α}

/-- Every instant comes at least `D` after the one `M` places before it. -/
def Spaced (M : ℕ) (D : α) (l : List α) : Prop :=
  ∀ i a b, l[i]? = some a → l[i + M]? = some b → a + D ≤ b

/-- The instants of the interval of length `D` that starts at `x`. -/
def countFrom (D x : α) (l : List α) : ℕ := l.countP fun t => x ≤ t ∧ t < x + D

/-! ## Spacing and counting -/

omit [Add α] in
/-- In a sorted list, later places hold later instants. -/
lemma le_of_getElem? {l : List α} (sorted : l.Pairwise (· ≤ ·)) {i j : ℕ} {a b : α}
    (hij : i ≤ j) (ha : l[i]? = some a) (hb : l[j]? = some b) : a ≤ b := by
  obtain ⟨hi, rfl⟩ := List.getElem?_eq_some_iff.1 ha
  obtain ⟨hj, rfl⟩ := List.getElem?_eq_some_iff.1 hb
  rcases hij.eq_or_lt with rfl | hlt
  · exact le_rfl
  · exact List.pairwise_iff_getElem.1 sorted i j hi hj hlt

lemma Spaced.of_cons {a : α} {l : List α} (h : Spaced M D (a :: l)) : Spaced M D l :=
  fun i _ _ hx hy => h (i + 1) _ _ hx (by rwa [Nat.add_right_comm])

/-- In a sorted list, nothing counts from an instant on that no longer counts. -/
lemma countFrom_eq_zero {x : α} {l : List α} (late : ∀ t ∈ l, x + D ≤ t) :
    countFrom D x l = 0 := by
  refine List.countP_eq_zero.2 fun t ht => ?_
  simpa using fun _ => late t ht

/-- In a spaced list, an interval that holds the first instant ends before the one `M` places
on. -/
lemma countFrom_le_of_mem [AddRightMono α] {x a : α} {l : List α}
    (sorted : (a :: l).Pairwise (· ≤ ·)) (spaced : Spaced M D (a :: l)) (hx : x ≤ a) :
    countFrom D x (a :: l) ≤ M := by
  have later : countFrom D x ((a :: l).drop M) = 0 := by
    apply countFrom_eq_zero
    intro t ht
    obtain ⟨i, hi⟩ := List.mem_iff_getElem?.1 ht
    rw [List.getElem?_drop] at hi
    obtain ⟨b, hb⟩ : ∃ b, (a :: l)[M]? = some b := by
      have : M + i < (a :: l).length := (List.getElem?_eq_some_iff.1 hi).1
      exact ⟨_, List.getElem?_eq_getElem (by omega)⟩
    calc x + D ≤ a + D := by gcongr
      _ ≤ b := spaced 0 a b rfl (by rwa [Nat.zero_add])
      _ ≤ t := le_of_getElem? sorted (Nat.le_add_right M i) hb hi
  calc countFrom D x (a :: l)
      = countFrom D x ((a :: l).take M) + countFrom D x ((a :: l).drop M) := by
        rw [countFrom, countFrom, countFrom, ← List.countP_append, List.take_append_drop]
    _ ≤ M := by
        rw [later, Nat.add_zero]
        exact List.countP_le_length.trans (List.length_take_le M _)

/-- **Counting in every interval is spacing.** -/
theorem countFrom_le_iff [AddRightMono α] {l : List α} (sorted : l.Pairwise (· ≤ ·)) :
    (∀ x, countFrom D x l ≤ M) ↔ Spaced M D l := by
  constructor
  · intro few i a b ha hb
    by_contra! close
    -- the instants from the place `i` to the place `i + M` all lie in the interval from `a` on
    have long : ((l.drop i).take (M + 1)).length = M + 1 := by
      have : i + M < l.length := (List.getElem?_eq_some_iff.1 hb).1
      rw [List.length_take, List.length_drop]
      omega
    have counted : ∀ t ∈ (l.drop i).take (M + 1), a ≤ t ∧ t < a + D := by
      intro t ht
      obtain ⟨j, hj⟩ := List.mem_iff_getElem?.1 ht
      have hjM : j < M + 1 := long ▸ (List.getElem?_eq_some_iff.1 hj).1
      rw [List.getElem?_take_of_lt hjM, List.getElem?_drop] at hj
      refine ⟨le_of_getElem? sorted (Nat.le_add_right i j) ha hj, ?_⟩
      exact (le_of_getElem? sorted (by omega) hj hb).trans_lt close
    have many : countFrom D a ((l.drop i).take (M + 1)) = M + 1 := by
      rw [countFrom, List.countP_eq_length.2 fun t ht => by simpa using counted t ht, long]
    have hsub : ((l.drop i).take (M + 1)).Sublist l :=
      (List.take_sublist _ _).trans (List.drop_sublist _ _)
    have := (hsub.countP_le (p := fun t => a ≤ t ∧ t < a + D)).trans (few a)
    rw [countFrom] at many
    omega
  · intro spaced x
    induction l with
    | nil => exact Nat.zero_le M
    | cons a l ih =>
        by_cases hx : x ≤ a
        · exact countFrom_le_of_mem sorted spaced hx
        · have hcons : countFrom D x (a :: l) = countFrom D x l :=
            List.countP_cons_of_neg (by simp [hx])
          rw [hcons]
          exact ih sorted.of_cons spaced.of_cons

/-! ## Blocks -/

/-- The spacing of two neighbouring blocks of at most `M` instants. -/
def SpacedAcross (M : ℕ) (D : α) (A B : List α) : Prop :=
  ∀ i j a b, A[i]? = some a → B[j]? = some b → i + M = A.length + j → a + D ≤ b

/-- Blocks that are not neighbours lie `D` apart. -/
def FarApart (D : α) : List (List α) → Prop
  | A :: B :: blocks => (∀ a ∈ A, ∀ b ∈ blocks.flatten, a + D ≤ b) ∧ FarApart D (B :: blocks)
  | _ => True

lemma spaced_append_iff {A l : List α} (hA : A.length ≤ M) :
    Spaced M D (A ++ l) ↔ Spaced M D l ∧ SpacedAcross M D A l := by
  constructor
  · refine fun spaced => ⟨fun i a b ha hb => ?_, fun i j a b ha hb hij => ?_⟩
    · apply spaced (A.length + i) a b
      · rwa [List.getElem?_append_right (Nat.le_add_right _ _), Nat.add_sub_cancel_left]
      · rwa [Nat.add_assoc, List.getElem?_append_right (Nat.le_add_right _ _),
          Nat.add_sub_cancel_left]
    · have hi : i < A.length := (List.getElem?_eq_some_iff.1 ha).1
      apply spaced i a b
      · rwa [List.getElem?_append_left hi]
      · rwa [hij, List.getElem?_append_right (Nat.le_add_right _ _), Nat.add_sub_cancel_left]
  · rintro ⟨inside, across⟩ i a b ha hb
    rw [List.getElem?_append_right (by omega)] at hb
    by_cases hi : i < A.length
    · rw [List.getElem?_append_left hi] at ha
      exact across i _ a b ha hb (by omega)
    · rw [List.getElem?_append_right (by omega)] at ha
      apply inside (i - A.length) a b ha
      rwa [show i - A.length + M = i + M - A.length by omega]

lemma spacedAcross_append_iff {A B l : List α} (far : ∀ a ∈ A, ∀ b ∈ l, a + D ≤ b) :
    SpacedAcross M D A (B ++ l) ↔ SpacedAcross M D A B := by
  constructor
  · intro across i j a b ha hb hij
    have hj : j < B.length := (List.getElem?_eq_some_iff.1 hb).1
    exact across i j a b ha (by rwa [List.getElem?_append_left hj]) hij
  · intro across i j a b ha hb hij
    by_cases hj : j < B.length
    · rw [List.getElem?_append_left hj] at hb
      exact across i j a b ha hb hij
    · rw [List.getElem?_append_right (by omega)] at hb
      exact far a (List.mem_of_getElem? ha) b (List.mem_of_getElem? hb)

lemma FarApart.take {blocks : List (List α)} (far : FarApart D blocks) (M : ℕ) :
    FarApart D (blocks.map (List.take M)) := by
  induction blocks with
  | nil => exact trivial
  | cons A blocks ih =>
      cases blocks with
      | nil => exact trivial
      | cons B blocks =>
          refine ⟨fun a ha b hb => ?_, ih far.2⟩
          obtain ⟨cut, hcut, hbC⟩ := List.mem_flatten.1 hb
          obtain ⟨C, hC, rfl⟩ := List.mem_map.1 hcut
          exact far.1 a (List.mem_of_mem_take ha) b
            (List.mem_flatten.2 ⟨C, hC, List.mem_of_mem_take hbC⟩)

/-- **Of blocks, only neighbours have to be compared.** -/
theorem spaced_flatten_iff {blocks : List (List α)} (small : ∀ A ∈ blocks, A.length ≤ M)
    (far : FarApart D blocks) :
    Spaced M D blocks.flatten ↔ blocks.IsChain (SpacedAcross M D) := by
  induction blocks with
  | nil => exact iff_of_true (fun i a b ha => nomatch ha) .nil
  | cons A blocks ih =>
      rw [List.flatten_cons, spaced_append_iff (small A List.mem_cons_self)]
      cases blocks with
      | nil =>
          refine iff_of_true ⟨fun i a b ha => (nomatch ha), fun i j a b _ hb => (nomatch hb)⟩ ?_
          exact .singleton A
      | cons B blocks =>
          rw [ih (fun C hC => small C (List.mem_cons_of_mem A hC)) far.2, List.flatten_cons,
            spacedAcross_append_iff far.1, List.isChain_cons_cons, and_comm]

end Spacing
