import Mathlib

/-!
# Sums of bytes

A checksum that adds up bytes tells two lists apart if their sums differ by less than its modulus.
When one list is nowhere below the other, every place where they differ adds at least 1 and at most
255 to the difference of the sums.
-/

namespace Bytes

/-- The sum of a list of bytes. -/
def byteSum (bs : List UInt8) : ℕ := (bs.map UInt8.toNat).sum

@[simp] lemma byteSum_nil : byteSum [] = 0 := rfl

@[simp] lemma byteSum_cons (b : UInt8) (bs : List UInt8) :
    byteSum (b :: bs) = b.toNat + byteSum bs := rfl

@[simp] lemma byteSum_append (xs ys : List UInt8) :
    byteSum (xs ++ ys) = byteSum xs + byteSum ys := by
  rw [byteSum, List.map_append, List.sum_append]
  rfl

lemma byteSum_le (bs : List UInt8) : byteSum bs ≤ 255 * bs.length := by
  induction bs with
  | nil => exact le_rfl
  | cons b bs ih =>
      have hb : b.toNat < 256 := b.toNat_lt
      rw [byteSum_cons, List.length_cons]
      omega

lemma toNat_foldl_add (bs : List UInt8) (acc : UInt32) :
    (bs.foldl (fun sum b => sum + b.toUInt32) acc).toNat = (acc.toNat + byteSum bs) % 2 ^ 32 := by
  induction bs generalizing acc with
  | nil =>
      have hacc : acc.toNat < 2 ^ 32 := acc.toNat_lt
      rw [List.foldl_nil, byteSum_nil, Nat.add_zero, Nat.mod_eq_of_lt hacc]
  | cons b bs ih =>
      rw [List.foldl_cons, ih, UInt32.toNat_add, UInt8.toNat_toUInt32, byteSum_cons,
        Nat.mod_add_mod, Nat.add_assoc]

/-! ## Two initial segments -/

/-- The bytes that the longer of two initial segments has beyond the shorter one. -/
def between (n n' : ℕ) (bs : List UInt8) : List UInt8 := (bs.take (max n n')).drop (min n n')

/-- The segments have the same sum modulo `2 ^ 16` if what lies between them has the sum 0. -/
lemma byteSum_take_mod_eq_iff (n n' : ℕ) (bs : List UInt8) :
    byteSum (bs.take n) % 2 ^ 16 = byteSum (bs.take n') % 2 ^ 16 ↔
      byteSum (between n n' bs) % 2 ^ 16 = 0 := by
  have cut {k l : ℕ} (h : k ≤ l) :
      byteSum (bs.take l) = byteSum (bs.take k) + byteSum ((bs.take l).drop k) := by
    calc byteSum (bs.take l)
      _ = byteSum ((bs.take l).take k ++ (bs.take l).drop k) := by rw [List.take_append_drop]
      _ = byteSum (bs.take k) + byteSum ((bs.take l).drop k) := by
          rw [byteSum_append, List.take_take, min_eq_left h]
  rw [between]
  rcases le_total n n' with h | h
  · rw [max_eq_right h, min_eq_left h, cut h]
    omega
  · rw [max_eq_left h, min_eq_right h, cut h]
    omega

/-! ## Two lists of one length -/

/-- The number of places at which two lists differ. -/
def differences (xs ys : List UInt8) : ℕ := (xs.zip ys).countP fun p => p.1 ≠ p.2

/-- The lists have one length, and all differing bytes are larger in the second one, or all are
smaller. -/
def OneDirectional (xs ys : List UInt8) : Prop :=
  List.Forall₂ (· ≤ ·) xs ys ∨ List.Forall₂ (· ≥ ·) xs ys

lemma OneDirectional.length_eq {xs ys : List UInt8} (h : OneDirectional xs ys) :
    xs.length = ys.length := h.elim List.Forall₂.length_eq List.Forall₂.length_eq

lemma differences_cons (x y : UInt8) (xs ys : List UInt8) :
    differences (x :: xs) (y :: ys) = differences xs ys + if x = y then 0 else 1 := by
  rw [differences, List.zip_cons_cons, List.countP_cons, differences]
  by_cases h : x = y <;> simp [h]

lemma differences_comm (xs ys : List UInt8) : differences xs ys = differences ys xs := by
  induction xs generalizing ys with
  | nil => cases ys <;> rfl
  | cons x xs ih =>
      cases ys with
      | nil => rfl
      | cons y ys => simp only [differences_cons, ih ys, eq_comm]

/-- Every difference adds at least 1 and at most 255. -/
lemma byteSum_of_le {xs ys : List UInt8} (h : List.Forall₂ (· ≤ ·) xs ys) :
    byteSum xs + differences xs ys ≤ byteSum ys ∧
      byteSum ys ≤ byteSum xs + 255 * differences xs ys := by
  induction h with
  | nil => exact ⟨le_rfl, le_rfl⟩
  | @cons x y xs ys hxy _ ih =>
      have hy : y.toNat < 256 := y.toNat_lt
      have hle : x.toNat ≤ y.toNat := hxy
      rw [differences_cons, byteSum_cons, byteSum_cons]
      split_ifs with heq
      · rw [heq]
        omega
      · have hne : x.toNat ≠ y.toNat := fun h => heq (UInt8.toNat_inj.1 h)
        omega

/-- **Sums modulo `2 ^ 16` tell them apart**, as long as `255` times the number of differences stays
below the modulus. -/
theorem byteSum_mod_ne {xs ys : List UInt8} (directed : OneDirectional xs ys)
    (some_ : 1 ≤ differences xs ys) (few : differences xs ys ≤ 257) :
    byteSum xs % 2 ^ 16 ≠ byteSum ys % 2 ^ 16 := by
  have upward {xs ys : List UInt8} (h : List.Forall₂ (· ≤ ·) xs ys) (some_ : 1 ≤ differences xs ys)
      (few : differences xs ys ≤ 257) : byteSum xs % 2 ^ 16 ≠ byteSum ys % 2 ^ 16 := by
    obtain ⟨hlo, hhi⟩ := byteSum_of_le h
    omega
  obtain h | h := directed
  · exact upward h some_ few
  · rw [differences_comm] at some_ few
    exact (upward h.flip some_ few).symm

/-! ## One byte replaced -/

lemma differences_self (xs : List UInt8) : differences xs xs = 0 := by
  induction xs with
  | nil => rfl
  | cons x xs ih => rw [differences_cons, ih, if_pos rfl]

lemma differences_set {xs : List UInt8} {i : ℕ} (hi : i < xs.length) {b : UInt8} (hb : b ≠ xs[i]) :
    differences xs (xs.set i b) = 1 := by
  induction xs generalizing i with
  | nil => exact absurd hi (Nat.not_lt_zero i)
  | cons x xs ih =>
      cases i with
      | zero =>
          rw [List.set_cons_zero, differences_cons, differences_self,
            if_neg (show x ≠ b from Ne.symm hb)]
      | succ i =>
          rw [List.set_cons_succ, differences_cons, if_pos rfl,
            ih (Nat.lt_of_succ_lt_succ hi) hb]

lemma oneDirectional_set (xs : List UInt8) (i : ℕ) (b : UInt8) :
    OneDirectional xs (xs.set i b) := by
  induction xs generalizing i with
  | nil => exact Or.inl .nil
  | cons x xs ih =>
      cases i with
      | zero =>
          obtain h | h := UInt8.le_total x b
          · exact Or.inl (.cons h (List.forall₂_same.2 fun _ _ => UInt8.le_refl _))
          · exact Or.inr (.cons h (List.forall₂_same.2 fun _ _ => UInt8.le_refl _))
      | succ i =>
          obtain h | h := ih i
          · exact Or.inl (.cons (UInt8.le_refl x) h)
          · exact Or.inr (.cons (UInt8.le_refl x) h)

end Bytes
