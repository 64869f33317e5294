import Mathlib

/-!
# Memory as bytes: little-endian numbers, fixed buffers, C strings

A number of `w` bytes is laid out little-endian by `leBytes` and read back by `leValue`; the two
are inverse on the numbers below `256 ^ w` and on the lists of length `w`.

`Buffer n` is a C array of `n` bytes.  The string it holds (`cstr`) ends before the first NUL, and
the bounded library functions `strnlen` and `strncpy` are given as the C standard states them:
`strncpy` copies at most `k` bytes, stops after the source's NUL, pads with NULs up to `k`, and
leaves every byte of the destination from `k` on as it was.  `Holds b s` says that the buffer
holds the string `s` and nothing but NULs behind it; it is the form in which a copied name can be
followed from buffer to buffer.
-/

namespace Bytes

/-! ## Little-endian numbers -/

/-- The `w` low bytes of `x`, lowest first. -/
def leBytes : ℕ → ℕ → List UInt8
  | 0, _ => []
  | w + 1, x => UInt8.ofNat x :: leBytes w (x / 256)

/-- The number a list of bytes stands for, lowest byte first. -/
def leValue : List UInt8 → ℕ
  | [] => 0
  | b :: bs => b.toNat + 256 * leValue bs

@[simp] lemma length_leBytes (w x : ℕ) : (leBytes w x).length = w := by
  induction w generalizing x with
  | zero => rfl
  | succ w ih => rw [leBytes, List.length_cons, ih]

lemma leValue_lt (bs : List UInt8) : leValue bs < 256 ^ bs.length := by
  induction bs with
  | nil => exact Nat.one_pos
  | cons b bs ih =>
      have hb : b.toNat < 256 := b.toNat_lt
      rw [leValue, List.length_cons, Nat.pow_succ]
      omega

lemma leValue_leBytes {w x : ℕ} (hx : x < 256 ^ w) : leValue (leBytes w x) = x := by
  induction w generalizing x with
  | zero =>
      rw [Nat.pow_zero] at hx
      rw [leBytes, leValue]
      omega
  | succ w ih =>
      have hdiv : x / 256 < 256 ^ w :=
        Nat.div_lt_of_lt_mul (by rwa [Nat.pow_succ, Nat.mul_comm] at hx)
      rw [leBytes, leValue, ih hdiv, UInt8.toNat_ofNat']
      omega

lemma leBytes_leValue (bs : List UInt8) : leBytes bs.length (leValue bs) = bs := by
  induction bs with
  | nil => rfl
  | cons b bs ih =>
      have hb : b.toNat < 256 := b.toNat_lt
      have hlow : UInt8.ofNat (b.toNat + 256 * leValue bs) = b := by
        apply UInt8.toNat_inj.1
        rw [UInt8.toNat_ofNat']
        omega
      have hhigh : (b.toNat + 256 * leValue bs) / 256 = leValue bs := by omega
      rw [List.length_cons, leValue, leBytes, hlow, hhigh, ih]

lemma leBytes_leValue_of_length {w : ℕ} {bs : List UInt8} (hbs : bs.length = w) :
    leBytes w (leValue bs) = bs := by
  rw [← hbs, leBytes_leValue]

/-! ## Two's complement -/

/-- The four bytes of a C `int`. -/
def int32Bytes (x : ℤ) : List UInt8 := leBytes 4 (BitVec.ofInt 32 x).toNat

/-- The C `int` that four bytes stand for. -/
def int32Value (bs : List UInt8) : ℤ := (BitVec.ofNat 32 (leValue bs)).toInt

@[simp] lemma length_int32Bytes (x : ℤ) : (int32Bytes x).length = 4 := length_leBytes 4 _

lemma int32Value_int32Bytes {x : ℤ} (hlo : -2 ^ 31 ≤ x) (hhi : x < 2 ^ 31) :
    int32Value (int32Bytes x) = x := by
  have hlt : (BitVec.ofInt 32 x).toNat < 256 ^ 4 := (BitVec.ofInt 32 x).isLt
  rw [int32Value, int32Bytes, leValue_leBytes hlt, BitVec.ofNat_toNat, BitVec.setWidth_eq,
    BitVec.toInt_ofInt, Int.bmod_eq_of_le] <;> omega

/-! ## Fixed buffers -/

/-- A C array of `n` bytes. -/
structure Buffer (n : ℕ) where
  bytes : List UInt8
  size_eq : bytes.length = n
  deriving DecidableEq

namespace Buffer

variable {n m : ℕ}

@[ext] lemma ext {a b : Buffer n} (h : a.bytes = b.bytes) : a = b := by
  cases a
  cases b
  cases h
  rfl

/-- The array with every byte `c`. -/
def fill (n : ℕ) (c : UInt8) : Buffer n := ⟨List.replicate n c, List.length_replicate⟩

/-- The array after `memset(.., 0, ..)`. -/
def zero (n : ℕ) : Buffer n := fill n 0

/-- Overwrite the front of the array; what would not fit is dropped. -/
def write (b : Buffer n) (bs : List UInt8) : Buffer n :=
  ⟨bs.take n ++ b.bytes.drop bs.length, by
    simp only [List.length_append, List.length_take, List.length_drop, b.size_eq]
    omega⟩

/-- Store one byte. -/
def setByte (b : Buffer n) (i : ℕ) (c : UInt8) : Buffer n :=
  ⟨b.bytes.set i c, by rw [List.length_set, b.size_eq]⟩

/-- The `len` bytes at offset `off`, as a structure member lies in its structure. -/
def member (b : Buffer n) (off len : ℕ) (fits : off + len ≤ n) : Buffer len :=
  ⟨(b.bytes.drop off).take len, by
    simp only [List.length_take, List.length_drop, b.size_eq]
    omega⟩

lemma bytes_write {b : Buffer n} {bs : List UInt8} (fits : bs.length ≤ n) :
    (b.write bs).bytes = bs ++ b.bytes.drop bs.length := by
  simp only [write, List.take_of_length_le fits]

lemma take_write {b : Buffer n} {bs : List UInt8} (fits : bs.length ≤ n) :
    (b.write bs).bytes.take bs.length = bs := by
  rw [bytes_write fits, List.take_left' rfl]

/-! ## C strings -/

/-- The string the array holds: the bytes before its first NUL. -/
def cstr (b : Buffer n) : List UInt8 := b.bytes.takeWhile (· ≠ 0)

/-- `strnlen(b, k)`. -/
def strnlen (b : Buffer n) (k : ℕ) : ℕ := ((b.bytes.take k).takeWhile (· ≠ 0)).length

/-- `strncpy(dst, src, k)`, for a bound that fits the destination. -/
def strncpy (dst : Buffer n) (src : Buffer m) (k : ℕ) (fits : k ≤ n) : Buffer n :=
  let copied := (src.bytes.take k).takeWhile (· ≠ 0)
  ⟨copied ++ List.replicate (k - copied.length) 0 ++ dst.bytes.drop k, by
    have hcopied : copied.length ≤ k :=
      (List.takeWhile_prefix _).length_le.trans (List.length_take_le _ _)
    simp only [List.length_append, List.length_replicate, List.length_drop, dst.size_eq]
    omega⟩

/-- `strcmp(a, b) == 0` on terminated strings. -/
def sameString (a : Buffer n) (b : Buffer m) : Bool := a.cstr == b.cstr

lemma length_cstr_le (b : Buffer n) : b.cstr.length ≤ n :=
  (List.takeWhile_prefix _).length_le.trans b.size_eq.le

lemma zero_notMem_cstr (b : Buffer n) : (0 : UInt8) ∉ b.cstr := by
  intro h
  have := List.mem_takeWhile_imp h
  simp at this

/-- Cutting the array after its string does not change the string. -/
lemma takeWhile_take_eq_cstr {b : Buffer n} {k : ℕ} (hk : b.cstr.length ≤ k) :
    (b.bytes.take k).takeWhile (· ≠ 0) = b.cstr := by
  rw [← List.take_takeWhile]
  exact List.take_of_length_le hk

lemma drop_strncpy {dst : Buffer n} {src : Buffer m} {k : ℕ} {fits : k ≤ n} :
    (strncpy dst src k fits).bytes.drop k = dst.bytes.drop k := by
  have hcopied : ((src.bytes.take k).takeWhile (· ≠ 0)).length ≤ k :=
    (List.takeWhile_prefix _).length_le.trans (List.length_take_le _ _)
  apply List.drop_left'
  simp only [List.length_append, List.length_replicate]
  omega

/-- The array holds the string `s` and only NULs behind it. -/
def Holds (b : Buffer n) (s : List UInt8) : Prop :=
  b.bytes = s ++ List.replicate (n - s.length) 0

lemma Holds.cstr_eq {b : Buffer n} {s : List UInt8} (h : b.Holds s) (hs : (0 : UInt8) ∉ s) :
    b.cstr = s := by
  have hall : ∀ c ∈ s, decide (c ≠ 0) = true := by
    intro c hc
    exact decide_eq_true fun h0 => hs (h0 ▸ hc)
  rw [cstr, h, List.takeWhile_append_of_pos hall]
  cases n - s.length <;> simp [List.replicate_succ]

/-- A bounded copy into an array that is clear behind the bound. -/
lemma strncpy_holds_takeWhile {dst : Buffer n} {src : Buffer m} {k : ℕ} {fits : k ≤ n}
    (clear : dst.bytes.drop k = List.replicate (n - k) 0) :
    (strncpy dst src k fits).Holds ((src.bytes.take k).takeWhile (· ≠ 0)) := by
  have hcopied : ((src.bytes.take k).takeWhile (· ≠ 0)).length ≤ k :=
    (List.takeWhile_prefix _).length_le.trans (List.length_take_le _ _)
  simp only [Holds, strncpy, clear, List.append_assoc, List.replicate_append_replicate]
  congr 2
  omega

/-- A bounded copy of a string that fits the bound. -/
lemma strncpy_holds {dst : Buffer n} {src : Buffer m} {k : ℕ} {fits : k ≤ n}
    (hsrc : src.cstr.length ≤ k) (clear : dst.bytes.drop k = List.replicate (n - k) 0) :
    (strncpy dst src k fits).Holds src.cstr := by
  rw [← takeWhile_take_eq_cstr hsrc]
  exact strncpy_holds_takeWhile clear

/-- The string of an array, copied with the array's length as the bound, with its padding. -/
lemma strncpy_eq_of_holds {dst src : Buffer n} (padded : src.Holds src.cstr) :
    strncpy dst src n le_rfl = src := by
  have clear : dst.bytes.drop n = List.replicate (n - n) 0 := by
    rw [Nat.sub_self, List.drop_of_length_le dst.size_eq.le, List.replicate_zero]
  have holds : (strncpy dst src n le_rfl).Holds src.cstr := strncpy_holds src.length_cstr_le clear
  exact ext (holds.trans padded.symm)

/-- Copying one byte less than the array is long and storing a NUL in the last place overwrites
all of it. -/
lemma bytes_strncpy_setByte (dst : Buffer (n + 1)) (src : Buffer m) :
    ((strncpy dst src n n.le_succ).setByte n 0).bytes =
      (src.bytes.take n).takeWhile (· ≠ 0) ++
        List.replicate (n - ((src.bytes.take n).takeWhile (· ≠ 0)).length) 0 ++ [0] := by
  have hdrop : (dst.bytes.drop n).length = 1 := by
    rw [List.length_drop, dst.size_eq]
    omega
  obtain ⟨c, hc⟩ := List.length_eq_one_iff.1 hdrop
  have hcopied : ((src.bytes.take n).takeWhile (· ≠ 0)).length ≤ n :=
    (List.takeWhile_prefix _).length_le.trans (List.length_take_le _ _)
  have hfront : ((src.bytes.take n).takeWhile (· ≠ 0) ++
      List.replicate (n - ((src.bytes.take n).takeWhile (· ≠ 0)).length) 0).length = n := by
    simp only [List.length_append, List.length_replicate]
    omega
  simp only [setByte, strncpy, hc]
  rw [List.set_append_right _ _ hfront.le, hfront, Nat.sub_self, List.set_cons_zero]

/-- So it does not matter what the array held before. -/
lemma strncpy_setByte_congr (dst dst' : Buffer (n + 1)) (src : Buffer m) :
    (strncpy dst src n n.le_succ).setByte n 0 = (strncpy dst' src n n.le_succ).setByte n 0 :=
  ext ((bytes_strncpy_setByte dst src).trans (bytes_strncpy_setByte dst' src).symm)

/-- A string that fits is all that such a copy leaves in the array. -/
lemma strncpy_setByte_holds {dst : Buffer (n + 1)} {src : Buffer m} (hsrc : src.cstr.length ≤ n) :
    ((strncpy dst src n n.le_succ).setByte n 0).Holds src.cstr := by
  rw [Holds, bytes_strncpy_setByte, takeWhile_take_eq_cstr hsrc, List.append_assoc,
    ← List.replicate_succ', Nat.succ_sub hsrc]

end Buffer

end Bytes
