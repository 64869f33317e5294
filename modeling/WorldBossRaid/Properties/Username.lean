import WorldBossRaid.Model.ClientHandler

/-!
# Usernames

`input_validate_username` and the copy that `handle_join` makes look at the string in the join
packet's 32 bytes and at nothing else.  A string of those bytes that ends, or goes wrong, within
what was received does not depend on the bytes behind it.
-/

namespace WorldBossRaid

open Bytes Buffer

/-- A username is accepted if it is not empty, ends within its array, and has only the characters
a name may have. -/
lemma inputValidateUsername_iff {u : Buffer maxPlayerName} :
    inputValidateUsername u = true ↔
      0 < u.cstr.length ∧ u.cstr.length < maxPlayerName ∧ ∀ b ∈ u.cstr, isNameChar b = true := by
  have hlen : u.strnlen maxPlayerName = u.cstr.length := by
    rw [strnlen, takeWhile_take_eq_cstr u.length_cstr_le]
  have htake : u.bytes.take u.cstr.length = u.cstr :=
    (List.prefix_iff_eq_take.1 (List.takeWhile_prefix _)).symm
  simp only [inputValidateUsername, hlen, htake]
  split_ifs with hbad
  · apply iff_of_false (by simp)
    omega
  · rw [List.all_eq_true]
    refine ⟨fun h => ⟨by omega, by omega, h⟩, fun h => h.2.2⟩

lemma length_of_validUsername {u : Buffer maxPlayerName} (h : inputValidateUsername u = true) :
    0 < u.cstr.length ∧ u.cstr.length ≤ 31 := by
  obtain ⟨hpos, hlt, -⟩ := inputValidateUsername_iff.1 h
  exact ⟨hpos, Nat.le_of_lt_succ hlt⟩

lemma username_holds {pkt : GamePacket} (h : inputValidateUsername pkt.joinUsername = true) :
    pkt.username.Holds pkt.joinUsername.cstr :=
  strncpy_setByte_holds (length_of_validUsername h).2

/-- Arrays that agree up to a character no name may have: if one is accepted, the other one holds
the same string. -/
lemma cstr_eq_of_stops {u u' : Buffer maxPlayerName} {n : ℕ}
    (hsame : u.bytes.take n = u'.bytes.take n) {b : UInt8} (hb : b ∈ u.bytes.take n)
    (hbad : isNameChar b = false) (h : inputValidateUsername u = true) : u'.cstr = u.cstr := by
  obtain ⟨-, -, hchars⟩ := inputValidateUsername_iff.1 h
  have hstop : ¬∀ x ∈ u.bytes.take n, decide (x ≠ 0) = true := by
    intro hall
    have hmem : b ∈ u.cstr := by
      rw [cstr, ← List.take_append_drop n u.bytes, List.takeWhile_append_of_pos hall]
      exact List.mem_append_left _ hb
    exact Bool.false_ne_true (hbad.symm.trans (hchars b hmem))
  have hcut (v : Buffer maxPlayerName) (hv : ¬∀ x ∈ v.bytes.take n, decide (x ≠ 0) = true) :
      v.cstr = (v.bytes.take n).takeWhile (· ≠ 0) := by
    have hshort : ¬((v.bytes.take n).takeWhile (· ≠ 0)).length = (v.bytes.take n).length := by
      intro hl
      exact hv (List.takeWhile_eq_self_iff.1 ((List.takeWhile_prefix _).eq_of_length hl))
    rw [cstr, ← List.take_append_drop n v.bytes, List.takeWhile_append, if_neg hshort,
      List.take_append_drop]
  rw [hcut u hstop, hcut u' (hsame ▸ hstop), hsame]

end WorldBossRaid
