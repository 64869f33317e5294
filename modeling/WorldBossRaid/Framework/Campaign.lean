import Mathlib

/-!
# Pools of hit points, emptied one after another by many parties

`n` pools stand in a row, and only one is open at a time.  Parties wound the open pool; the party
that empties it is bound to advance to the next one, and until it does nothing else happens.
`Situation` is the state of such a campaign, `Blow` what can happen to it, and `Plays bs S` says
that the blows `bs` (newest first) lead from the beginning to `S`.

A situation carries what makes it sensible: a standing pool is neither empty nor over-full.  What
is proved here about all plays is the bookkeeping a campaign promises: no wound is lost
(`Plays.hp_eq`), every pool is emptied once (`Plays.length_killers`), and a kill is followed by
the advance of its killer before anything else (`Plays.after_kill`).
-/

namespace Campaign

variable {κ : Type} {n : ℕ} {pools : Fin n → ℤ}

/-- What happens to a campaign. -/
inductive Blow (κ : Type) where
  /-- A hit that leaves something of the pool. -/
  | wound (damage : ℤ)
  /-- The hit that empties it. -/
  | kill (killer : κ) (damage : ℤ)
  /-- The killer opens the next pool. -/
  | advance (killer : κ)
  deriving DecidableEq, Repr

/-- Where a campaign stands. -/
inductive Situation (κ : Type) {n : ℕ} (pools : Fin n → ℤ) where
  | standing (k : Fin n) (hp : ℤ) (pos : 0 < hp) (le : hp ≤ pools k)
  | fallen (k : Fin n) (killer : κ)
  | ended

/-- The number of pools emptied so far. -/
def Situation.down : Situation κ pools → ℕ
  | standing k _ _ _ => k
  | fallen k _ => k + 1
  | ended => n

/-- What comes after pool `k`: the next one, full, or the end. -/
def opened (pos : ∀ k, 0 < pools k) (k : Fin n) : Situation κ pools :=
  if h : k.val + 1 < n then .standing ⟨k + 1, h⟩ (pools ⟨k + 1, h⟩) (pos _) le_rfl else .ended

/-- `Plays pos bs S`: the blows `bs`, newest first, lead to `S`. -/
inductive Plays (pos : ∀ k, 0 < pools k) : List (Blow κ) → Situation κ pools → Prop
  | start (h : 0 < n) : Plays pos [] (.standing ⟨0, h⟩ (pools ⟨0, h⟩) (pos _) le_rfl)
  | wound {bs : List (Blow κ)} {k : Fin n} {hp : ℤ} {hpos : 0 < hp} {hle : hp ≤ pools k}
      (plays : Plays pos bs (.standing k hp hpos hle)) (d : ℤ) (hd : 0 < d) (survives : d < hp) :
      Plays pos (.wound d :: bs)
        (.standing k (hp - d) (Int.sub_pos_of_lt survives) (by omega))
  | kill {bs : List (Blow κ)} {k : Fin n} {hp : ℤ} {hpos : 0 < hp} {hle : hp ≤ pools k}
      (plays : Plays pos bs (.standing k hp hpos hle)) (i : κ) (d : ℤ) (enough : hp ≤ d) :
      Plays pos (.kill i d :: bs) (.fallen k i)
  | advance {bs : List (Blow κ)} {k : Fin n} {i : κ} (plays : Plays pos bs (.fallen k i)) :
      Plays pos (.advance i :: bs) (opened pos k)

variable {pos : ∀ k, 0 < pools k} {bs pre post : List (Blow κ)} {S : Situation κ pools}

lemma down_opened (k : Fin n) : (opened pos k : Situation κ pools).down = k + 1 := by
  by_cases h : k.val + 1 < n
  · rw [opened, dif_pos h]
    rfl
  · have := k.isLt
    rw [opened, dif_neg h]
    exact (show n = k.val + 1 by omega)

/-! ## The wounds of the open pool -/

/-- The damage of all hits since the last advance. -/
def worn : List (Blow κ) → ℤ
  | [] => 0
  | .wound d :: bs => d + worn bs
  | .kill _ d :: bs => d + worn bs
  | .advance _ :: _ => 0

/-- What is left of the open pool is what it started with, less every hit since. -/
lemma Plays.hp_eq {k : Fin n} {hp : ℤ} {hpos : 0 < hp} {hle : hp ≤ pools k}
    (plays : Plays pos bs (.standing k hp hpos hle)) : hp = pools k - worn bs := by
  generalize hS : Situation.standing k hp hpos hle = S at plays
  induction plays generalizing hp with
  | start h =>
      cases hS
      exact (Int.sub_zero _).symm
  | wound plays d hd survives ih =>
      cases hS
      rw [worn, ih rfl]
      omega
  | kill => cases hS
  | @advance bs j i plays ih =>
      unfold opened at hS
      split at hS
      · cases hS
        exact (Int.sub_zero _).symm
      · cases hS

/-! ## Kills and advances -/

/-- The parties that emptied a pool, newest first. -/
def killers : List (Blow κ) → List κ
  | [] => []
  | .wound _ :: bs => killers bs
  | .kill i _ :: bs => i :: killers bs
  | .advance _ :: bs => killers bs

lemma killers_append : killers (post ++ pre) = killers post ++ killers pre := by
  induction post with
  | nil => rfl
  | cons b post ih => cases b <;> simp [killers, ih]

lemma Plays.length_killers (plays : Plays pos bs S) : (killers bs).length = S.down := by
  induction plays with
  | start h => rfl
  | wound plays d hd survives ih => exact ih
  | kill plays i d enough ih => exact congrArg (· + 1) ih
  | advance plays ih => rw [killers, ih, down_opened, Situation.down]

lemma Plays.earlier (plays : Plays pos (post ++ pre) S) :
    ∃ S₀ : Situation κ pools, Plays pos pre S₀ := by
  induction post generalizing S with
  | nil => exact ⟨S, plays⟩
  | cons b post ih =>
      cases plays with
      | wound plays => exact ih plays
      | kill plays => exact ih plays
      | advance plays => exact ih plays

/-- The blows determine the situation. -/
lemma Plays.unique {S' : Situation κ pools} (plays : Plays pos bs S) (plays' : Plays pos bs S') :
    S = S' := by
  induction plays generalizing S' with
  | start h =>
      cases plays'
      rfl
  | wound plays d hd survives ih =>
      cases plays' with
      | wound plays' =>
          cases ih plays'
          rfl
  | kill plays i d enough ih =>
      cases plays' with
      | kill plays' =>
          cases ih plays'
          rfl
  | advance plays ih =>
      cases plays' with
      | advance plays' =>
          cases ih plays'
          rfl

/-- While nobody kills, the same pool stays open. -/
lemma Plays.same_pool {k : Fin n} {hp : ℤ} {hpos : 0 < hp} {hle : hp ≤ pools k}
    (earlier : Plays pos pre (.standing k hp hpos hle : Situation κ pools))
    (plays : Plays pos (post ++ pre) S) (quiet : killers post = []) :
    ∃ hp' hpos' hle', S = .standing k hp' hpos' hle' := by
  induction post generalizing S with
  | nil => exact ⟨hp, hpos, hle, plays.unique earlier⟩
  | cons b post ih =>
      cases plays with
      | wound plays d hd survives =>
          obtain ⟨hp', hpos', hle', hS⟩ := ih plays quiet
          cases hS
          exact ⟨_, _, _, rfl⟩
      | kill plays i d enough => simp [killers] at quiet
      | advance plays =>
          obtain ⟨_, _, _, hS⟩ := ih plays quiet
          cases hS

/-- Once somebody kills, the pool that was open is not open any more. -/
lemma Plays.other_pool {k : Fin n} {hp : ℤ} {hpos : 0 < hp} {hle : hp ≤ pools k}
    (earlier : Plays pos pre (.standing k hp hpos hle : Situation κ pools))
    (plays : Plays pos (post ++ pre) S) (kills : killers post ≠ []) : k < S.down := by
  have hpost := List.length_pos_iff.2 kills
  have hpre := earlier.length_killers
  have hall := plays.length_killers
  rw [killers_append, List.length_append, hpre, Situation.down] at hall
  omega

/-- A kill is followed by the advance of its killer before anything else. -/
lemma Plays.after_kill {i : κ} {d : ℤ} (plays : Plays pos (post ++ .kill i d :: pre) S) :
    post = [] ∨ ∃ rest, post = rest ++ [.advance i] := by
  rcases List.eq_nil_or_concat post with rfl | ⟨rest, b, rfl⟩
  · exact Or.inl rfl
  · rw [List.concat_eq_append, List.append_assoc] at plays
    obtain ⟨S₀, plays₀⟩ := plays.earlier
    cases plays₀ with
    | wound plays₀ => cases plays₀
    | kill plays₀ => cases plays₀
    | advance plays₀ =>
        cases plays₀
        exact Or.inr ⟨rest, List.concat_eq_append⟩

end Campaign
