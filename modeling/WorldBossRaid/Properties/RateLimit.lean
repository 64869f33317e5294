import WorldBossRaid.Framework.Spacing
import WorldBossRaid.Model.Security

/-!
# The rate limiter is not a sliding window

`rate_limiter_check` counts in windows that lie one after the other: a window starts with the first
request that the last one does not reach any more, and its start is a clock reading in whole
seconds.  Each window lets its first `max_requests` requests pass, so the end of one and the start
of the next may together let twice as many pass in less than a window.  `slidingWindow_iff` says
for which arrivals that does not happen.
-/

namespace WorldBossRaid

open Spacing

/-! ## Statement -/

/-- The requests that `rate_limiter_check` lets pass, of requests at the given instants. -/
def admittedRequests (rl : RateLimiter) : List ℤ → List ℤ
  | [] => []
  | t :: arrivals =>
    let (allowed, rl) := rateLimiterCheck rl (timeNull t)
    if allowed then t :: admittedRequests rl arrivals else admittedRequests rl arrivals

/-- In every interval of `windowSeconds` seconds, at most `maxRequests` requests pass. -/
def SlidingWindow (maxRequests windowSeconds : UInt32) (opened : ℤ) (arrivals : List ℤ) : Prop :=
  ∀ x, countFrom (1000 * (windowSeconds.toNat : ℤ)) x
    (admittedRequests (rateLimiterInit maxRequests windowSeconds (timeNull opened)) arrivals) ≤
      maxRequests.toNat

/-- The arrivals, cut where the limiter starts a new window: those of the window that started at
the second `start`, and those of each later window. -/
def windows (windowSeconds start : ℤ) : List ℤ → List ℤ × List (List ℤ)
  | [] => ([], [])
  | t :: arrivals =>
    if timeNull t - start ≥ windowSeconds then
      let (present, later) := windows windowSeconds (timeNull t) arrivals
      ([], (t :: present) :: later)
    else
      let (present, later) := windows windowSeconds start arrivals
      (t :: present, later)

/-- Of two windows, only the first `maxRequests` requests of each counted, every request of the
second one comes `windowSeconds` seconds after the request `maxRequests` places before it. -/
def WindowsApart (maxRequests windowSeconds : ℕ) (first second : List ℤ) : Prop :=
  SpacedAcross maxRequests (1000 * (windowSeconds : ℤ)) (first.take maxRequests)
    (second.take maxRequests)

/-! ## The windows -/

variable {rl : RateLimiter} {start W t : ℤ} {arrivals : List ℤ}

lemma windows_elapsed (elapsed : timeNull t - start ≥ W) :
    windows W start (t :: arrivals) =
      ([], (t :: (windows W (timeNull t) arrivals).1) :: (windows W (timeNull t) arrivals).2) :=
  if_pos elapsed

lemma windows_goes_on (elapsed : ¬timeNull t - start ≥ W) :
    windows W start (t :: arrivals) =
      (t :: (windows W start arrivals).1, (windows W start arrivals).2) :=
  if_neg elapsed

lemma windows_flatten (W start : ℤ) (arrivals : List ℤ) :
    (windows W start arrivals).1 ++ (windows W start arrivals).2.flatten = arrivals := by
  induction arrivals generalizing start with
  | nil => rfl
  | cons t arrivals ih =>
      by_cases elapsed : timeNull t - start ≥ W
      · rw [windows_elapsed elapsed]
        exact congrArg (t :: ·) (ih (timeNull t))
      · rw [windows_goes_on elapsed]
        exact congrArg (t :: ·) (ih start)

lemma windows_later_ge (sorted : arrivals.Pairwise (· ≤ ·)) :
    ∀ t ∈ (windows W start arrivals).2.flatten, start + W ≤ timeNull t := by
  induction arrivals with
  | nil => exact List.forall_mem_nil _
  | cons t arrivals ih =>
      by_cases elapsed : timeNull t - start ≥ W
      · rw [windows_elapsed elapsed]
        intro u hu
        have hu' : u ∈ t :: arrivals := by
          rw [← windows_flatten W (timeNull t) arrivals]
          simpa using hu
        have htu : t ≤ u := by
          cases hu' with
          | head => exact le_rfl
          | tail _ hu' => exact (List.pairwise_cons.1 sorted).1 u hu'
        simp only [timeNull] at elapsed ⊢
        omega
      · rw [windows_goes_on elapsed]
        exact ih sorted.of_cons

/-- So the windows after the next one start two windows later. -/
lemma windows_later_two_ge (sorted : arrivals.Pairwise (· ≤ ·)) :
    ∀ t ∈ (windows W start arrivals).2.tail.flatten, start + 2 * W ≤ timeNull t := by
  induction arrivals with
  | nil => exact List.forall_mem_nil _
  | cons t arrivals ih =>
      by_cases elapsed : timeNull t - start ≥ W
      · rw [windows_elapsed elapsed]
        intro u hu
        have := windows_later_ge sorted.of_cons u hu
        omega
      · rw [windows_goes_on elapsed]
        exact ih sorted.of_cons

/-- A request of the present window is far from all windows but the next. -/
lemma farApart_cons {A : List ℤ} {later : List (List ℤ)} (ht : timeNull t < start + W)
    (far : ∀ u ∈ later.tail.flatten, start + 2 * W ≤ timeNull u)
    (rest : FarApart (1000 * W) (A :: later)) : FarApart (1000 * W) ((t :: A) :: later) := by
  cases later with
  | nil => exact trivial
  | cons B later =>
      refine ⟨List.forall_mem_cons.2 ⟨fun u hu => ?_, rest.1⟩, rest.2⟩
      have := far u hu
      simp only [timeNull] at ht this
      omega

lemma windows_farApart (hW : 1 ≤ W) (sorted : arrivals.Pairwise (· ≤ ·)) :
    FarApart (1000 * W) ((windows W start arrivals).1 :: (windows W start arrivals).2) := by
  induction arrivals generalizing start with
  | nil => exact trivial
  | cons t arrivals ih =>
      have sorted' := sorted.of_cons
      by_cases elapsed : timeNull t - start ≥ W
      · rw [windows_elapsed elapsed]
        refine ⟨List.forall_mem_nil _, ?_⟩
        exact farApart_cons (by omega) (windows_later_two_ge sorted') (ih sorted')
      · rw [windows_goes_on elapsed]
        exact farApart_cons (by omega) (windows_later_two_ge sorted') (ih sorted')

/-! ## The requests that pass -/

/-- Each window lets its first requests pass. -/
lemma admittedRequests_eq (positive : 1 ≤ rl.maxRequests)
    (room : rl.requestCount ≤ rl.maxRequests) (arrivals : List ℤ) :
    admittedRequests rl arrivals =
      (windows rl.windowSeconds.toNat rl.windowStart arrivals).1.take
          (rl.maxRequests.toNat - rl.requestCount.toNat) ++
        ((windows rl.windowSeconds.toNat rl.windowStart arrivals).2.map
          (List.take rl.maxRequests.toNat)).flatten := by
  induction arrivals generalizing rl with
  | nil => simp [admittedRequests, windows]
  | cons t arrivals ih =>
      by_cases elapsed : timeNull t - rl.windowStart ≥ rl.windowSeconds.toNat
      · rw [admittedRequests, rateLimiterCheck_elapsed elapsed, windows_elapsed elapsed]
        simp only [if_true]
        rw [@ih { rl with requestCount := 1, windowStart := timeNull t } positive positive]
        simp [List.take_cons (UInt32.le_iff_toNat_le.1 positive)]
      · rw [windows_goes_on elapsed, admittedRequests]
        by_cases full : rl.requestCount ≥ rl.maxRequests
        · rw [rateLimiterCheck_full elapsed full]
          simp only [Bool.false_eq_true, if_false]
          rw [ih positive room]
          have : rl.maxRequests.toNat ≤ rl.requestCount.toNat := UInt32.le_iff_toNat_le.1 full
          simp [Nat.sub_eq_zero_of_le this]
        · rw [rateLimiterCheck_room elapsed full]
          have hroom : rl.requestCount.toNat < rl.maxRequests.toNat :=
            UInt32.lt_iff_toNat_lt.1 (UInt32.not_le.1 full)
          have hcount : (rl.requestCount + 1).toNat = rl.requestCount.toNat + 1 := by
            have := rl.maxRequests.toNat_lt
            rw [UInt32.toNat_add, Nat.mod_eq_of_lt]
            · rfl
            · simp
              omega
          have room' : rl.requestCount + 1 ≤ rl.maxRequests := by
            rw [UInt32.le_iff_toNat_le, hcount]
            exact hroom
          simp only [if_true]
          rw [@ih { rl with requestCount := rl.requestCount + 1 } positive room']
          rw [List.take_cons (by omega), hcount, Nat.sub_sub, List.cons_append]

lemma admittedRequests_sublist (rl : RateLimiter) (arrivals : List ℤ) :
    (admittedRequests rl arrivals).Sublist arrivals := by
  induction arrivals generalizing rl with
  | nil => exact .slnil
  | cons t arrivals ih =>
      rw [admittedRequests]
      rcases rateLimiterCheck rl (timeNull t) with ⟨allowed, rl'⟩
      cases allowed with
      | false => exact (ih rl').cons t
      | true => exact (ih rl').cons_cons t

/-! ## The condition -/

/-- **The limiter is a sliding window exactly for those arrivals of which neighbouring windows are
apart.** -/
theorem slidingWindow_iff {maxRequests windowSeconds : UInt32} (positive : 1 ≤ maxRequests)
    (lasting : 1 ≤ windowSeconds) (opened : ℤ) {arrivals : List ℤ}
    (sorted : arrivals.Pairwise (· ≤ ·)) :
    SlidingWindow maxRequests windowSeconds opened arrivals ↔
      ((windows windowSeconds.toNat (timeNull opened) arrivals).1 ::
        (windows windowSeconds.toNat (timeNull opened) arrivals).2).IsChain
          (WindowsApart maxRequests.toNat windowSeconds.toNat) := by
  have hlasting : (1 : ℤ) ≤ windowSeconds.toNat := by
    exact_mod_cast UInt32.le_iff_toNat_le.1 lasting
  rw [SlidingWindow, countFrom_le_iff (sorted.sublist (admittedRequests_sublist _ arrivals))]
  have blocks : admittedRequests (rateLimiterInit maxRequests windowSeconds (timeNull opened))
      arrivals = (((windows windowSeconds.toNat (timeNull opened) arrivals).1 ::
        (windows windowSeconds.toNat (timeNull opened) arrivals).2).map
          (List.take maxRequests.toNat)).flatten :=
    admittedRequests_eq positive UInt32.zero_le arrivals
  have small : ∀ A ∈ ((windows windowSeconds.toNat (timeNull opened) arrivals).1 ::
      (windows windowSeconds.toNat (timeNull opened) arrivals).2).map
        (List.take maxRequests.toNat), A.length ≤ maxRequests.toNat := by
    intro A hA
    obtain ⟨B, -, rfl⟩ := List.mem_map.1 hA
    exact List.length_take_le _ B
  rw [blocks, spaced_flatten_iff small ((windows_farApart hlasting sorted).take _),
    List.isChain_map]
  rfl

/-- Five requests at the end of a second and five at the start of the next. -/
def burst : List ℤ := List.replicate 5 900 ++ List.replicate 5 1000

/-- All ten pass. -/
theorem burst_passes : ¬SlidingWindow 5 1 0 burst := by
  intro few
  exact absurd (few 900) (by decide)

/-- Five requests at the start of each of two seconds are as they should be. -/
theorem slidingWindow_iff_steady :
    SlidingWindow 5 1 0 (List.replicate 5 0 ++ List.replicate 5 1000) ↔
      ((windows 1 0 (List.replicate 5 0 ++ List.replicate 5 1000)).1 ::
        (windows 1 0 (List.replicate 5 0 ++ List.replicate 5 1000)).2).IsChain (WindowsApart 5 1) :=
  slidingWindow_iff (by decide) (by decide) 0 (by decide)

end WorldBossRaid
