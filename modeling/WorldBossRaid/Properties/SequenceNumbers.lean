import WorldBossRaid.Model.Transport

/-!
# Sequence numbers

`replay_protection_validate` remembers only the last number it accepted.  The first part follows a
whole sequence of presented numbers: `ReplaySafe` says that a number accepted before is not
accepted again before `2 ^ 31 - 1` others, and `Steady` which sequences have that property.
The second part is the other side: clients that draw from one shared counter are never refused.
-/

namespace WorldBossRaid

/-! ## Presented numbers -/

/-- The numbers presented to a `ReplayProtection`, each with the verdict on it. -/
def verdicts (rp : ReplayProtection) : List UInt32 → List (UInt32 × Bool)
  | [] => []
  | x :: xs =>
      (x, (replayProtectionValidate rp x).1) :: verdicts (replayProtectionValidate rp x).2 xs

/-- The `ReplayProtection` after these numbers. -/
def afterAll (rp : ReplayProtection) : List UInt32 → ReplayProtection
  | [] => rp
  | x :: xs => afterAll (replayProtectionValidate rp x).2 xs

/-- The distance that a number is safe for. -/
def replayWindow : ℕ := 2 ^ 31 - 1

/-- No replay in a connection that presents `seqs`: between two acceptances of one number there are
at least `2 ^ 31 - 1` others, and at every point a number that was accepted earlier, with fewer
accepted since, is refused if it is sent again. -/
def ReplaySafe (seqs : List UInt32) : Prop :=
  (∀ earlier x between later,
    verdicts replayProtectionInit seqs =
      earlier ++ (x, true) :: (between ++ (x, true) :: later) →
    replayWindow ≤ (between.filter Prod.snd).length) ∧
  ∀ sofar rest earlier x since, seqs = sofar ++ rest →
    verdicts replayProtectionInit sofar = earlier ++ (x, true) :: since →
    (since.filter Prod.snd).length < replayWindow →
    (replayProtectionValidate (afterAll replayProtectionInit sofar) x).1 = false

/-- The condition on the presented numbers, after `hist` have been accepted (newest first): a
number above the last one is less than `2 ^ 31 - 1` above all of the last `2 ^ 31 - 2`, and no
other number lies `2 ^ 31 - 1` or more below the last one, where it would count as a rollover. -/
def Steady : List UInt32 → List UInt32 → Prop
  | _, [] => True
  | [], x :: xs => Steady [x] xs
  | last :: hist, x :: xs =>
    if x > last then
      (∀ y ∈ (last :: hist).take (replayWindow - 1), x.toNat < y.toNat + replayWindow) ∧
        Steady (x :: last :: hist) xs
    else
      last.toNat < x.toNat + replayWindow ∧ Steady (last :: hist) xs

/-! ## The accepted numbers -/

/-- The `ReplayProtection` that has accepted `hist`, newest first. -/
def rpOf : List UInt32 → ReplayProtection
  | [] => replayProtectionInit
  | last :: _ => ⟨last, true⟩

/-- Present one more number. -/
def accept (hist : List UInt32) (x : UInt32) : List UInt32 :=
  if (replayProtectionValidate (rpOf hist) x).1 then x :: hist else hist

/-- Present more numbers. -/
def acceptAll (hist : List UInt32) : List UInt32 → List UInt32
  | [] => hist
  | x :: xs => acceptAll (accept hist x) xs

lemma validate_rpOf_cons (last : UInt32) (hist : List UInt32) (x : UInt32) :
    replayProtectionValidate (rpOf (last :: hist)) x =
      if x > last then (true, ⟨x, true⟩)
      else if last - x < 0x7FFFFFFF then (false, ⟨last, true⟩) else (true, ⟨x, true⟩) := rfl

lemma validate_rpOf_snd (hist : List UInt32) (x : UInt32) :
    (replayProtectionValidate (rpOf hist) x).2 = rpOf (accept hist x) := by
  cases hist with
  | nil => rfl
  | cons last hist =>
      rw [accept, validate_rpOf_cons]
      by_cases hgt : x > last
      · rw [if_pos hgt]
        rfl
      · by_cases hlt : last - x < 0x7FFFFFFF
        · rw [if_neg hgt, if_pos hlt]
          rfl
        · rw [if_neg hgt, if_neg hlt]
          rfl

lemma afterAll_rpOf (hist xs : List UInt32) :
    afterAll (rpOf hist) xs = rpOf (acceptAll hist xs) := by
  induction xs generalizing hist with
  | nil => rfl
  | cons x xs ih => rw [afterAll, validate_rpOf_snd, ih, acceptAll]

/-- The accepted numbers are those with a positive verdict. -/
lemma acceptAll_eq (hist xs : List UInt32) :
    acceptAll hist xs =
      (((verdicts (rpOf hist) xs).filter Prod.snd).map Prod.fst).reverse ++ hist := by
  induction xs generalizing hist with
  | nil => rfl
  | cons x xs ih =>
      rw [acceptAll, ih, verdicts, validate_rpOf_snd, accept]
      cases (replayProtectionValidate (rpOf hist) x).1 <;> simp

/-- The refused numbers are the last one and those just below it. -/
lemma validate_rpOf_eq_false_iff {last : UInt32} {hist : List UInt32} {x : UInt32} :
    (replayProtectionValidate (rpOf (last :: hist)) x).1 = false ↔
      x.toNat ≤ last.toNat ∧ last.toNat < x.toNat + replayWindow := by
  rw [validate_rpOf_cons, replayWindow]
  have hsub (h : ¬x > last) : (last - x).toNat = last.toNat - x.toNat :=
    UInt32.toNat_sub_of_le _ _ (UInt32.not_lt.1 h)
  split_ifs with hgt hlt
  · have := UInt32.lt_iff_toNat_lt.1 hgt
    simp
    omega
  · have hle := UInt32.le_iff_toNat_le.1 (UInt32.not_lt.1 hgt)
    have := UInt32.lt_iff_toNat_lt.1 hlt
    rw [hsub hgt] at this
    simp at this ⊢
    omega
  · have hle := UInt32.le_iff_toNat_le.1 (UInt32.not_lt.1 hgt)
    have := mt UInt32.lt_iff_toNat_lt.2 hlt
    rw [hsub hgt] at this
    simp at this ⊢
    omega

/-! ## Safety of the whole sequence -/

/-- Every number accepted lately would be refused now. -/
def SafeNow (hist : List UInt32) : Prop :=
  ∀ x ∈ hist.take replayWindow, (replayProtectionValidate (rpOf hist) x).1 = false

/-- So it is at every point, while these numbers are presented. -/
def AllSafe : List UInt32 → List UInt32 → Prop
  | hist, [] => SafeNow hist
  | hist, x :: xs => SafeNow hist ∧ AllSafe (accept hist x) xs

lemma AllSafe.now {hist xs : List UInt32} (h : AllSafe hist xs) : SafeNow hist := by
  cases xs with
  | nil => exact h
  | cons x xs => exact h.1

lemma take_replayWindow_cons (x : UInt32) (hist : List UInt32) :
    (x :: hist).take replayWindow = x :: hist.take (replayWindow - 1) := rfl

lemma validate_self (last : UInt32) (hist : List UInt32) :
    (replayProtectionValidate (rpOf (last :: hist)) last).1 = false :=
  validate_rpOf_eq_false_iff.2 ⟨le_rfl, Nat.lt_add_of_pos_right (by decide)⟩

/-- After a larger number, safety is a bound on its distance to the recent ones. -/
lemma safeNow_cons_iff {x last : UInt32} {hist : List UInt32} (safe : SafeNow (last :: hist))
    (hgt : x > last) :
    SafeNow (x :: last :: hist) ↔
      ∀ y ∈ (last :: hist).take (replayWindow - 1), x.toNat < y.toNat + replayWindow := by
  have hgt' := UInt32.lt_iff_toNat_lt.1 hgt
  have hbelow {y : UInt32} (hy : y ∈ (last :: hist).take (replayWindow - 1)) :
      y.toNat ≤ last.toNat := by
    have hy' : y ∈ (last :: hist).take replayWindow := by
      have hprefix := List.take_prefix_take_left (l := last :: hist) (Nat.sub_le replayWindow 1)
      exact hprefix.subset hy
    exact (validate_rpOf_eq_false_iff.1 (safe y hy')).1
  constructor
  · intro h y hy
    have hmem : y ∈ (x :: last :: hist).take replayWindow := by
      rw [take_replayWindow_cons]
      exact List.mem_cons_of_mem _ hy
    exact (validate_rpOf_eq_false_iff.1 (h y hmem)).2
  · intro h y hy
    rw [take_replayWindow_cons, List.mem_cons] at hy
    rcases hy with rfl | hy
    · exact validate_self _ _
    · have := hbelow hy
      exact validate_rpOf_eq_false_iff.2 ⟨by omega, h y hy⟩

lemma safeNow_singleton (x : UInt32) : SafeNow [x] := by
  intro y hy
  rw [take_replayWindow_cons, List.take_nil, List.mem_singleton] at hy
  rw [hy]
  exact validate_self _ _

lemma accept_of_gt {last x : UInt32} (hist : List UInt32) (hgt : x > last) :
    accept (last :: hist) x = x :: last :: hist := by
  rw [accept, validate_rpOf_cons, if_pos hgt]
  rfl

/-- After a rollover the number before it would be accepted again. -/
lemma not_safeNow_rollover {last x : UInt32} (hist : List UInt32)
    (hfar : ¬last.toNat < x.toNat + replayWindow) : ¬SafeNow (x :: last :: hist) := by
  intro safe
  have hmem : last ∈ (x :: last :: hist).take replayWindow := by
    change last ∈ x :: last :: hist.take (replayWindow - 2)
    simp
  have hle := (validate_rpOf_eq_false_iff.1 (safe last hmem)).1
  have hpos : 0 < replayWindow := by decide
  omega

/-- Step by step, the sequences that stay safe are the steady ones. -/
lemma allSafe_iff_steady {hist xs : List UInt32} (safe : SafeNow hist) :
    AllSafe hist xs ↔ Steady hist xs := by
  induction xs generalizing hist with
  | nil => exact iff_of_true safe (by cases hist <;> trivial)
  | cons x xs ih =>
      rw [AllSafe, and_iff_right safe]
      cases hist with
      | nil => exact ih (safeNow_singleton x)
      | cons last hist =>
          rw [Steady]
          by_cases hgt : x > last
          · rw [accept_of_gt hist hgt, if_pos hgt, ← safeNow_cons_iff safe hgt]
            constructor
            · intro h
              exact ⟨h.now, (ih h.now).1 h⟩
            · intro h
              exact (ih h.1).2 h.2
          · have hle := UInt32.le_iff_toNat_le.1 (UInt32.not_lt.1 hgt)
            rw [if_neg hgt, accept]
            cases hverdict : (replayProtectionValidate (rpOf (last :: hist)) x).1 with
            | false =>
                have hnear := (validate_rpOf_eq_false_iff.1 hverdict).2
                rw [if_neg Bool.false_ne_true, and_iff_right hnear]
                exact ih safe
            | true =>
                -- a rollover
                have hfar : ¬last.toNat < x.toNat + replayWindow := by
                  intro hnear
                  rw [validate_rpOf_eq_false_iff.2 ⟨hle, hnear⟩] at hverdict
                  cases hverdict
                rw [if_pos rfl]
                have hunsafe := not_safeNow_rollover hist hfar
                exact iff_of_false (fun h => hunsafe h.now) (fun h => hfar h.1)

lemma allSafe_iff {hist xs : List UInt32} :
    AllSafe hist xs ↔ ∀ sofar rest, xs = sofar ++ rest → SafeNow (acceptAll hist sofar) := by
  induction xs generalizing hist with
  | nil =>
      constructor
      · intro h sofar rest hnil
        obtain ⟨rfl, -⟩ := List.append_eq_nil_iff.1 hnil.symm
        exact h
      · exact fun h => h [] [] rfl
  | cons x xs ih =>
      rw [AllSafe, ih]
      constructor
      · rintro ⟨hnow, hlater⟩ sofar rest hsplit
        cases sofar with
        | nil => exact hnow
        | cons y sofar =>
            obtain ⟨rfl, hrest⟩ := List.cons.inj hsplit
            exact hlater sofar rest hrest
      · intro h
        refine ⟨h [] (x :: xs) rfl, ?_⟩
        intro sofar rest hsplit
        exact h (x :: sofar) rest (by rw [hsplit]; rfl)

/-- The recently accepted numbers, read off the verdicts. -/
lemma mem_take_accepted {vs : List (UInt32 × Bool)} {n : ℕ} {x : UInt32} :
    x ∈ ((vs.filter Prod.snd).map Prod.fst).reverse.take n ↔
      ∃ earlier since, vs = earlier ++ (x, true) :: since ∧
        (since.filter Prod.snd).length < n := by
  induction vs with
  | nil => simp
  | cons v vs ih =>
      have hsplit : (∃ earlier since, v :: vs = earlier ++ (x, true) :: since ∧
          (since.filter Prod.snd).length < n) ↔
          (v = (x, true) ∧ (vs.filter Prod.snd).length < n) ∨
            ∃ earlier since, vs = earlier ++ (x, true) :: since ∧
              (since.filter Prod.snd).length < n := by
        constructor
        · rintro ⟨_ | ⟨w, earlier⟩, since, heq, hlt⟩
          · obtain ⟨rfl, rfl⟩ := List.cons.inj heq
            exact Or.inl ⟨rfl, hlt⟩
          · exact Or.inr ⟨earlier, since, (List.cons.inj heq).2, hlt⟩
        · rintro (⟨rfl, hlt⟩ | ⟨earlier, since, rfl, hlt⟩)
          · exact ⟨[], vs, rfl, hlt⟩
          · exact ⟨v :: earlier, since, rfl, hlt⟩
      rw [hsplit, ← ih]
      obtain ⟨y, ok⟩ := v
      cases ok with
      | false => simp
      | true =>
          rw [List.filter_cons_of_pos rfl, List.map_cons, List.reverse_cons, List.take_append,
            List.mem_append, List.length_reverse, List.length_map, or_comm]
          apply or_congr_left
          by_cases hlt : (vs.filter Prod.snd).length < n
          · rw [List.take_of_length_le (show [y].length ≤ _ by simp; omega)]
            simp [hlt, eq_comm]
          · have hzero : n - (vs.filter Prod.snd).length = 0 := by omega
            simp [hzero, hlt]

lemma safeNow_acceptAll {sofar : List UInt32} :
    SafeNow (acceptAll [] sofar) ↔
      ∀ earlier x since, verdicts replayProtectionInit sofar = earlier ++ (x, true) :: since →
        (since.filter Prod.snd).length < replayWindow →
        (replayProtectionValidate (afterAll replayProtectionInit sofar) x).1 = false := by
  have hrp : afterAll replayProtectionInit sofar = rpOf (acceptAll [] sofar) :=
    afterAll_rpOf [] sofar
  have hhist : acceptAll [] sofar =
      (((verdicts replayProtectionInit sofar).filter Prod.snd).map Prod.fst).reverse := by
    rw [acceptAll_eq, List.append_nil]
    rfl
  rw [hrp]
  constructor
  · intro h earlier x since hsplit hlt
    apply h x
    rw [hhist]
    exact mem_take_accepted.2 ⟨earlier, since, hsplit, hlt⟩
  · intro h x hx
    rw [hhist] at hx
    obtain ⟨earlier, since, hsplit, hlt⟩ := mem_take_accepted.1 hx
    exact h earlier x since hsplit hlt

/-- A position among the verdicts is a position among the numbers. -/
lemma verdicts_split {rp : ReplayProtection} {seqs : List UInt32} {vs later : List (UInt32 × Bool)}
    {x : UInt32} {ok : Bool} (h : verdicts rp seqs = vs ++ (x, ok) :: later) :
    ∃ sofar rest, seqs = sofar ++ rest ∧ verdicts rp sofar = vs ∧
      (replayProtectionValidate (afterAll rp sofar) x).1 = ok := by
  induction vs generalizing rp seqs with
  | nil =>
      cases seqs with
      | nil => cases h
      | cons y seqs =>
          obtain ⟨hv, -⟩ := List.cons.inj h
          obtain ⟨rfl, hok⟩ := Prod.mk.inj hv
          exact ⟨[], y :: seqs, rfl, rfl, hok⟩
  | cons v vs ih =>
      cases seqs with
      | nil => cases h
      | cons y seqs =>
          obtain ⟨rfl, htail⟩ := List.cons.inj h
          obtain ⟨sofar, rest, rfl, hvs, hok⟩ := ih htail
          exact ⟨y :: sofar, rest, rfl, by rw [verdicts, hvs], hok⟩

/-- **Which sequences are safe from replays**: exactly the steady ones. -/
theorem replaySafe_iff (seqs : List UInt32) : ReplaySafe seqs ↔ Steady [] seqs := by
  have hempty : SafeNow [] := fun x hx => by simp at hx
  rw [← allSafe_iff_steady hempty, allSafe_iff]
  constructor
  · intro h sofar rest hsplit
    exact safeNow_acceptAll.2 fun earlier x since => h.2 sofar rest earlier x since hsplit
  · intro h
    have hsecond (sofar rest earlier x since) (hsplit : seqs = sofar ++ rest) :=
      safeNow_acceptAll.1 (h sofar rest hsplit) earlier x since
    refine ⟨fun earlier x between later hvs => ?_, hsecond⟩
    by_contra hlt
    have hvs' : verdicts replayProtectionInit seqs =
        (earlier ++ (x, true) :: between) ++ (x, true) :: later := by
      rw [hvs, List.append_assoc, List.cons_append]
    obtain ⟨sofar, rest, hsplit, hsofar, hok⟩ := verdicts_split hvs'
    have hrefused := hsecond sofar rest earlier x between hsplit hsofar (not_le.1 hlt)
    exact Bool.false_ne_true (hrefused.symm.trans hok)

/-- A number sent again after a rollover is accepted, with one number in between. -/
theorem rollover_replayed : ¬ReplaySafe [0xFFFFFFFF, 0, 0xFFFFFFFF] := by
  intro h
  have hlen := h.1 [] 0xFFFFFFFF [(0, true)] [] (by decide)
  revert hlen
  decide

/-! ## Honest clients -/

section Honest

variable {κ : Type} [DecidableEq κ]

/-- The verdicts on the packets of several connections: in the order of `schedule`, each
connection named there initialises a packet, which draws a number from the common counter, and
sends it to its own worker. -/
def deliver (gSeqNum : UInt32) (rps : κ → ReplayProtection) : List (κ × UInt16) → List Bool
  | [] => []
  | (c, opcode) :: schedule =>
      let (pkt, gSeqNum') := pktInitLocal gSeqNum opcode
      let (ok, rp) := replayProtectionValidate (rps c) pkt.header.seqNum
      ok :: deliver gSeqNum' (Function.update rps c rp) schedule

/-- Between two consecutive packets of a connection at most `2 ^ 31` numbers are drawn. -/
def SmallGaps (schedule : List (κ × UInt16)) : Prop :=
  ∀ before c o between o' after, schedule = before ++ (c, o) :: (between ++ (c, o') :: after) →
    c ∉ between.map Prod.fst → between.length ≤ 2 ^ 31

/-- The worker of connection `c` will accept its next packet: it has accepted none yet, or the one
`k` draws before the last one, and the next one comes soon enough. -/
def Ready (gSeqNum : UInt32) (rp : ReplayProtection) (c : κ) (schedule : List (κ × UInt16)) :
    Prop :=
  rp = replayProtectionInit ∨
    ∃ k : ℕ, rp = ⟨gSeqNum - UInt32.ofNat (k + 1), true⟩ ∧
      ∀ between o after, schedule = between ++ (c, o) :: after → c ∉ between.map Prod.fst →
        k + between.length ≤ 2 ^ 31

/-- A number up to `2 ^ 31 + 1` after the last one is accepted, on both sides of the wrap. -/
lemma validate_ahead (x : UInt32) {k : ℕ} (hk : k ≤ 2 ^ 31) :
    replayProtectionValidate ⟨x - UInt32.ofNat (k + 1), true⟩ x = (true, ⟨x, true⟩) := by
  have hx := x.toNat_lt
  have hlast : (x - UInt32.ofNat (k + 1)).toNat = (2 ^ 32 - (k + 1) + x.toNat) % 2 ^ 32 := by
    rw [UInt32.toNat_sub, UInt32.toNat_ofNat_of_lt' (show k + 1 < 2 ^ 32 by omega)]
  change replayProtectionValidate (rpOf [x - UInt32.ofNat (k + 1)]) x = _
  rw [validate_rpOf_cons]
  by_cases hgt : x > x - UInt32.ofNat (k + 1)
  · rw [if_pos hgt]
  · have hle := UInt32.not_lt.1 hgt
    have hfar : ¬x - UInt32.ofNat (k + 1) - x < 0x7FFFFFFF := by
      rw [UInt32.lt_iff_toNat_lt, UInt32.toNat_sub_of_le _ _ hle, hlast]
      rw [UInt32.le_iff_toNat_le, hlast] at hle
      simp
      omega
    rw [if_neg hgt, if_neg hfar]

omit [DecidableEq κ] in
/-- Drawing a number keeps the other connections ready. -/
lemma Ready.draw {gSeqNum : UInt32} {rp : ReplayProtection} {c d : κ} {o : UInt16}
    {schedule : List (κ × UInt16)} (ready : Ready gSeqNum rp c ((d, o) :: schedule)) (hne : c ≠ d) :
    Ready (gSeqNum + 1) rp c schedule := by
  rcases ready with rfl | ⟨k, rfl, hgap⟩
  · exact Or.inl rfl
  · refine Or.inr ⟨k + 1, ?_, fun between o' after hsplit hbetween => ?_⟩
    · congr 1
      rw [UInt32.ofNat_add (k + 1) 1]
      grind
    · have hlen := hgap ((d, o) :: between) o' after (by rw [hsplit]; rfl)
        (by simp [hne]; simpa using hbetween)
      rw [List.length_cons] at hlen
      omega

omit [DecidableEq κ] in
/-- After accepting its packet, the worker of a connection is ready for the next one. -/
lemma Ready.sent {gSeqNum : UInt32} {c : κ} {o : UInt16} {schedule : List (κ × UInt16)}
    (gaps : SmallGaps ((c, o) :: schedule)) : Ready (gSeqNum + 1) ⟨gSeqNum, true⟩ c schedule := by
  refine Or.inr ⟨0, ?_, fun between o' after hsplit hbetween => ?_⟩
  · have hlast : gSeqNum + 1 - UInt32.ofNat (0 + 1) = gSeqNum := UInt32.add_sub_cancel gSeqNum 1
    rw [hlast]
  · rw [Nat.zero_add]
    exact gaps [] c o between o' after (by rw [hsplit]; rfl) hbetween

omit [DecidableEq κ] in
lemma Ready.validate {gSeqNum : UInt32} {rp : ReplayProtection} {c : κ} {o : UInt16}
    {schedule : List (κ × UInt16)} (ready : Ready gSeqNum rp c ((c, o) :: schedule)) :
    replayProtectionValidate rp gSeqNum = (true, ⟨gSeqNum, true⟩) := by
  rcases ready with rfl | ⟨k, rfl, hgap⟩
  · rfl
  · exact validate_ahead gSeqNum (hgap [] o schedule rfl (by simp))

omit [DecidableEq κ] in
lemma SmallGaps.tail {turn : κ × UInt16} {schedule : List (κ × UInt16)}
    (gaps : SmallGaps (turn :: schedule)) : SmallGaps schedule :=
  fun before c o between o' after hsplit =>
    gaps (turn :: before) c o between o' after (by rw [hsplit]; rfl)

/-- Workers that are all ready accept everything. -/
lemma deliver_of_ready (schedule : List (κ × UInt16)) (gSeqNum : UInt32)
    (rps : κ → ReplayProtection) (gaps : SmallGaps schedule)
    (ready : ∀ c, Ready gSeqNum (rps c) c schedule) :
    ∀ ok ∈ deliver gSeqNum rps schedule, ok = true := by
  induction schedule generalizing gSeqNum rps with
  | nil => simp [deliver]
  | cons turn schedule ih =>
      obtain ⟨c, o⟩ := turn
      change ∀ ok ∈ (replayProtectionValidate (rps c) gSeqNum).1 :: deliver (gSeqNum + 1)
        (Function.update rps c (replayProtectionValidate (rps c) gSeqNum).2) schedule, ok = true
      rw [(ready c).validate]
      refine List.forall_mem_cons.2 ⟨rfl, ih (gSeqNum + 1) _ gaps.tail fun d => ?_⟩
      by_cases hdc : d = c
      · subst hdc
        rw [Function.update_self]
        exact Ready.sent gaps
      · rw [Function.update_of_ne hdc]
        exact (ready d).draw hdc

/-- **Honest clients are never taken for replays.**  For any number of connections, any start of
the counter and any interleaving, every packet is accepted by its own worker, if at most `2 ^ 31`
numbers are drawn between two consecutive packets of a connection. -/
theorem honest_accepted (gSeqNum : UInt32) (schedule : List (κ × UInt16))
    (gaps : SmallGaps schedule) :
    ∀ ok ∈ deliver gSeqNum (fun _ => replayProtectionInit) schedule, ok = true :=
  deliver_of_ready schedule gSeqNum _ gaps fun _ => Or.inl rfl

end Honest

/-- Two clients whose counter rolls over between their packets. -/
theorem honest_accepted_rollover :
    deliver 0xFFFFFFFE (fun _ => replayProtectionInit)
      [(false, 0x10), (true, 0x10), (false, 0x13), (true, 0x13)] = [true, true, true, true] := by
  have hall := honest_accepted 0xFFFFFFFE
    [(false, 0x10), (true, 0x10), (false, 0x13), (true, 0x13)]
    fun before c o between o' after h _ => by
      have hlen := congrArg List.length h
      simp only [List.length_append, List.length_cons, List.length_nil] at hlen
      omega
  exact List.eq_replicate_of_mem hall

end WorldBossRaid
