import Admission.Proofs.Rate.Buckets
import Admission.Proofs.Rate.Timely

/-!
# Counting in buckets

Above a certain limit a window counts its requests in buckets that lie side by side from the first request
on. No bucket lets in more than the limit. As long as no bucket goes by unseen, the two counts are those of
the bucket of now and of the one before, and then no window that begins anywhere holds twice the limit.
-/

namespace Admission

/-! ## Times in buckets -/

namespace Window

variable (window first : Nat)

/-- The number of the bucket that a time lies in, where the buckets begin at `first`. -/
def place (s : Nat) : Nat := (s - first) / window

def countIn (m : Nat) (times : List Nat) : Nat := times.countP fun s => place window first s = m

/-- From one time to the other fewer buckets begin than a word of 32 bits can count. -/
def Near (s t : Nat) : Prop := place window first t < place window first s + Nat.pow 2 32

variable {window first}

theorem place_mono (window first : Nat) {s t : Nat} (h : s ≤ t) : place window first s ≤ place window first t :=
  Nat.div_le_div_right (Nat.sub_le_sub_right h first)

theorem place_le_succ (first : Nat) {s t : Nat} (hwindow : 0 < window) (h : t < s + window) :
    place window first t ≤ place window first s + 1 := by
  unfold place
  rw [← Nat.add_div_right _ hwindow]
  exact Nat.div_le_div_right (by omega)

theorem near_of_le {s t : Nat} (hwindow : 0 < window) (h : t ≤ s + (Nat.pow 2 32 - 1) * window) :
    Near window first s t := by
  have hplace : place window first t ≤ place window first s + (Nat.pow 2 32 - 1) := by
    unfold place
    rw [← Nat.add_mul_div_right _ _ hwindow]
    exact Nat.div_le_div_right (by omega)
  have hword : 0 < Nat.pow 2 32 := Nat.pow_pos (by decide)
  unfold Near
  omega

theorem place_eq {s m : Nat} (hwindow : 0 < window) (hfrom : first + m * window ≤ s)
    (hto : s < first + m * window + window) : place window first s = m := by
  unfold place
  rw [Nat.div_eq_iff hwindow]
  omega

theorem countIn_append (m : Nat) (times times' : List Nat) :
    countIn window first m (times ++ times') =
      countIn window first m times + countIn window first m times' :=
  List.countP_append

theorem countIn_eq_zero {now m : Nat} {times : List Nat} (hpast : ∀ s ∈ times, s ≤ now)
    (h : place window first now < m) : countIn window first m times = 0 := by
  refine List.countP_eq_zero.mpr fun s hs => ?_
  have := place_mono window first (hpast s hs)
  simp only [decide_eq_true_eq]
  omega

/-! ## Buckets side by side -/

variable {b : Bucket} {now later limit : Nat} {admitted : List Nat}

theorem gone_aligned {j : Nat} (h : b.start = first + window * j) (t : Nat) :
    (t - b.start) / window = place window first t - j := by
  rw [h, ← Nat.sub_sub, Nat.sub_mul_div]
  rfl

theorem rotate_congr (hwindow : 0 < window) {j : Nat} (h : b.start = first + window * j)
    (hplace : place window first later = place window first now) :
    rotate window later b = rotate window now b := by
  rw [rotate_eq window later b hwindow, rotate_eq window now b hwindow, gone_aligned h, gone_aligned h,
    hplace]

/-- The requests that are let in lie in buckets side by side, and no bucket holds more than the limit. What
is counted as current is never less than what lies in the bucket of now. -/
structure Bounded (window limit first now : Nat) (admitted : List Nat) (b : Bucket) : Prop where
  aligned : ∃ j, b.start = first + window * j
  start_le : b.start ≤ now
  past : ∀ s ∈ admitted, s ≤ now
  counted : ∀ later, now ≤ later →
    countIn window first (place window first later) admitted ≤ (rotate window later b).current
  within : ∀ m, countIn window first m admitted ≤ limit

theorem new_bounded (window limit now : Nat) : Bounded window limit now now [] ⟨now, 0, 0⟩ :=
  ⟨⟨0, rfl⟩, le_rfl, by simp, fun _ _ => Nat.zero_le _, fun _ => Nat.zero_le _⟩

theorem Bounded.rotate (h : Bounded window limit first now admitted b) (hwindow : 0 < window)
    (hle : now ≤ later) : Bounded window limit first later admitted (rotate window later b) := by
  obtain ⟨j, hj⟩ := h.aligned
  have haligned : (Window.rotate window later b).start =
      first + window * (j + (later - b.start) / window % Nat.pow 2 32) := by
    rw [rotate_eq window later b hwindow]
    dsimp only
    rw [hj]
    ring
  refine ⟨⟨_, haligned⟩, ?_, fun s hs => (h.past s hs).trans hle, ?_, h.within⟩
  · have hgone : window * ((later - b.start) / window % Nat.pow 2 32) ≤ later - b.start :=
      (Nat.mul_le_mul_left _ (Nat.mod_le _ _)).trans (Nat.mul_div_le _ _)
    have hstart := h.start_le
    rw [rotate_eq window later b hwindow]
    dsimp only
    omega
  · intro last hlast
    rcases (place_mono window first hlast).eq_or_lt with hsame | hmore
    · rw [rotate_congr hwindow haligned hsame.symm, rotate_rotate window later b hwindow, ← hsame]
      exact h.counted later hle
    · rw [countIn_eq_zero (fun s hs => (h.past s hs).trans hle) hmore]
      exact Nat.zero_le _

theorem Bounded.record (h : Bounded window limit first now admitted b) (hwindow : 0 < window)
    (hgone : (now - b.start) / window % Nat.pow 2 32 = 0) (hroom : b.current + 1 ≤ limit) :
    Bounded window limit first now (admitted ++ [now]) { b with current := b.current + 1 } := by
  obtain ⟨j, hj⟩ := h.aligned
  have hcurrent : countIn window first (place window first now) admitted ≤ b.current := by
    have hcounted := h.counted now le_rfl
    rwa [rotate_of_gone window now b hwindow hgone] at hcounted
  have hpast : ∀ s ∈ admitted ++ [now], s ≤ now := by
    intro s hs
    rcases List.mem_append.mp hs with hs | hs
    · exact h.past s hs
    · exact (List.mem_singleton.mp hs).le
  refine ⟨h.aligned, h.start_le, hpast, ?_, ?_⟩
  · intro last hlast
    rcases (place_mono window first hlast).eq_or_lt with hsame | hmore
    · rw [rotate_congr (b := { b with current := b.current + 1 }) hwindow hj hsame.symm,
        rotate_of_gone window now { b with current := b.current + 1 } hwindow hgone, countIn_append,
        ← hsame]
      exact Nat.add_le_add hcurrent (List.countP_le_length)
    · rw [countIn_eq_zero hpast hmore]
      exact Nat.zero_le _
  · intro m
    rw [countIn_append]
    by_cases hm : place window first now = m
    · subst hm
      have : countIn window first (place window first now) [now] ≤ 1 := List.countP_le_length
      omega
    · have hother : countIn window first m [now] = 0 := by
        simp [countIn, hm]
      rw [hother]
      exact h.within m

theorem countP_le_add {p q r : Nat → Prop} [DecidablePred p] [DecidablePred q] [DecidablePred r]
    {times : List Nat} (h : ∀ s ∈ times, p s → q s ∨ r s) :
    times.countP p ≤ times.countP q + times.countP r := by
  induction times with
  | nil => simp
  | cons s times ih =>
    have hrest := ih fun s hs => h s (List.mem_cons_of_mem _ hs)
    have hown := h s List.mem_cons_self
    simp only [List.countP_cons, decide_eq_true_eq]
    split_ifs <;> first | omega | tauto

theorem Bounded.held_le (h : Bounded window limit first now admitted b) (hwindow : 0 < window)
    (m : Nat) :
    admitted.countP (fun s => first + m * window ≤ s ∧ s < first + m * window + window) ≤ limit := by
  refine (List.countP_mono_left fun s _ hs => ?_).trans (h.within m)
  simp only [decide_eq_true_eq] at hs ⊢
  exact place_eq hwindow hs.1 hs.2

theorem Bounded.held_le_twice (h : Bounded window limit first now admitted b) (hwindow : 0 < window)
    (start : Nat) :
    admitted.countP (fun s => start ≤ s ∧ s < start + window) ≤ 2 * limit := by
  -- A window that begins anywhere reaches into two buckets at most.
  have hfirst := h.within (place window first start)
  have hsecond := h.within (place window first start + 1)
  have hboth : admitted.countP (fun s => start ≤ s ∧ s < start + window) ≤
      countIn window first (place window first start) admitted +
        countIn window first (place window first start + 1) admitted := by
    refine countP_le_add fun s _ hin => ?_
    have hge := place_mono window first hin.1
    have hle := place_le_succ first hwindow hin.2
    omega
  omega

theorem current_lt_of_allowed (h : (checkCounter Rat limit window now b).1.allowed = true) :
    (rotate window now b).current + 1 ≤ limit := by
  have hroom := (checkCounter_allowed_iff window now b Rat limit).mp h
  have hshare := mul_nonneg (rotate window now b).previous.cast_nonneg
    (overlap_nonneg window now (rotate window now b))
  have hone : (1.0 : Rat) = 1 := by norm_num
  rw [hone, weighted] at hroom
  have hcast : (((rotate window now b).current + 1 : Nat) : Rat) ≤ limit := by
    push_cast
    linarith
  exact_mod_cast hcast

theorem Bounded.check (h : Bounded window limit first now admitted b) (hwindow : 0 < window)
    (hle : now ≤ later) :
    Bounded window limit first later
      (if (checkCounter Rat limit window later b).1.allowed then admitted ++ [later] else admitted)
      (checkCounter Rat limit window later b).2 := by
  have hrotated := h.rotate hwindow hle
  rw [checkCounter_snd]
  split_ifs with hallowed
  · exact hrotated.record hwindow (gone_rotate window later b hwindow) (current_lt_of_allowed hallowed)
  · exact hrotated

/-! ## Counts that miss nothing -/

/-- The buckets of so many times, with the bucket of that number as the current one. -/
def tally (window first m : Nat) (times : List Nat) : Bucket where
  start := first + window * m
  current := countIn window first m times
  previous := times.countP fun s => place window first s + 1 = m

/-- The counts are those of the bucket of now and of the one before, and no window that begins anywhere
holds twice the limit. -/
structure Tallied (window limit first now : Nat) (admitted : List Nat) (b : Bucket) : Prop where
  eq_tally : b = tally window first (place window first now) admitted
  below : ∀ start, admitted.countP (fun s => start ≤ s ∧ s < start + window) < 2 * limit

theorem new_tallied (window : Nat) (hlimit : limit ≠ 0) (now : Nat) :
    Tallied window limit now now [] ⟨now, 0, 0⟩ :=
  ⟨by simp [tally, place, countIn], fun _ => by simp; omega⟩

theorem rotate_tally (hwindow : 0 < window) (hpast : ∀ s ∈ admitted, s ≤ now) (hle : now ≤ later)
    (hnear : Near window first now later) :
    rotate window later (tally window first (place window first now) admitted) =
      tally window first (place window first later) admitted := by
  obtain ⟨gone, hgone⟩ := Nat.exists_eq_add_of_le (place_mono window first hle)
  unfold Near at hnear
  rw [rotate_eq window later _ hwindow, gone_aligned rfl, hgone, Nat.add_sub_cancel_left,
    Nat.mod_eq_of_lt (by omega)]
  unfold tally
  rw [Bucket.mk.injEq]
  -- Of so few buckets the number is not cut short, and so they are all moved on.
  refine ⟨by ring, ?_, ?_⟩
  · split_ifs with hnone
    · rw [hnone, Nat.add_zero]
    · exact (countIn_eq_zero hpast (by omega)).symm
  · split_ifs with hnone hone
    · rw [hnone, Nat.add_zero]
    · rw [hone]
      simp only [Nat.add_right_cancel_iff]
      rfl
    · refine (List.countP_eq_zero.mpr fun s hs => ?_).symm
      have := place_mono window first (hpast s hs)
      simp only [decide_eq_true_eq]
      omega

theorem tally_record :
    { tally window first (place window first now) admitted with
      current := (tally window first (place window first now) admitted).current + 1 } =
      tally window first (place window first now) (admitted ++ [now]) := by
  simp [tally, countIn, List.countP_append]

theorem tally_previous_le (hwithin : ∀ m, countIn window first m admitted ≤ limit) (m : Nat) :
    (tally window first m admitted).previous ≤ limit := by
  refine le_trans (List.countP_mono_left fun s _ hs => ?_) (hwithin (m - 1))
  simp only [decide_eq_true_eq] at hs ⊢
  omega

theorem counts_lt (hpart : now - b.start < window) (hprevious : b.previous ≤ limit)
    (hroom : weighted Rat window now b + 1.0 ≤ (limit : Rat)) :
    b.previous + b.current + 1 < 2 * limit := by
  have hone : (1.0 : Rat) = 1 := by norm_num
  have hshare := overlap_pos window now b hpart
  rw [hone, weighted] at hroom
  have hcast : (b.previous : Rat) ≤ limit := by exact_mod_cast hprevious
  have hsum : (b.previous : Rat) + b.current + 1 < 2 * limit := by
    -- Where the bucket before holds something, its weight above 0 makes the bound strict.
    rcases b.previous.eq_zero_or_pos with hnone | hsome
    · rw [hnone] at hroom ⊢
      have := (Nat.cast_nonneg b.current : (0 : Rat) ≤ b.current)
      push_cast at hroom ⊢
      linarith
    · have := mul_pos (Nat.cast_pos.mpr hsome : (0 : Rat) < b.previous) hshare
      linarith
  exact_mod_cast hsum

theorem countP_window_le (hwindow : 0 < window) (start : Nat) (hpast : ∀ s ∈ admitted, s ≤ now)
    (hend : now < start + window) :
    admitted.countP (fun s => start ≤ s ∧ s < start + window) ≤
      (tally window first (place window first now) admitted).previous +
        (tally window first (place window first now) admitted).current := by
  refine countP_le_add fun s hs hin => ?_
  have hle := place_mono window first (hpast s hs)
  have hge := place_le_succ first hwindow (show now < s + window by omega)
  omega

theorem Tallied.rotate (h : Tallied window limit first now admitted b) (hwindow : 0 < window)
    (hpast : ∀ s ∈ admitted, s ≤ now) (hle : now ≤ later) (hnear : Near window first now later) :
    Tallied window limit first later admitted (Window.rotate window later b) := by
  refine ⟨?_, h.below⟩
  rw [h.eq_tally]
  exact rotate_tally hwindow hpast hle hnear

theorem Tallied.check (h : Tallied window limit first now admitted b)
    (hbound : Bounded window limit first now admitted b) (hwindow : 0 < window) (hle : now ≤ later)
    (hnear : Near window first now later) :
    Tallied window limit first later
      (if (checkCounter Rat limit window later b).1.allowed then admitted ++ [later] else admitted)
      (checkCounter Rat limit window later b).2 := by
  have hrotated := h.rotate hwindow hbound.past hle hnear
  rw [checkCounter_snd]
  split_ifs with hallowed
  · refine ⟨?_, fun start => ?_⟩
    · rw [hrotated.eq_tally]
      exact tally_record
    -- A window with the new request in it reaches back into no bucket but the one before.
    · rw [List.countP_append, List.countP_singleton]
      split_ifs with hin
      · rw [decide_eq_true_eq] at hin
        have hroom := (checkCounter_allowed_iff window later b Rat limit).mp hallowed
        rw [hrotated.eq_tally] at hroom
        refine lt_of_le_of_lt (Nat.add_le_add_right (countP_window_le hwindow start
          (fun s hs => (hbound.past s hs).trans hle) hin.2) 1) (counts_lt ?_ ?_ hroom)
        · have hplace := Nat.lt_mul_div_succ (later - first) hwindow
          unfold tally place
          dsimp only
          rw [Nat.mul_succ] at hplace
          omega
        · exact tally_previous_le hbound.within _
      · exact h.below start
  · exact hrotated

end Window

end Admission
