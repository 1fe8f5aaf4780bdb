import Admission.Proofs.Rate.Counted
import Admission.Proofs.Rate.Finding

/-!
# Changing the form of a window

Times of requests become a count, and a count becomes times, when a limit calls for the other form. The old
form and the new one let their requests go by different laws, and the new one lets them go no earlier.
-/

namespace Admission

/-! ## One window -/

namespace Window

variable {window now later : Nat} {b : Bucket}

/-! ### What a count shows later on -/

theorem overlap_anti (window : Nat) (b : Bucket) (hle : now ≤ later) :
    overlap Rat window later b ≤ overlap Rat window now b := by
  have hpart : ((now - b.start : Nat) : Rat) / (window : Rat) ≤
      ((later - b.start : Nat) : Rat) / (window : Rat) :=
    div_le_div_of_nonneg_right (by exact_mod_cast Nat.sub_le_sub_right hle b.start) (Nat.cast_nonneg _)
  rw [overlap_eq, overlap_eq]
  exact max_le_max_left 0 (sub_le_sub_left hpart 1)

theorem weighted_anti (window : Nat) (b : Bucket) (hle : now ≤ later) :
    weighted Rat window later b ≤ weighted Rat window now b :=
  add_le_add_left (mul_le_mul_of_nonneg_left (overlap_anti window b hle) b.previous.cast_nonneg) _

theorem overlap_le_one (window now : Nat) (b : Bucket) : overlap Rat window now b ≤ 1 := by
  have hpart : 0 ≤ ((now - b.start : Nat) : Rat) / (window : Rat) :=
    div_nonneg (Nat.cast_nonneg _) (Nat.cast_nonneg _)
  rw [overlap_eq]
  exact max_le zero_le_one (sub_le_self 1 hpart)

theorem current_le_weighted (window now : Nat) (b : Bucket) :
    (b.current : Rat) ≤ weighted Rat window now b :=
  le_add_of_nonneg_left (mul_nonneg b.previous.cast_nonneg (overlap_nonneg window now b))

theorem weighted_of_previous (window later start previous : Nat) :
    weighted Rat window later ⟨start, 0, previous⟩ ≤ previous := by
  have hpart := mul_le_mul_of_nonneg_left (overlap_le_one window later ⟨start, 0, previous⟩)
    (Nat.cast_nonneg (α := Rat) previous)
  rw [mul_one] at hpart
  show (previous : Rat) * overlap Rat window later ⟨start, 0, previous⟩ + ((0 : Nat) : Rat) ≤ previous
  rwa [Nat.cast_zero, add_zero]

theorem weighted_rotate_le (window : Nat) (b : Bucket) (hle : now ≤ later) :
    weighted Rat window later (rotate window later b) ≤ weighted Rat window now b := by
  unfold rotate
  dsimp only
  split_ifs
  · exact weighted_anti window b hle
  · exact (weighted_of_previous window later _ b.current).trans (current_le_weighted window now b)
  · refine (weighted_of_previous window later _ 0).trans ?_
    exact_mod_cast weighted_nonneg window now b

/-! ### Times become a count -/

theorem live_length_le_counted (stamps : List Nat) (hpast : ∀ s ∈ stamps, s ≤ now) (hle : now ≤ later) :
    ((live window later stamps).length : Rat) ≤
      (((exact stamps).reshape Rat false window now).inWindow Rat window later).1 := by
  show _ ≤ weighted Rat window later (rotate window later ⟨now, (live window now stamps).length, 0⟩)
  rcases lt_or_ge later (now + window) with hwithin | hover
  · have hbucket : rotate window later ⟨now, (live window now stamps).length, 0⟩ =
        ⟨now, (live window now stamps).length, 0⟩ := by
      refine rotate_of_gone window later _ (by omega) ?_
      show (later - now) / window % Nat.pow 2 32 = 0
      rw [Nat.div_eq_of_lt (by omega), Nat.zero_mod]
    have hfewer : (live window later stamps).length ≤ (live window now stamps).length := by
      rw [← live_live stamps hle]
      exact List.length_filter_le _ _
    rw [hbucket]
    exact le_trans (by exact_mod_cast hfewer) (current_le_weighted window later _)
  · -- A window later all times are gone.
    have hnone : live window later stamps = [] := by
      refine List.filter_eq_nil_iff.mpr fun s hs => ?_
      have hs := hpast s hs
      simp only [decide_eq_true_eq]
      omega
    rw [hnone]
    exact weighted_nonneg window later _

/-! ### A count becomes times -/

theorem inWindow_carried (b : Bucket) (hle : now ≤ later) (hlt : later < now + window) :
    ((b.window.reshape Rat true window now).inWindow Rat window later).1 =
      (⌈weighted Rat window now (rotate window now b)⌉₊ : Rat) := by
  rw [← Amount.ceil_eq]
  show ((live window later (List.replicate
    (Amount.ceil (weighted Rat window now (rotate window now b))) now)).length : Rat) = _
  unfold live
  rw [List.filter_replicate, if_pos (by simp only [decide_eq_true_eq]; omega), List.length_replicate]

/-- So many buckets went by that their number is cut to none between the two times: what was counted in the
first bucket shows again. -/
def Bucket.Returns (window now later : Nat) (b : Bucket) : Prop :=
  (now - b.start) / window % Nat.pow 2 32 = Nat.pow 2 32 - 1 ∧
    (later - b.start) / window % Nat.pow 2 32 = 0 ∧ 0 < b.current

theorem weighted_rotate_of_gone (hwindow : 0 < window)
    (h : 2 ≤ (now - b.start) / window % Nat.pow 2 32) (t : Nat) :
    weighted Rat window t (rotate window now b) = 0 := by
  rw [rotate_eq window now b hwindow]
  dsimp only
  rw [if_neg (by omega), if_neg (by omega), if_neg (by omega)]
  simp [weighted]

theorem succ_mod_word {n : Nat} (h : n % Nat.pow 2 32 ≠ Nat.pow 2 32 - 1) :
    (n + 1) % Nat.pow 2 32 = n % Nat.pow 2 32 + 1 := by
  have hword : Nat.pow 2 32 = 4294967296 := rfl
  rw [hword] at h ⊢
  omega

theorem weighted_le_carried_iff (hle : now ≤ later) (hlt : later < now + window) :
    weighted Rat window later (rotate window later b) ≤
        (⌈weighted Rat window now (rotate window now b)⌉₊ : Rat) ↔
      ¬ b.Returns window now later := by
  have hwindow : 0 < window := by omega
  have hceil := Nat.le_ceil (weighted Rat window now (rotate window now b))
  have hmore := place_mono window b.start hle
  have hnext := place_le_succ b.start hwindow hlt
  unfold place at hmore hnext
  unfold Bucket.Returns
  have hword : 2 ≤ Nat.pow 2 32 - 1 := by decide
  rcases hmore.eq_or_lt with hsame | hless
  · -- No bucket went by in between.
    have hrotate : rotate window later b = rotate window now b := by
      rw [rotate_eq window later b hwindow, rotate_eq window now b hwindow, hsame]
    rw [hrotate, ← hsame]
    refine iff_of_true ((weighted_anti window _ hle).trans hceil) ?_
    rintro ⟨hfull, hnone, -⟩
    omega
  · have hgone : (later - b.start) / window = (now - b.start) / window + 1 := by omega
    rw [hgone]
    by_cases hfull : (now - b.start) / window % Nat.pow 2 32 = Nat.pow 2 32 - 1
    · -- The number wraps: the buckets stay where they were long ago.
      have hwrap : ((now - b.start) / window + 1) % Nat.pow 2 32 = 0 := by
        have hcut : Nat.pow 2 32 = 4294967296 := rfl
        rw [hcut] at hfull ⊢
        omega
      have hover : window ≤ later - b.start := by
        have := Nat.div_mul_le_self (later - b.start) window
        rw [hgone, Nat.add_one_mul] at this
        omega
      have hempty : ⌈weighted Rat window now (rotate window now b)⌉₊ = 0 := by
        rw [weighted_rotate_of_gone hwindow (hfull ▸ hword) now, Nat.ceil_zero]
      rw [hempty, rotate_of_gone window later b hwindow (by rw [hgone, hwrap]), weighted,
        overlap_eq_zero window later b hwindow hover, mul_zero, zero_add, Nat.cast_le]
      simp only [hfull, hwrap, true_and, not_lt]
    · have hnowrap := succ_mod_word hfull
      refine iff_of_true ?_ fun hreturns => hfull hreturns.1
      by_cases hfirst : (now - b.start) / window % Nat.pow 2 32 = 0
      · have hrotate : rotate window later b = ⟨b.start + window, 0, b.current⟩ := by
          rw [rotate_eq window later b hwindow, hgone, hnowrap, hfirst]
          simp
        rw [rotate_of_gone window now b hwindow hfirst] at hceil ⊢
        rw [hrotate]
        exact ((weighted_of_previous window later _ b.current).trans
          (current_le_weighted window now b)).trans hceil
      · rw [weighted_rotate_of_gone hwindow (by rw [hgone, hnowrap]; omega) later]
        exact Nat.cast_nonneg _

/-! ### Buckets that are not over -/

/-- The current bucket was not over at the last look. -/
def Covers (window last : Nat) : Window → Prop
  | .exact _ => True
  | .counter start _ _ => last < start + window

def Close (window s t : Nat) : Prop := t ≤ s + (Nat.pow 2 32 - 1) * window

variable {last : Nat} {w : Window}

theorem word_mul (window : Nat) : Nat.pow 2 32 * window = (Nat.pow 2 32 - 1) * window + window := by
  rw [← Nat.succ_mul]

theorem Covers.sees (h : w.Covers window last) (hclose : Close window last now) : w.Sees window now := by
  cases w with
  | exact stamps => trivial
  | counter start current previous =>
    change last < start + window at h
    show now < start + Nat.pow 2 32 * window
    unfold Close at hclose
    rw [word_mul]
    omega

theorem rotate_covers (hwindow : 0 < window) (h : now < b.start + Nat.pow 2 32 * window) :
    (rotate window now b).window.Covers window now := by
  have hnext := Nat.lt_mul_div_succ (now - b.start) hwindow
  show now < (rotate window now b).start + window
  rw [rotate_eq window now b hwindow]
  dsimp only
  rw [Nat.mod_eq_of_lt (gone_lt hwindow h)]
  rw [Nat.mul_succ] at hnext
  omega

theorem upToDate_covers (exactly : Bool) (hwindow : 0 < window) (h : w.Sees window now) :
    (w.upToDate Rat exactly window now).Covers window now := by
  cases w with
  | exact stamps =>
    cases exactly with
    | true => trivial
    | false =>
      refine rotate_covers (b := ⟨now, (live window now stamps).length, 0⟩) hwindow ?_
      exact Nat.lt_add_of_pos_right (Nat.mul_pos (Nat.pow_pos (by decide)) hwindow)
  | counter start current previous =>
    cases exactly with
    | true => trivial
    | false => exact rotate_covers (b := ⟨start, current, previous⟩) hwindow h

theorem check_covers (exactly : Bool) (limit : Nat) (hwindow : 0 < window) (h : w.Sees window now) :
    (w.check Rat exactly limit window now).2.Covers window now := by
  have hcovers := upToDate_covers exactly hwindow h
  rw [check_snd]
  split_ifs
  · cases hw : w.upToDate Rat exactly window now with
    | exact stamps => trivial
    | counter start current previous =>
      rw [hw] at hcovers
      exact hcovers
  · exact hcovers

theorem inWindow_covers (hwindow : 0 < window) (h : w.Sees window now) :
    (w.inWindow Rat window now).2.Covers window now := by
  cases w with
  | exact stamps => trivial
  | counter start current previous => exact rotate_covers (b := ⟨start, current, previous⟩) hwindow h

theorem Sees.not_returns (hwindow : 0 < window) (hle : now ≤ later) (h : b.window.Sees window later) :
    ¬ b.Returns window now later := by
  rintro ⟨hfull, hnone, -⟩
  have hmore := place_mono window b.start hle
  rw [Nat.mod_eq_of_lt (gone_lt hwindow h)] at hnone
  unfold place at hmore
  rw [hnone] at hmore
  rw [Nat.le_zero.mp hmore, Nat.zero_mod] at hfull
  exact absurd hfull (by decide)

end Window

/-! ## A run -/

namespace Limiter

variable {l : Limiter Rat} {key : String} {last now : Nat} {calls before : List Call} {w : Window}

/-- A window that a run left behind, with its last look at `last`. -/
structure Visited (l : Limiter Rat) (key : String) (calls : List Call) (last : Nat) (w : Window) :
    Prop where
  last_eq : (looked key calls).getLast? = some last
  order : (looked key calls).Pairwise (· ≤ ·) → w.InOrder last
  covers : (looked key calls).IsChain (Window.Close l.settings.window) →
    w.Covers l.settings.window last

theorem Visited.next (h : l.Visited key before last w) :
    ((looked key before ++ [now]).Pairwise (· ≤ ·) → w.InOrder now) ∧
      ((looked key before ++ [now]).IsChain (Window.Close l.settings.window) →
        w.Sees l.settings.window now) := by
  refine ⟨fun hsorted => ?_, fun hchain => ?_⟩
  · rw [List.pairwise_append] at hsorted
    exact (h.order hsorted.1).mono
      (hsorted.2.2 last (List.mem_of_getLast? h.last_eq) now (List.mem_singleton.mpr rfl))
  · rw [List.isChain_append] at hchain
    exact (h.covers hchain.1).sees (hchain.2.2 last h.last_eq now rfl)

theorem fresh_sees (l : Limiter Rat) (limit now : Nat) (hwindow : 0 < l.settings.window) :
    (l.fresh limit now).Sees l.settings.window now := by
  unfold fresh Window.empty
  split_ifs
  · trivial
  · exact Nat.lt_add_of_pos_right (Nat.mul_pos (Nat.pow_pos (by decide)) hwindow)

theorem run_visited (l : Limiter Rat) (key : String) (calls : List Call) (hsound : l.windows.Sound)
    (hnew : l.windows.get? key = none) (hwindow : 0 < l.settings.window) :
    ∀ w, (l.run calls).windows.get? key = some w → ∃ last, l.Visited key calls last w := by
  refine run_induction (P := fun calls w? => ∀ w, w? = some w → ∃ last, l.Visited key calls last w)
    key calls hsound hnew (by simp) ?_
  intro before c w? _ _ hbefore w' hw'
  cases hlooks : c.looks? key with
  | none =>
    have hlooked : looked key (before ++ [c]) = looked key before := by
      rw [looked_append_singleton, hlooks]
      exact List.append_nil _
    rw [Call.windowAfter_of_looks?_none hlooks] at hw'
    obtain ⟨last, hlast, horder, hcovers⟩ := hbefore w' hw'
    exact ⟨last, hlooked ▸ hlast, hlooked ▸ horder, hlooked ▸ hcovers⟩
  | some now =>
    have hlooked : looked key (before ++ [c]) = looked key before ++ [now] := by
      rw [looked_append_singleton, hlooks]
      rfl
    have hlast : (looked key (before ++ [c])).getLast? = some now := by
      rw [hlooked, List.getLast?_append]
      rfl
    rcases Call.windowAfter_cases hlooks hw' with ⟨who, limit, -, -, -, rfl⟩ | ⟨w, rfl, rfl⟩
    · refine ⟨now, hlast, fun hsorted => (Window.check_decides _ _ limit hwindow ?_).2, fun hchain =>
        Window.check_covers _ limit hwindow ?_⟩
      · cases w? with
        | none => exact l.fresh_inOrder limit now
        | some w =>
          obtain ⟨last, hvisited⟩ := hbefore w rfl
          exact hvisited.next.1 (hlooked ▸ hsorted)
      · cases w? with
        | none => exact l.fresh_sees limit now hwindow
        | some w =>
          obtain ⟨last, hvisited⟩ := hbefore w rfl
          exact hvisited.next.2 (hlooked ▸ hchain)
    · obtain ⟨last, hvisited⟩ := hbefore w rfl
      exact ⟨now, hlast, fun hsorted => (w.inWindow_spec hwindow (hvisited.next.1 (hlooked ▸ hsorted))).2,
        fun hchain => Window.inWindow_covers hwindow (hvisited.next.2 (hlooked ▸ hchain))⟩

/-- Changing the form of a window frees no room. A count that takes the place of times shows at least as many
requests as the times would have. Times that take the place of a count show at least as much as the count
would have until a window later, unless so many buckets went by in between that their number is cut to none;
that cannot be where the calls are close enough. -/
theorem reshape_frees_nothing (assign : String → Nat) (settings : RateSettings) (who : Identity)
    (calls : List Call) (w : Window) (now : Nat) (hsorted : (looked who.key calls).Pairwise (· ≤ ·))
    (hnow : ∀ t ∈ looked who.key calls, t ≤ now)
    (hw : ((new assign settings : Limiter Rat).run calls).windows.get? who.key = some w) :
    (∀ stamps, w = .exact stamps → ∀ later, now ≤ later →
      ((Window.live settings.window later stamps).length : Rat) ≤
        ((w.reshape Rat false settings.window now).inWindow Rat settings.window later).1) ∧
    (∀ b : Window.Bucket, w = b.window → ∀ later, now ≤ later → later < now + settings.window →
      ((w.inWindow Rat settings.window later).1 ≤
          ((w.reshape Rat true settings.window now).inWindow Rat settings.window later).1 ↔
        ¬ b.Returns settings.window now later) ∧
      ((looked who.key calls ++ [later]).IsChain (Window.Close settings.window) →
        (w.inWindow Rat settings.window later).1 ≤
          ((w.reshape Rat true settings.window now).inWindow Rat settings.window later).1)) := by
  have hvisited := run_visited (new assign settings) who.key calls (Shards.new_sound _ _ _)
    (Shards.get?_new _ _ _ _)
  refine ⟨?_, ?_⟩
  · rintro stamps rfl later hle
    rcases settings.window.eq_zero_or_pos with hzero | hwindow
    · -- A window without length shows no times.
      have hnone : Window.live settings.window later stamps = [] :=
        List.filter_eq_nil_iff.mpr fun s _ => by simp [hzero]
      rw [hnone]
      exact Window.inWindow_nonneg _
    · obtain ⟨last, hlast⟩ := hvisited hwindow _ hw
      have horder := (hlast.order hsorted).mono (hnow last (List.mem_of_getLast? hlast.last_eq))
      exact Window.live_length_le_counted stamps horder.2 hle
  · rintro b rfl later hle hlt
    have hwindow : 0 < settings.window := by omega
    have hiff : (b.window.inWindow Rat settings.window later).1 ≤
        ((b.window.reshape Rat true settings.window now).inWindow Rat settings.window later).1 ↔
          ¬ b.Returns settings.window now later := by
      rw [Window.inWindow_carried b hle hlt]
      exact Window.weighted_le_carried_iff hle hlt
    refine ⟨hiff, fun hchain => hiff.mpr ?_⟩
    obtain ⟨last, hlast⟩ := hvisited hwindow _ hw
    exact Window.Sees.not_returns hwindow hle (hlast.next.2 hchain)

def twoRequests : List Call := [.check bob 2 0, .check bob 2 50]

theorem reshape_frees_nothing_twoRequests :
    (looked bob.key twoRequests).Pairwise (· ≤ ·) ∧ (∀ t ∈ looked bob.key twoRequests, t ≤ 80) ∧
    ((new (fun _ => 0) aMinute : Limiter Rat).run twoRequests).windows.get? bob.key =
      some (.exact [0, 50]) ∧
    ((Window.live 60 90 [0, 50]).length : Rat) ≤
      (((Window.exact [0, 50]).reshape Rat false 60 80).inWindow Rat 60 90).1 ∧
    ((new (fun _ => 0) inBuckets : Limiter Rat).run twoRequests).windows.get? bob.key =
      some (Window.Bucket.window ⟨0, 2, 0⟩) ∧
    (looked bob.key twoRequests ++ [100]).IsChain (Window.Close 60) ∧
    ((Window.Bucket.window ⟨0, 2, 0⟩).inWindow Rat 60 100).1 ≤
      (((Window.Bucket.window ⟨0, 2, 0⟩).reshape Rat true 60 80).inWindow Rat 60 100).1 := by
  have hlooked : looked bob.key twoRequests = [0, 50] := by decide +kernel
  have hsorted : (looked bob.key twoRequests).Pairwise (· ≤ ·) := by
    rw [hlooked]
    decide
  have hnow : ∀ t ∈ looked bob.key twoRequests, t ≤ 80 := by
    rw [hlooked]
    decide
  have hchain : (looked bob.key twoRequests ++ [100]).IsChain (Window.Close 60) := by
    rw [hlooked]
    simp [Window.Close]
  have htimes : ((new (fun _ => 0) aMinute : Limiter Rat).run twoRequests).windows.get? bob.key =
      some (.exact [0, 50]) := by
    decide +kernel
  have hcount : ((new (fun _ => 0) inBuckets : Limiter Rat).run twoRequests).windows.get? bob.key =
      some (Window.Bucket.window ⟨0, 2, 0⟩) := by
    decide +kernel
  exact ⟨hsorted, hnow, htimes,
    (reshape_frees_nothing (fun _ => 0) aMinute bob twoRequests _ 80 hsorted hnow htimes).1 _ rfl 90
      (by decide), hcount, hchain,
    ((reshape_frees_nothing (fun _ => 0) inBuckets bob twoRequests _ 80 hsorted hnow hcount).2 _ rfl 100
      (by decide) (by decide)).2 hchain⟩

def twoNanosExact : RateSettings := { window := 2, maxTracked := 16, maxExact := 1 }

def longQuiet : List Call := [.check bob 3 0, .check bob 3 1]

/-- Their count is dropped when it becomes times a nanosecond before the number of buckets that went by is cut
to none, and it would have shown again right after that. -/
theorem reshape_frees_longQuiet :
    (looked bob.key longQuiet).Pairwise (· ≤ ·) ∧
    ((new (fun _ => 0) twoNanosExact : Limiter Rat).run longQuiet).windows.get? bob.key =
      some (.counter 0 2 0) ∧
    (looked bob.key longQuiet ++ [8589934591, 8589934592]).IsChain
      (fun s t => t < s + Nat.pow 2 32 * twoNanosExact.window) ∧
    ((Window.counter 0 2 0).inWindow Rat twoNanosExact.window 8589934592).1 = 2 ∧
    (((Window.counter 0 2 0).reshape Rat true twoNanosExact.window 8589934591).inWindow Rat
      twoNanosExact.window 8589934592).1 = 0 := by
  refine ⟨by decide +kernel, by decide +kernel, by decide +kernel, by decide +kernel, by decide +kernel⟩

end Limiter

end Admission
