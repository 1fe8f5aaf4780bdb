import Admission.Proofs.Rate.Buckets
import Admission.Proofs.Rate.Timely

/-!
# What a look at a window tells

A window is kept in one of two forms, and a request may call for the other one. What both forms agree on
is how many requests the window holds, a share of a request counting as a whole one: changing the form
leaves this number as it is, a look reads it off, and every request that is allowed adds one to it.
-/

namespace Admission

namespace Amount

theorem floor_eq (x : Rat) : Amount.floor x = ⌊x⌋₊ := rfl

theorem ceil_eq (x : Rat) : Amount.ceil x = ⌈x⌉₊ := by
  unfold Amount.ceil
  rw [floor_eq]
  by_cases hx : 0 ≤ x
  · split
    case isTrue h =>
      refine le_antisymm (Nat.lt_ceil.mpr h) (Nat.ceil_le_floor_add_one x)
    case isFalse h =>
      exact le_antisymm (Nat.floor_le_ceil x) (Nat.ceil_le.mpr (not_lt.mp h))
  · have hneg : x ≤ 0 := le_of_not_ge hx
    rw [Nat.floor_of_nonpos hneg, Nat.ceil_eq_zero.mpr hneg]
    exact if_neg (not_lt.mpr (by simpa using hneg))

theorem floor_sub (n : Nat) (x : Rat) (h : 0 ≤ x) : ⌊(n : Rat) - x⌋₊ = n - ⌈x⌉₊ := by
  have hceil : 0 ≤ ⌈x⌉ := Int.ceil_nonneg h
  rw [← Int.floor_toNat, ← Int.ceil_toNat, sub_eq_add_neg, Int.floor_natCast_add, Int.floor_neg]
  omega

theorem floor_larger_sub (n : Nat) (x : Rat) (h : 0 ≤ x) :
    Amount.floor (Amount.larger ((n : Rat) - x) 0) = n - Amount.ceil x := by
  rw [ceil_eq, ← floor_sub n x h]
  unfold Amount.larger
  split_ifs with hle hself
  · exact (Nat.floor_of_nonpos hle).symm
  · rfl
  · exact absurd (le_refl ((n : Rat) - x)) hself

end Amount

/-! ## One window -/

namespace Window

variable (window now : Nat)

/-- The requests that the window holds. A share of a request counts as a whole one. -/
def used (w : Window) : Nat := Amount.ceil (w.inWindow Rat window now).1

/-- Times are in order, and none of them is yet to come. -/
def InOrder : Window → Prop
  | .exact stamps => stamps.Pairwise (· ≤ ·) ∧ ∀ s ∈ stamps, s ≤ now
  | .counter .. => True

theorem InOrder.mono {now later : Nat} {w : Window} (h : w.InOrder now) (hle : now ≤ later) :
    w.InOrder later := by
  cases w with
  | exact stamps => exact ⟨h.1, fun s hs => (h.2 s hs).trans hle⟩
  | counter start current previous => trivial

variable {window now}

theorem used_exact (stamps : List Nat) :
    (exact stamps).used window now = (live window now stamps).length := by
  unfold used inWindow
  rw [Amount.ceil_eq]
  exact Nat.ceil_natCast _

theorem used_counter (b : Bucket) :
    b.window.used window now =
      ⌈weighted Rat window now (rotate window now b)⌉₊ := by
  unfold used inWindow
  rw [Amount.ceil_eq]
  rfl

theorem used_rotated (b : Bucket) (hwindow : 0 < window)
    (h : (now - b.start) / window % Nat.pow 2 32 = 0) :
    b.window.used window now = ⌈weighted Rat window now b⌉₊ := by
  rw [used_counter, rotate_of_gone window now b hwindow h]

theorem live_replicate (n : Nat) (hwindow : 0 < window) :
    live window now (List.replicate n now) = List.replicate n now := by
  unfold live
  rw [List.filter_replicate, if_pos (by simpa using hwindow)]

theorem reshape_spec (w : Window) (exactly : Bool) (hwindow : 0 < window) (h : w.InOrder now) :
    (w.reshape Rat exactly window now).used window now = w.used window now ∧
      (w.reshape Rat exactly window now).InOrder now := by
  cases w with
  | counter start current previous =>
    cases exactly with
    | false => exact ⟨rfl, h⟩
    | true =>
      refine ⟨?_, List.pairwise_replicate.mpr (Or.inr le_rfl), fun s hs =>
        (List.eq_of_mem_replicate hs).le⟩
      let b := rotate window now ⟨start, current, previous⟩
      show used window now (exact (List.replicate (Amount.ceil (weighted Rat window now b)) now)) = _
      rw [used_exact, live_replicate _ hwindow, List.length_replicate, Amount.ceil_eq]
      exact (used_counter ⟨start, current, previous⟩).symm
  | exact stamps =>
    cases exactly with
    | true => exact ⟨rfl, h⟩
    | false =>
      refine ⟨?_, trivial⟩
      show (Bucket.window ⟨now, (live window now stamps).length, 0⟩).used window now = _
      rw [used_exact, used_rotated ⟨now, (live window now stamps).length, 0⟩ hwindow (by simp)]
      simp [weighted]

theorem inWindow_nonneg (w : Window) : 0 ≤ (w.inWindow Rat window now).1 := by
  cases w with
  | exact stamps => exact (live window now stamps).length.cast_nonneg
  | counter start current previous => exact weighted_nonneg window now _

theorem inWindow_spec (w : Window) (hwindow : 0 < window) (h : w.InOrder now) :
    (w.inWindow Rat window now).2.used window now = w.used window now ∧
      (w.inWindow Rat window now).2.InOrder now := by
  cases w with
  | exact stamps => exact ⟨rfl, h⟩
  | counter start current previous =>
    refine ⟨?_, trivial⟩
    show (Bucket.window _).used window now = (Bucket.window ⟨start, current, previous⟩).used window now
    rw [used_counter ⟨start, current, previous⟩]
    exact used_rotated (rotate window now ⟨start, current, previous⟩) hwindow
      (gone_rotate window now _ hwindow)

/-- A request was decided on with so many requests in the window: it is allowed if the limit is higher,
and then it counts as well. -/
structure Decides (limit used : Nat) (c : RateCheck) (used' : Nat) : Prop where
  allowed_iff : c.allowed = true ↔ used < limit
  used_eq : used' = if c.allowed then used + 1 else used
  remaining_eq : c.remaining = some (limit - used')

theorem checkExact_decides (limit : Nat) (stamps : List Nat) (hwindow : 0 < window)
    (h : (exact stamps).InOrder now) :
    Decides limit ((exact stamps).used window now) (checkExact limit window now stamps).1
        ((exact (checkExact limit window now stamps).2).used window now) ∧
      (exact (checkExact limit window now stamps).2).InOrder now := by
  have hsub : (live window now stamps).Sublist stamps := List.filter_sublist
  have hkept : live window now (live window now stamps) = live window now stamps := by
    unfold live
    rw [List.filter_filter]
    simp only [Bool.and_self]
  have hown : live window now [now] = [now] := live_replicate 1 hwindow
  unfold checkExact
  rw [dropWhile_eq_live window now stamps h.1]
  dsimp only
  rw [used_exact]
  split_ifs with hroom
  · have hused : (live window now (live window now stamps ++ [now])).length =
        (live window now stamps).length + 1 := by
      unfold live at hkept hown ⊢
      rw [List.filter_append, hkept, hown, List.length_append, List.length_singleton]
    refine ⟨⟨by simpa [RateCheck.accepted] using hroom, ?_, ?_⟩, ?_, ?_⟩
    · rw [used_exact, hused]
      rfl
    · rw [used_exact, hused, ← Nat.sub_sub]
      rfl
    · refine List.pairwise_append.mpr ⟨h.1.sublist hsub, List.pairwise_singleton _ _, ?_⟩
      intro s hs t ht
      rw [List.mem_singleton.mp ht]
      exact h.2 s (hsub.subset hs)
    · intro s hs
      rcases List.mem_append.mp hs with hs | hs
      · exact h.2 s (hsub.subset hs)
      · exact (List.mem_singleton.mp hs).le
  · refine ⟨⟨by simpa [RateCheck.refused] using hroom, ?_, ?_⟩, h.1.sublist hsub,
      fun s hs => h.2 s (hsub.subset hs)⟩
    · rw [used_exact, hkept]
      rfl
    · rw [used_exact, hkept, Nat.sub_eq_zero_of_le (not_lt.mp hroom)]
      rfl

theorem room_iff (limit : Nat) (b : Bucket) :
    weighted Rat window now b + 1.0 ≤ (limit : Rat) ↔ ⌈weighted Rat window now b⌉₊ < limit := by
  have hone : (1.0 : Rat) = 1 := by norm_num
  rw [Nat.lt_iff_add_one_le, ← Nat.ceil_add_one (weighted_nonneg window now b), Nat.ceil_le, ← hone]

theorem checkCounter_decides (limit : Nat) (b : Bucket) (hwindow : 0 < window) :
    Decides limit (b.window.used window now)
      (checkCounter Rat limit window now b).1
      ((checkCounter Rat limit window now b).2.window.used window now) := by
  have hgone := gone_rotate window now b hwindow
  rw [used_counter b]
  unfold checkCounter
  generalize rotate window now b = b at hgone
  have hnonneg := weighted_nonneg window now b
  have hone : (1.0 : Rat) = 1 := by norm_num
  dsimp only
  split_ifs with hroom
  · have hused : (Bucket.window { b with current := b.current + 1 }).used window now =
        ⌈weighted Rat window now b⌉₊ + 1 := by
      rw [used_rotated { b with current := b.current + 1 } hwindow hgone, weighted_record,
        Nat.ceil_add_one hnonneg]
    refine ⟨by simpa [RateCheck.accepted] using (room_iff limit b).mp hroom, hused, ?_⟩
    rw [hused, ← Nat.ceil_add_one hnonneg, ← Amount.floor_sub _ _ (by linarith), ← sub_sub, ← hone]
    rfl
  · have hused := used_rotated b hwindow hgone
    have hfull : limit ≤ ⌈weighted Rat window now b⌉₊ := not_lt.mp (mt (room_iff limit b).mpr hroom)
    refine ⟨by simpa [RateCheck.refused] using hfull, hused, ?_⟩
    rw [hused, Nat.sub_eq_zero_of_le hfull]
    rfl

theorem check_decides (w : Window) (exactly : Bool) (limit : Nat) (hwindow : 0 < window)
    (h : w.InOrder now) :
    Decides limit (w.used window now) (w.check Rat exactly limit window now).1
        ((w.check Rat exactly limit window now).2.used window now) ∧
      (w.check Rat exactly limit window now).2.InOrder now := by
  obtain ⟨hused, horder⟩ := w.reshape_spec exactly hwindow h
  rw [← hused]
  unfold check
  cases hform : w.reshape Rat exactly window now with
  | exact stamps =>
    rw [hform] at horder
    exact checkExact_decides limit stamps hwindow horder
  | counter start current previous =>
    exact ⟨checkCounter_decides limit ⟨start, current, previous⟩ hwindow, trivial⟩

end Window

/-! ## A limiter -/

namespace Limiter

def used (l : Limiter Rat) (key : String) (now : Nat) : Nat :=
  ((l.windows.get? key).map (Window.used l.settings.window now)).getD 0

def InOrder (l : Limiter Rat) (key : String) (now : Nat) : Prop :=
  ∀ w ∈ l.windows.get? key, w.InOrder now

variable {l : Limiter Rat} {who : Identity} {limit now : Nat}

theorem fresh_inOrder (l : Limiter Rat) (limit now : Nat) : (l.fresh limit now).InOrder now := by
  unfold fresh Window.empty
  split_ifs
  · exact ⟨.nil, by simp⟩
  · trivial

theorem used_fresh (l : Limiter Rat) (limit now : Nat) (hwindow : 0 < l.settings.window) :
    (l.fresh limit now).used l.settings.window now = 0 := by
  unfold fresh Window.empty
  split_ifs
  · rw [Window.used_exact]
    rfl
  · exact (Window.used_rotated ⟨now, 0, 0⟩ hwindow (by simp)).trans (by simp [Window.weighted])

theorem check_decides (hsound : l.windows.Sound) (hwindow : 0 < l.settings.window) (hlimit : limit ≠ 0)
    (h : l.InOrder who.key now) :
    Window.Decides limit (l.used who.key now) (l.check who limit now).1
        ((l.check who limit now).2.used who.key now) ∧
      (l.check who limit now).2.InOrder who.key now := by
  have hget := l.get?_call_check who limit now hsound hlimit
  have hsettings := l.call_settings (.check who limit now)
  change (l.check who limit now).2.windows.get? who.key = _ at hget
  change (l.check who limit now).2.settings = _ at hsettings
  have hstart : (l.startsFrom who.key limit now).InOrder now ∧
      (l.startsFrom who.key limit now).used l.settings.window now = l.used who.key now := by
    unfold startsFrom used
    cases hw : l.windows.get? who.key with
    | some w => exact ⟨h w hw, rfl⟩
    | none => exact ⟨l.fresh_inOrder limit now, l.used_fresh limit now hwindow⟩
  obtain ⟨hdecides, horder⟩ := Window.check_decides _ (l.isExact limit) limit hwindow hstart.1
  have hused : (l.check who limit now).2.used who.key now =
      (l.verdict limit now (l.startsFrom who.key limit now)).2.used l.settings.window now := by
    rw [used, hget, hsettings]
    rfl
  refine ⟨?_, ?_⟩
  · rw [l.check_fst who limit now hlimit, hused, ← hstart.2]
    exact hdecides
  · intro w hw
    rw [hget] at hw
    cases hw
    exact horder

theorem peek_eq (hlimit : limit ≠ 0) :
    (l.peek who limit now).1 =
      ⟨0 < limit - l.used who.key now, some (limit - l.used who.key now), none⟩ := by
  have hremaining : Amount.floor (Amount.larger ((limit : Rat) -
      ((l.windows.get? who.key).map fun w => (w.inWindow Rat l.settings.window now).1).getD 0) 0) =
        limit - l.used who.key now := by
    unfold used
    cases l.windows.get? who.key with
    | none => exact Amount.floor_larger_sub limit 0 le_rfl
    | some w => exact Amount.floor_larger_sub limit _ (w.inWindow_nonneg)
  unfold peek
  rw [if_neg hlimit]
  dsimp only
  rw [Shards.modify_fst, hremaining]

theorem peek_keeps (limit : Nat) (hsound : l.windows.Sound) (hwindow : 0 < l.settings.window)
    (h : l.InOrder who.key now) :
    (l.peek who limit now).2.used who.key now = l.used who.key now ∧
      (l.peek who limit now).2.InOrder who.key now := by
  by_cases hlimit : limit = 0
  · subst hlimit
    exact ⟨rfl, h⟩
  · have hget := l.get?_call_peek who limit now hsound hlimit
    have hsettings := l.call_settings (.peek who limit now)
    change (l.peek who limit now).2.windows.get? who.key = _ at hget
    change (l.peek who limit now).2.settings = _ at hsettings
    unfold used InOrder
    rw [hget, hsettings]
    cases hw : l.windows.get? who.key with
    | none => exact ⟨rfl, by simp⟩
    | some w =>
      obtain ⟨hused, horder⟩ := w.inWindow_spec hwindow (h w hw)
      refine ⟨hused, ?_⟩
      rintro _ ⟨⟩
      exact horder

theorem run_checks (hsound : l.windows.Sound) (hwindow : 0 < l.settings.window) (hlimit : limit ≠ 0)
    (h : l.InOrder who.key now) (k : Nat) :
    (l.run (List.replicate k (.check who limit now))).used who.key now =
        max (l.used who.key now) (min (l.used who.key now + k) limit) ∧
      (l.run (List.replicate k (.check who limit now))).InOrder who.key now := by
  induction k with
  | zero => exact ⟨by simp [run], h⟩
  | succ k ih =>
    obtain ⟨hused, horder⟩ := ih
    rw [List.replicate_succ', run_append_singleton]
    obtain ⟨hdecides, hafter⟩ :=
      check_decides (l.run_sound _ hsound) (by simpa using hwindow) hlimit horder
    refine ⟨?_, hafter⟩
    have heq := hdecides.used_eq
    have hiff := hdecides.allowed_iff
    rw [hused] at heq hiff
    refine heq.trans ?_
    split_ifs with hallowed
    · have hroom := hiff.mp hallowed
      omega
    · have hfull := mt hiff.mpr hallowed
      omega

theorem Timely.inOrder {key : String} {calls : List Call} (h : l.Timely key calls)
    (hsound : l.windows.Sound) (hwindow : 0 < l.settings.window) (hnew : l.windows.get? key = none)
    (hnow : ∀ t ∈ looked key calls, t ≤ now) : (l.run calls).InOrder key now := by
  have hall := h.induction
    (P := fun calls w => ∀ now, (∀ t ∈ looked key calls, t ≤ now) → ∀ w' ∈ w, w'.InOrder now)
    hsound hnew (by simp) ?step
  case step =>
    intro before c w hpre _ hbefore now hnow w' hw'
    rw [looked_append_singleton] at hnow
    have hpast : ∀ t ∈ looked key before, t ≤ now := fun t ht => hnow t (List.mem_append_left _ ht)
    cases hlooks : c.looks? key with
    | none =>
      rw [Call.windowAfter_of_looks?_none hlooks] at hw'
      exact hbefore now hpast w' hw'
    | some seen =>
      have hseen := (h.of_prefix hpre).le_of_looks seen hlooks
      have hle : seen ≤ now := hnow seen (by simp [hlooks])
      obtain ⟨hown, rfl⟩ := Call.looks?_eq_some_iff.mp hlooks
      refine Window.InOrder.mono ?_ hle
      cases c with
      | check who limit seen =>
        have hstart : (w.getD (l.fresh limit seen)).InOrder seen := by
          cases w with
          | none => exact l.fresh_inOrder limit seen
          | some w => exact hbefore seen hseen w rfl
        cases (if_pos hown).symm.trans hw'
        exact (Window.check_decides _ _ limit hwindow hstart).2
      | peek who limit seen =>
        obtain ⟨w, hw, rfl⟩ := Option.map_eq_some_iff.mp ((if_pos hown).symm.trans hw')
        exact (w.inWindow_spec hwindow (hbefore seen hseen w hw)).2
  exact hall now hnow

/-- What a look reports is what is let in next: as many checks in a row as it says, and not one more. And
every check that is made reports what a look reports right after it. -/
theorem peek_truthful (assign : String → Nat) (settings : RateSettings) (who : Identity)
    (calls : List Call) (limit now : Nat) (hwindow : 0 < settings.window)
    (htimely : (new assign settings : Limiter Rat).Timely who.key calls)
    (hnow : ∀ t ∈ looked who.key calls, t ≤ now) :
    let l := (new assign settings : Limiter Rat).run calls
    (limit ≠ 0 → ∃ remaining, (l.peek who limit now).1.remaining = some remaining ∧
      ∀ k, ((((l.call (.peek who limit now)).run
        (List.replicate k (.check who limit now))).check who limit now).1.allowed = true ↔
          k < remaining)) ∧
    (l.check who limit now).1.remaining =
      ((l.call (.check who limit now)).peek who limit now).1.remaining := by
  intro l
  have hsettings : l.settings = settings := run_settings _ calls
  have hsound : l.windows.Sound := run_sound _ calls (Shards.new_sound _ _ _)
  have hpos : 0 < l.settings.window := hsettings ▸ hwindow
  have horder : l.InOrder who.key now :=
    htimely.inOrder (Shards.new_sound _ _ _) hwindow (Shards.get?_new _ _ _ _) hnow
  refine ⟨?_, ?_⟩
  · intro hlimit
    obtain ⟨hused, hlooked⟩ := peek_keeps limit hsound hpos horder
    have hsound' := l.call_sound (.peek who limit now) hsound
    have hpos' : 0 < (l.call (.peek who limit now)).settings.window := by simpa using hpos
    refine ⟨limit - l.used who.key now, by rw [peek_eq hlimit], fun k => ?_⟩
    obtain ⟨hfilled, hkept⟩ := run_checks hsound' hpos' hlimit hlooked k
    have hdecides := (check_decides (run_sound _ _ hsound') (by simpa using hpos') hlimit hkept).1
    rw [hdecides.allowed_iff, hfilled]
    change (l.call (.peek who limit now)).used who.key now = _ at hused
    rw [hused]
    omega
  · by_cases hlimit : limit = 0
    · subst hlimit
      rfl
    · rw [(check_decides hsound hpos hlimit horder).1.remaining_eq, peek_eq hlimit]
      rfl

def switching : List Call := [.check bob 2 0, .check bob 12 30, .peek bob 12 95]

theorem peek_truthful_switching :
    let l : Limiter Rat := new (fun _ => 0) aMinute
    0 < aMinute.window ∧ l.Timely bob.key switching ∧ (∀ t ∈ looked bob.key switching, t ≤ 100) ∧
    ((l.run switching).peek bob 3 100).1 = ⟨true, some 1, none⟩ ∧
    (∀ k, ((((l.run switching).call (.peek bob 3 100)).run
      (List.replicate k (.check bob 3 100))).check bob 3 100).1.allowed = true ↔ k < 1) ∧
    (((l.run switching).call (.check bob 3 100)).peek bob 3 100).1.remaining = some 0 := by
  dsimp only
  have htimely : (new (fun _ => 0) aMinute : Limiter Rat).Timely bob.key switching := by
    refine timely_of_alone _ bob switching (Shards.new_sound _ _ _) ?_ (by decide +kernel)
    simp [switching, Call.who]
  have hnow : ∀ t ∈ looked bob.key switching, t ≤ 100 := by decide +kernel
  have htruth := peek_truthful (fun _ => 0) aMinute bob switching 3 100 (by decide) htimely hnow
  dsimp only at htruth
  have hone : (((new (fun _ => 0) aMinute : Limiter Rat).run switching).peek bob 3 100).1 =
      ⟨true, some 1, none⟩ := by
    decide +kernel
  have hnone : (((new (fun _ => 0) aMinute : Limiter Rat).run switching).check bob 3 100).1.remaining =
      some 0 := by
    decide +kernel
  obtain ⟨remaining, hremaining, hletsIn⟩ := htruth.1 (by decide)
  obtain rfl : 1 = remaining :=
    Option.some.inj ((congrArg RateCheck.remaining hone).symm.trans hremaining)
  exact ⟨by decide, htimely, hnow, hone, hletsIn, htruth.2.symm.trans hnone⟩

def noTime : RateSettings := { window := 0, maxTracked := 16, maxExact := 10 }

theorem peek_disagrees_noTime :
    let l : Limiter Rat := new (fun _ => 0) noTime
    l.Timely bob.key [] ∧ (l.check bob 2 0).1.remaining = some 1 ∧
    ((l.call (.check bob 2 0)).peek bob 2 0).1.remaining = some 2 ∧
    (((l.call (.peek bob 2 0)).run (List.replicate 2 (.check bob 2 0))).check bob 2 0).1.allowed =
      true := by
  refine ⟨?_, by decide +kernel, by decide +kernel, by decide +kernel⟩
  exact timely_of_alone _ bob [] (Shards.new_sound _ _ _) (by simp) .nil

end Limiter

end Admission
