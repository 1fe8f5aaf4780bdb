import Admission.Proofs.Rate.Counted

/-!
# Waiting for the next bucket

Who is refused above the exact limit is told to wait for the end of the bucket of now. What that bucket holds
then weighs in full, and so it depends on how many requests it holds whether there is room.
-/

namespace Admission

/-! ## The end of a bucket -/

namespace Window

variable {window now later limit : Nat} {b : Bucket}

/-- When the bucket ends, or now if it is over. -/
def Bucket.ends (window now : Nat) (b : Bucket) : Nat := now + (window - (now - b.start))

theorem Bucket.window_injective : Function.Injective Bucket.window := by
  rintro ⟨start, current, previous⟩ ⟨start', current', previous'⟩ h
  cases h
  rfl

theorem ends_eq (hstart : b.start ≤ now) (hpart : now < b.start + window) :
    b.ends window now = b.start + window := by
  unfold Bucket.ends
  omega

theorem ends_of_over (hover : b.start + window ≤ now) : b.ends window now = now := by
  unfold Bucket.ends
  omega

theorem rotate_before_end (hwindow : 0 < window) (hle : now ≤ later)
    (hlt : later < b.ends window now) : rotate window later b = b := by
  unfold Bucket.ends at hlt
  refine rotate_of_gone window later b hwindow ?_
  rw [Nat.div_eq_of_lt (by omega), Nat.zero_mod]

theorem rotate_at_end (hwindow : 0 < window) (hstart : b.start ≤ now)
    (hpart : now < b.start + window) :
    rotate window (b.ends window now) b = ⟨b.start + window, 0, b.current⟩ := by
  rw [rotate_eq window _ b hwindow, ends_eq hstart hpart, Nat.add_sub_cancel_left,
    Nat.div_self hwindow]
  simp

theorem rotate_rotate_end (hwindow : 0 < window) (hstart : b.start ≤ now) (hle : now ≤ later)
    (hends : later ≤ b.ends window now) :
    rotate window later (rotate window (b.ends window now) b) =
      rotate window (b.ends window now) b := by
  rcases hends.eq_or_lt with rfl | hlt
  · exact rotate_rotate window _ b hwindow
  · have hpart : now < b.start + window := by
      by_contra hover
      rw [ends_of_over (not_lt.mp hover)] at hlt
      omega
    rw [rotate_at_end hwindow hstart hpart]
    refine rotate_of_gone window later _ hwindow ?_
    rw [Nat.sub_eq_zero_of_le (ends_eq hstart hpart ▸ hends), Nat.zero_div, Nat.zero_mod]

theorem weighted_at_end (hwindow : 0 < window) (hstart : b.start ≤ now)
    (hgone : (now - b.start) / window % Nat.pow 2 32 = 0) :
    weighted Rat window (b.ends window now) (rotate window (b.ends window now) b) = b.current := by
  rcases lt_or_ge now (b.start + window) with hpart | hover
  · rw [rotate_at_end hwindow hstart hpart, weighted,
      overlap_of_start window _ _ (ends_eq hstart hpart).le]
    simp
  · rw [ends_of_over hover, rotate_of_gone window now b hwindow hgone, weighted,
      overlap_eq_zero window now b hwindow (by omega)]
    simp

theorem check_at_end (hwindow : 0 < window) (hstart : b.start ≤ now)
    (hgone : (now - b.start) / window % Nat.pow 2 32 = 0) {b' : Bucket}
    (hb' : b' = b ∨ b' = rotate window (b.ends window now) b) :
    (checkCounter Rat limit window (b.ends window now) b').1.allowed = true ↔ b.current < limit := by
  have hone : (1.0 : Rat) = 1 := by norm_num
  have hrotate : rotate window (b.ends window now) b' = rotate window (b.ends window now) b := by
    rcases hb' with rfl | rfl
    · rfl
    · exact rotate_rotate window _ b hwindow
  rw [checkCounter_allowed_iff, hrotate, weighted_at_end hwindow hstart hgone, hone, ← Nat.cast_succ,
    Nat.cast_le]
  exact Nat.succ_le_iff

end Window

/-! ## Waiting in a run -/

namespace Limiter

variable {l : Limiter Rat} {key : String} {limit now : Nat} {calls before between : List Call}
  {b : Window.Bucket}

theorem Uniform.get?_of_nothing {c : Call} (h : l.Uniform key limit (before ++ [c]))
    (hsound : l.windows.Sound) (hlimit : limit ≠ 0) (hcounted : l.settings.maxExact < limit)
    (hb : (l.run before).windows.get? key = some b.window)
    (hnothing : c.admitted? (l.run before) key = none) :
    (l.run (before ++ [c])).windows.get? key = some b.window ∨
    ∃ t, c.looks? key = some t ∧
      (l.run (before ++ [c])).windows.get? key =
        some (Window.rotate l.settings.window t b).window := by
  rw [h.toTimely.get?_run hsound, hb]
  cases hlooks : c.looks? key with
  | none => exact .inl (Call.windowAfter_of_looks?_none hlooks)
  | some t =>
    refine .inr ⟨t, rfl, ?_⟩
    obtain ⟨⟨hkey, hsome⟩, hnow⟩ := Call.looks?_eq_some_iff.mp hlooks
    cases c with
    | check who limit' t' =>
      obtain rfl : who.key = key := hkey
      obtain rfl : t' = t := hnow
      obtain rfl : limit' = limit := h.limit_eq who limit' t' (by simp) rfl
      have hrefused : ¬ (Window.checkCounter Rat limit' l.settings.window t' b).1.allowed = true := by
        intro hallowed
        simp only [Call.admitted?, true_and] at hnothing
        rw [check_run l before who limit' t' hlimit, hb, Option.getD_some,
          verdict_counted hcounted, if_pos hallowed] at hnothing
        cases hnothing
      rw [Call.windowAfter_check who t' hlimit, Option.getD_some, verdict_counted hcounted,
        Window.checkCounter_snd, if_neg hrefused]
    | peek who limit' t' =>
      obtain rfl : who.key = key := hkey
      obtain rfl : t' = t := hnow
      change limit' ≠ 0 at hsome
      rw [Call.windowAfter_peek who t' hsome]
      rfl

theorem Uniform.get?_until_end (h : l.Uniform key limit (before ++ between))
    (hsound : l.windows.Sound) (hwindow : 0 < l.settings.window) (hlimit : limit ≠ 0)
    (hcounted : l.settings.maxExact < limit)
    (hb : (l.run before).windows.get? key = some b.window) (hstart : b.start ≤ now)
    (hlooks : ∀ t ∈ looked key between, now ≤ t ∧ t ≤ b.ends l.settings.window now)
    (hnothing : (l.run before).admitted key between = []) :
    ∃ b' : Window.Bucket, (l.run (before ++ between)).windows.get? key = some b'.window ∧
      (b' = b ∨ b' = Window.rotate l.settings.window (b.ends l.settings.window now) b) := by
  induction between using List.reverseRecOn with
  | nil => exact ⟨b, by rwa [List.append_nil], .inl rfl⟩
  | append_singleton between c ih =>
    rw [← List.append_assoc] at h ⊢
    rw [admitted_append_singleton, List.append_eq_nil_iff, Option.toList_eq_nil_iff] at hnothing
    rw [looked_append_singleton] at hlooks
    obtain ⟨b', hb', hends⟩ := ih (h.of_prefix (List.prefix_append _ _))
      (fun t ht => hlooks t (List.mem_append_left _ ht)) hnothing.1
    have hc : c.admitted? (l.run (before ++ between)) key = none := by
      rw [run, List.foldl_append]
      exact hnothing.2
    rcases h.get?_of_nothing hsound hlimit hcounted hb' hc with hget | ⟨t, ht, hget⟩
    · exact ⟨b', hget, hends⟩
    · -- A look before the end changes nothing, the first one at the end moves the buckets on.
      refine ⟨_, hget, ?_⟩
      obtain ⟨hle, hend⟩ := hlooks t (by simp [ht])
      rcases hends with rfl | rfl
      · rcases hend.eq_or_lt with rfl | hlt
        · exact .inr rfl
        · exact .inl (Window.rotate_before_end hwindow hle hlt)
      · exact .inr (Window.rotate_rotate_end hwindow hstart hle hend)

theorem Uniform.refused {who : Identity} (h : l.Uniform key limit (before ++ [.check who limit now]))
    (hkey : who.key = key) (hsound : l.windows.Sound) (hnew : l.windows.get? key = none)
    (hwindow : 0 < l.settings.window) (hcounted : l.settings.maxExact < limit)
    (hrefused : ((l.run before).check who limit now).1.allowed = false) :
    ∃ first b, l.Counts key limit (before ++ [.check who limit now]) first now b ∧
      (l.run (before ++ [.check who limit now])).windows.get? key = some b.window ∧
      (now - b.start) / l.settings.window % Nat.pow 2 32 = 0 ∧
      ((l.run before).check who limit now).1.retryAfter =
        some (l.settings.window - (now - b.start)) := by
  subst hkey
  obtain ⟨b, hcheck, hafter⟩ := h.check_buckets hsound hnew hcounted rfl
  rw [hcheck] at hrefused ⊢
  have hnot : ¬ (Window.checkCounter Rat limit l.settings.window now b).1.allowed = true := by
    rw [hrefused]
    exact Bool.false_ne_true
  rw [Window.checkCounter_snd, if_neg hnot] at hafter
  have hcounts := h.counted hsound hnew hwindow hcounted
  rw [hafter] at hcounts
  obtain ⟨first, last, b', hb', hcounts⟩ := hcounts
  rw [← Window.Bucket.window_injective hb'] at hcounts
  have hlooks : (Call.check who limit now).looks? who.key = some now :=
    if_pos ⟨rfl, Nat.ne_of_gt ((Nat.zero_le _).trans_lt hcounted)⟩
  obtain rfl : now = last := by
    have hlast := hcounts.last_eq
    rw [looked_append_singleton, hlooks] at hlast
    simpa using hlast
  exact ⟨first, _, hcounts, hafter, Window.gone_rotate _ now b hwindow,
    Window.checkCounter_retryAfter _ now b Rat limit hrefused⟩

/-- A caller who waited as long as it was told, while nothing else was let in, is let in if and only if the
bucket that it waited for the end of was not full. -/
theorem counter_retry (assign : String → Nat) (settings : RateSettings) (who : Identity)
    (limit : Nat) (calls : List Call) (hwindow : 0 < settings.window)
    (hcounted : settings.maxExact < limit)
    (huniform : (new assign settings : Limiter Rat).Uniform who.key limit calls) :
    let l : Limiter Rat := new assign settings
    ∀ before now, before ++ [.check who limit now] <+: calls →
      ((l.run before).check who limit now).1.allowed = false →
      ∃ wait, ∃ b : Window.Bucket,
        ((l.run before).check who limit now).1.retryAfter = some wait ∧
        (l.run (before ++ [.check who limit now])).windows.get? who.key = some b.window ∧
        (∀ first, (checked who.key calls).head? = some first →
          (looked who.key calls).IsChain (Window.Near settings.window first) →
          b.current = Window.countIn settings.window first (Window.place settings.window first now)
            (l.admitted who.key before)) ∧
        ∀ between,
          before ++ [.check who limit now] ++ between ++ [.check who limit (now + wait)] <+: calls →
          (l.run (before ++ [.check who limit now])).admitted who.key between = [] →
          (((l.run (before ++ [.check who limit now] ++ between)).check who limit
            (now + wait)).1.allowed = true ↔ b.current < limit) := by
  intro l before now hpre hrefused
  have hsound : l.windows.Sound := Shards.new_sound _ _ _
  have hnew : l.windows.get? who.key = none := Shards.get?_new _ _ _ _
  have hlimit : limit ≠ 0 := by omega
  obtain ⟨first, b, hcounts, hafter, hgone, hwait⟩ :=
    (huniform.of_prefix hpre).refused rfl hsound hnew hwindow hcounted hrefused
  have hstart := hcounts.bounded.start_le
  refine ⟨settings.window - (now - b.start), b, hwait, hafter, ?_, ?_⟩
  · intro first' hfirst hchain
    obtain ⟨rest, rfl⟩ := hpre
    obtain rfl : first = first' := by
      rw [checked, List.filterMap_append, List.head?_append, ← checked, hcounts.first_eq] at hfirst
      exact Option.some.inj hfirst
    rw [looked_append, List.isChain_append] at hchain
    have htally := (hcounts.tallied hchain.1).eq_tally
    have hadmitted : l.admitted who.key (before ++ [.check who limit now]) =
        l.admitted who.key before := by
      rw [admitted_append_singleton, Call.admitted?, hrefused]
      simp
    rw [hadmitted] at htally
    exact congrArg Window.Bucket.current htally
  · intro between hpre' hnothing
    have hall := huniform.of_prefix hpre'
    have hlooks : (Call.check who limit (now + (settings.window - (now - b.start)))).looks? who.key =
        some (b.ends settings.window now) := if_pos ⟨rfl, hlimit⟩
    have hlast := hall.toTimely.le_of_looks _ hlooks
    have hsorted := (hall.of_prefix (List.prefix_append _ _)).toTimely.sorted
    have hbetween : ∀ t ∈ looked who.key between, now ≤ t ∧ t ≤ b.ends settings.window now := by
      intro t ht
      rw [looked_append] at hsorted hlast
      refine ⟨(List.pairwise_append.mp hsorted).2.2 now ?_ t ht, hlast t (List.mem_append_right _ ht)⟩
      exact List.mem_of_getLast? hcounts.last_eq
    obtain ⟨b', hget, hends⟩ := (hall.of_prefix (List.prefix_append _ _)).get?_until_end hsound hwindow
      hlimit hcounted hafter hstart hbetween hnothing
    rw [check_run l _ who limit _ hlimit, hget, Option.getD_some, verdict_counted hcounted]
    exact Window.check_at_end hwindow hstart hgone hends

def nextBucket : List Call :=
  [.check bob 2 0, .check bob 2 50] ++ [.check bob 2 65] ++ [.peek bob 2 100] ++ [.check bob 2 120]

theorem counter_retry_nextBucket :
    let l : Limiter Rat := new (fun _ => 0) inBuckets
    0 < inBuckets.window ∧ inBuckets.maxExact < 2 ∧ l.Uniform bob.key 2 nextBucket ∧
    ((l.run [.check bob 2 0, .check bob 2 50]).check bob 2 65).1 = .refused 55 ∧
    ∃ b : Window.Bucket,
      (l.run ([.check bob 2 0, .check bob 2 50] ++ [.check bob 2 65])).windows.get? bob.key =
        some b.window ∧
      (((l.run ([.check bob 2 0, .check bob 2 50] ++ [.check bob 2 65] ++ [.peek bob 2 100])).check
        bob 2 (65 + 55)).1.allowed = true ↔ b.current < 2) := by
  dsimp only
  have huniform : (new (fun _ => 0) inBuckets : Limiter Rat).Uniform bob.key 2 nextBucket := by
    refine uniform_of_alone _ bob 2 nextBucket (Shards.new_sound _ _ _) ?_ ?_ (by decide +kernel)
    · simp [nextBucket, Call.who]
    · simp [nextBucket, Call.limit]
  have hrefused : (((new (fun _ => 0) inBuckets : Limiter Rat).run
      [.check bob 2 0, .check bob 2 50]).check bob 2 65).1 = .refused 55 := by
    decide +kernel
  obtain ⟨wait, b, hwait, hb, -, hagain⟩ :=
    counter_retry (fun _ => 0) inBuckets bob 2 nextBucket (by decide) (by decide) huniform
      [.check bob 2 0, .check bob 2 50] 65 ⟨[.peek bob 2 100, .check bob 2 120], rfl⟩
      (by rw [hrefused]; rfl)
  obtain rfl : 55 = wait :=
    Option.some.inj ((congrArg RateCheck.retryAfter hrefused).symm.trans hwait)
  refine ⟨by decide, by decide, huniform, hrefused, b, hb, ?_⟩
  exact hagain [.peek bob 2 100] (List.prefix_refl nextBucket) (by decide +kernel)

def fullBucket : List Call :=
  [.check bob 2 0, .check bob 2 0] ++ [.check bob 2 15] ++ [] ++ [.check bob 2 (15 + 45)]

theorem counter_retry_fullBucket :
    let l : Limiter Rat := new (fun _ => 0) inBuckets
    l.Uniform bob.key 2 fullBucket ∧
    ((l.run [.check bob 2 0, .check bob 2 0]).check bob 2 15).1 = .refused 45 ∧
    ((l.run [.check bob 2 0, .check bob 2 0, .check bob 2 15]).check bob 2 (15 + 45)).1 =
      .refused 60 := by
  refine ⟨?_, by decide +kernel, by decide +kernel⟩
  refine uniform_of_alone _ bob 2 fullBucket (Shards.new_sound _ _ _) ?_ ?_ (by decide +kernel)
  · simp [fullBucket, Call.who]
  · simp [fullBucket, Call.limit]

end Limiter

end Admission
