import Admission.Proofs.Rate.Counter

/-!
# Runs above the exact limit

What a run lets in where the requests are counted in buckets: how many of them any bucket and any window
hold.
-/

namespace Admission.Limiter

variable {l : Limiter Rat} {key : String} {limit : Nat} {calls before : List Call}

/-! ## The buckets of a key -/

theorem fresh_counted (hcounted : l.settings.maxExact < limit) (now : Nat) :
    l.fresh limit now = (⟨now, 0, 0⟩ : Window.Bucket).window := by
  unfold fresh isExact
  rw [decide_eq_false (not_le.mpr hcounted)]
  rfl

theorem verdict_counted (hcounted : l.settings.maxExact < limit) (now : Nat) (b : Window.Bucket) :
    l.verdict limit now b.window =
      ((Window.checkCounter Rat limit l.settings.window now b).1,
        (Window.checkCounter Rat limit l.settings.window now b).2.window) := by
  unfold verdict isExact
  rw [decide_eq_false (not_le.mpr hcounted)]
  rfl

/-- The buckets of a key after a run, where the first check was at `first` and the last look at `last`. -/
structure Counts (l : Limiter Rat) (key : String) (limit : Nat) (calls : List Call) (first last : Nat)
    (b : Window.Bucket) : Prop where
  first_eq : (checked key calls).head? = some first
  last_eq : (looked key calls).getLast? = some last
  bounded : Window.Bounded l.settings.window limit first last (l.admitted key calls) b
  tallied : (looked key calls).IsChain (Window.Near l.settings.window first) →
    Window.Tallied l.settings.window limit first last (l.admitted key calls) b

/-- The window of a key counts what the run let in. -/
def Counted (l : Limiter Rat) (key : String) (limit : Nat) (calls : List Call) : Option Window → Prop
  | none => checked key calls = [] ∧ l.admitted key calls = []
  | some w => ∃ first last b, w = b.window ∧ l.Counts key limit calls first last b

theorem Counted.quiet {w : Option Window} {c : Call} (h : l.Counted key limit before w)
    (hlooks : c.looks? key = none) (hchecks : c.checks? key = none)
    (hadmitted : c.admitted? (l.run before) key = none) : l.Counted key limit (before ++ [c]) w := by
  have hlooked : looked key (before ++ [c]) = looked key before := by
    rw [looked_append_singleton, hlooks]
    exact List.append_nil _
  have hchecked : checked key (before ++ [c]) = checked key before := by
    rw [checked_append_singleton, hchecks]
    exact List.append_nil _
  have hallowed : l.admitted key (before ++ [c]) = l.admitted key before := by
    rw [admitted_append_singleton, hadmitted]
    exact List.append_nil _
  cases w with
  | none => exact ⟨hchecked.trans h.1, hallowed.trans h.2⟩
  | some w =>
    obtain ⟨first, last, b, rfl, hcounts⟩ := h
    refine ⟨first, last, b, rfl, hchecked ▸ hcounts.first_eq, hlooked ▸ hcounts.last_eq,
      hallowed ▸ hcounts.bounded, ?_⟩
    rw [hlooked, hallowed]
    exact hcounts.tallied

theorem Counts.look {first last now : Nat} {b b' : Window.Bucket} {c : Call}
    (h : l.Counts key limit before first last b) (hlooks : c.looks? key = some now)
    (hbounded : Window.Bounded l.settings.window limit first now (l.admitted key (before ++ [c])) b')
    (htallied : Window.Near l.settings.window first last now →
      Window.Tallied l.settings.window limit first last (l.admitted key before) b →
      Window.Tallied l.settings.window limit first now (l.admitted key (before ++ [c])) b') :
    l.Counts key limit (before ++ [c]) first now b' := by
  have hlooked : looked key (before ++ [c]) = looked key before ++ [now] := by
    rw [looked_append_singleton, hlooks]
    rfl
  refine ⟨?_, ?_, hbounded, ?_⟩
  · rw [checked_append_singleton, List.head?_append, h.first_eq]
    rfl
  · rw [hlooked, List.getLast?_append]
    rfl
  · intro hchain
    rw [hlooked, List.isChain_append] at hchain
    exact htallied (hchain.2.2 last h.last_eq now rfl) (h.tallied hchain.1)

theorem Call.admitted?_of_checks?_none {c : Call} (l : Limiter Rat) (h : c.checks? key = none) :
    c.admitted? l key = none := by
  cases c with
  | check who limit now =>
    rw [Call.checks?, ite_eq_right_iff] at h
    refine if_neg fun hown => ?_
    cases h hown.1
  | peek who limit now => rfl

theorem admitted_check {who : Identity} (now : Nat) (b : Window.Bucket) (hlimit : limit ≠ 0)
    (hcounted : l.settings.maxExact < limit)
    (hwindow : ((l.run before).windows.get? who.key).getD (l.fresh limit now) = b.window) :
    l.admitted who.key (before ++ [.check who limit now]) =
      if (Window.checkCounter Rat limit l.settings.window now b).1.allowed then
        l.admitted who.key before ++ [now]
      else l.admitted who.key before := by
  rw [admitted_append_singleton]
  simp only [Call.admitted?, true_and]
  rw [check_run l before who limit now hlimit, hwindow, verdict_counted hcounted]
  split_ifs
  · rfl
  · exact List.append_nil _

theorem Counted.check {w : Option Window} {who : Identity} {now : Nat}
    (h : l.Counted who.key limit before w) (hw : (l.run before).windows.get? who.key = w)
    (hwindow : 0 < l.settings.window) (hlimit : limit ≠ 0) (hcounted : l.settings.maxExact < limit)
    (hseen : ∀ t ∈ looked who.key before, t ≤ now) :
    l.Counted who.key limit (before ++ [.check who limit now])
      (some (l.verdict limit now (w.getD (l.fresh limit now))).2) := by
  have hlooks : (Call.check who limit now).looks? who.key = some now := if_pos ⟨rfl, hlimit⟩
  cases w with
  | none =>
    have hadmitted := admitted_check now ⟨now, 0, 0⟩ hlimit hcounted
      (by rw [hw]; exact fresh_counted hcounted now)
    have hbounded := Window.new_bounded l.settings.window limit now
    have hnear : Window.Near l.settings.window now now now :=
      Nat.lt_add_of_pos_right (Nat.pow_pos (by decide))
    rw [h.2] at hadmitted
    rw [Option.getD_none, fresh_counted hcounted, verdict_counted hcounted]
    refine ⟨now, now, _, rfl, ?_, ?_, ?_, fun _ => ?_⟩
    · rw [checked_append_singleton, h.1]
      simp [Call.checks?]
    · rw [looked_append_singleton, hlooks]
      simp
    · rw [hadmitted]
      exact hbounded.check hwindow le_rfl
    · rw [hadmitted]
      exact (Window.new_tallied _ hlimit now).check hbounded hwindow le_rfl hnear
  | some w =>
    obtain ⟨first, last, b, rfl, hcounts⟩ := h
    have hle := hseen last (List.mem_of_getLast? hcounts.last_eq)
    have hadmitted := admitted_check now b hlimit hcounted (by rw [hw]; rfl)
    rw [Option.getD_some, verdict_counted hcounted]
    refine ⟨first, now, _, rfl, hcounts.look hlooks ?_ ?_⟩
    · rw [hadmitted]
      exact hcounts.bounded.check hwindow hle
    · intro hnear htallied
      rw [hadmitted]
      exact htallied.check hcounts.bounded hwindow hle hnear

theorem Counted.peek {w : Option Window} {who : Identity} {limit' now : Nat}
    (h : l.Counted who.key limit before w) (hwindow : 0 < l.settings.window) (hlimit' : limit' ≠ 0)
    (hseen : ∀ t ∈ looked who.key before, t ≤ now) :
    l.Counted who.key limit (before ++ [.peek who limit' now])
      (w.map fun w => (w.inWindow Rat l.settings.window now).2) := by
  have hlooks : (Call.peek who limit' now).looks? who.key = some now := if_pos ⟨rfl, hlimit'⟩
  have hadmitted : l.admitted who.key (before ++ [.peek who limit' now]) =
      l.admitted who.key before := by
    rw [admitted_append_singleton]
    exact List.append_nil _
  cases w with
  | none =>
    refine ⟨?_, hadmitted.trans h.2⟩
    rw [checked_append_singleton, h.1]
    rfl
  | some w =>
    obtain ⟨first, last, b, rfl, hcounts⟩ := h
    have hle := hseen last (List.mem_of_getLast? hcounts.last_eq)
    refine ⟨first, now, Window.rotate l.settings.window now b, rfl, hcounts.look hlooks ?_ ?_⟩
    · rw [hadmitted]
      exact hcounts.bounded.rotate hwindow hle
    · intro hnear htallied
      rw [hadmitted]
      exact htallied.rotate hwindow hcounts.bounded.past hle hnear

theorem Uniform.counted (h : l.Uniform key limit calls) (hsound : l.windows.Sound)
    (hnew : l.windows.get? key = none) (hwindow : 0 < l.settings.window)
    (hcounted : l.settings.maxExact < limit) :
    l.Counted key limit calls ((l.run calls).windows.get? key) := by
  have hlimit : limit ≠ 0 := by omega
  refine h.induction (P := l.Counted key limit) hsound hnew hlimit ⟨rfl, rfl⟩ ?_ ?_ ?_
  · intro before c w hlooks hchecks hbefore
    exact hbefore.quiet hlooks hchecks (Call.admitted?_of_checks?_none _ hchecks)
  · rintro before who now w rfl hseen hw hbefore
    exact hbefore.check hw hwindow hlimit hcounted hseen
  · rintro before who limit' now w rfl hlimit' hseen hbefore
    exact hbefore.peek hwindow hlimit' hseen

theorem Uniform.inBuckets (h : l.Uniform key limit calls) (hsound : l.windows.Sound)
    (hnew : l.windows.get? key = none) (hcounted : l.settings.maxExact < limit) :
    ∀ w, (l.run calls).windows.get? key = some w → ∃ b : Window.Bucket, w = b.window := by
  refine h.induction (P := fun _ w? => ∀ w, w? = some w → ∃ b : Window.Bucket, w = b.window)
    hsound hnew (by omega) (fun w hw => by cases hw) (fun _ _ _ _ _ hbefore => hbefore) ?_ ?_
  · rintro before who now w? rfl - - hbefore w hw
    have hbucket : ∃ b : Window.Bucket, w?.getD (l.fresh limit now) = b.window := by
      cases w? with
      | none => exact ⟨_, fresh_counted hcounted now⟩
      | some w => exact hbefore w rfl
    obtain ⟨b, hb⟩ := hbucket
    rw [hb, verdict_counted hcounted] at hw
    exact ⟨_, (Option.some.inj hw).symm⟩
  · rintro before who limit' now w? rfl - - hbefore w hw
    obtain ⟨w', hw', rfl⟩ := Option.map_eq_some_iff.mp hw
    obtain ⟨b, rfl⟩ := hbefore w' hw'
    exact ⟨Window.rotate l.settings.window now b, rfl⟩

/-! ## What a run lets in -/

section

variable {who : Identity} {first now : Nat} (hsound : l.windows.Sound)
  (hnew : l.windows.get? key = none) (hcounted : l.settings.maxExact < limit)

include hsound hnew hcounted

theorem Uniform.check_buckets (hkey : who.key = key)
    (h : l.Uniform key limit (before ++ [.check who limit now])) :
    ∃ b : Window.Bucket,
      ((l.run before).check who limit now).1 =
        (Window.checkCounter Rat limit l.settings.window now b).1 ∧
      (l.run (before ++ [.check who limit now])).windows.get? key =
        some (Window.checkCounter Rat limit l.settings.window now b).2.window := by
  subst hkey
  have hlimit : limit ≠ 0 := by omega
  have hbucket : ∃ b : Window.Bucket,
      ((l.run before).windows.get? who.key).getD (l.fresh limit now) = b.window := by
    cases hw : (l.run before).windows.get? who.key with
    | none => exact ⟨_, fresh_counted hcounted now⟩
    | some w =>
      exact (h.of_prefix (List.prefix_append _ _)).inBuckets hsound hnew hcounted w hw
  obtain ⟨b, hb⟩ := hbucket
  refine ⟨b, ?_, ?_⟩
  · rw [check_run l before who limit now hlimit, hb, verdict_counted hcounted]
  · rw [h.toTimely.get?_run hsound, Call.windowAfter_check who now hlimit, hb,
      verdict_counted hcounted]

theorem Uniform.weighted_le (hkey : who.key = key)
    (h : l.Uniform key limit (before ++ [.check who limit now]))
    (hallowed : ((l.run before).check who limit now).1.allowed = true) :
    ∃ b : Window.Bucket,
      (l.run (before ++ [.check who limit now])).windows.get? key = some b.window ∧
      Window.weighted Rat l.settings.window now b ≤ limit := by
  obtain ⟨b, hcheck, hafter⟩ := h.check_buckets hsound hnew hcounted hkey
  rw [hcheck] at hallowed
  exact ⟨_, hafter, Window.weighted_checkCounter_le _ now b limit hallowed⟩

theorem Uniform.admitted_spec (h : l.Uniform key limit calls) (hwindow : 0 < l.settings.window) :
    let held (start : Nat) : Nat :=
      (l.admitted key calls).countP fun s => start ≤ s ∧ s < start + l.settings.window
    (∀ first, (checked key calls).head? = some first →
      (∀ m, held (first + m * l.settings.window) ≤ limit) ∧
      ((looked key calls).IsChain (Window.Near l.settings.window first) →
        ∀ start, held start < 2 * limit)) ∧
    ∀ start, held start ≤ 2 * limit := by
  intro held
  have hcounts := h.counted hsound hnew hwindow hcounted
  cases hw : (l.run calls).windows.get? key with
  | none =>
    rw [hw] at hcounts
    refine ⟨fun first hfirst => ?_, fun start => ?_⟩
    · rw [hcounts.1] at hfirst
      cases hfirst
    · simp only [held, hcounts.2, List.countP_nil]
      exact Nat.zero_le _
  | some w =>
    rw [hw] at hcounts
    obtain ⟨first, last, b, rfl, hcounts⟩ := hcounts
    refine ⟨fun first' hfirst => ?_, hcounts.bounded.held_le_twice hwindow⟩
    obtain rfl : first = first' := Option.some.inj (hcounts.first_eq.symm.trans hfirst)
    exact ⟨hcounts.bounded.held_le hwindow, fun hchain => (hcounts.tallied hchain).below⟩

end

/-- Above the exact limit no bucket lets in more than the limit, and after every check that is allowed the
weighted number is no higher than the limit. No window that begins anywhere holds more than twice the limit,
and none holds as much where no bucket goes by unseen. -/
theorem counter_window (assign : String → Nat) (settings : RateSettings) (who : Identity)
    (limit : Nat) (calls : List Call) (hcounted : settings.maxExact < limit)
    (huniform : (new assign settings : Limiter Rat).Uniform who.key limit calls) :
    let l : Limiter Rat := new assign settings
    let held (start : Nat) : Nat :=
      (l.admitted who.key calls).countP fun s => start ≤ s ∧ s < start + settings.window
    (∀ first, (checked who.key calls).head? = some first →
      (∀ m, held (first + m * settings.window) ≤ limit) ∧
      ((looked who.key calls).IsChain (Window.Near settings.window first) →
        ∀ start, held start < 2 * limit)) ∧
    (∀ start, held start ≤ 2 * limit) ∧
    (∀ before now, before ++ [.check who limit now] <+: calls →
      ((l.run before).check who limit now).1.allowed = true →
      ∃ b : Window.Bucket,
        (l.run (before ++ [.check who limit now])).windows.get? who.key = some b.window ∧
        Window.weighted Rat settings.window now b ≤ limit) := by
  intro l held
  have hsound : l.windows.Sound := Shards.new_sound _ _ _
  have hnew : l.windows.get? who.key = none := Shards.get?_new _ _ _ _
  refine (and_assoc.mp ⟨?_, ?_⟩)
  · rcases settings.window.eq_zero_or_pos with hzero | hwindow
    · -- A window without length holds nothing.
      have hnone : ∀ start, held start = 0 := by
        intro start
        refine List.countP_eq_zero.mpr fun s _ => ?_
        simp only [hzero, decide_eq_true_eq]
        omega
      refine ⟨fun first _ => ⟨fun m => ?_, fun _ start => ?_⟩, fun start => ?_⟩ <;> rw [hnone] <;> omega
    · exact huniform.admitted_spec hsound hnew hcounted hwindow
  · intro before now hpre hallowed
    exact (huniform.of_prefix hpre).weighted_le hsound hnew hcounted rfl hallowed

def inBuckets : RateSettings := { window := 60, maxTracked := 16, maxExact := 1 }

def weighing : List Call :=
  [.check bob 2 0, .check bob 2 50, .check bob 2 65] ++ [.check bob 2 95] ++ [.check bob 2 120]

theorem counter_window_weighing :
    let l : Limiter Rat := new (fun _ => 0) inBuckets
    inBuckets.maxExact < 2 ∧ l.Uniform bob.key 2 weighing ∧
    l.admitted bob.key weighing = [0, 50, 95, 120] ∧
    (looked bob.key weighing).IsChain (Window.Near 60 0) ∧
    (∀ start, (l.admitted bob.key weighing).countP (fun s => start ≤ s ∧ s < start + 60) < 2 * 2) ∧
    ∃ b : Window.Bucket,
      (l.run ([.check bob 2 0, .check bob 2 50, .check bob 2 65] ++ [.check bob 2 95])).windows.get?
        bob.key = some b.window ∧ Window.weighted Rat 60 95 b ≤ (2 : Nat) := by
  dsimp only
  have huniform : (new (fun _ => 0) inBuckets : Limiter Rat).Uniform bob.key 2 weighing := by
    refine uniform_of_alone _ bob 2 weighing (Shards.new_sound _ _ _) ?_ ?_ (by decide +kernel)
    · simp [weighing, Call.who]
    · simp [weighing, Call.limit]
  have hchain : (looked bob.key weighing).IsChain (Window.Near 60 0) := by
    have hlooked : looked bob.key weighing = [0, 50, 65, 95, 120] := by decide +kernel
    rw [hlooked]
    simp [Window.near_of_le]
  have hspec := counter_window (fun _ => 0) inBuckets bob 2 weighing (by decide) huniform
  refine ⟨by decide, huniform, by decide +kernel, hchain, ?_, ?_⟩
  · exact (hspec.1 0 (by decide +kernel)).2 hchain
  · exact hspec.2.2 _ 95 ⟨[.check bob 2 120], rfl⟩ (by decide +kernel)

def twoNanos : RateSettings := { window := 2, maxTracked := 16, maxExact := 0 }

def longWait : List Call :=
  [.check bob 1 0, .check bob 1 1, .check bob 1 8589934592, .check bob 1 8589934595,
    .check bob 1 8589934596]

theorem counter_window_longWait :
    let l : Limiter Rat := new (fun _ => 0) twoNanos
    l.Uniform bob.key 1 longWait ∧
    (looked bob.key longWait).IsChain (fun s t => t < s + Nat.pow 2 32 * twoNanos.window) ∧
    (l.admitted bob.key longWait).countP
      (fun s => 8589934595 ≤ s ∧ s < 8589934595 + twoNanos.window) = 2 * 1 := by
  refine ⟨?_, by decide +kernel, by decide +kernel⟩
  refine uniform_of_alone _ bob 1 longWait (Shards.new_sound _ _ _) ?_ ?_ (by decide +kernel)
  · simp [longWait, Call.who]
  · simp [longWait, Call.limit]

end Admission.Limiter
