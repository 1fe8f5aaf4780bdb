import Admission.Proofs.Rate.Reshaped

/-!
# How many times a window keeps

A request adds its time only to a window that keeps fewer times than the limit, and a limit for which times
are kept is a small one. Only a count that becomes times brings in more of them at once.
-/

namespace Admission

/-! ## One window -/

namespace Window

variable {window now last limit bound : Nat} {w : Window}

def stored : Window → Nat
  | .exact stamps => stamps.length
  | .counter .. => 0

section

variable (α : Type) [Amount α]

/-- The times that take the place of a count when the form changes. -/
def carried (exactly : Bool) (window now : Nat) : Window → Nat
  | .exact _ => 0
  | .counter start current previous =>
    ((counter start current previous).reshape α exactly window now).stored

theorem stored_reshape_le (exactly : Bool) (window now : Nat) (w : Window) :
    (w.reshape α exactly window now).stored ≤ max w.stored (w.carried α exactly window now) := by
  cases w with
  | exact stamps =>
    cases exactly with
    | true => exact le_max_left _ _
    | false => exact Nat.zero_le _
  | counter start current previous => exact le_max_right _ _

theorem checkExact_length_le (limit window now : Nat) (stamps : List Nat) :
    (checkExact limit window now stamps).2.length ≤ max stamps.length limit := by
  have hfewer := (List.dropWhile_sublist (l := stamps) fun t => decide (window ≤ now - t)).length_le
  unfold checkExact
  dsimp only
  split_ifs with hroom
  · rw [List.length_append, List.length_singleton]
    exact le_max_of_le_right hroom
  · exact le_max_of_le_left hfewer

theorem stored_check_le (exactly : Bool) (limit window now : Nat) (w : Window)
    (hlimit : exactly = true → limit ≤ bound) :
    (w.check α exactly limit window now).2.stored ≤
      max (max w.stored (w.carried α exactly window now)) bound := by
  have hreshape := stored_reshape_le α exactly window now w
  unfold check
  cases hform : w.reshape α exactly window now with
  | exact stamps =>
    rw [hform] at hreshape
    have hexact : exactly = true := by
      cases exactly with
      | true => rfl
      | false => cases w <;> cases hform
    exact (checkExact_length_le limit window now stamps).trans (max_le_max hreshape (hlimit hexact))
  | counter start current previous => exact Nat.zero_le _

end

/-! ### In the order of time -/

/-- The window held no more requests than that at its last look, whatever its form is. -/
def Holds (window last bound : Nat) : Window → Prop
  | .exact stamps => stamps.length ≤ bound
  | .counter start current previous => weighted Rat window last ⟨start, current, previous⟩ ≤ bound

theorem Holds.reshape (h : w.Holds window last bound) (exactly : Bool) (hle : last ≤ now) :
    (w.reshape Rat exactly window now).Holds window now bound := by
  cases w with
  | exact stamps =>
    cases exactly with
    | true => exact h
    | false =>
      have hfewer : (live window now stamps).length ≤ bound :=
        (List.length_filter_le _ _).trans h
      show weighted Rat window now ⟨now, (live window now stamps).length, 0⟩ ≤ bound
      unfold weighted
      rw [Nat.cast_zero, zero_mul, zero_add]
      exact_mod_cast hfewer
  | counter start current previous =>
    cases exactly with
    | true =>
      show (List.replicate (Amount.ceil (weighted Rat window now
        (rotate window now ⟨start, current, previous⟩))) now).length ≤ bound
      rw [List.length_replicate, Amount.ceil_eq, Nat.ceil_le]
      exact (weighted_rotate_le window _ hle).trans h
    | false => exact (weighted_anti window _ hle).trans h

theorem Holds.check (h : w.Holds window last bound) (exactly : Bool) (hle : last ≤ now)
    (hlimit : limit ≤ bound) : (w.check Rat exactly limit window now).2.Holds window now bound := by
  have hreshape := h.reshape exactly hle
  unfold Window.check
  cases hform : w.reshape Rat exactly window now with
  | exact stamps =>
    rw [hform] at hreshape
    exact (checkExact_length_le limit window now stamps).trans (max_le hreshape hlimit)
  | counter start current previous =>
    rw [hform] at hreshape
    show weighted Rat window now (checkCounter Rat limit window now ⟨start, current, previous⟩).2 ≤ bound
    by_cases hallowed : (checkCounter Rat limit window now ⟨start, current, previous⟩).1.allowed = true
    · exact (weighted_checkCounter_le window now _ limit hallowed).trans (by exact_mod_cast hlimit)
    · rw [checkCounter_snd, if_neg hallowed]
      exact (weighted_rotate_le window _ le_rfl).trans hreshape

theorem Holds.inWindow (h : w.Holds window last bound) (hle : last ≤ now) :
    (w.inWindow Rat window now).2.Holds window now bound := by
  cases w with
  | exact stamps => exact h
  | counter start current previous => exact (weighted_rotate_le window _ hle).trans h

end Window

/-! ## A run -/

namespace Limiter

/-- No check of a key has a higher limit. -/
def Capped (key : String) (bound : Nat) (calls : List Call) : Prop :=
  ∀ who limit now, .check who limit now ∈ calls → who.key = key → limit ≤ bound

theorem Capped.mono {key : String} {bound : Nat} {calls before : List Call} (h : Capped key bound calls)
    (hsub : before ⊆ calls) : Capped key bound before := fun who limit now hmem =>
  h who limit now (hsub hmem)

section

variable {α : Type} [Amount α] {l : Limiter α} {key : String} {calls before : List Call} {c : Call}

def Call.carried (l : Limiter α) (key : String) : Call → Nat
  | .check who limit now =>
    if who.key = key ∧ limit ≠ 0 then
      ((l.windows.get? key).map (Window.carried α (l.isExact limit) l.settings.window now)).getD 0
    else 0
  | .peek .. => 0

/-- The most times that one call of a run puts in the place of a count. -/
def carried (l : Limiter α) (key : String) : List Call → Nat
  | [] => 0
  | c :: calls => max (c.carried l key) ((l.call c).carried key calls)

theorem carried_append_singleton (l : Limiter α) (key : String) (calls : List Call) (c : Call) :
    l.carried key (calls ++ [c]) = max (l.carried key calls) (c.carried (l.run calls) key) := by
  induction calls generalizing l with
  | nil => exact max_comm _ _
  | cons c' calls ih =>
    simp only [List.cons_append, carried]
    rw [ih, max_assoc]
    rfl

theorem carried_fresh (l : Limiter α) (limit now : Nat) :
    (l.fresh limit now).stored = 0 ∧
      (l.fresh limit now).carried α (l.isExact limit) l.settings.window now = 0 := by
  unfold fresh
  cases l.isExact limit with
  | true => exact ⟨rfl, rfl⟩
  | false => exact ⟨rfl, rfl⟩

theorem run_stored_le (l : Limiter α) (key : String) (calls : List Call) (hsound : l.windows.Sound)
    (hnew : l.windows.get? key = none) :
    ∀ w, (l.run calls).windows.get? key = some w →
      w.stored ≤ max l.settings.maxExact (l.carried key calls) := by
  refine run_induction (P := fun calls w? => ∀ w, w? = some w →
    w.stored ≤ max l.settings.maxExact (l.carried key calls)) key calls hsound hnew (by simp) ?_
  intro before c w? _ hw hbefore w' hw'
  rw [carried_append_singleton]
  cases hlooks : c.looks? key with
  | none =>
    rw [Call.windowAfter_of_looks?_none hlooks] at hw'
    exact (hbefore w' hw').trans (max_le_max_left _ (le_max_left _ _))
  | some now =>
    rcases Call.windowAfter_cases hlooks hw' with ⟨who, limit, rfl, hkey, hlimit, rfl⟩ | ⟨w, rfl, rfl⟩
    · have hexact : l.isExact limit = true → limit ≤ l.settings.maxExact := of_decide_eq_true
      refine (Window.stored_check_le α _ limit _ now _ hexact).trans ?_
      cases w? with
      | none =>
        rw [Option.getD_none, (carried_fresh l limit now).1, (carried_fresh l limit now).2]
        exact max_le (Nat.zero_le _) (le_max_left _ _)
      | some w =>
        have hcarried : (Call.check who limit now).carried (l.run before) key =
            w.carried α (l.isExact limit) l.settings.window now := by
          refine (if_pos ⟨hkey, hlimit⟩).trans ?_
          rw [hw]
          simp only [isExact, run_settings]
          rfl
        have hstored := hbefore w rfl
        rw [Option.getD_some, hcarried]
        omega
    · have hstored : (w.inWindow α l.settings.window now).2.stored = w.stored := by
        cases w with
        | exact stamps => rfl
        | counter start current previous => rfl
      rw [hstored]
      exact (hbefore w rfl).trans (max_le_max_left _ (le_max_left _ _))

theorem run_exact (l : Limiter α) (key : String) (calls : List Call) (hsound : l.windows.Sound)
    (hnew : l.windows.get? key = none) (hsmall : Capped key l.settings.maxExact calls) :
    ∀ w, (l.run calls).windows.get? key = some w → ∃ stamps, w = .exact stamps := by
  refine run_induction (P := fun _ w? => ∀ w, w? = some w → ∃ stamps, w = .exact stamps) key calls hsound
    hnew (by simp) ?_
  intro before c w? hpre _ hbefore w' hw'
  cases hlooks : c.looks? key with
  | none =>
    rw [Call.windowAfter_of_looks?_none hlooks] at hw'
    exact hbefore w' hw'
  | some now =>
    rcases Call.windowAfter_cases hlooks hw' with ⟨who, limit, rfl, hkey, -, rfl⟩ | ⟨w, rfl, rfl⟩
    · have hexact : l.isExact limit = true :=
        decide_eq_true (hsmall who limit now (hpre.subset (by simp)) hkey)
      obtain ⟨stamps, hstamps⟩ : ∃ stamps, w?.getD (l.fresh limit now) = .exact stamps := by
        cases w? with
        | none =>
          unfold fresh
          rw [hexact]
          exact ⟨[], rfl⟩
        | some w => exact hbefore w rfl
      unfold verdict
      rw [hstamps, hexact]
      exact ⟨_, rfl⟩
    · obtain ⟨stamps, rfl⟩ := hbefore w rfl
      exact ⟨stamps, rfl⟩

theorem carried_eq_zero (l : Limiter α) (key : String) (calls : List Call) (hsound : l.windows.Sound)
    (hnew : l.windows.get? key = none) (hsmall : Capped key l.settings.maxExact calls) :
    l.carried key calls = 0 := by
  induction calls using List.reverseRecOn with
  | nil => rfl
  | append_singleton before c ih =>
    have hbefore := hsmall.mono (List.subset_append_left before [c])
    have hexact := run_exact l key before hsound hnew hbefore
    rw [carried_append_singleton, ih hbefore, Nat.zero_max]
    cases c with
    | check who limit now =>
      rw [Call.carried]
      split_ifs
      · cases hw : (l.run before).windows.get? key with
        | none => rfl
        | some w =>
          obtain ⟨stamps, rfl⟩ := hexact w hw
          rfl
      · rfl
    | peek who limit now => rfl

end

theorem fresh_holds (l : Limiter Rat) (limit now bound : Nat) :
    (l.fresh limit now).Holds l.settings.window now bound := by
  unfold fresh
  cases l.isExact limit with
  | true => exact Nat.zero_le _
  | false =>
    show Window.weighted Rat l.settings.window now ⟨now, 0, 0⟩ ≤ bound
    simp [Window.weighted]

theorem run_holds (l : Limiter Rat) (key : String) (calls : List Call) (bound : Nat)
    (hsound : l.windows.Sound) (hnew : l.windows.get? key = none)
    (hsorted : (looked key calls).Pairwise (· ≤ ·))
    (hlimits : Capped key bound calls) :
    ∀ w, (l.run calls).windows.get? key = some w →
      ∃ last, (looked key calls).getLast? = some last ∧ w.Holds l.settings.window last bound := by
  refine run_induction (P := fun calls w? => ∀ w, w? = some w →
    ∃ last, (looked key calls).getLast? = some last ∧ w.Holds l.settings.window last bound)
    key calls hsound hnew (by simp) ?_
  intro before c w? hpre _ hbefore w' hw'
  have hpast : (looked key (before ++ [c])).Pairwise (· ≤ ·) :=
    hsorted.sublist (hpre.sublist.filterMap _)
  rw [looked_append_singleton] at hpast ⊢
  cases hlooks : c.looks? key with
  | none =>
    rw [Call.windowAfter_of_looks?_none hlooks] at hw'
    rw [Option.toList_none, List.append_nil]
    exact hbefore w' hw'
  | some now =>
    rw [hlooks, Option.toList_some, List.pairwise_append] at hpast
    have hle : ∀ last, (looked key before).getLast? = some last → last ≤ now := fun last hlast =>
      hpast.2.2 last (List.mem_of_getLast? hlast) now (List.mem_singleton.mpr rfl)
    refine ⟨now, by rw [List.getLast?_append]; rfl, ?_⟩
    rcases Call.windowAfter_cases hlooks hw' with ⟨who, limit, rfl, hkey, hlimit, rfl⟩ | ⟨w, rfl, rfl⟩
    · have hbound := hlimits who limit now (hpre.subset (by simp)) hkey
      cases w? with
      | none => exact (fresh_holds l limit now bound).check _ le_rfl hbound
      | some w =>
        obtain ⟨last, hlast, hholds⟩ := hbefore w rfl
        exact hholds.check _ (hle last hlast) hbound
    · obtain ⟨last, hlast, hholds⟩ := hbefore w rfl
      exact hholds.inWindow (hle last hlast)

/-- After any run an exact window keeps no more times than the exact limit, or than one call put in the place
of a count, which none does where no check asks for a count. In the order of time it keeps no more of them
than the largest limit of its checks. -/
theorem exact_window_small (assign : String → Nat) (settings : RateSettings) (key : String)
    (calls : List Call) (stamps : List Nat) :
    (∀ (α : Type) [Amount α],
      ((new assign settings : Limiter α).run calls).windows.get? key = some (.exact stamps) →
        stamps.length ≤ max settings.maxExact ((new assign settings : Limiter α).carried key calls) ∧
        (Capped key settings.maxExact calls → stamps.length ≤ settings.maxExact)) ∧
    ∀ bound, Capped key bound calls → (looked key calls).Pairwise (· ≤ ·) →
      ((new assign settings : Limiter Rat).run calls).windows.get? key = some (.exact stamps) →
        stamps.length ≤ bound := by
  refine ⟨?_, ?_⟩
  · intro α _ hw
    have hsound : (new assign settings : Limiter α).windows.Sound := Shards.new_sound _ _ _
    have hnew : (new assign settings : Limiter α).windows.get? key = none := Shards.get?_new _ _ _ _
    have hstored : stamps.length ≤
        max settings.maxExact ((new assign settings : Limiter α).carried key calls) :=
      run_stored_le _ key calls hsound hnew _ hw
    refine ⟨hstored, fun hsmall => ?_⟩
    rwa [carried_eq_zero _ key calls hsound hnew hsmall, Nat.max_zero] at hstored
  · intro bound hlimits hsorted hw
    obtain ⟨_, -, hholds⟩ := run_holds _ key calls bound (Shards.new_sound _ _ _) (Shards.get?_new _ _ _ _)
      hsorted hlimits _ hw
    exact hholds

def countedThenExact : List Call :=
  [.check bob 3 0, .check bob 3 0, .check bob 3 0, .check bob 1 0]

def oneExact : RateSettings := { window := 60, maxTracked := 16, maxExact := 1 }

theorem exact_window_small_countedThenExact :
    let l : Limiter Double := new (fun _ => 0) oneExact
    (l.run countedThenExact).windows.get? bob.key = some (.exact [0, 0, 0]) ∧
    l.carried bob.key countedThenExact = 3 ∧ [0, 0, 0].length ≤ max 1 3 ∧
    Capped bob.key 3 countedThenExact ∧ (looked bob.key countedThenExact).Pairwise (· ≤ ·) ∧
    [0, 0, 0].length ≤ 3 ∧
    ((new (fun _ => 0) aMinute : Limiter Double).run pair).windows.get? bob.key = some (.exact [0, 10]) ∧
    Capped bob.key aMinute.maxExact pair ∧ [0, 10].length ≤ aMinute.maxExact := by
  dsimp only
  have hdouble : ((new (fun _ => 0) oneExact : Limiter Double).run countedThenExact).windows.get? bob.key =
      some (.exact [0, 0, 0]) := by
    decide +kernel
  have hrat : ((new (fun _ => 0) oneExact : Limiter Rat).run countedThenExact).windows.get? bob.key =
      some (.exact [0, 0, 0]) := by
    decide +kernel
  have hcarried : (new (fun _ => 0) oneExact : Limiter Double).carried bob.key countedThenExact = 3 := by
    decide +kernel
  have hcapped : Capped bob.key 3 countedThenExact := by
    intro who limit now hmem _
    simp only [countedThenExact, List.mem_cons, Call.check.injEq, List.not_mem_nil, or_false] at hmem
    omega
  have hsorted : (looked bob.key countedThenExact).Pairwise (· ≤ ·) := by decide +kernel
  have hsmall := exact_window_small (fun _ => 0) oneExact bob.key countedThenExact [0, 0, 0]
  have hstored := (hsmall.1 Double hdouble).1
  rw [hcarried] at hstored
  have hpair : ((new (fun _ => 0) aMinute : Limiter Double).run pair).windows.get? bob.key =
      some (.exact [0, 10]) := by
    decide +kernel
  have hfew : Capped bob.key aMinute.maxExact pair := by
    intro who limit now hmem _
    simp only [pair, List.mem_cons, Call.check.injEq, List.not_mem_nil, or_false] at hmem
    have hexact : aMinute.maxExact = 10 := rfl
    omega
  exact ⟨hdouble, hcarried, hstored, hcapped, hsorted, hsmall.2 3 hcapped hsorted hrat, hpair, hfew,
    ((exact_window_small (fun _ => 0) aMinute bob.key pair [0, 10]).1 Double hpair).2 hfew⟩

/-- The last check leaves more times than the exact limit. -/
theorem exact_window_large_countedThenExact :
    ((new (fun _ => 0) oneExact : Limiter Double).run countedThenExact).windows.get? bob.key =
      some (.exact [0, 0, 0]) ∧
    oneExact.maxExact < [0, 0, 0].length :=
  ⟨by decide +kernel, by decide⟩

end Limiter

end Admission
