import Admission.Proofs.Rate.Exact

/-!
# Runs in the order of time

Calls that look at the window of one key in the order of their times, while nobody displaces that window.
All that such a run does to the window is to take it one step on with every call.
-/

namespace Admission.Limiter

variable {α : Type} [Amount α]

def Call.now : Call → Nat
  | .check _ _ now | .peek _ _ now => now

/-- The time of a call that looks at the window of a key. Where there is no limit, nobody looks. -/
def Call.looks? (key : String) (c : Call) : Option Nat :=
  if c.who.key = key ∧ c.limit ≠ 0 then some c.now else none

def looked (key : String) (calls : List Call) : List Nat := calls.filterMap (Call.looks? key)

theorem Call.looks?_eq_some_iff {key : String} {c : Call} {t : Nat} :
    c.looks? key = some t ↔ (c.who.key = key ∧ c.limit ≠ 0) ∧ c.now = t := by
  unfold Call.looks?
  rw [Option.ite_none_right_eq_some, Option.some.injEq]

theorem looked_append (key : String) (calls calls' : List Call) :
    looked key (calls ++ calls') = looked key calls ++ looked key calls' :=
  List.filterMap_append

theorem looked_append_singleton (key : String) (calls : List Call) (c : Call) :
    looked key (calls ++ [c]) = looked key calls ++ (c.looks? key).toList := by
  rw [looked_append]
  unfold looked
  cases h : c.looks? key <;> simp [h]

/-- The window of a key is looked at in the order of time, and it is never displaced. Limits may change,
and other keys are free. -/
structure Timely (l : Limiter α) (key : String) (calls : List Call) : Prop where
  sorted : (looked key calls).Pairwise (· ≤ ·)
  kept : ∀ before c, before ++ [c] <+: calls →
    Undisturbed key (l.run before) (l.run (before ++ [c]))

def Call.windowAfter (l : Limiter α) (key : String) (w : Option Window) : Call → Option Window
  | .check who limit now =>
    if who.key = key ∧ limit ≠ 0 then
      some (l.verdict limit now (w.getD (l.fresh limit now))).2
    else w
  | .peek who limit now =>
    if who.key = key ∧ limit ≠ 0 then w.map fun w => (w.inWindow α l.settings.window now).2
    else w

variable {l : Limiter α} {key : String} {calls before : List Call} {c : Call}

theorem Call.windowAfter_check (who : Identity) {limit : Nat} (now : Nat) {w : Option Window}
    (h : limit ≠ 0) :
    (Call.check who limit now).windowAfter l who.key w =
      some (l.verdict limit now (w.getD (l.fresh limit now))).2 :=
  if_pos ⟨rfl, h⟩

theorem Call.windowAfter_peek (who : Identity) {limit : Nat} (now : Nat) {w : Option Window}
    (h : limit ≠ 0) :
    (Call.peek who limit now).windowAfter l who.key w =
      w.map fun w => (w.inWindow α l.settings.window now).2 :=
  if_pos ⟨rfl, h⟩

theorem Call.windowAfter_of_looks?_none {w : Option Window} (h : c.looks? key = none) :
    c.windowAfter l key w = w := by
  have hquiet : ¬ (c.who.key = key ∧ c.limit ≠ 0) := by
    intro hlooks
    rw [Call.looks?, if_pos hlooks] at h
    cases h
  cases c with
  | check who limit now => exact if_neg hquiet
  | peek who limit now => exact if_neg hquiet

theorem Call.windowAfter_cases {w? : Option Window} {w' : Window} {now : Nat}
    (hlooks : c.looks? key = some now) (h : c.windowAfter l key w? = some w') :
    (∃ who limit, c = .check who limit now ∧ who.key = key ∧ limit ≠ 0 ∧
      w' = (l.verdict limit now (w?.getD (l.fresh limit now))).2) ∨
    ∃ w, w? = some w ∧ w' = (w.inWindow α l.settings.window now).2 := by
  obtain ⟨⟨hkey, hsome⟩, hnow⟩ := Call.looks?_eq_some_iff.mp hlooks
  cases c with
  | check who limit now' =>
    obtain rfl : who.key = key := hkey
    obtain rfl : now' = now := hnow
    change limit ≠ 0 at hsome
    rw [Call.windowAfter_check who now' hsome] at h
    exact Or.inl ⟨who, limit, rfl, rfl, hsome, (Option.some.inj h).symm⟩
  | peek who limit now' =>
    obtain rfl : who.key = key := hkey
    obtain rfl : now' = now := hnow
    change limit ≠ 0 at hsome
    rw [Call.windowAfter_peek who now' hsome] at h
    obtain ⟨w, hw, hw'⟩ := Option.map_eq_some_iff.mp h
    exact Or.inr ⟨w, hw, hw'.symm⟩

theorem get?_run_cases (key : String) (before : List Call) (c : Call) (hsound : l.windows.Sound) :
    (l.run (before ++ [c])).windows.get? key =
        c.windowAfter l key ((l.run before).windows.get? key) ∨
      c.looks? key = none ∧ (l.run (before ++ [c])).windows.get? key = none := by
  have hrun := l.run_sound before hsound
  rw [run_append_singleton]
  by_cases hkey : c.who.key = key
  · subst hkey
    refine Or.inl ?_
    by_cases hlimit : c.limit = 0
    · have hnone : c.looks? c.who.key = none := if_neg (by simp [hlimit])
      rw [call_of_zero _ c hlimit, Call.windowAfter_of_looks?_none hnone]
    · cases c with
      | check who limit now =>
        have hget := get?_call_check _ who limit now hrun hlimit
        simp only [verdict, startsFrom, fresh, isExact, run_settings] at hget
        exact hget.trans (Call.windowAfter_check who now hlimit).symm
      | peek who limit now =>
        have hget := get?_call_peek _ who limit now hrun hlimit
        rw [run_settings] at hget
        exact hget.trans (Call.windowAfter_peek who now hlimit).symm
  · have hnone : c.looks? key = none := if_neg (by simp [hkey])
    rw [Call.windowAfter_of_looks?_none hnone]
    exact (get?_call_of_ne _ c key hrun (Ne.symm hkey)).imp_right fun hgone => ⟨hnone, hgone⟩

/-- What holds of no window at any time, and is kept by every step, holds of the window of a key after any
run, whether it was displaced in between or not. -/
theorem run_induction {P : List Call → Option Window → Prop} (key : String) (calls : List Call)
    (hsound : l.windows.Sound) (hnew : l.windows.get? key = none) (nothing : ∀ calls, P calls none)
    (step : ∀ before c w, before ++ [c] <+: calls → (l.run before).windows.get? key = w →
      P before w → P (before ++ [c]) (c.windowAfter l key w)) :
    P calls ((l.run calls).windows.get? key) := by
  induction calls using List.reverseRecOn with
  | nil => simpa [run, hnew] using nothing []
  | append_singleton before c ih =>
    have hbefore := ih fun before' c' w hpre => step before' c' w (hpre.trans (List.prefix_append _ _))
    rcases get?_run_cases key before c hsound with hstep | ⟨-, hgone⟩
    · rw [hstep]
      exact step before c _ (List.prefix_refl _) rfl hbefore
    · rw [hgone]
      exact nothing _

namespace Timely

theorem of_prefix (h : l.Timely key calls) (hpre : before <+: calls) : l.Timely key before := by
  refine ⟨h.sorted.sublist (hpre.sublist.filterMap _), ?_⟩
  intro before' c hpre'
  exact h.kept before' c (hpre'.trans hpre)

theorem le_of_looks (h : l.Timely key (before ++ [c])) (now : Nat) (hlooks : c.looks? key = some now) :
    ∀ t ∈ looked key before, t ≤ now := by
  have hsorted := h.sorted
  rw [looked_append_singleton, hlooks, List.pairwise_append] at hsorted
  intro t ht
  exact hsorted.2.2 t ht now (by simp)

theorem get?_run (h : l.Timely key (before ++ [c])) (hsound : l.windows.Sound) :
    (l.run (before ++ [c])).windows.get? key =
      c.windowAfter l key ((l.run before).windows.get? key) := by
  rcases get?_run_cases key before c hsound with hstep | ⟨hlooks, hgone⟩
  · exact hstep
  · rw [Call.windowAfter_of_looks?_none hlooks, hgone]
    cases hbefore : (l.run before).windows.get? key with
    | none => rfl
    | some w =>
      have hsome := h.kept before c (List.prefix_refl _) (by rw [hbefore]; rfl)
      rw [hgone] at hsome
      cases hsome

theorem induction {P : List Call → Option Window → Prop} (h : l.Timely key calls)
    (hsound : l.windows.Sound) (hnew : l.windows.get? key = none) (start : P [] none)
    (step : ∀ before c w, before ++ [c] <+: calls → (l.run before).windows.get? key = w →
      P before w → P (before ++ [c]) (c.windowAfter l key w)) :
    P calls ((l.run calls).windows.get? key) := by
  induction calls using List.reverseRecOn with
  | nil => simpa [run, hnew] using start
  | append_singleton before c ih =>
    have hpre : before <+: before ++ [c] := List.prefix_append _ _
    have hbefore := ih (h.of_prefix hpre) fun before' c' w hpre' => step before' c' w (hpre'.trans hpre)
    rw [h.get?_run hsound]
    exact step before c _ (List.prefix_refl _) rfl hbefore

end Timely

theorem check_run (l : Limiter α) (before : List Call) (who : Identity) (limit now : Nat)
    (hlimit : limit ≠ 0) :
    ((l.run before).check who limit now).1 =
      (l.verdict limit now (((l.run before).windows.get? who.key).getD (l.fresh limit now))).1 := by
  rw [check_fst _ who limit now hlimit]
  simp only [startsFrom, fresh, verdict, isExact, run_settings]

theorem timely_of_alone (l : Limiter α) (who : Identity) (calls : List Call) (hsound : l.windows.Sound)
    (halone : ∀ c ∈ calls, c.who = who) (hsorted : (looked who.key calls).Pairwise (· ≤ ·)) :
    l.Timely who.key calls :=
  ⟨hsorted, l.undisturbed_of_alone who calls hsound halone⟩

/-! ## One limit -/

/-- A timely run whose checks under the key have one limit. -/
structure Uniform (l : Limiter α) (key : String) (limit : Nat) (calls : List Call) : Prop
    extends l.Timely key calls where
  limit_eq : ∀ who limit' now, .check who limit' now ∈ calls → who.key = key → limit' = limit

variable {limit : Nat}

theorem Uniform.of_prefix (h : l.Uniform key limit calls) (hpre : before <+: calls) :
    l.Uniform key limit before :=
  ⟨h.toTimely.of_prefix hpre, fun who limit' now hmem => h.limit_eq who limit' now (hpre.subset hmem)⟩

theorem uniform_of_alone (l : Limiter α) (who : Identity) (limit : Nat) (calls : List Call)
    (hsound : l.windows.Sound) (halone : ∀ c ∈ calls, c.who = who)
    (hlimits : ∀ c ∈ calls, c.limit = limit)
    (hsorted : (looked who.key calls).Pairwise (· ≤ ·)) : l.Uniform who.key limit calls :=
  ⟨l.timely_of_alone who calls hsound halone hsorted, fun _ _ _ hmem _ => hlimits _ hmem⟩

theorem Uniform.checks?_of_looks?_none (h : l.Uniform key limit (before ++ [c]))
    (hlimit : limit ≠ 0) (hlooks : c.looks? key = none) : c.checks? key = none := by
  cases c with
  | check who limit' now =>
    refine if_neg fun hkey => ?_
    obtain rfl := h.limit_eq who limit' now (by simp) hkey
    rw [Call.looks?, if_pos ⟨hkey, hlimit⟩] at hlooks
    cases hlooks
  | peek who limit now => rfl

theorem Uniform.induction {P : List Call → Option Window → Prop} (h : l.Uniform key limit calls)
    (hsound : l.windows.Sound) (hnew : l.windows.get? key = none) (hlimit : limit ≠ 0)
    (start : P [] none)
    (quiet : ∀ before c w, c.looks? key = none → c.checks? key = none → P before w →
      P (before ++ [c]) w)
    (check : ∀ before who now w, who.key = key → (∀ t ∈ looked key before, t ≤ now) →
      (l.run before).windows.get? key = w → P before w →
      P (before ++ [.check who limit now])
        (some (l.verdict limit now (w.getD (l.fresh limit now))).2))
    (peek : ∀ before who limit' now w, who.key = key → limit' ≠ 0 →
      (∀ t ∈ looked key before, t ≤ now) → P before w →
      P (before ++ [.peek who limit' now])
        (w.map fun w => (w.inWindow α l.settings.window now).2)) :
    P calls ((l.run calls).windows.get? key) := by
  refine h.toTimely.induction hsound hnew start ?_
  intro before c w hpre hw hbefore
  have hprefix := h.of_prefix hpre
  cases hlooks : c.looks? key with
  | none =>
    have hchecks := hprefix.checks?_of_looks?_none hlimit hlooks
    rw [Call.windowAfter_of_looks?_none hlooks]
    exact quiet before c w hlooks hchecks hbefore
  | some now =>
    have hseen := hprefix.toTimely.le_of_looks now hlooks
    obtain ⟨⟨hkey, hsome⟩, hnow⟩ := Call.looks?_eq_some_iff.mp hlooks
    cases c with
    | check who limit' now' =>
      obtain rfl : who.key = key := hkey
      obtain rfl : now' = now := hnow
      obtain rfl : limit' = limit := hprefix.limit_eq who limit' now' (by simp) rfl
      rw [Call.windowAfter_check who now' hlimit]
      exact check before who now' w rfl hseen hw hbefore
    | peek who limit' now' =>
      obtain rfl : who.key = key := hkey
      obtain rfl : now' = now := hnow
      change limit' ≠ 0 at hsome
      rw [Call.windowAfter_peek who now' hsome]
      exact peek before who limit' now' w rfl hsome hseen hbefore

end Admission.Limiter
