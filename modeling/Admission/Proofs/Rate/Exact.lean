import Admission.Proofs.Rate.Limiter

/-!
# The exact window

Up to a certain limit a window keeps the time of every request that it allows. It forgets only times
that are gone for good, and so it counts as if it had kept them all.
-/

namespace Admission

/-! ## One window -/

namespace Window

/-- The times that are less than a window old. -/
def recent (window now : Nat) (times : List Nat) : List Nat :=
  times.filter fun s => now < s + window

theorem live_eq_recent (window now : Nat) (stamps : List Nat) (hwindow : 0 < window) :
    live window now stamps = recent window now stamps := by
  unfold live recent
  apply List.filter_congr
  intro s _
  rw [decide_eq_decide]
  omega

theorem dropWhile_eq_live (window now : Nat) (stamps : List Nat) (h : stamps.Pairwise (· ≤ ·)) :
    (stamps.dropWhile fun s => window ≤ now - s) = live window now stamps := by
  unfold live
  induction stamps with
  | nil => rfl
  | cons s stamps ih =>
    rw [List.pairwise_cons] at h
    by_cases hs : window ≤ now - s
    · rw [List.dropWhile_cons_of_pos (by simpa using hs),
        List.filter_cons_of_neg (by simpa using hs)]
      exact ih h.2
    · rw [List.dropWhile_cons_of_neg (by simpa using hs),
        List.filter_cons_of_pos (by simp; omega)]
      congr 1
      rw [eq_comm, List.filter_eq_self]
      intro later hlater
      have hle := h.1 later hlater
      simp only [decide_eq_true_eq]
      omega

theorem recent_recent (window now later : Nat) (times : List Nat) (h : now ≤ later) :
    recent window later (recent window now times) = recent window later times := by
  unfold recent
  rw [List.filter_filter]
  apply List.filter_congr
  intro s _
  rw [← Bool.decide_and, decide_eq_decide]
  omega

theorem recent_length_lt_iff (window limit now later oldest : Nat) (times rest : List Nat)
    (hrecent : recent window now times = oldest :: rest) (hfull : rest.length + 1 = limit)
    (hsorted : (oldest :: rest).Pairwise (· ≤ ·)) (hle : now ≤ later) :
    (recent window later times).length < limit ↔ oldest + window ≤ later := by
  rw [← recent_recent window now later times hle, hrecent]
  unfold recent
  constructor
  · intro hlt
    by_contra hin
    have hall : (oldest :: rest).filter (fun s => later < s + window) = oldest :: rest := by
      rw [List.filter_eq_self]
      intro s hs
      simp only [decide_eq_true_eq]
      rcases List.mem_cons.mp hs with rfl | hs
      · omega
      · have := (List.pairwise_cons.mp hsorted).1 s hs
        omega
    rw [hall, List.length_cons] at hlt
    omega
  · intro hout
    rw [List.filter_cons_of_neg (by simp only [decide_eq_true_eq]; omega)]
    have := List.length_filter_le (fun s => decide (later < s + window)) rest
    omega

/-- The kept times are the admitted ones without some that left the window for good. -/
structure Tracks (window limit now : Nat) (admitted stamps : List Nat) : Prop where
  gone : ∃ gone, admitted = gone ++ stamps ∧ ∀ s ∈ gone, s + window ≤ now
  sorted : stamps.Pairwise (· ≤ ·)
  length_le : stamps.length ≤ limit
  le_now : ∀ s ∈ stamps, s ≤ now

namespace Tracks

variable {window limit now : Nat} {admitted stamps : List Nat}

theorem mono (h : Tracks window limit now admitted stamps) (later : Nat) (hle : now ≤ later) :
    Tracks window limit later admitted stamps := by
  obtain ⟨gone, hsplit, hgone⟩ := h.gone
  refine ⟨⟨gone, hsplit, ?_⟩, h.sorted, h.length_le, ?_⟩
  · intro s hs
    have hs := hgone s hs
    omega
  · intro s hs
    have hs := h.le_now s hs
    omega

theorem dropWhile_eq (h : Tracks window limit now admitted stamps) (hwindow : 0 < window) :
    (stamps.dropWhile fun s => window ≤ now - s) = recent window now admitted := by
  obtain ⟨gone, hsplit, hgone⟩ := h.gone
  have hnone : recent window now gone = [] := by
    unfold recent
    rw [List.filter_eq_nil_iff]
    intro s hs
    have hs := hgone s hs
    simp only [decide_eq_true_eq]
    omega
  rw [dropWhile_eq_live window now stamps h.sorted, live_eq_recent window now stamps hwindow, hsplit]
  unfold recent at hnone ⊢
  rw [List.filter_append, hnone, List.nil_append]

theorem allowed_iff (h : Tracks window limit now admitted stamps) (hwindow : 0 < window) :
    (checkExact limit window now stamps).1.allowed = true ↔
      (recent window now admitted).length < limit := by
  unfold checkExact
  rw [h.dropWhile_eq hwindow]
  by_cases hroom : (recent window now admitted).length < limit
  · simp [hroom, RateCheck.accepted]
  · simp [hroom, RateCheck.refused]

theorem recent_length_le (h : Tracks window limit now admitted stamps) (hwindow : 0 < window) :
    (recent window now admitted).length ≤ limit := by
  rw [← h.dropWhile_eq hwindow]
  exact (List.dropWhile_sublist _).length_le.trans h.length_le

theorem recent_tracks (h : Tracks window limit now admitted stamps) (hwindow : 0 < window) :
    Tracks window limit now admitted (recent window now admitted) := by
  obtain ⟨gone, hsplit, hgone⟩ := h.gone
  have hsub : (recent window now admitted).Sublist stamps := by
    rw [← h.dropWhile_eq hwindow]
    exact List.dropWhile_sublist _
  refine ⟨⟨gone ++ stamps.takeWhile fun s => window ≤ now - s, ?_, ?_⟩, h.sorted.sublist hsub,
    h.recent_length_le hwindow, fun s hs => h.le_now s (hsub.subset hs)⟩
  · rw [← h.dropWhile_eq hwindow, List.append_assoc, List.takeWhile_append_dropWhile]
    exact hsplit
  · intro s hs
    rcases List.mem_append.mp hs with hs | hs
    · exact hgone s hs
    · have hout := List.mem_takeWhile_imp hs
      simp only [decide_eq_true_eq] at hout
      omega

theorem check (h : Tracks window limit now admitted stamps) (hwindow : 0 < window) :
    Tracks window limit now
      (if (checkExact limit window now stamps).1.allowed then admitted ++ [now] else admitted)
      (checkExact limit window now stamps).2 := by
  have hrecent := h.recent_tracks hwindow
  obtain ⟨gone, hsplit, hgone⟩ := hrecent.gone
  unfold checkExact
  rw [h.dropWhile_eq hwindow]
  by_cases hroom : (recent window now admitted).length < limit
  · simp only [hroom, if_true, RateCheck.accepted]
    refine ⟨⟨gone, ?_, hgone⟩, ?_, ?_, ?_⟩
    · rw [← List.append_assoc, ← hsplit]
    · rw [List.pairwise_append]
      refine ⟨hrecent.sorted, List.pairwise_singleton _ _, ?_⟩
      intro s hs t ht
      rw [List.mem_singleton.mp ht]
      exact hrecent.le_now s hs
    · rw [List.length_append, List.length_singleton]
      omega
    · intro s hs
      rcases List.mem_append.mp hs with hs | hs
      · exact hrecent.le_now s hs
      · exact (List.mem_singleton.mp hs).le
  · simp only [hroom, if_false, RateCheck.refused, Bool.false_eq_true]
    exact hrecent

theorem refused (h : Tracks window limit now admitted stamps) (hwindow : 0 < window)
    (hlimit : 0 < limit) (hrefused : (checkExact limit window now stamps).1.allowed = false) :
    ∃ oldest rest, recent window now admitted = oldest :: rest ∧ rest.length + 1 = limit ∧
      (oldest :: rest).Pairwise (· ≤ ·) ∧ oldest ≤ now ∧ now < oldest + window ∧
      (checkExact limit window now stamps).1.retryAfter = some (oldest + window - now) := by
  have hfull : limit ≤ (recent window now admitted).length := by
    by_contra hroom
    rw [(h.allowed_iff hwindow).mpr (by omega)] at hrefused
    cases hrefused
  have hrecent := h.recent_tracks hwindow
  have hbound := hrecent.length_le
  cases hcons : recent window now admitted with
  | nil =>
    rw [hcons] at hfull
    exact absurd hfull (by simpa using hlimit.ne')
  | cons oldest rest =>
    rw [hcons] at hfull hbound hrecent
    have hpast := hrecent.le_now oldest List.mem_cons_self
    have hin : now < oldest + window := by
      have hmem : oldest ∈ recent window now admitted := hcons ▸ List.mem_cons_self
      unfold recent at hmem
      simpa using (List.mem_filter.mp hmem).2
    rw [List.length_cons] at hfull hbound
    refine ⟨oldest, rest, rfl, by omega, hrecent.sorted, hpast, hin, ?_⟩
    have hroom : ¬ (oldest :: rest).length < limit := by
      rw [List.length_cons]
      omega
    unfold checkExact
    rw [h.dropWhile_eq hwindow, hcons]
    simp only [hroom, if_false, RateCheck.refused, List.head?_cons, Option.getD_some]
    congr 1
    omega

end Tracks

end Window

/-! ## Whole runs -/

namespace Limiter

variable {α : Type} [Amount α]

def Call.checks? (key : String) : Call → Option Nat
  | .check who _ now => if who.key = key then some now else none
  | .peek .. => none

def Call.admitted? (l : Limiter α) (key : String) : Call → Option Nat
  | .check who limit now =>
    if who.key = key ∧ (l.check who limit now).1.allowed then some now else none
  | .peek .. => none

def checked (key : String) (calls : List Call) : List Nat := calls.filterMap (Call.checks? key)

theorem checked_append_singleton (key : String) (calls : List Call) (c : Call) :
    checked key (calls ++ [c]) = checked key calls ++ (c.checks? key).toList := by
  unfold checked
  rw [List.filterMap_append]
  cases h : c.checks? key <;> simp [h]

def admitted (l : Limiter α) (key : String) : List Call → List Nat
  | [] => []
  | c :: calls => (c.admitted? l key).toList ++ (l.call c).admitted key calls

theorem admitted_append (l : Limiter α) (key : String) (calls calls' : List Call) :
    l.admitted key (calls ++ calls') = l.admitted key calls ++ (l.run calls).admitted key calls' := by
  induction calls generalizing l with
  | nil => rfl
  | cons c calls ih =>
    simp only [List.cons_append, admitted, List.append_assoc]
    congr 1
    exact ih (l.call c)

theorem admitted_append_singleton (l : Limiter α) (key : String) (calls : List Call) (c : Call) :
    l.admitted key (calls ++ [c]) =
      l.admitted key calls ++ (c.admitted? (l.run calls) key).toList := by
  rw [admitted_append]
  simp [admitted]

/-- The checks under a key have one limit and come in the order of their times, and the window of the
key is never displaced. Other keys and looks are free. -/
structure Steady (l : Limiter α) (key : String) (limit : Nat) (calls : List Call) : Prop where
  limit_eq : ∀ who limit' now, .check who limit' now ∈ calls → who.key = key → limit' = limit
  sorted : (checked key calls).Pairwise (· ≤ ·)
  kept : ∀ before c, before ++ [c] <+: calls →
    Undisturbed key (l.run before) (l.run (before ++ [c]))

theorem Steady.of_prefix {l : Limiter α} {key : String} {limit : Nat} {calls before : List Call}
    (h : l.Steady key limit calls) (hpre : before <+: calls) : l.Steady key limit before := by
  refine ⟨?_, ?_, ?_⟩
  · intro who limit' now hmem
    exact h.limit_eq who limit' now (hpre.subset hmem)
  · exact h.sorted.sublist (hpre.sublist.filterMap _)
  · intro before' c hpre'
    exact h.kept before' c (hpre'.trans hpre)

theorem Steady.le_of_check {l : Limiter α} {limit limit' now : Nat} {who : Identity}
    {before : List Call} (h : l.Steady who.key limit (before ++ [.check who limit' now])) :
    ∀ t ∈ checked who.key before, t ≤ now := by
  have hsorted := h.sorted
  rw [checked_append_singleton, List.pairwise_append] at hsorted
  intro t ht
  exact hsorted.2.2 t ht now (by simp [Call.checks?])

theorem undisturbed_of_alone (l : Limiter α) (who : Identity) (calls : List Call)
    (hsound : l.windows.Sound) (halone : ∀ c ∈ calls, c.who = who) (before : List Call) (c : Call)
    (hpre : before ++ [c] <+: calls) :
    Undisturbed who.key (l.run before) (l.run (before ++ [c])) := by
  intro hsome
  have hrun := l.run_sound before hsound
  obtain rfl : c.who = who := halone c (hpre.subset (by simp))
  rw [run_append_singleton]
  by_cases hzero : c.limit = 0
  · rwa [call_of_zero _ c hzero]
  · cases c with
    | check who limit now =>
      show (((l.run before).call (.check who limit now)).windows.get? who.key).isSome
      rw [get?_call_check _ who limit now hrun hzero]
      rfl
    | peek who limit now =>
      show (((l.run before).call (.peek who limit now)).windows.get? who.key).isSome
      rw [get?_call_peek _ who limit now hrun hzero, Option.isSome_map]
      exact hsome

theorem steady_of_alone (l : Limiter α) (who : Identity) (limit : Nat) (calls : List Call)
    (hsound : l.windows.Sound) (halone : ∀ c ∈ calls, c.who = who)
    (hlimit : ∀ c ∈ calls, c.limit = limit)
    (hsorted : (checked who.key calls).Pairwise (· ≤ ·)) : l.Steady who.key limit calls := by
  refine ⟨?_, hsorted, l.undisturbed_of_alone who calls hsound halone⟩
  intro who' limit' now hmem _
  exact hlimit _ hmem

/-! ### The window of a key follows the admitted times -/

/-- The window of a key keeps the admitted times that still count after the checked ones. -/
def Follows (l : Limiter α) (key : String) (limit : Nat) (seen allowed : List Nat) : Prop :=
  ∃ stamps, (l.windows.get? key).getD (.exact []) = .exact stamps ∧
    ∀ now, (∀ t ∈ seen, t ≤ now) →
      Window.Tracks l.settings.window limit now allowed stamps

variable {l : Limiter α} {key : String} {limit : Nat} {seen allowed : List Nat}

theorem check_exact (who : Identity) (now : Nat) (stamps : List Nat)
    (hexact : limit ≤ l.settings.maxExact)
    (hstamps : (l.windows.get? who.key).getD (.exact []) = .exact stamps) :
    l.verdict limit now (l.startsFrom who.key limit now) =
      ((Window.checkExact limit l.settings.window now stamps).1,
        .exact (Window.checkExact limit l.settings.window now stamps).2) := by
  have hisExact : l.isExact limit = true := by simpa [isExact] using hexact
  have hstart : l.startsFrom who.key limit now = .exact stamps := by
    rw [← hstamps]
    simp only [startsFrom, fresh, hisExact, Window.empty, if_true]
  rw [hstart]
  unfold verdict
  rw [hisExact]
  rfl

theorem Follows.check (h : l.Follows key limit seen allowed) (hsound : l.windows.Sound)
    (hwindow : 0 < l.settings.window) (hlimit : limit ≠ 0) (hexact : limit ≤ l.settings.maxExact)
    (who : Identity) (now : Nat) (hkey : who.key = key) (hseen : ∀ t ∈ seen, t ≤ now) :
    (l.call (.check who limit now)).Follows key limit (seen ++ [now])
      (if (l.check who limit now).1.allowed then allowed ++ [now] else allowed) := by
  subst hkey
  obtain ⟨stamps, hstamps, htracks⟩ := h
  have hverdict := check_exact who now stamps hexact hstamps
  refine ⟨(Window.checkExact limit l.settings.window now stamps).2, ?_, ?_⟩
  · rw [get?_call_check l who limit now hsound hlimit, hverdict, Option.getD_some]
  · intro later hlater
    rw [call_settings, check_fst l who limit now hlimit, hverdict]
    exact ((htracks now hseen).check hwindow).mono later (hlater now (by simp))

theorem Follows.peek (h : l.Follows key limit seen allowed) (hsound : l.windows.Sound)
    (who : Identity) (limit' now : Nat) (hkey : who.key = key) :
    (l.call (.peek who limit' now)).Follows key limit seen allowed := by
  subst hkey
  obtain ⟨stamps, hstamps, htracks⟩ := h
  refine ⟨stamps, ?_, by rwa [call_settings]⟩
  by_cases hzero : limit' = 0
  · rw [l.call_of_zero (.peek who limit' now) hzero]
    exact hstamps
  · rw [get?_call_peek l who limit' now hsound hzero]
    cases hget : l.windows.get? who.key with
    | none =>
      rw [hget] at hstamps
      exact hstamps
    | some w =>
      rw [hget, Option.getD_some] at hstamps
      subst hstamps
      rfl

theorem Follows.other (h : l.Follows key limit seen allowed) (hsound : l.windows.Sound)
    (c : Call) (hkey : key ≠ c.who.key)
    (hkept : (l.windows.get? key).isSome → ((l.call c).windows.get? key).isSome) :
    (l.call c).Follows key limit seen allowed := by
  obtain ⟨stamps, hstamps, htracks⟩ := h
  have hget : (l.call c).windows.get? key = l.windows.get? key := by
    rcases l.get?_call_of_ne c key hsound hkey with hsame | hgone
    · exact hsame
    · cases hbefore : l.windows.get? key with
      | none => exact hgone
      | some w =>
        rw [hbefore, hgone] at hkept
        exact absurd (hkept rfl) (by simp)
  exact ⟨stamps, by rwa [hget], by rwa [call_settings]⟩

theorem Steady.follows {calls : List Call} (h : l.Steady key limit calls) (hsound : l.windows.Sound)
    (hnew : l.windows.get? key = none) (hwindow : 0 < l.settings.window) (hlimit : limit ≠ 0)
    (hexact : limit ≤ l.settings.maxExact) :
    (l.run calls).Follows key limit (checked key calls) (l.admitted key calls) := by
  induction calls using List.reverseRecOn with
  | nil =>
    refine ⟨[], by simp [run, hnew], ?_⟩
    intro now _
    exact ⟨⟨[], rfl, by simp⟩, .nil, by simp, by simp⟩
  | append_singleton before c ih =>
    have hbefore := ih (h.of_prefix (List.prefix_append _ _))
    have hrun := l.run_sound before hsound
    have hkept := h.kept before c (List.prefix_refl _)
    rw [run_append_singleton] at hkept ⊢
    rw [checked_append_singleton, admitted_append_singleton]
    by_cases hkey : c.who.key = key
    · cases c with
      | check who limit' now =>
        change who.key = key at hkey
        obtain rfl : limit' = limit := h.limit_eq who limit' now (by simp) hkey
        subst hkey
        have hcheck := hbefore.check hrun (by simpa using hwindow) hlimit (by simpa using hexact)
          who now rfl h.le_of_check
        simp only [Call.admitted?, Call.checks?, true_and, if_true, Option.toList_some]
        split <;> simp_all
      | peek who limit' now =>
        simpa [Call.checks?, Call.admitted?] using hbefore.peek hrun who limit' now hkey
    · have hquiet : c.checks? key = none ∧ c.admitted? (l.run before) key = none := by
        cases c with
        | check who limit' now =>
          change who.key ≠ key at hkey
          simp [Call.checks?, Call.admitted?, hkey]
        | peek who limit' now => simp [Call.checks?, Call.admitted?]
      simpa [hquiet.1, hquiet.2] using hbefore.other hrun c (Ne.symm hkey) hkept

/-! ### What a run allows -/

section

variable {who : Identity} {calls before : List Call} {now : Nat} (hsound : l.windows.Sound)
  (hnew : l.windows.get? key = none) (hwindow : 0 < l.settings.window) (hlimit : limit ≠ 0)
  (hexact : limit ≤ l.settings.maxExact)

include hsound hnew hexact hwindow hlimit

theorem Steady.check (hkey : who.key = key)
    (h : l.Steady key limit (before ++ [.check who limit now])) :
    ∃ stamps, Window.Tracks l.settings.window limit now (l.admitted key before) stamps ∧
      ((l.run before).check who limit now).1 =
        (Window.checkExact limit l.settings.window now stamps).1 := by
  subst hkey
  obtain ⟨stamps, hstamps, htracks⟩ :=
    (h.of_prefix (List.prefix_append _ _)).follows hsound hnew hwindow hlimit hexact
  rw [run_settings] at htracks
  refine ⟨stamps, htracks now h.le_of_check, ?_⟩
  rw [check_fst _ who limit now hlimit, check_exact who now stamps (by simpa using hexact) hstamps,
    run_settings]

theorem Steady.allowed_iff (hkey : who.key = key)
    (h : l.Steady key limit (before ++ [.check who limit now])) :
    ((l.run before).check who limit now).1.allowed = true ↔
      (Window.recent l.settings.window now (l.admitted key before)).length < limit := by
  obtain ⟨stamps, htracks, hcheck⟩ := h.check hsound hnew hwindow hlimit hexact hkey
  rw [hcheck]
  exact htracks.allowed_iff hwindow

theorem Steady.admitted_length_le (h : l.Steady key limit calls) (start : Nat) :
    ((l.admitted key calls).filter fun s => start ≤ s ∧ s < start + l.settings.window).length ≤
      limit := by
  induction calls using List.reverseRecOn with
  | nil => simp [admitted]
  | append_singleton before c ih =>
    have hbefore := ih (h.of_prefix (List.prefix_append _ _))
    rw [admitted_append_singleton, List.filter_append, List.length_append]
    cases hadmitted : c.admitted? (l.run before) key with
    | none => simpa using hbefore
    | some t =>
      by_cases hin : start ≤ t ∧ t < start + l.settings.window
      · -- Every earlier time of this window was recent when `t` was checked.
        have hroom : (Window.recent l.settings.window t (l.admitted key before)).length < limit := by
          cases c with
          | check who limit' now =>
            simp only [Call.admitted?, Option.ite_none_right_eq_some, Option.some.injEq] at hadmitted
            obtain ⟨⟨hkey, hallowed⟩, rfl⟩ := hadmitted
            obtain rfl : limit' = limit := h.limit_eq who limit' now (by simp) hkey
            exact (h.allowed_iff hsound hnew hwindow hlimit hexact hkey).mp hallowed
          | peek who limit' now => cases hadmitted
        have hsub : ((l.admitted key before).filter fun s =>
            start ≤ s ∧ s < start + l.settings.window).length ≤
              (Window.recent l.settings.window t (l.admitted key before)).length := by
          apply List.Sublist.length_le
          apply List.monotone_filter_right
          intro s hs
          simp only [decide_eq_true_eq] at hs ⊢
          omega
        simp only [Option.toList_some, List.filter_cons, List.filter_nil, hin, and_self,
          decide_true, if_true, List.length_singleton]
        omega
      · simpa [List.filter_cons, hin] using hbefore

theorem Steady.refused (hkey : who.key = key)
    (h : l.Steady key limit (before ++ [.check who limit now]))
    (hrefused : ((l.run before).check who limit now).1.allowed = false) :
    ∃ wait, ((l.run before).check who limit now).1.retryAfter = some wait ∧ 0 < wait ∧
      ∀ later, now ≤ later →
        ((Window.recent l.settings.window later (l.admitted key before)).length < limit ↔
          now + wait ≤ later) := by
  obtain ⟨stamps, htracks, hcheck⟩ := h.check hsound hnew hwindow hlimit hexact hkey
  rw [hcheck] at hrefused ⊢
  obtain ⟨oldest, rest, hrecent, hfull, hsorted, hpast, hin, hwait⟩ :=
    htracks.refused hwindow (Nat.pos_of_ne_zero hlimit) hrefused
  refine ⟨oldest + l.settings.window - now, hwait, by omega, ?_⟩
  intro later hlater
  rw [Window.recent_length_lt_iff _ _ now later oldest _ rest hrecent hfull hsorted hlater]
  omega

end

/-- Up to the exact limit a check is allowed if and only if fewer admitted ones than the limit are
less than a window old, and who is refused is told when that will be so. -/
theorem sliding_window (assign : String → Nat) (settings : RateSettings) (who : Identity)
    (limit : Nat) (calls : List Call) (hwindow : 0 < settings.window) (hlimit : 1 ≤ limit)
    (hexact : limit ≤ settings.maxExact)
    (hsteady : (new assign settings : Limiter α).Steady who.key limit calls) :
    let l : Limiter α := new assign settings
    (∀ (before : List Call) (now : Nat), before ++ [Call.check who limit now] <+: calls →
      (((l.run before).check who limit now).1.allowed = true ↔
        ((l.admitted who.key before).filter fun s => now < s + settings.window).length < limit)) ∧
    (∀ start, ((l.admitted who.key calls).filter fun s =>
      start ≤ s ∧ s < start + settings.window).length ≤ limit) ∧
    (∀ (before : List Call) (now : Nat), before ++ [Call.check who limit now] <+: calls →
      ((l.run before).check who limit now).1.allowed = false →
      ∃ wait : Nat, ((l.run before).check who limit now).1.retryAfter = some wait ∧ 0 < wait ∧
        ∀ (between : List Call) (later : Nat),
          before ++ [Call.check who limit now] ++ between ++ [Call.check who limit later] <+: calls →
          (l.run (before ++ [Call.check who limit now])).admitted who.key between = [] →
          (((l.run (before ++ [Call.check who limit now] ++ between)).check who limit later).1.allowed =
            true ↔ now + wait ≤ later)) := by
  intro l
  have hsound : l.windows.Sound := Shards.new_sound _ _ _
  have hnew : l.windows.get? who.key = none := Shards.get?_new _ _ _ _
  have hlimit' : limit ≠ 0 := by omega
  refine ⟨?_, hsteady.admitted_length_le hsound hnew hwindow hlimit' hexact, ?_⟩
  · intro before now hpre
    exact (hsteady.of_prefix hpre).allowed_iff hsound hnew hwindow hlimit' hexact rfl
  · intro before now hpre hrefused
    obtain ⟨wait, hwait, hpos, hlater⟩ :=
      (hsteady.of_prefix hpre).refused hsound hnew hwindow hlimit' hexact rfl hrefused
    refine ⟨wait, hwait, hpos, ?_⟩
    intro between later hpre' hnone
    have hprobe := hsteady.of_prefix hpre'
    have hle : now ≤ later := by
      refine hprobe.le_of_check now ?_
      simp [checked, Call.checks?]
    rw [hprobe.allowed_iff hsound hnew hwindow hlimit' hexact rfl, ← hlater later hle,
      admitted_append, hnone, List.append_nil, admitted_append_singleton]
    simp [Call.admitted?, hrefused]

def bob : Identity := ⟨"bob", "slack", true⟩

def aMinute : RateSettings := { window := 60, maxTracked := 16, maxExact := 10 }

def pair : List Call := [.check bob 2 0, .check bob 2 10]

def burst : List Call :=
  pair ++ [.check bob 2 20] ++ [.check bob 2 59] ++ [.check bob 2 60]

theorem sliding_window_burst :
    let l : Limiter Double := new (fun _ => 0) aMinute
    0 < aMinute.window ∧ 1 ≤ 2 ∧ 2 ≤ aMinute.maxExact ∧ l.Steady bob.key 2 burst ∧
    l.admitted bob.key burst = [0, 10, 60] ∧
    ((l.run pair).check bob 2 20).1 = .refused 40 ∧
    ∃ wait, ((l.run pair).check bob 2 20).1.retryAfter = some wait ∧ 0 < wait ∧
      (((l.run (pair ++ [.check bob 2 20] ++ [.check bob 2 59])).check bob 2 60).1.allowed = true ↔
        20 + wait ≤ 60) := by
  dsimp only
  have hsteady : (new (fun _ => 0) aMinute : Limiter Double).Steady bob.key 2 burst := by
    refine steady_of_alone _ bob 2 burst (Shards.new_sound _ _ _) ?_ ?_ ?_
    · simp [burst, pair, Call.who]
    · simp [burst, pair, Call.limit]
    · decide +kernel
  have hrefused : (((new (fun _ => 0) aMinute : Limiter Double).run pair).check bob 2 20).1 =
      .refused 40 := by
    decide +kernel
  obtain ⟨wait, hwait, hpos, hagain⟩ :=
    (sliding_window (fun _ => 0) aMinute bob 2 burst (by decide) (by decide) (by decide) hsteady).2.2
      pair 20 ⟨[.check bob 2 59, .check bob 2 60], rfl⟩ (by rw [hrefused]; rfl)
  exact ⟨by decide, by decide, by decide, hsteady, by decide +kernel, hrefused, wait, hwait, hpos,
    hagain [.check bob 2 59] 60 (List.prefix_refl burst) (by decide +kernel)⟩

end Limiter

end Admission
