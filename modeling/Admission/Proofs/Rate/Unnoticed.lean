import Admission.Proofs.Double.Finite
import Admission.Proofs.Rate.Counted
import Admission.Proofs.Rate.Finding

/-!
# Calls that nobody notices

A look and a check that is refused record nothing, and yet they change the window. A later call finds what it
would have found without them, and so it answers the same.
-/

namespace Admission

/-! ## New buckets -/

namespace Window

theorem seconds_zero : seconds Double 0 = 0 := rfl

theorem seconds_pos (window : Nat) (hwindow : 0 < window) : 0 < seconds Double window := by
  unfold seconds
  by_cases hpart : window % 1000000000 = 0
  · rw [hpart]
    exact Double.natCast_add_zero _ (by omega)
  · have hrest := Double.natCast_div_pos _ hpart
    exact Double.lt_of_lt_of_le 0 _ _ hrest
      (Double.le_add_left _ _ (Double.natCast_nonneg _) (Double.le_of_lt 0 _ hrest))

theorem checkCounter_new (limit window now : Nat) (hwindow : 0 < window) (hlimit : limit ≠ 0) :
    (checkCounter Double limit window now ⟨now, 0, 0⟩).1.allowed = true := by
  have hrotate : rotate window now ⟨now, 0, 0⟩ = ⟨now, 0, 0⟩ :=
    rotate_of_gone window now _ hwindow (by simp)
  have hempty : weighted Double window now ⟨now, 0, 0⟩ + 1.0 ≤ 1.0 := by
    unfold weighted overlap
    dsimp only
    rw [Nat.sub_self, seconds_zero, Double.zero_div _ (seconds_pos window hwindow)]
    decide +kernel
  rw [checkCounter_allowed_iff, hrotate]
  exact Double.le_trans _ _ _ hempty (Double.one_le_natCast limit hlimit)

end Window

namespace Limiter

variable {α : Type} {l : Limiter α} {key : String} {limit first last now : Nat} {calls before : List Call}
  {c : Call} {w w' : Window} {run past : List (Call × Bool)}

/-! ## Leaving calls out -/

def every (run : List (Call × Bool)) : List Call := run.map Prod.fst

def staying (run : List (Call × Bool)) : List Call := (run.filter Prod.snd).map Prod.fst

theorem every_append (run run' : List (Call × Bool)) : every (run ++ run') = every run ++ every run' :=
  List.map_append

theorem staying_append (run run' : List (Call × Bool)) :
    staying (run ++ run') = staying run ++ staying run' := by
  unfold staying
  rw [List.filter_append, List.map_append]

theorem prefix_every (h : past <+: run) : every past <+: every run := by
  obtain ⟨rest, rfl⟩ := h
  exact ⟨every rest, (every_append past rest).symm⟩

theorem prefix_staying (h : past <+: run) : staying past <+: staying run := by
  obtain ⟨rest, rfl⟩ := h
  exact ⟨staying rest, (staying_append past rest).symm⟩

theorem staying_subset (run : List (Call × Bool)) : staying run ⊆ every run :=
  List.map_subset _ (List.filter_subset_self _)

/-- Between the calls that stay no bucket goes by unseen. -/
def Seen (l : Limiter α) (key : String) (run : List (Call × Bool)) : Prop :=
  ∀ first, (checked key (staying run)).head? = some first →
    (looked key (staying run)).IsChain (Window.Near l.settings.window first)

theorem Seen.of_prefix (h : l.Seen key run) (hpre : past <+: run) : l.Seen key past := by
  intro first hfirst
  obtain ⟨rest, hrest⟩ := prefix_staying hpre
  refine List.IsChain.prefix (h first ?_) ?_
  · rw [← hrest, checked, List.filterMap_append, List.head?_append, ← checked, hfirst]
    rfl
  · rw [← hrest, looked_append]
    exact List.prefix_append _ _

/-! ## The window of a key -/

theorem isExact_eq_false_iff : l.isExact limit = false ↔ l.settings.maxExact < limit := by
  unfold isExact
  rw [decide_eq_false_iff_not, not_le]

/-- A window that a run of checks and looks left behind, where the first check was at `first` and the last
look at `last`. -/
structure Watched (l : Limiter α) (key : String) (limit : Nat) (calls : List Call) (first last : Nat)
    (w : Window) : Prop where
  first_eq : (checked key calls).head? = some first
  last_eq : (looked key calls).getLast? = some last
  form : w.HasForm (l.isExact limit)
  order : w.InOrder last
  aligned : (looked key calls).IsChain (Window.Near l.settings.window first) →
    w.Aligned l.settings.window first last

theorem Watched.quiet (h : l.Watched key limit before first last w) (hlooks : c.looks? key = none)
    (hchecks : c.checks? key = none) : l.Watched key limit (before ++ [c]) first last w := by
  have hlooked : looked key (before ++ [c]) = looked key before := by
    rw [looked_append_singleton, hlooks]
    exact List.append_nil _
  have hchecked : checked key (before ++ [c]) = checked key before := by
    rw [checked_append_singleton, hchecks]
    exact List.append_nil _
  exact ⟨hchecked ▸ h.first_eq, hlooked ▸ h.last_eq, h.form, h.order, hlooked ▸ h.aligned⟩

structure Keeps (l : Limiter α) (limit now : Nat) (w w' : Window) : Prop where
  form : w'.HasForm (l.isExact limit)
  order : w'.InOrder now
  aligned : ∀ first last, last ≤ now → w.Aligned l.settings.window first last →
    Window.Near l.settings.window first last now → w'.Aligned l.settings.window first now

theorem Watched.look (h : l.Watched key limit before first last w) (hlooks : c.looks? key = some now)
    (hle : last ≤ now) (hkeeps : l.Keeps limit now w w') :
    l.Watched key limit (before ++ [c]) first now w' := by
  have hlooked : looked key (before ++ [c]) = looked key before ++ [now] := by
    rw [looked_append_singleton, hlooks]
    rfl
  refine ⟨?_, ?_, hkeeps.form, hkeeps.order, ?_⟩
  · rw [checked_append_singleton, List.head?_append, h.first_eq]
    rfl
  · rw [hlooked, List.getLast?_append]
    rfl
  · intro hchain
    rw [hlooked, List.isChain_append] at hchain
    exact hkeeps.aligned first last hle (h.aligned hchain.1) (hchain.2.2 last h.last_eq now rfl)

/-- The window of a key, unless it was never checked. -/
def Watches (l : Limiter α) (key : String) (limit : Nat) (calls : List Call) : Option Window → Prop
  | none => checked key calls = []
  | some w => ∃ first last, l.Watched key limit calls first last w

theorem fresh_keeps (l : Limiter α) (limit now : Nat) :
    (l.fresh limit now).HasForm (l.isExact limit) ∧ (l.fresh limit now).InOrder now ∧
      (l.fresh limit now).Aligned l.settings.window now now := by
  unfold fresh
  cases l.isExact limit with
  | true => exact ⟨rfl, ⟨.nil, by simp⟩, trivial⟩
  | false =>
    refine ⟨rfl, trivial, ?_⟩
    show now = now + l.settings.window * ((now - now) / l.settings.window)
    simp

theorem Watches.shaped {w? : Option Window} (h : l.Watches key limit calls w?)
    (hseen : ∀ t ∈ looked key calls, t ≤ now) :
    ∀ w, w? = some w → w.HasForm (l.isExact limit) ∧ w.InOrder now := by
  rintro w rfl
  obtain ⟨first, last, hwatched⟩ := h
  exact ⟨hwatched.form, hwatched.order.mono (hseen last (List.mem_of_getLast? hwatched.last_eq))⟩

variable [Amount α]

theorem verdict_snd (hform : w.HasForm (l.isExact limit)) (horder : w.InOrder now) :
    (l.verdict limit now w).2 =
      if (l.verdict limit now w).1.allowed then (w.upTo l.settings.window now).record now
      else w.upTo l.settings.window now := by
  unfold verdict
  rw [Window.check_snd, Window.upToDate_eq α hform horder]

section

variable (hwindow : l.isExact limit = false → 0 < l.settings.window)

include hwindow

theorem verdict_keeps (hform : w.HasForm (l.isExact limit)) (horder : w.InOrder now) :
    l.Keeps limit now w (l.verdict limit now w).2 := by
  rw [verdict_snd hform horder]
  refine ⟨?_, ?_, ?_⟩
  · split_ifs
    · exact hform.upTo.record
    · exact hform.upTo
  · split_ifs
    · exact horder.upTo.record
    · exact horder.upTo
  · intro first last hle haligned hnear
    split_ifs
    · exact (haligned.upTo hwindow hform hle hnear).record
    · exact haligned.upTo hwindow hform hle hnear

theorem inWindow_keeps (hform : w.HasForm (l.isExact limit)) (horder : w.InOrder now) :
    l.Keeps limit now w (w.inWindow α l.settings.window now).2 := by
  rw [Window.inWindow_snd α hform]
  refine ⟨?_, ?_, ?_⟩
  · split_ifs
    · exact hform
    · exact hform.upTo
  · split_ifs
    · exact horder
    · exact horder.upTo
  · intro first last hle haligned hnear
    split_ifs with hexact
    · cases w with
      | exact stamps => trivial
      | counter start current previous => cases hexact.symm.trans hform
    · exact haligned.upTo hwindow hform hle hnear

theorem Uniform.watches (h : l.Uniform key limit calls) (hsound : l.windows.Sound)
    (hnew : l.windows.get? key = none) (hlimit : limit ≠ 0) :
    l.Watches key limit calls ((l.run calls).windows.get? key) := by
  refine h.induction (P := l.Watches key limit) hsound hnew hlimit rfl ?_ ?_ ?_
  · intro before c w? hlooks hchecks hbefore
    cases w? with
    | none =>
      show checked key (before ++ [c]) = []
      rw [checked_append_singleton, hchecks, hbefore]
      rfl
    | some w =>
      obtain ⟨first, last, hwatched⟩ := hbefore
      exact ⟨first, last, hwatched.quiet hlooks hchecks⟩
  · rintro before who now w? rfl hseen - hbefore
    have hlooks : (Call.check who limit now).looks? who.key = some now := if_pos ⟨rfl, hlimit⟩
    cases w? with
    | none =>
      obtain ⟨hform, horder, haligned⟩ := fresh_keeps l limit now
      have hkeeps := verdict_keeps hwindow hform horder
      have hnear : Window.Near l.settings.window now now now :=
        Nat.lt_add_of_pos_right (Nat.pow_pos (by decide))
      refine ⟨now, now, ?_, ?_, hkeeps.form, hkeeps.order, fun _ =>
        hkeeps.aligned now now le_rfl haligned hnear⟩
      · rw [checked_append_singleton, hbefore]
        simp [Call.checks?]
      · rw [looked_append_singleton, hlooks]
        simp
    | some w =>
      obtain ⟨first, last, hwatched⟩ := hbefore
      have hle := hseen last (List.mem_of_getLast? hwatched.last_eq)
      exact ⟨first, now, hwatched.look hlooks hle
        (verdict_keeps hwindow hwatched.form (hwatched.order.mono hle))⟩
  · rintro before who limit' now w? rfl hlimit' hseen hbefore
    have hlooks : (Call.peek who limit' now).looks? who.key = some now := if_pos ⟨rfl, hlimit'⟩
    cases w? with
    | none =>
      show checked who.key (before ++ [.peek who limit' now]) = []
      rw [checked_append_singleton, hbefore]
      rfl
    | some w =>
      obtain ⟨first, last, hwatched⟩ := hbefore
      have hle := hseen last (List.mem_of_getLast? hwatched.last_eq)
      exact ⟨first, now, hwatched.look hlooks hle
        (inWindow_keeps hwindow hwatched.form (hwatched.order.mono hle))⟩

end

/-! ## The two runs -/

def answer (l : Limiter α) : Call → RateCheck
  | .check who limit now => (l.check who limit now).1
  | .peek who limit now => (l.peek who limit now).1

/-- A run with one limit from which only calls are left out that record nothing under the key: looks, and
checks that are refused. Its window is not displaced, with all calls or with those that stay. -/
structure Thinned (l : Limiter α) (key : String) (limit : Nat) (run : List (Call × Bool)) : Prop where
  full : l.Uniform key limit (every run)
  thin : l.Timely key (staying run)
  unrecorded : ∀ before c, before ++ [(c, false)] <+: run →
    c.admitted? (l.run (every before)) key = none

theorem Thinned.of_prefix (h : l.Thinned key limit run) (hpre : past <+: run) :
    l.Thinned key limit past :=
  ⟨h.full.of_prefix (prefix_every hpre), h.thin.of_prefix (prefix_staying hpre),
    fun before c hpre' => h.unrecorded before c (hpre'.trans hpre)⟩

theorem Thinned.uniform (h : l.Thinned key limit run) : l.Uniform key limit (staying run) :=
  ⟨h.thin, fun who limit' now hmem => h.full.limit_eq who limit' now (staying_subset run hmem)⟩

theorem peek_congr (l l' : Limiter α) (who : Identity) (limit now : Nat)
    (hused : ((l.windows.get? who.key).map fun w => (w.inWindow α l.settings.window now).1) =
      (l'.windows.get? who.key).map fun w => (w.inWindow α l'.settings.window now).1) :
    (l.peek who limit now).1 = (l'.peek who limit now).1 := by
  unfold peek
  split_ifs
  · rfl
  · dsimp only
    rw [Shards.modify_fst, Shards.modify_fst, hused]

theorem fresh_allowed (hlimit : limit ≠ 0)
    (hopens : l.isExact limit = false →
      (Window.checkCounter α limit l.settings.window now ⟨now, 0, 0⟩).1.allowed = true) :
    (l.verdict limit now (l.fresh limit now)).1.allowed = true := by
  unfold verdict fresh
  cases hexact : l.isExact limit with
  | true =>
    show (Window.checkExact limit l.settings.window now []).1.allowed = true
    simp [Window.checkExact, Nat.pos_of_ne_zero hlimit, RateCheck.accepted]
  | false => exact hopens hexact

section

variable {full thin : Option Window} (hwindow : l.isExact limit = false → 0 < l.settings.window)
  (hlike : Option.Rel (Window.Alike l.settings.window now) full thin)
  (hfull : ∀ w, full = some w → w.HasForm (l.isExact limit) ∧ w.InOrder now)
  (hthin : ∀ w, thin = some w → w.HasForm (l.isExact limit) ∧ w.InOrder now)
  (hsees : ∀ w, thin = some w → w.Sees l.settings.window now)

include hwindow hlike hfull hthin hsees

theorem verdict_alike :
    l.verdict limit now (full.getD (l.fresh limit now)) =
      l.verdict limit now (thin.getD (l.fresh limit now)) := by
  cases hlike with
  | none => rfl
  | some hlike =>
    obtain ⟨hfform, hforder⟩ := hfull _ rfl
    obtain ⟨htform, htorder⟩ := hthin _ rfl
    exact hlike.check α hwindow hfform htform hforder htorder (hsees _ rfl) limit

theorem inWindow_alike :
    (full.map fun w => (w.inWindow α l.settings.window now).1) =
      (thin.map fun w => (w.inWindow α l.settings.window now).1) ∧
    Option.Rel (Window.Alike l.settings.window now)
      (full.map fun w => (w.inWindow α l.settings.window now).2)
      (thin.map fun w => (w.inWindow α l.settings.window now).2) := by
  cases hlike with
  | none => exact ⟨rfl, .none⟩
  | some hlike =>
    obtain ⟨hsame, hafter⟩ :=
      hlike.inWindow α hwindow (hfull _ rfl).1 (hthin _ rfl).1 (hsees _ rfl)
    exact ⟨congrArg some hsame, .some hafter⟩

theorem windowAfter_alike (hlimit : limit ≠ 0)
    (hlimits : ∀ who limit' now, c = .check who limit' now → who.key = key → limit' = limit)
    (hlooks : c.looks? key = some now) :
    Option.Rel (Window.Alike l.settings.window now) (c.windowAfter l key full)
      (c.windowAfter l key thin) := by
  obtain ⟨⟨hkey, hsome⟩, hnow⟩ := Call.looks?_eq_some_iff.mp hlooks
  cases c with
  | check who limit' now' =>
    obtain rfl : who.key = key := hkey
    obtain rfl : now' = now := hnow
    obtain rfl : limit' = limit := hlimits who limit' now' rfl rfl
    rw [Call.windowAfter_check who now' hlimit, Call.windowAfter_check who now' hlimit,
      verdict_alike hwindow hlike hfull hthin hsees]
    exact .some (.refl _)
  | peek who limit' now' =>
    obtain rfl : who.key = key := hkey
    obtain rfl : now' = now := hnow
    change limit' ≠ 0 at hsome
    rw [Call.windowAfter_peek who now' hsome, Call.windowAfter_peek who now' hsome]
    exact (inWindow_alike hwindow hlike hfull hthin hsees).2

end

theorem windowAfter_left_out {thin : Option Window} (hlimit : limit ≠ 0)
    (hopens : l.isExact limit = false →
      (Window.checkCounter α limit l.settings.window now ⟨now, 0, 0⟩).1.allowed = true)
    (hlike : Option.Rel (Window.Alike l.settings.window now) ((l.run before).windows.get? key) thin)
    (hfull : ∀ w, (l.run before).windows.get? key = some w →
      w.HasForm (l.isExact limit) ∧ w.InOrder now)
    (hlimits : ∀ who limit' now, c = .check who limit' now → who.key = key → limit' = limit)
    (hlooks : c.looks? key = some now) (hunrecorded : c.admitted? (l.run before) key = none) :
    Option.Rel (Window.Alike l.settings.window now)
      (c.windowAfter l key ((l.run before).windows.get? key)) thin := by
  obtain ⟨⟨hkey, hsome⟩, hnow⟩ := Call.looks?_eq_some_iff.mp hlooks
  cases c with
  | check who limit' now' =>
    obtain rfl : who.key = key := hkey
    obtain rfl : now' = now := hnow
    obtain rfl : limit' = limit := hlimits who limit' now' rfl rfl
    have hrefused : ¬ (l.verdict limit' now' (((l.run before).windows.get? who.key).getD
        (l.fresh limit' now'))).1.allowed = true := by
      rw [← check_run l before who limit' now' hlimit]
      simpa [Call.admitted?] using hunrecorded
    rw [Call.windowAfter_check who now' hlimit]
    cases hw : (l.run before).windows.get? who.key with
    | none =>
      rw [hw] at hrefused
      exact absurd (fresh_allowed hlimit hopens) hrefused
    | some w =>
      obtain ⟨hform, horder⟩ := hfull w hw
      rw [hw] at hlike hrefused
      rw [Option.getD_some] at hrefused
      rw [Option.getD_some, verdict_snd hform horder, if_neg hrefused]
      cases hlike with
      | some hlike => exact .some hlike.upTo
  | peek who limit' now' =>
    obtain rfl : who.key = key := hkey
    obtain rfl : now' = now := hnow
    change limit' ≠ 0 at hsome
    rw [Call.windowAfter_peek who now' hsome]
    cases hw : (l.run before).windows.get? who.key with
    | none =>
      rw [hw] at hlike
      exact hlike
    | some w =>
      rw [hw] at hlike
      cases hlike with
      | some hlike => exact .some (hlike.look α (hfull w hw).1)

section

variable (hsound : l.windows.Sound) (hnew : l.windows.get? key = none)
  (hwindow : l.isExact limit = false → 0 < l.settings.window)

include hsound hnew

theorem Uniform.get?_of_zero (h : l.Uniform key 0 calls) : (l.run calls).windows.get? key = none := by
  refine h.toTimely.induction (P := fun _ w? => w? = none) hsound hnew rfl ?_
  rintro before c _ hpre - rfl
  cases hlooks : c.looks? key with
  | none => exact Call.windowAfter_of_looks?_none hlooks
  | some now =>
    obtain ⟨⟨hkey, hsome⟩, -⟩ := Call.looks?_eq_some_iff.mp hlooks
    cases c with
    | check who limit' now' =>
      exact absurd ((h.of_prefix hpre).limit_eq who limit' now' (by simp) hkey) hsome
    | peek who limit' now' =>
      obtain rfl : who.key = key := hkey
      exact Call.windowAfter_peek who now' hsome

include hwindow

theorem Thinned.sees (h : l.Thinned key limit (past ++ [(c, true)]))
    (hseen : l.isExact limit = false → l.Seen key (past ++ [(c, true)])) (hlimit : limit ≠ 0)
    (hlooks : c.looks? key = some now) :
    ∀ w, (l.run (staying past)).windows.get? key = some w → w.Sees l.settings.window now := by
  intro w hw
  have hwatches := (h.of_prefix (List.prefix_append _ _)).uniform.watches hwindow hsound hnew hlimit
  rw [hw] at hwatches
  obtain ⟨first, last, hwatched⟩ := hwatches
  cases w with
  | exact stamps => trivial
  | counter start current previous =>
    have hform := hwatched.form
    have hstaying : staying (past ++ [(c, true)]) = staying past ++ [c] := staying_append _ _
    have hchain := hseen hform first (by
      rw [hstaying, checked_append_singleton, List.head?_append, hwatched.first_eq]
      rfl)
    rw [hstaying, looked_append_singleton, hlooks, Option.toList_some, List.isChain_append] at hchain
    exact (hwatched.aligned hchain.1).sees hwindow hform
      (hchain.2.2 last hwatched.last_eq now rfl)

variable (hopens : ∀ now, l.isExact limit = false →
  (Window.checkCounter α limit l.settings.window now ⟨now, 0, 0⟩).1.allowed = true)

theorem Thinned.shaped (h : l.Thinned key limit run) (hlimit : limit ≠ 0)
    (hpast : ∀ t ∈ looked key (every run), t ≤ now) :
    (∀ w, (l.run (every run)).windows.get? key = some w →
      w.HasForm (l.isExact limit) ∧ w.InOrder now) ∧
    ∀ w, (l.run (staying run)).windows.get? key = some w →
      w.HasForm (l.isExact limit) ∧ w.InOrder now := by
  refine ⟨(h.full.watches hwindow hsound hnew hlimit).shaped hpast,
    (h.uniform.watches hwindow hsound hnew hlimit).shaped fun t ht => hpast t ?_⟩
  obtain ⟨c, hc, hlooks⟩ := List.mem_filterMap.mp ht
  exact List.mem_filterMap.mpr ⟨c, staying_subset run hc, hlooks⟩

include hopens

/-- The two runs leave windows behind that no later call tells apart. -/
theorem Thinned.alike (h : l.Thinned key limit run) (hseen : l.isExact limit = false → l.Seen key run) :
    ∀ now, (∀ t ∈ looked key (every run), t ≤ now) →
      Option.Rel (Window.Alike l.settings.window now) ((l.run (every run)).windows.get? key)
        ((l.run (staying run)).windows.get? key) := by
  by_cases hlimit : limit = 0
  · subst hlimit
    intro now _
    rw [h.full.get?_of_zero hsound hnew, h.uniform.get?_of_zero hsound hnew]
    exact .none
  induction run using List.reverseRecOn with
  | nil =>
    intro now _
    show Option.Rel _ (l.windows.get? key) (l.windows.get? key)
    rw [hnew]
    exact .none
  | append_singleton past call ih =>
    obtain ⟨c, stays⟩ := call
    have hpre : past <+: past ++ [(c, stays)] := List.prefix_append _ _
    have hpast := h.of_prefix hpre
    have hbefore := ih hpast fun hform => Seen.of_prefix (hseen hform) hpre
    have hevery : every (past ++ [(c, stays)]) = every past ++ [c] := every_append _ _
    have hfull : l.Uniform key limit (every past ++ [c]) := hevery ▸ h.full
    have hlimits : ∀ who limit' now, c = .check who limit' now → who.key = key → limit' = limit := by
      rintro who limit' now rfl
      exact hfull.limit_eq who limit' now (by simp)
    intro now hnow
    rw [hevery, looked_append_singleton] at hnow
    rw [hevery, hfull.toTimely.get?_run hsound]
    have hthin : (l.run (staying (past ++ [(c, stays)]))).windows.get? key =
        if stays then c.windowAfter l key ((l.run (staying past)).windows.get? key)
        else (l.run (staying past)).windows.get? key := by
      rw [staying_append]
      cases stays with
      | true =>
        refine Timely.get?_run ?_ hsound
        exact staying_append past [(c, true)] ▸ h.thin
      | false => exact congrArg (fun calls => (l.run calls).windows.get? key) (List.append_nil _)
    rw [hthin]
    have hlater : ∀ t ∈ looked key (every past), t ≤ now := fun t ht =>
      hnow t (List.mem_append_left _ ht)
    cases hlooks : c.looks? key with
    | none =>
      rw [Call.windowAfter_of_looks?_none hlooks, Call.windowAfter_of_looks?_none hlooks, ite_self]
      exact hbefore now hlater
    | some seen =>
      have hmoment := hfull.toTimely.le_of_looks seen hlooks
      have hlike := hbefore seen hmoment
      obtain ⟨hfshaped, htshaped⟩ := hpast.shaped hsound hnew hwindow hlimit hmoment
      have hle : seen ≤ now := hnow seen (by simp [hlooks])
      cases stays with
      | true =>
        have hsees := h.sees hsound hnew hwindow hseen hlimit hlooks
        exact Window.Alike.rel_mono
          (windowAfter_alike hwindow hlike hfshaped htshaped hsees hlimit hlimits hlooks) hle
      | false =>
        have hunrecorded := h.unrecorded past c (List.prefix_refl _)
        exact Window.Alike.rel_mono
          (windowAfter_left_out hlimit (hopens seen) hlike hfshaped hlimits hlooks hunrecorded) hle

theorem Thinned.answer_eq (h : l.Thinned key limit (past ++ [(c, true)]))
    (hseen : l.isExact limit = false → l.Seen key (past ++ [(c, true)])) (hkey : c.who.key = key) :
    (l.run (every past)).answer c = (l.run (staying past)).answer c := by
  by_cases hzero : c.limit = 0
  · cases c with
    | check who limit' now =>
      obtain rfl : limit' = 0 := hzero
      rfl
    | peek who limit' now =>
      obtain rfl : limit' = 0 := hzero
      rfl
  have hpre : past <+: past ++ [(c, true)] := List.prefix_append _ _
  have hpast := h.of_prefix hpre
  have hevery : every (past ++ [(c, true)]) = every past ++ [c] := every_append _ _
  have hfull : l.Uniform key limit (every past ++ [c]) := hevery ▸ h.full
  have hlooks : c.looks? key = some c.now := if_pos ⟨hkey, hzero⟩
  have hmoment := hfull.toTimely.le_of_looks c.now hlooks
  have hlike := hpast.alike hsound hnew hwindow hopens (fun hform => Seen.of_prefix (hseen hform) hpre)
    c.now hmoment
  cases c with
  | check who limit' now =>
    obtain rfl : who.key = key := hkey
    obtain rfl : limit' = limit := hfull.limit_eq who limit' now (by simp) rfl
    obtain ⟨hfshaped, htshaped⟩ := hpast.shaped hsound hnew hwindow hzero hmoment
    have hsees := h.sees hsound hnew hwindow hseen hzero hlooks
    show ((l.run (every past)).check who limit' now).1 = ((l.run (staying past)).check who limit' now).1
    rw [check_run l _ who limit' now hzero, check_run l _ who limit' now hzero]
    exact congrArg Prod.fst (verdict_alike hwindow hlike hfshaped htshaped hsees)
  | peek who limit' now =>
    obtain rfl : who.key = key := hkey
    refine peek_congr _ _ who limit' now ?_
    rw [run_settings, run_settings]
    by_cases hlimit : limit = 0
    · subst hlimit
      rw [hpast.full.get?_of_zero hsound hnew, hpast.uniform.get?_of_zero hsound hnew]
    · obtain ⟨hfshaped, htshaped⟩ := hpast.shaped hsound hnew hwindow hlimit hmoment
      have hsees := h.sees hsound hnew hwindow hseen hlimit hlooks
      exact (inWindow_alike hwindow hlike hfshaped htshaped hsees).1

end

/-- Looks and refused checks may be left out of a run, and all other calls are answered as before. Where
requests are counted in buckets, none of them may go by unseen. -/
theorem unnoticed (assign : String → Nat) (settings : RateSettings) (who : Identity) (limit : Nat)
    (run : List (Call × Bool))
    (hthinned : (new assign settings : Limiter Double).Thinned who.key limit run)
    (hseen : settings.maxExact < limit → 0 < settings.window ∧
      ∀ first, (checked who.key (staying run)).head? = some first →
        (looked who.key (staying run)).IsChain (Window.Near settings.window first)) :
    let l : Limiter Double := new assign settings
    ∀ before c, before ++ [(c, true)] <+: run → c.who.key = who.key →
      (l.run (every before)).answer c = (l.run (staying before)).answer c := by
  intro l before c hpre hkey
  have hsound : l.windows.Sound := Shards.new_sound _ _ _
  have hnew : l.windows.get? who.key = none := Shards.get?_new _ _ _ _
  have hcounts : l.isExact limit = false → settings.maxExact < limit := isExact_eq_false_iff.mp
  refine (hthinned.of_prefix hpre).answer_eq hsound hnew (fun hform => (hseen (hcounts hform)).1) ?_
    (fun hform => Seen.of_prefix (hseen (hcounts hform)).2 hpre) hkey
  intro now hform
  have hlimit : limit ≠ 0 := Nat.ne_of_gt ((Nat.zero_le _).trans_lt (hcounts hform))
  exact Window.checkCounter_new limit settings.window now (hseen (hcounts hform)).1 hlimit

theorem thinned_of_alone (l : Limiter α) (who : Identity) (limit : Nat) (run : List (Call × Bool))
    (hsound : l.windows.Sound) (halone : ∀ c ∈ every run, c.who = who)
    (hlimits : ∀ c ∈ every run, c.limit = limit)
    (hsorted : (looked who.key (every run)).Pairwise (· ≤ ·))
    (hunrecorded : ∀ i : Fin run.length, run[i].2 = false →
      run[i].1.admitted? (l.run (every (run.take i))) who.key = none) :
    l.Thinned who.key limit run := by
  have hsub : (staying run).Sublist (every run) := List.filter_sublist.map _
  refine ⟨l.uniform_of_alone who limit _ hsound halone hlimits hsorted,
    l.timely_of_alone who _ hsound (fun c hc => halone c (staying_subset run hc))
      (hsorted.sublist (hsub.filterMap _)), ?_⟩
  rintro before c ⟨rest, rfl⟩
  have hnone := hunrecorded ⟨before.length, by simp⟩
  simpa using hnone

def quieter : List (Call × Bool) :=
  [(.check bob 2 0, true), (.check bob 2 50, true), (.peek bob 2 61, false), (.check bob 2 65, false),
    (.peek bob 2 80, true)] ++ [(.check bob 2 95, true)] ++ [(.check bob 2 120, true)]

theorem unnoticed_quieter :
    let l : Limiter Double := new (fun _ => 0) inBuckets
    l.Thinned bob.key 2 quieter ∧ inBuckets.maxExact < 2 ∧ 0 < inBuckets.window ∧
    (looked bob.key (staying quieter)).IsChain (Window.Near inBuckets.window 0) ∧
    ((l.run (every (quieter.take 3))).answer (.check bob 2 65)) = .refused 55 ∧
    (l.run (every (quieter.take 5))).answer (.check bob 2 95) =
      (l.run (staying (quieter.take 5))).answer (.check bob 2 95) := by
  dsimp only
  have hthinned : (new (fun _ => 0) inBuckets : Limiter Double).Thinned bob.key 2 quieter := by
    refine thinned_of_alone _ bob 2 quieter (Shards.new_sound _ _ _) ?_ ?_ (by decide +kernel)
      (by decide +kernel)
    · simp [quieter, every, Call.who]
    · simp [quieter, every, Call.limit]
  have hchain : (looked bob.key (staying quieter)).IsChain (Window.Near inBuckets.window 0) := by
    have hlooked : looked bob.key (staying quieter) = [0, 50, 80, 95, 120] := by decide +kernel
    rw [hlooked]
    simp [inBuckets, Window.near_of_le]
  have hseen : inBuckets.maxExact < 2 → 0 < inBuckets.window ∧
      ∀ first, (checked bob.key (staying quieter)).head? = some first →
        (looked bob.key (staying quieter)).IsChain (Window.Near inBuckets.window first) := by
    refine fun _ => ⟨by decide, fun first hfirst => ?_⟩
    have hzero : (checked bob.key (staying quieter)).head? = some 0 := by decide +kernel
    obtain rfl : 0 = first := Option.some.inj (hzero.symm.trans hfirst)
    exact hchain
  exact ⟨hthinned, by decide, by decide, hchain, by decide +kernel,
    unnoticed (fun _ => 0) inBuckets bob 2 quieter hthinned hseen _ _
      ⟨[(.check bob 2 120, true)], rfl⟩ rfl⟩

def lateLook : List (Call × Bool) :=
  [(.check bob 1 0, true), (.check bob 1 1, true), (.peek bob 1 3, false),
    (.check bob 1 8589934592, true)]

theorem unnoticed_lateLook :
    let l : Limiter Double := new (fun _ => 0) twoNanos
    l.Thinned bob.key 1 lateLook ∧
    (looked bob.key (every lateLook)).IsChain (fun s t => t < s + Nat.pow 2 32 * twoNanos.window) ∧
    (looked bob.key (staying lateLook)).IsChain (fun s t => t < s + Nat.pow 2 32 * twoNanos.window) ∧
    (l.run (every (lateLook.take 3))).answer (.check bob 1 8589934592) = .accepted 0 ∧
    (l.run (staying (lateLook.take 3))).answer (.check bob 1 8589934592) = .refused 0 := by
  refine ⟨?_, by decide +kernel, by decide +kernel, by decide +kernel, by decide +kernel⟩
  refine thinned_of_alone _ bob 1 lateLook (Shards.new_sound _ _ _) ?_ ?_ (by decide +kernel)
    (by decide +kernel)
  · simp [lateLook, every, Call.who]
  · simp [lateLook, every, Call.limit]

end Limiter

end Admission
