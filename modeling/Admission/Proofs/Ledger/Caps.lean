import Admission.Proofs.Ledger.Conservation

/-!
# Budgets hold over whole runs

A cap is looked at only when a reservation is made. In exact arithmetic it holds ever after, as long as
every settled cost stays within its estimate: a settlement gives back what the reservation held.
-/

namespace Admission

/-! ## One row -/

namespace Meter

/-- What is committed stays within a cap, of which 0 is none. -/
def Within (m : Meter Rat) (cap : Rat) : Prop := 0 < cap → m.spent + m.reserved ≤ cap

variable (m : Meter Rat) (cap : Rat)

theorem zero_within : (zero : Meter Rat).Within cap := by
  intro hcap
  simpa [zero] using hcap.le

theorem Within.roll (h : m.Within cap) (now : Int) : (m.roll now).Within cap := by
  unfold Meter.roll
  split
  · intro hcap
    simpa using hcap.le
  · exact h

theorem reserve_within (estimate : Rat) (h : m.crosses estimate cap = false) :
    (m.reserve estimate).Within cap := by
  intro hcap
  simp only [crosses, committed, hcap, decide_true, Bool.true_and] at h
  have hle : m.spent + m.reserved + estimate ≤ cap := not_lt.mp (of_decide_eq_false h)
  simpa [Meter.reserve, add_assoc] using hle

theorem Within.settle (period : Reservation Rat → Int) (held : List (Reservation Rat))
    (booked : List (Ledger.Settlement Rat)) (r : Reservation Rat)
    (hb : m.Balanced period (r :: held) booked) (hamounts : ∀ r ∈ held, 0 ≤ r.amount) (cost : Rat)
    (hcost : cost ≤ r.amount) (h : m.Within cap) :
    (m.settle r.amount cost (period r)).Within cap := by
  -- The reservation that is settled was committed at no less than its cost.
  intro hcap
  have hcommitted := h hcap
  unfold Meter.settle
  split
  · next hr =>
    have hreserved := hb.shows.reserved
    have hrest := m.ofPeriod_sum_nonneg period held hamounts
    rw [Meter.ofPeriod_cons_self _ _ _ r hr.symm, List.map_cons, List.sum_cons] at hreserved
    have hlarger : Amount.larger (m.reserved - r.amount) 0 = m.reserved - r.amount := by
      simp only [Amount.larger]
      grind
    rw [hlarger]
    linarith
  · exact hcommitted

end Meter

namespace Row

structure Within (row : Row Rat) (daily monthly : Rat) : Prop where
  day : row.day.Within daily
  month : row.month.Within monthly

variable (row : Row Rat) (daily monthly : Rat)

theorem empty_within : (empty : Row Rat).Within daily monthly :=
  ⟨Meter.zero_within daily, Meter.zero_within monthly⟩

theorem Within.roll (h : row.Within daily monthly) (now : Periods) :
    (row.roll now).Within daily monthly :=
  ⟨h.day.roll _ _ now.day, h.month.roll _ _ now.month⟩

theorem reserve_within (estimate : Rat) (dayLimit monthLimit : BudgetLimit)
    (h : row.check estimate daily monthly dayLimit monthLimit = none) :
    (row.reserve estimate).Within daily monthly := by
  obtain ⟨hday, hmonth⟩ := (row.check_eq_none daily monthly estimate dayLimit monthLimit).mp h
  exact ⟨row.day.reserve_within daily estimate hday, row.month.reserve_within monthly estimate hmonth⟩

theorem Within.settle (madeIn : Reservation Rat → Periods) (held : List (Reservation Rat))
    (booked : List (Ledger.Settlement Rat)) (r : Reservation Rat)
    (hb : row.Balanced madeIn (r :: held) booked) (hamounts : ∀ r ∈ held, 0 ≤ r.amount) (cost : Rat)
    (hcost : cost ≤ r.amount) (h : row.Within daily monthly) :
    (row.settle r.amount cost (madeIn r)).Within daily monthly :=
  ⟨h.day.settle _ _ _ held booked r hb.day hamounts cost hcost,
    h.month.settle _ _ _ held booked r hb.month hamounts cost hcost⟩

end Row

/-! ## The whole ledger -/

namespace Ledger

variable (settings : LedgerSettings Rat) (daily monthly : String → Rat)

/-- A balanced ledger in which every row stays within the budgets of its key, and the row of everybody
within those of the settings. -/
structure Capped (l : Ledger Rat) (held : List (Reservation Rat)) (b : Books Rat) : Prop where
  balanced : Balanced l held b
  settings_eq : l.settings = settings
  rows : ∀ key row, l.rows.get? key = some row → row.Within (daily key) (monthly key)
  global : l.global.Within settings.globalDaily settings.globalMonthly

variable {settings daily monthly} {l : Ledger Rat} {held : List (Reservation Rat)} {b : Books Rat}

theorem Capped.row (h : Capped settings daily monthly l held b) (key : String) :
    (l.row key).Within (daily key) (monthly key) := by
  unfold Ledger.row
  cases hget : l.rows.get? key with
  | some row => exact h.rows key row hget
  | none => exact Row.empty_within _ _

theorem Capped.put_rows (h : Capped settings daily monthly l held b) (key : String)
    (row global : Row Rat) (hrow : row.Within (daily key) (monthly key)) (other : String)
    (row' : Row Rat) (hget : (l.put key row global).rows.get? other = some row') :
    row'.Within (daily other) (monthly other) := by
  by_cases hne : other = key
  · subst hne
    rw [l.get?_put_self other row global h.balanced.sound] at hget
    cases hget
    exact hrow
  · rw [l.get?_put_of_ne key other row global h.balanced.sound hne] at hget
    split at hget
    · cases hget
    · exact h.rows other row' hget

theorem Capped.charge (r : Reservation Rat) (h : Capped settings daily monthly l (r :: held) b)
    (cost : Rat) (hcost : cost ≤ r.amount) (now : Periods) :
    Capped settings daily monthly (l.charge r cost now) held (b.enter [⟨r, cost⟩]) := by
  have hamounts : ∀ other ∈ held, 0 ≤ other.amount :=
    fun other ho => h.balanced.amounts other (List.mem_cons_of_mem r ho)
  have hrow := h.balanced.row l (r :: held) b r.key
  rw [under_cons_self] at hrow
  refine ⟨h.balanced.charge l held b r cost now, (charge_settings ..).trans h.settings_eq, ?_, ?_⟩
  · rw [charge_eq]
    refine h.put_rows r.key _ ((l.global.roll now).settle r.amount cost r.globalMadeIn) ?_
    exact ((h.row r.key).roll _ _ _ now).settle _ _ _ _ _ _ r (hrow.roll _ _ _ _ now)
      (fun other ho => hamounts other (List.mem_of_mem_filter ho)) cost hcost
  · rw [charge_eq]
    exact (h.global.roll _ _ _ now).settle _ _ _ _ held b.all r
      (h.balanced.global.roll _ _ _ _ now) hamounts cost hcost

theorem Capped.reject (h : Capped settings daily monthly l held b) (key : String) (now : Periods)
    (global : Row Rat) (hglobal : global = l.global ∨ global = l.global.roll now) :
    Capped settings daily monthly (l.put key ((l.row key).roll now) global) held
      (b.close (l.put key ((l.row key).roll now) global)) := by
  refine ⟨h.balanced.reject l held b key now global hglobal, h.settings_eq,
    h.put_rows key _ _ ((h.row key).roll _ _ _ now), ?_⟩
  rcases hglobal with rfl | rfl
  · exact h.global
  · exact h.global.roll _ _ _ now

theorem Capped.accept (h : Capped settings daily monthly l held b) (r : Reservation Rat)
    (caps : Capabilities Rat) (now : Periods) (hamount : 0 ≤ r.amount)
    (hbudget : caps.dailyBudget = daily r.key ∧ caps.monthlyBudget = monthly r.key)
    (hmadeIn : r.madeIn = ((l.row r.key).roll now).periods)
    (hglobalMadeIn : r.globalMadeIn = (l.global.roll now).periods)
    (hpasses : Passes l.settings caps r.amount ((l.row r.key).roll now) (l.global.roll now)) :
    Capped settings daily monthly (l.put r.key (((l.row r.key).roll now).reserve r.amount)
        ((l.global.roll now).reserve r.amount)) (r :: held)
      (b.close (l.put r.key (((l.row r.key).roll now).reserve r.amount)
        ((l.global.roll now).reserve r.amount))) := by
  have hcaller := hpasses.caller
  have heverybody := hpasses.everybody
  rw [hbudget.1, hbudget.2] at hcaller
  rw [h.settings_eq] at heverybody
  exact ⟨h.balanced.accept l held b r now hamount hmadeIn hglobalMadeIn, h.settings_eq,
    h.put_rows r.key _ _ (Row.reserve_within _ _ _ _ _ _ hcaller),
    Row.reserve_within _ _ _ _ _ _ heverybody⟩

theorem capped_invariant :
    Invariant (fun r cost => cost ≤ r.amount)
      (fun key caps => caps.dailyBudget = daily key ∧ caps.monthlyBudget = monthly key)
      (Capped settings daily monthly) where
  allowed_amount _ := le_refl _
  quiet l l' held held' b b' hrows hglobal hsettings hheld hb h :=
    ⟨h.balanced.quiet l l' held held' b b' hrows hglobal hheld hb, hsettings.trans h.settings_eq,
      hrows ▸ h.rows, hglobal ▸ h.global⟩
  close l held b h := ⟨h.balanced.close l held b, h.settings_eq, h.rows, h.global⟩
  charge _ r _ _ cost now hcost h := h.charge r cost hcost now
  reject _ _ _ key now global hglobal h := h.reject key now global hglobal
  accept _ _ _ r caps estimate now hbudget hamount hmadeIn hglobalMadeIn hpasses h :=
    h.accept r caps now (hamount ▸ sanitize_nonneg estimate) hbudget hmadeIn hglobalMadeIn hpasses

/-- Where every reserve of a key comes with the budgets of the key and no reconcile reports more than
the estimate, every row stays within its budgets and the row of everybody within the limits. -/
theorem run_within_budgets (assign : String → Nat) (settings : LedgerSettings Rat)
    (calls : List (Call Rat)) (daily monthly : String → Rat)
    (hfresh : (calls.filterMap Call.newId?).Nodup)
    (hbudgets : ∀ c ∈ calls, c.Budgeted fun key caps =>
      caps.dailyBudget = daily key ∧ caps.monthlyBudget = monthly key)
    (hactual : ∀ before id actual t, before ++ [.reconcile id actual t] <+: calls →
      ∀ r ∈ ((new assign settings).run before).pending, r.id = id → actual ≤ r.amount) :
    let l := (new assign settings).run calls
    (∀ key row, l.rows.get? key = some row → row.Within (daily key) (monthly key)) ∧
    l.global.Within settings.globalDaily settings.globalMonthly := by
  intro l
  have hstart : Capped settings daily monthly (new assign settings) [] .empty := by
    refine ⟨new_balanced assign settings, rfl, fun key row hget => ?_, Row.empty_within _ _⟩
    rw [new_get?] at hget
    cases hget
  have hcapped := (capped_invariant.audit (by decide) (new assign settings) rfl hstart calls hfresh
    fun before c hpre => ⟨hbudgets c (hpre.subset (by simp)), fun h r hr => ?_⟩).1
  · exact ⟨hcapped.rows, hcapped.global⟩
  · have hamount := h.balanced.amounts r hr
    cases c with
    | reconcile id actual t =>
      simp only [Call.cost, Amount.sanitize, Amount.isFinite, Amount.larger, if_true]
      have hle := hactual before id actual t hpre r hr
      grind
    | reserve | release | sweep => simp only [Call.cost]; grind

theorem run_within_budgets_settledOnce :
    (settledOnce.filterMap Call.newId?).Nodup ∧
    (∀ c ∈ settledOnce, c.Budgeted fun _ caps => caps.dailyBudget = 5 ∧ caps.monthlyBudget = 100) ∧
    (∀ before id actual t, before ++ [.reconcile id actual t] <+: settledOnce →
      ∀ r ∈ ((new (fun _ => 0) oneADay).run before).pending, r.id = id → actual ≤ r.amount) ∧
    ((new (fun _ => 0) oneADay).run settledOnce).global.day.spent = 1 / 4 ∧
    ((new (fun _ => 0) oneADay).run settledOnce).global.day.reserved = 1 / 8 ∧
    ((new (fun _ => 0) oneADay).run settledOnce).global.Within 1 0 := by
  have hbudgets : ∀ c ∈ settledOnce, c.Budgeted fun _ caps =>
      caps.dailyBudget = 5 ∧ caps.monthlyBudget = 100 := by
    have hcaps : (Capabilities.builtin .standard : Capabilities Rat).dailyBudget = 5 ∧
        (Capabilities.builtin .standard : Capabilities Rat).monthlyBudget = 100 := by
      decide +kernel
    simpa [settledOnce, Call.Budgeted] using hcaps
  have hactual : ∀ before id actual t, before ++ [.reconcile id actual t] <+: settledOnce →
      ∀ r ∈ ((new (fun _ => 0) oneADay).run before).pending, r.id = id → actual ≤ r.amount := by
    intro before id actual t hpre
    -- Only the third call is a reconcile.
    rcases before with _ | ⟨first, _ | ⟨second, _ | ⟨third, rest⟩⟩⟩
    · simp [settledOnce] at hpre
    · simp [settledOnce] at hpre
    · simp only [settledOnce, List.cons_append, List.nil_append, List.cons_prefix_cons] at hpre
      obtain ⟨rfl, rfl, hthird, -⟩ := hpre
      cases hthird
      decide +kernel
    · simp [settledOnce] at hpre
  exact ⟨by decide, hbudgets, hactual, by decide +kernel, by decide +kernel,
    (run_within_budgets (fun _ => 0) oneADay settledOnce (fun _ => 5) (fun _ => 100) (by decide)
      hbudgets hactual).2⟩

end Ledger

end Admission
