import Mathlib
import Admission.Config.Validate

/-!
# What a valid configuration is

The checks are made one after the other, and a configuration is valid where all of them pass. Here is
what that comes to for each of its parts.
-/

namespace Admission

/-! ## Checks in sequence -/

theorem andThen_eq_ok {ε : Type} (first : Except ε Unit) (next : Unit → Except ε Unit) :
    (first >>= next) = .ok () ↔ first = .ok () ∧ next () = .ok () := by
  cases first <;> simp [bind, Except.bind]

theorem Except.bind_eq_ok {ε β γ : Type} (x : Except ε β) (f : β → Except ε γ) (y : γ) :
    x.bind f = .ok y ↔ ∃ a, x = .ok a ∧ f a = .ok y := by
  cases x <;> simp [Except.bind]

theorem forM_eq_ok {ε β : Type} (xs : List β) (check : β → Except ε Unit) :
    xs.forM check = .ok () ↔ ∀ x ∈ xs, check x = .ok () := by
  induction xs with
  | nil => simp [List.forM, pure, Except.pure]
  | cons x rest ih =>
    show (check x >>= fun _ => rest.forM check) = .ok () ↔ _
    rw [andThen_eq_ok, ih, List.forall_mem_cons]

theorem require_eq_ok (ok : Bool) (fault : Invalid) : require ok fault = .ok () ↔ ok = true := by
  cases ok <;> simp [require]

variable {α : Type}

theorem TierSet.get?_isSome (tiers : TierSet α) (name : String) :
    (tiers.get? name).isSome = (tiers.ordinalOf? name).isSome := by
  simp [ordinalOf?]

variable [Amount α]

/-! ## Tiers -/

/-- Two tiers that may stand in one list. -/
def Tier.Distinct (a b : Tier α) : Prop := a.name ≠ b.name ∧ a.ordinal ≠ b.ordinal

structure Tier.Valid (tier : Tier α) : Prop where
  range_min : 0 ≤ tier.range.min ∧ tier.range.min ≤ 1.0
  range_max : 0 ≤ tier.range.max ∧ tier.range.max ≤ 1.0
  range : ¬ tier.range.max < tier.range.min
  cost : ¬ tier.costPer1k < 0
  models : tier.models ≠ []

theorem checkTier_eq_ok (before : List (Tier α)) (tier : Tier α) :
    checkTier before tier = .ok () ↔ (∀ t ∈ before, t.Distinct tier) ∧ tier.Valid := by
  simp only [checkTier, andThen_eq_ok, require_eq_ok, inUnit, nonNegative, Bool.and_eq_true,
    Bool.not_eq_true', decide_eq_true_eq, decide_eq_false_iff_not, List.any_eq_false, beq_iff_eq,
    List.isEmpty_eq_false_iff]
  constructor
  · rintro ⟨hnames, hordinals, ⟨⟨hmin, hmax⟩, hrange⟩, hcost, hmodels⟩
    exact ⟨fun t ht => ⟨hnames t ht, hordinals t ht⟩, hmin, hmax, hrange, hcost, hmodels⟩
  · rintro ⟨hdistinct, hmin, hmax, hrange, hcost, hmodels⟩
    exact ⟨fun t ht => (hdistinct t ht).1, fun t ht => (hdistinct t ht).2, ⟨⟨hmin, hmax⟩, hrange⟩,
      hcost, hmodels⟩

theorem checkTiers_eq_ok (before tiers : List (Tier α)) :
    checkTiers before tiers = .ok () ↔
      (∀ tier ∈ tiers, tier.Valid) ∧ tiers.Pairwise Tier.Distinct ∧
        ∀ t ∈ before, ∀ tier ∈ tiers, t.Distinct tier := by
  induction tiers generalizing before with
  | nil => simp [checkTiers]
  | cons tier rest ih =>
    simp only [checkTiers, andThen_eq_ok, checkTier_eq_ok, ih, List.forall_mem_cons,
      List.pairwise_cons, List.forall_mem_append, forall_and]
    tauto

/-! ## Permissions -/

structure Override.Valid (tiers : TierSet α) (o : Override α) : Prop where
  maxTier : ∀ name, o.maxTier = some name → (tiers.ordinalOf? name).isSome
  escalationThreshold : ∀ x, o.escalationThreshold = some x → 0 ≤ x ∧ x ≤ 1.0
  dailyBudget : ∀ x, o.dailyBudget = some x → ¬ x < 0
  monthlyBudget : ∀ x, o.monthlyBudget = some x → ¬ x < 0

theorem all_eq_true_iff {β : Type} (p : β → Bool) (field : Option β) :
    field.all p = true ↔ ∀ x, field = some x → p x = true := by
  cases field <;> simp

theorem checkOverride_eq_ok (tiers : TierSet α) (label : String) (o : Override α) :
    checkOverride tiers label o = .ok () ↔ o.Valid tiers := by
  have hrest : (do
      require (o.escalationThreshold.all inUnit) (.badThreshold label)
      require (o.dailyBudget.all nonNegative && o.monthlyBudget.all nonNegative)
        (.negativeBudget label) : Except Invalid Unit) = .ok () ↔
      (∀ x, o.escalationThreshold = some x → 0 ≤ x ∧ x ≤ 1.0) ∧
        (∀ x, o.dailyBudget = some x → ¬ x < 0) ∧ ∀ x, o.monthlyBudget = some x → ¬ x < 0 := by
    simp only [andThen_eq_ok, require_eq_ok, Bool.and_eq_true, all_eq_true_iff, inUnit, nonNegative,
      decide_eq_true_eq, Bool.not_eq_true', decide_eq_false_iff_not]
  unfold checkOverride
  cases htier : o.maxTier with
  | none =>
    refine (andThen_eq_ok _ _).trans ?_
    rw [hrest]
    constructor
    · rintro ⟨-, hthreshold, hdaily, hmonthly⟩
      exact ⟨by simp [htier], hthreshold, hdaily, hmonthly⟩
    · rintro ⟨-, hthreshold, hdaily, hmonthly⟩
      exact ⟨rfl, hthreshold, hdaily, hmonthly⟩
  | some name =>
    refine (andThen_eq_ok _ _).trans ?_
    rw [hrest, require_eq_ok, TierSet.get?_isSome]
    constructor
    · rintro ⟨hname, hthreshold, hdaily, hmonthly⟩
      refine ⟨fun name' h => ?_, hthreshold, hdaily, hmonthly⟩
      rw [htier] at h
      cases h
      exact hname
    · rintro ⟨hname, hthreshold, hdaily, hmonthly⟩
      exact ⟨hname name htier, hthreshold, hdaily, hmonthly⟩

theorem checkLayer_eq_ok (tiers : TierSet α) (p : Permissions α) :
    checkLayer tiers p = .ok () ↔ ∀ entry ∈ p.labelled, entry.2.Valid tiers := by
  simp only [checkLayer, forM_eq_ok, checkOverride_eq_ok]

theorem checkBuiltin_eq_ok (tiers : TierSet α) (p : Permissions α) (level : Level) :
    checkBuiltin tiers p level = .ok () ↔
      (p.ofLevel level).maxTier.isSome ∨
        (tiers.ordinalOf? (Capabilities.builtin level : Capabilities α).maxTier).isSome := by
  simp only [checkBuiltin, require_eq_ok, Bool.or_eq_true, TierSet.get?_isSome]

/-! ## The whole configuration -/

namespace Config

def listedTiers (c : Config α) : List (Tier α) :=
  c.routing.tiers.zipIdx.map fun (entry, position) => entry.toTier position

/-- The conditions on a configuration, in the order in which they are checked. -/
@[mk_iff]
structure Valid (c : Config α) : Prop where
  tiers_nonempty : c.routing.tiers ≠ []
  tiers : ∀ tier ∈ c.listedTiers, tier.Valid
  tiers_distinct : c.listedTiers.Pairwise Tier.Distinct
  fallbackModel : ∀ model, c.routing.fallbackModel = some model →
    (c.routing.tierSet.tierOfModel? model).isSome
  safetyMargin : ¬ c.routing.safetyMargin < 0
  maxPerHour : c.routing.escalation.maxPerHour = none
  namespacePolicy : c.tools.namespacePolicy = none
  resetHour : c.budgets.resetHour ≤ 23
  globalDaily : ¬ c.budgets.globalDaily < 0
  globalMonthly : ¬ c.budgets.globalMonthly < 0
  windowSeconds : c.rateLimiting.windowSeconds ≠ 0
  windowsTracked : c.rateLimiting.maxTracked ≠ 0
  rowsTracked : c.budgets.maxTracked ≠ 0
  maxPending : c.budgets.maxPending ≠ 0
  flushSeconds : c.budgets.flushSeconds ≠ 0
  prices : ∀ entry ∈ c.pricing.toList, ¬ entry.2.inputPer1k < 0 ∧ ¬ entry.2.outputPer1k < 0
  builtin : ∀ level, (c.permissions.ofLevel level).maxTier.isSome ∨
    (c.routing.tierSet.ordinalOf? (Capabilities.builtin level : Capabilities α).maxTier).isSome
  permissions : ∀ entry ∈ c.permissions.labelled, entry.2.Valid c.routing.tierSet

theorem validate_eq_ok (c : Config α) : c.validate = .ok () ↔ c.Valid := by
  have hlevels : ∀ p : Level → Prop, (∀ level ∈ Level.all, p level) ↔ ∀ level, p level := by
    intro p
    refine ⟨fun h level => h level ?_, fun h level _ => h level⟩
    cases level <;> simp [Level.all]
  unfold validate
  rw [andThen_eq_ok, andThen_eq_ok, checkTiers_eq_ok]
  cases hfallback : c.routing.fallbackModel <;>
    simp only [valid_iff, listedTiers, hfallback, andThen_eq_ok, require_eq_ok, forM_eq_ok,
      checkLayer_eq_ok, checkBuiltin_eq_ok, nonNegative, hlevels, Bool.and_eq_true, Bool.not_eq_true',
      decide_eq_true_eq, decide_eq_false_iff_not, bne_iff_ne, Option.isNone_iff_eq_none,
      List.isEmpty_eq_false_iff, List.not_mem_nil, false_imp_iff, implies_true, and_true, true_and,
      and_assoc, reduceCtorEq, Option.some.injEq, forall_eq']

end Config

end Admission
