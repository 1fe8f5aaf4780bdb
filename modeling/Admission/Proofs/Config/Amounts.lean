import Admission.Proofs.Config
import Admission.Proofs.Double.Finite
import Admission.Proofs.Router.Accounting

/-!
# Amounts of a valid configuration

The checks turn away what is negative, and an undefined or infinite amount is not. Where all amounts are
finite, every limit is one and no estimate of a tier with a price comes out undefined. Where one is not,
there may be a limit that limits nothing and a price that is counted as none.
-/

namespace Admission

open Double

/-! ## Limits -/

/-- Some finite spending and some finite estimate cross the limit. -/
def Bites (cap : Double) : Prop :=
  ∃ (m : Meter Double) (estimate : Double),
    (∀ x ∈ [m.spent, m.reserved, estimate], x.isFinite = true ∧ 0 ≤ x) ∧ m.crosses estimate cap = true

def greatest : Double := 1.7976931348623157e308

theorem place?_twice_greatest : place? (greatest + 0 + greatest) = some (toLex (2, toLex (0, 0))) := by
  decide +kernel

theorem bites_iff (cap : Double) : Bites cap ↔ 0 < cap ∧ cap.isFinite = true := by
  simp only [Bites, Meter.crosses, Bool.and_eq_true, decide_eq_true_eq]
  constructor
  · rintro ⟨m, estimate, -, hpos, hcross⟩
    exact ⟨hpos, isFinite_of_lt cap _ (Double.le_of_lt 0 cap hpos) hcross⟩
  · rintro ⟨hpos, hfinite⟩
    obtain ⟨p, hp, -, hlast⟩ := (isFinite_iff_place cap).mp hfinite
    refine ⟨⟨0, greatest, 0⟩, greatest, by decide +kernel, hpos, ?_⟩
    exact (lt_iff_place _ _).mpr ⟨p, _, hp, place?_twice_greatest, hlast⟩

/-! ## Estimates -/

theorem RouterSettings.margin_pos (routing : Routing Double) (h : routing.safetyMargin.isFinite = true) :
    0 < (RouterSettings.ofRouting routing).safetyMargin ∧
      (RouterSettings.ofRouting routing).safetyMargin.isFinite = true := by
  have hleast : (0 : Double) < leastMargin ∧ (leastMargin : Double).isFinite = true := by decide +kernel
  show 0 < Amount.larger routing.safetyMargin leastMargin ∧
    (Amount.larger routing.safetyMargin leastMargin).isFinite = true
  unfold Amount.larger
  split
  · exact hleast
  · next hnot =>
    have hdefined := defined_of_isFinite _ h
    have hle := Double.le_of_not_le routing.safetyMargin leastMargin hdefined
      (defined_of_isFinite _ hleast.2) hnot
    rw [if_pos (show routing.safetyMargin ≤ routing.safetyMargin from hdefined)]
    exact ⟨Double.lt_of_lt_of_le 0 leastMargin _ hleast.1 hle, h⟩

theorem Router.estimate_nonneg (routing : Routing Double) (prices : PriceTable Double)
    (hmargin : routing.safetyMargin.isFinite = true) (tier : Tier Double) (hcost : 0 < tier.costPer1k)
    (hfinite : tier.costPer1k.isFinite = true) (input output : ℕ) :
    0 ≤ (Router.ofRouting routing prices).estimate tier input output := by
  obtain ⟨hpos, hmargin⟩ := RouterSettings.margin_pos routing hmargin
  have hproduct := mul_nonneg_of_pos_left tier.costPer1k _ hcost hfinite (natCast_nonneg (input + output))
  have hquotient := div_nonneg _ 1000.0 hproduct (by decide +kernel) (by decide +kernel)
  exact mul_nonneg_of_pos_right _ _ hquotient (one_add_pos _ hpos) (isFinite_one_add _ hpos hmargin)

/-! ## Configurations -/

namespace Config

def costs (c : Config Double) : List Double := c.listedTiers.map (·.costPer1k)

def limits (c : Config Double) : List Double :=
  c.budgets.globalDaily :: c.budgets.globalMonthly ::
    c.permissions.labelled.flatMap fun (_, o) => o.dailyBudget.toList ++ o.monthlyBudget.toList

def prices (c : Config Double) : List Double :=
  c.pricing.toList.flatMap fun (_, price) => [price.inputPer1k, price.outputPer1k]

def amounts (c : Config Double) : List Double :=
  c.costs ++ c.prices ++ c.limits ++ [c.routing.safetyMargin]

/-- All amounts are what they seem to be: none is negative, infinite or undefined, a limit that is not
zero limits spending, and of a tier with a price no estimate is counted as none, unless it is too large
to be calculated. -/
structure Proper (c : Config Double) : Prop where
  amounts : ∀ x ∈ c.amounts, x.isFinite = true ∧ 0 ≤ x
  limits : ∀ cap ∈ c.limits, ¬ cap ≤ 0 → Bites cap
  estimates : ∀ tier ∈ c.routing.tierSet.toList, 0 < tier.costPer1k → ∀ input output : ℕ,
    let x := (Router.ofRouting c.routing (.configured c.pricing)).estimate tier input output
    0 ≤ x ∧ (x.isFinite = true → Amount.sanitize x ≤ x ∧ x ≤ Amount.sanitize x)

theorem Valid.not_neg {c : Config Double} (h : c.Valid) : ∀ x ∈ c.amounts, ¬ x < 0 := by
  simp only [Config.amounts, costs, Config.prices, Config.limits, List.mem_append, List.mem_map, List.mem_cons,
    List.mem_flatMap, Option.mem_toList, List.not_mem_nil, or_false]
  rintro x (((⟨tier, htier, rfl⟩ | ⟨entry, hentry, rfl | rfl⟩) | (rfl | rfl | ⟨entry, hentry, hx | hx⟩)) | rfl)
  · exact (h.tiers tier htier).cost
  · exact (h.prices entry hentry).1
  · exact (h.prices entry hentry).2
  · exact h.globalDaily
  · exact h.globalMonthly
  · exact (h.permissions entry hentry).dailyBudget x hx
  · exact (h.permissions entry hentry).monthlyBudget x hx
  · exact h.safetyMargin

/-- A configuration that is accepted is proper exactly where its amounts are finite. -/
theorem validate_proper_iff (c : Config Double) (hc : c.validate = .ok ()) :
    c.Proper ↔ ∀ x ∈ c.amounts, x.isFinite = true := by
  refine ⟨fun h x hx => (h.amounts x hx).1, fun hfinite => ?_⟩
  have hvalid := (validate_eq_ok c).mp hc
  refine ⟨fun x hx => ⟨hfinite x hx, ?_⟩, fun cap hcap hpos => ?_, fun tier htier hcost input output => ?_⟩
  · exact nonneg_of_not_neg x (hfinite x hx) (hvalid.not_neg x hx)
  · have hmem : cap ∈ c.amounts := by simp [Config.amounts, hcap]
    have hnonneg := nonneg_of_not_neg cap (hfinite cap hmem) (hvalid.not_neg cap hmem)
    exact (bites_iff cap).mpr ⟨(Double.lt_iff_le_not_ge 0 cap).mpr ⟨hnonneg, hpos⟩, hfinite cap hmem⟩
  · have hmem : tier.costPer1k ∈ c.amounts := by
      have : tier.costPer1k ∈ c.costs := List.mem_map_of_mem (TierSet.mem_ofList.mp htier)
      simp [Config.amounts, this]
    have hmargin := hfinite c.routing.safetyMargin (by simp [Config.amounts])
    have hnonneg := Router.estimate_nonneg c.routing (.configured c.pricing) hmargin tier hcost
      (hfinite _ hmem) input output
    exact ⟨hnonneg, fun h => (sanitize_eq_iff _).mpr ⟨h, hnonneg⟩⟩

theorem validate_proper_default :
    (Config.default : Config Double).validate = .ok () ∧ (Config.default : Config Double).Proper := by
  have hc : (Config.default : Config Double).validate = .ok () := by decide +kernel
  exact ⟨hc, (validate_proper_iff _ hc).mpr (by decide +kernel)⟩

def improper : Config Double :=
  { Config.default with
    routing := { Routing.default with
      tiers := TierEntry.defaults.map fun entry => { entry with costPer1k := 0.0 / 0.0 } }
    budgets := { Budgets.default with globalDaily := 1.0 / 0.0 } }

/-- The checks accept such a configuration. No spending crosses its limit, and what a request is
estimated to cost is counted as nothing. -/
theorem validate_accepts_improper :
    improper.validate = .ok () ∧ ¬ improper.Proper ∧ ¬ Bites improper.budgets.globalDaily ∧
    0 < improper.budgets.globalDaily ∧
    ∀ tier ∈ improper.routing.tierSet.toList,
      (Amount.sanitize ((Router.ofRouting improper.routing (.configured improper.pricing)).estimate tier
        1000 4096)).bits = 0 := by
  have hinfinite : ¬ improper.budgets.globalDaily.isFinite = true := by decide +kernel
  refine ⟨by decide +kernel, fun h => ?_, fun h => hinfinite ((bites_iff _).mp h).2, by decide +kernel,
    by decide +kernel⟩
  exact hinfinite (h.amounts _ (by simp [Config.amounts, Config.limits])).1

end Config

end Admission
