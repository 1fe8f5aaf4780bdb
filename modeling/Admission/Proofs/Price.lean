import Admission.Proofs.Config
import Admission.Proofs.Dict
import Admission.Router.Route

/-!
# Costs in exact arithmetic

No price of a valid configuration is negative, so fewer tokens never cost more. The estimate of a router
covers the rate of the tier, but says nothing of the prices of single models.
-/

namespace Admission

namespace Price

/-- Nothing is paid back for a token. -/
structure Nonneg (p : Price Rat) : Prop where
  input : 0 ≤ p.inputPer1k
  output : 0 ≤ p.outputPer1k

theorem nonneg_iff (p : Price Rat) : p.Nonneg ↔ 0 ≤ p.inputPer1k ∧ 0 ≤ p.outputPer1k :=
  ⟨fun h => ⟨h.input, h.output⟩, fun h => ⟨h.1, h.2⟩⟩

variable (p : Price Rat) (input output : Nat)

theorem cost_eq :
    p.cost input output = (input * p.inputPer1k + output * p.outputPer1k) / 1000 := by
  have hthousand : (1000.0 : Rat) = 1000 := by norm_num
  rw [← hthousand]
  rfl

theorem cost_mono (h : p.Nonneg) (input' output' : Nat) (hinput : input' ≤ input)
    (houtput : output' ≤ output) : p.cost input' output' ≤ p.cost input output := by
  have hin : (input' : Rat) * p.inputPer1k ≤ input * p.inputPer1k :=
    mul_le_mul_of_nonneg_right (Nat.cast_le.mpr hinput) h.input
  have hout : (output' : Rat) * p.outputPer1k ≤ output * p.outputPer1k :=
    mul_le_mul_of_nonneg_right (Nat.cast_le.mpr houtput) h.output
  rw [cost_eq, cost_eq]
  linarith

end Price

/-! ## Tables -/

namespace PriceTable

theorem listed_of_get? {α : Type} (table : PriceTable α) (model : String) (price : Price α)
    (h : table.get? model = some price) : ∃ name, (name, price) ∈ table.prices.toList := by
  unfold get? at h
  cases hown : table.prices.get? model with
  | some own =>
    rw [hown] at h
    cases h
    exact ⟨model, table.prices.mem_of_get? model price hown⟩
  | none =>
    rw [hown] at h
    obtain ⟨entry, hlongest, rfl⟩ := Option.map_eq_some_iff.mp h
    exact ⟨entry.1, List.mem_of_mem_filter (lastGreatest?_mem hlongest)⟩

theorem defaults_nonneg (entry : String × Price Rat)
    (h : entry ∈ (defaults : PriceTable Rat).prices.toList) : entry.2.Nonneg := by
  have hall : ∀ entry ∈ (defaults : PriceTable Rat).prices.toList,
      0 ≤ entry.2.inputPer1k ∧ 0 ≤ entry.2.outputPer1k := by decide +kernel
  exact entry.2.nonneg_iff.mpr (hall entry h)

theorem costOrBlended_le (table : PriceTable Rat) (model : String) (per1k bound : Rat)
    (input output : Nat) (hprice : ∀ price ∈ table.get? model, price.cost input output ≤ bound)
    (hblended : (Price.blended per1k).cost input output ≤ bound) :
    table.costOrBlended model input output per1k ≤ bound := by
  unfold costOrBlended
  cases hget : table.get? model with
  | some price => exact hprice price hget
  | none => exact hblended

end PriceTable

/-! ## Valid configurations -/

namespace Config

variable (c : Config Rat)

theorem Valid.price_nonneg (h : c.Valid) (model : String) (price : Price Rat)
    (hget : (PriceTable.configured c.pricing).get? model = some price) : price.Nonneg := by
  obtain ⟨name, hlisted⟩ := PriceTable.listed_of_get? _ model price hget
  rcases Dict.mem_overlay _ _ _ hlisted with hknown | hset
  · exact PriceTable.defaults_nonneg (name, price) hknown
  · obtain ⟨hinput, houtput⟩ := h.prices (name, price) hset
    exact ⟨not_lt.mp hinput, not_lt.mp houtput⟩

theorem Valid.rate_nonneg (h : c.Valid) (tier : Tier Rat) (htier : tier ∈ c.routing.tierSet.toList) :
    0 ≤ tier.costPer1k :=
  not_lt.mp (h.tiers tier (TierSet.mem_ofList.mp htier)).cost

end Config

/-! ## Estimates -/

namespace Router

theorem estimate_eq (r : Router Rat) (tier : Tier Rat) (input output : Nat) :
    r.estimate tier input output =
      tier.costPer1k * ((input + output : Nat) : Rat) / 1000 * (1 + r.settings.safetyMargin) := by
  have hthousand : (1000.0 : Rat) = 1000 := by norm_num
  have hone : (1.0 : Rat) = 1 := by norm_num
  rw [← hthousand, ← hone]
  rfl

theorem ofRouting_margin_nonneg (routing : Routing Rat) (prices : PriceTable Rat) :
    0 ≤ (ofRouting routing prices).settings.safetyMargin := by
  have hleast : (0 : Rat) ≤ leastMargin := by decide +kernel
  show 0 ≤ Amount.larger routing.safetyMargin leastMargin
  simp only [Amount.larger]
  grind

theorem blended_le_estimate (r : Router Rat) (tier : Tier Rat) (hrate : 0 ≤ tier.costPer1k)
    (hmargin : 0 ≤ r.settings.safetyMargin) (input output : Nat) :
    (Price.blended tier.costPer1k).cost input output ≤ r.estimate tier input output := by
  have hcost : (Price.blended tier.costPer1k).cost input output =
      tier.costPer1k * ((input + output : Nat) : Rat) / 1000 := by
    rw [Price.cost_eq, Price.blended]
    push_cast
    ring
  have hnonneg : 0 ≤ tier.costPer1k * ((input + output : Nat) : Rat) / 1000 := by positivity
  rw [estimate_eq, hcost]
  exact le_mul_of_one_le_right hnonneg (by linarith)

end Router

end Admission
