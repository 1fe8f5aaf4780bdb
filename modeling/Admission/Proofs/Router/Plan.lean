import Mathlib
import Admission.Router.Plan
import Admission.Selection

/-!
# What a plan tries

Every tier that a plan tries lies within the ceiling, but for the first one of a plan that escalates.
That one is tried only where nothing within the ceiling covers the complexity.
-/

namespace Admission

variable {α : Type}

/-! ## Tiers -/

namespace TierSet

theorem mem_upTo (tiers : TierSet α) (ceiling : Nat) (tier : Tier α) :
    tier ∈ tiers.upTo ceiling ↔ tier ∈ tiers.toList ∧ tier.ordinal ≤ ceiling := by
  simp [upTo]

theorem get?_spec (tiers : TierSet α) (name : String) (tier : Tier α)
    (h : tiers.get? name = some tier) : tier ∈ tiers.toList ∧ tier.name = name :=
  ⟨List.mem_of_find?_eq_some h, by simpa using List.find?_some h⟩

theorem get?_of_mem (tiers : TierSet α) (hnames : (tiers.toList.map (·.name)).Nodup) (tier : Tier α)
    (h : tier ∈ tiers.toList) : tiers.get? tier.name = some tier := by
  cases hget : tiers.get? tier.name with
  | none =>
    unfold get? at hget
    rw [List.find?_eq_none] at hget
    exact absurd (beq_self_eq_true tier.name) (hget tier h)
  | some found =>
    obtain ⟨hfound, hname⟩ := tiers.get?_spec tier.name found hget
    rw [List.inj_on_of_nodup_map hnames hfound h hname]

theorem tierOfModel?_spec (tiers : TierSet α) (model : String) (tier : Tier α)
    (h : tiers.tierOfModel? model = some tier) : tier ∈ tiers.toList ∧ tier.lists model = true :=
  ⟨List.mem_of_find?_eq_some h, by simpa using List.find?_some h⟩

end TierSet

/-! ## Models -/

namespace Selector

theorem mem_permitted (tier : Tier α) (caps : Capabilities α) (model : String) :
    model ∈ permitted tier caps ↔ tier.lists model = true ∧ caps.permitsModel model = true := by
  simp [permitted, Tier.lists]

variable [Amount α]

theorem select_mem (s s' : Selector) (table : PriceTable α) (dice : Nat) (tier : Tier α)
    (models : List String) (model : String)
    (h : s.select table dice tier models = (some model, s')) : model ∈ models := by
  unfold select at h
  split at h
  · cases h
  · split at h
    · exact List.mem_of_head? (congrArg Prod.fst h)
    · exact List.mem_of_getElem? (congrArg Prod.fst h)
    · exact firstLeast?_mem (congrArg Prod.fst h)
    · exact List.mem_of_getElem? (congrArg Prod.fst h)

end Selector

/-! ## Plans -/

namespace Plan

variable [Amount α] (tiers : TierSet α) (settings : RouterSettings α) (ceiling : Nat)
  (caps : Capabilities α) (complexity : α)

/-- A tier above the ceiling to which a request of this complexity may escalate. -/
structure Escalates (tier : Tier α) : Prop where
  enabled : settings.escalationEnabled = true
  allowed : caps.escalationAllowed = true
  threshold : caps.escalationThreshold ≤ complexity
  above : ceiling < tier.ordinal
  reach : tier.ordinal ≤ reach settings ceiling
  covers : tier.range.contains complexity = true
  /-- No tier within the ceiling does. -/
  uncovered : ∀ t ∈ tiers.upTo ceiling, t.range.contains complexity = false

structure Sound (plan : Plan α) : Prop where
  attempts : ∀ t ∈ plan.attempts, t ∈ tiers.toList ∧
    (t.ordinal ≤ ceiling ∨ t = plan.chosen ∧ plan.escalated = true)
  escalates : plan.escalated = true →
    Escalates tiers settings ceiling caps complexity plan.chosen

omit [Amount α] in
theorem mem_fallThrough (candidates : List (Tier α)) (chosen tier : Tier α)
    (hchosen : chosen ∈ candidates) (h : tier ∈ fallThrough candidates chosen) : tier ∈ candidates := by
  rcases List.mem_cons.mp h with rfl | h
  · exact hchosen
  · exact List.mem_reverse.mp (List.mem_filter.mp h).1

theorem fallThrough_sound (chosen : Tier α) (reason : RouteReason α)
    (hchosen : chosen ∈ tiers.upTo ceiling) :
    Sound tiers settings ceiling caps complexity
      ⟨chosen, false, fallThrough (tiers.upTo ceiling) chosen, reason⟩ := by
  refine ⟨fun t ht => ?_, fun h => by cases h⟩
  have hmem := mem_fallThrough (tiers.upTo ceiling) chosen t hchosen ht
  obtain ⟨hlisted, hordinal⟩ := (tiers.mem_upTo ceiling t).mp hmem
  exact ⟨hlisted, Or.inl hordinal⟩

theorem covering?_eq_none (candidates : List (Tier α)) :
    covering? candidates complexity = none ↔
      ∀ t ∈ candidates, t.range.contains complexity = false := by
  simp [covering?]

theorem escalation?_spec (tier : Tier α)
    (h : escalation? tiers settings ceiling caps complexity = some tier)
    (hnone : covering? (tiers.upTo ceiling) complexity = none) :
    tier ∈ tiers.toList ∧ Escalates tiers settings ceiling caps complexity tier := by
  unfold escalation? at h
  split at h
  · next hmay =>
    simp only [mayEscalate, Bool.and_eq_true, decide_eq_true_eq] at hmay
    obtain ⟨⟨henabled, hallowed⟩, hthreshold⟩ := hmay
    have hcovers := List.find?_some h
    obtain ⟨hlisted, hordinal⟩ := List.mem_filter.mp (List.mem_of_find?_eq_some h)
    simp only [Bool.and_eq_true, decide_eq_true_eq] at hordinal
    have huncovered := (covering?_eq_none complexity (tiers.upTo ceiling)).mp hnone
    exact ⟨hlisted, henabled, hallowed, hthreshold, hordinal.1, hordinal.2, hcovers, huncovered⟩
  · cases h

theorem make_sound (plan : Plan α) (h : make tiers settings ceiling caps complexity = some plan) :
    Sound tiers settings ceiling caps complexity plan := by
  simp only [make] at h
  split at h
  · next tier hcovering =>
    cases h
    refine fallThrough_sound _ _ _ _ _ tier _ ?_
    exact List.mem_reverse.mp (List.mem_of_find?_eq_some hcovering)
  · next hnone =>
    split at h
    · cases h
    · next nearest tier hnearest hescalation =>
      cases h
      obtain ⟨hlisted, hescalates⟩ :=
        escalation?_spec tiers settings ceiling caps complexity tier hescalation hnone
      refine ⟨fun t ht => ?_, fun _ => hescalates⟩
      rcases List.mem_cons.mp ht with rfl | ht
      · exact ⟨hlisted, Or.inr ⟨rfl, rfl⟩⟩
      · obtain ⟨hlisted, hordinal⟩ := (tiers.mem_upTo ceiling t).mp (List.mem_reverse.mp ht)
        exact ⟨hlisted, Or.inl hordinal⟩
    · next nearest hnearest hnone =>
      cases h
      exact fallThrough_sound _ _ _ _ _ nearest _ (firstLeast?_mem hnearest)

end Plan

end Admission
