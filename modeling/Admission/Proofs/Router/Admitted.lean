import Admission.Proofs.Router.Cases

/-!
# Admitted decisions

A request is admitted in one of three ways: by its plan, on the fallback model, or on the model that it
asks for. Whichever way it takes, the decision keeps to the record of the caller.
-/

namespace Admission

variable {α : Type} [Amount α]

/-- A decision keeps to the record of the caller and to what was asked for: `tier` is its tier, and
`ceiling` the ordinal up to which the caller needs no escalation. -/
structure Decision.Sound (r : Router α) (request : Request α) (caps : Capabilities α) (d : Decision α)
    (tier : Tier α) (ceiling : Nat) : Prop where
  tier_found : r.tiers.get? d.tier = some tier
  tierOrdinal : d.tierOrdinal = tier.ordinal
  lists : tier.lists d.model = true
  permitted : caps.permitsModel d.model = true
  ceiling_found : r.tiers.ordinalOf? caps.maxTier = some ceiling
  escalated_iff : d.escalated = true ↔ ceiling < d.tierOrdinal
  escalates : d.escalated = true →
    Plan.Escalates r.tiers r.settings ceiling caps request.normalizedComplexity tier
  output_le_cap : d.maxOutputTokens ≤ caps.maxOutputTokens
  output_le_wanted : ∀ wanted, request.maxOutputTokens = some wanted → d.maxOutputTokens ≤ wanted
  context_le_tier : d.maxContextTokens ≤ tier.maxContextTokens
  context_le_cap : d.maxContextTokens ≤ caps.maxContextTokens
  streaming : d.streaming = true → request.stream = true ∧ caps.streamingAllowed = true

omit [Amount α] in
theorem outputCap_le (request : Request α) (caps : Capabilities α) :
    outputCap request caps ≤ caps.maxOutputTokens ∧
      ∀ wanted, request.maxOutputTokens = some wanted → outputCap request caps ≤ wanted := by
  unfold outputCap
  cases hwanted : request.maxOutputTokens with
  | none => exact ⟨le_refl _, fun wanted h => by cases h⟩
  | some n =>
    refine ⟨Nat.min_le_right n caps.maxOutputTokens, fun wanted h => ?_⟩
    cases h
    exact Nat.min_le_left n caps.maxOutputTokens

namespace Router

variable (r : Router α) (m : Moment) (request : Request α) (caps : Capabilities α) (desk : Desk α)

/-- What is admitted is decided about a sound candidate whose cost is reserved. -/
theorem admitted_candidate (a : Admitted α) (h : (r.route m request caps desk).1 = .ok a) :
    ∃ ceiling, ∃ c : Candidate α, r.tiers.ordinalOf? caps.maxTier = some ceiling ∧
      c.Sound r request caps ceiling ∧ a.decision = c.decision m request caps := by
  rcases r.route_cases m request caps desk with
    ⟨refusal, desk', heq, -⟩ | ⟨ceiling, hceiling, c, desk', hc, -, heq⟩
  · rw [heq] at h
    cases h
  · refine ⟨ceiling, c, hceiling, hc, ?_⟩
    rw [heq] at h
    rcases conclude_cases m request caps c desk' with ⟨-, hconclude⟩ | ⟨-, hconclude⟩
    · rw [hconclude] at h
      cases h
      rfl
    · rw [hconclude] at h
      cases h

theorem route_sound (hnames : (r.tiers.toList.map (·.name)).Nodup) (a : Admitted α)
    (h : (r.route m request caps desk).1 = .ok a) :
    ∃ tier ceiling, a.decision.Sound r request caps tier ceiling := by
  obtain ⟨ceiling, c, hceiling, hc, hdecision⟩ := r.admitted_candidate m request caps desk a h
  rw [hdecision]
  obtain ⟨hcap, hwanted⟩ := outputCap_le request caps
  refine ⟨c.tier, ceiling, ?_⟩
  exact {
    tier_found := r.tiers.get?_of_mem hnames c.tier hc.tier
    tierOrdinal := rfl
    lists := hc.lists
    permitted := hc.permitted
    ceiling_found := hceiling
    escalated_iff := hc.escalated_iff
    escalates := hc.escalates
    output_le_cap := hcap
    output_le_wanted := hwanted
    context_le_tier := Nat.min_le_left _ _
    context_le_cap := Nat.min_le_right _ _
    streaming := fun hstream => (Bool.and_eq_true _ _).mp hstream }

def byDefault : Router Double := .ofRouting .default (.configured ∅)

def freshDesk : Desk Double where
  selector := .new .preferenceOrder byDefault.tiers
  limiter := .new (fun _ => 0) (.ofConfig {})
  ledger := .new (fun _ => 0) (.ofBudgets .default)

def hardRequest : Request Double where
  identity := ⟨"alice", "slack", true⟩
  complexity := 0.95
  inputTokens := 1000

def noon : Moment where
  time := ⟨1750000000, 0⟩
  instant := 0
  id := ⟨1⟩
  dice := 0

theorem route_sound_escalated :
    (byDefault.tiers.toList.map (·.name)).Nodup ∧
    ∃ a tier ceiling,
      (byDefault.route noon hardRequest (.builtin .standard) freshDesk).1 = .ok a ∧
      a.decision.Sound byDefault hardRequest (.builtin .standard) tier ceiling ∧
      a.decision.escalated = true ∧ a.decision.tier = "premium" := by
  have hnames : (byDefault.tiers.toList.map (·.name)).Nodup := by decide
  have hrun : (match (byDefault.route noon hardRequest (.builtin .standard) freshDesk).1 with
      | .ok a => a.decision.escalated && a.decision.tier == "premium"
      | .error _ => false) = true := by decide +kernel
  refine ⟨hnames, ?_⟩
  cases hroute : (byDefault.route noon hardRequest (.builtin .standard) freshDesk).1 with
  | error refusal =>
    rw [hroute] at hrun
    cases hrun
  | ok a =>
    rw [hroute] at hrun
    simp only [Bool.and_eq_true, beq_iff_eq] at hrun
    obtain ⟨tier, ceiling, hsound⟩ :=
      byDefault.route_sound noon hardRequest (.builtin .standard) freshDesk hnames a hroute
    exact ⟨a, tier, ceiling, rfl, hsound, hrun⟩

end Router

end Admission
