import Admission.Config.Load
import Admission.Proofs.Controller.Step
import Admission.Proofs.Resolve.Overlay
import Admission.Proofs.Router.FirstFeasible
import Admission.Sandbox

/-!
# Callers of a valid configuration

Every caller has a tier of the configuration for a ceiling. So a request is refused for want of a tier
only where the tiers of its plan have no model that is permitted, and there is no fallback model.
-/

namespace Admission

/-! ## Ceilings -/

namespace Config

def Admits (c : Config Double) (workspace : Option (Permissions Double)) : Prop :=
  ∀ p, workspace = some p → checkLayer c.routing.tierSet p = .ok ()

theorem admits_of_loadWorkspace (c : Config Double) (path : String) (s s' : Sandbox)
    (workspace : Option (Permissions Double))
    (h : (c.loadWorkspace path : SandboxM _) s = (.ok workspace, s')) : c.Admits workspace := by
  rintro p rfl
  simp only [loadWorkspace, bind, StateT.bind] at h
  rcases hread : (readFile Permissions.ofWorkspaceJson path : SandboxM _) s with ⟨_ | _ | found, s''⟩
  all_goals simp only [hread, pure, StateT.pure] at h
  · cases h
  · cases h
  · cases hcheck : checkLayer c.routing.tierSet found with
    | error fault =>
      rw [hcheck] at h
      cases h
    | ok =>
      rw [hcheck] at h
      cases h
      exact hcheck

end Config

theorem exists_entry_of_ordinalOf? (c : Config Double) (name : String) (ordinal : Nat)
    (h : c.routing.tierSet.ordinalOf? name = some ordinal) :
    ∃ entry ∈ c.routing.tiers, entry.name = name := by
  obtain ⟨tier, htier, -⟩ := Option.map_eq_some_iff.mp h
  obtain ⟨hmem, rfl⟩ := c.routing.tierSet.get?_spec name tier htier
  obtain ⟨⟨entry, position⟩, hentry, rfl⟩ := List.mem_map.mp (TierSet.mem_ofList.mp hmem)
  exact ⟨entry, List.fst_mem_of_mem_zipIdx hentry, rfl⟩

theorem Resolver.ordinalOf?_maxTier (c : Config Double) (workspace : Option (Permissions Double))
    (who : Identity) (hc : c.validate = .ok ()) (hworkspace : c.Admits workspace) :
    ∃ ceiling, c.routing.tierSet.ordinalOf? ((ofConfig c workspace).resolve who).maxTier =
      some ceiling := by
  have hwithin := (resolve_noWider_globalCaps c workspace who ((Config.validate_eq_ok c).mp hc)
    fun p hp => (checkLayer_eq_ok _ _).mp (hworkspace p hp)).inForce.maxTier
  obtain ⟨ceiling, -, hceiling, -, -⟩ := hwithin
  exact ⟨ceiling, hceiling⟩

/-! ## Refusals for want of a tier -/

namespace Router

variable {α : Type} [Amount α] {r : Router α} {m : Moment} {request : Request α}
  {caps : Capabilities α}

/-- None of the models of these tiers is permitted. -/
def NonePermitted (tiers : List (Tier α)) (caps : Capabilities α) : Prop :=
  ∀ tier ∈ tiers, ∀ model, tier.lists model = true → caps.permitsModel model = false

theorem PassedOver.rejections_eq_nil_iff {tier : Tier α} {desk desk' : Desk α}
    {rejections : List (Rejection α)} (h : r.PassedOver m request caps tier desk rejections desk') :
    rejections = [] ↔ ∀ model, tier.lists model = true → caps.permitsModel model = false := by
  cases h with
  | unpermitted hnone => exact ⟨fun _ => hnone, fun _ => rfl⟩
  | rejected model _ _ _ hlists hpermitted _ _ =>
    refine ⟨fun h => (List.cons_ne_nil _ _ h).elim, fun h => ?_⟩
    rw [h model hlists] at hpermitted
    cases hpermitted

theorem AllPassedOver.rejections_eq_nil_iff {tiers : List (Tier α)} {desk desk' : Desk α}
    {rejections : List (Rejection α)}
    (h : r.AllPassedOver m request caps tiers desk rejections desk') :
    rejections = [] ↔ NonePermitted tiers caps := by
  unfold NonePermitted
  induction h with
  | nil => simp
  | cons tier rest _ _ _ first later hfirst _ ih =>
    rw [List.append_eq_nil_iff, hfirst.rejections_eq_nil_iff, ih, List.forall_mem_cons]

theorem Used.ne_noTierAvailable {c : Candidate α} {desk : Desk α}
    {result : Except (Refusal α) (Admitted α) × Desk α} (h : Used m request caps c desk result)
    (reason : NoTier) : result.1 ≠ .error (.noTierAvailable reason) := by
  cases h with
  | admitted => nofun
  | rateLimited => nofun

theorem Outcome.noTierAvailable_iff {ceiling : Nat} {first : Tier α} {escalated : Bool}
    {lower : List (Tier α)} {desk : Desk α} {result : Except (Refusal α) (Admitted α) × Desk α}
    (h : r.Outcome m request caps ceiling first escalated lower desk result) (reason : NoTier) :
    result.1 = .error (.noTierAvailable reason) ↔
      reason = .noModel caps.maxTier ∧ NonePermitted (first :: lower) caps ∧
        ∀ tier model, ¬ r.FallsBack caps ceiling tier model := by
  cases h with
  | attempted before after tier _ _ model _ _ _ _ hsplit _ htaken hused =>
    refine ⟨fun h => absurd h (hused.ne_noTierAvailable reason), fun ⟨_, hnone, _⟩ => ?_⟩
    have hmem : tier ∈ first :: lower := by simp [hsplit]
    have hpermitted := htaken.permitted
    rw [hnone tier hmem model htaken.lists] at hpermitted
    cases hpermitted
  | fallback _ _ tier model _ _ _ _ _ hfallback _ hused =>
    exact ⟨fun h => absurd h (hused.ne_noTierAvailable reason),
      fun ⟨_, _, hnone⟩ => absurd hfallback (hnone tier model)⟩
  | fallbackRejected rejections _ tier model last _ _ hfallback _ =>
    refine ⟨fun h => ?_, fun ⟨_, _, hnone⟩ => absurd hfallback (hnone tier model)⟩
    cases rejections <;> cases h
  | noFallback rejections _ hall hnone =>
    rw [← hall.rejections_eq_nil_iff]
    cases rejections with
    | nil =>
      refine ⟨fun h => ?_, fun ⟨hreason, _⟩ => hreason ▸ rfl⟩
      cases h
      exact ⟨rfl, rfl, hnone⟩
    | cons rejection rest =>
      exact ⟨nofun, fun ⟨_, hnil, _⟩ => (List.cons_ne_nil _ _ hnil).elim⟩

variable (r m request caps) in
theorem routeRequested_ne_noTierAvailable (ceiling : Nat) (model : String) (desk : Desk α)
    (reason : NoTier) :
    (r.routeRequested m request caps ceiling model desk).1 ≠ .error (.noTierAvailable reason) := by
  unfold routeRequested
  split
  · nofun
  · next tier _ =>
    split
    · nofun
    split
    · nofun
    rcases r.reserve m request caps tier model desk with ⟨rejection | cost, desk'⟩
    · nofun
    · exact (conclude_used m request caps _ desk').ne_noTierAvailable reason

/-- A request is refused for want of a tier exactly where it is planned, no model of the planned tiers is
permitted, and the fallback model cannot be used. -/
theorem route_noTierAvailable_iff (r : Router Double) (m : Moment) (request : Request Double)
    (caps : Capabilities Double) (desk : Desk Double)
    (hordinals : (r.tiers.toList.map (·.ordinal)).Nodup) (ceiling : Nat)
    (hceiling : r.tiers.ordinalOf? caps.maxTier = some ceiling) (reason : NoTier) :
    (r.route m request caps desk).1 = .error (.noTierAvailable reason) ↔
      honoredModel? request caps = none ∧ reason = .noModel caps.maxTier ∧
      (∃ plan, Plan.make r.tiers r.settings ceiling caps request.normalizedComplexity = some plan ∧
        NonePermitted plan.attempts caps) ∧
      ∀ tier model, ¬ r.FallsBack caps ceiling tier model := by
  unfold route
  simp only [hceiling]
  cases hmodel : honoredModel? request caps with
  | some model =>
    exact ⟨fun h => absurd h (r.routeRequested_ne_noTierAvailable m request caps ceiling model desk reason),
      fun h => nomatch h.1⟩
  | none =>
    obtain ⟨plan, hplan⟩ := r.exists_plan request caps ceiling hceiling
    obtain ⟨-, lower, hattempts, -⟩ := Plan.make_planned hordinals plan hplan
    have houtcome := r.routePlanned_outcome m request caps ceiling plan lower desk hplan hattempts
    simp only [houtcome.noTierAvailable_iff, hplan, Option.some.injEq, exists_eq_left', hattempts,
      true_and]

end Router

/-! ## Controllers of a configuration -/

namespace Controller

/-- A valid configuration with an overlay that passes the checks gives every caller a ceiling among its
tiers. Whatever happened at the desk before, a request is then refused for want of a tier only where no
model of the planned tiers is permitted and the fallback model cannot be used. -/
theorem ceiling_configured (assign : String → Nat) (c : Config Double)
    (workspace : Option (Permissions Double)) (hc : c.validate = .ok ())
    (hworkspace : c.Admits workspace) (state : Controller Double)
    (hstate : (ofConfig assign c workspace).SameRules state) (who : Identity) :
    let caps := state.capabilities who
    (∃ entry ∈ c.routing.tiers, entry.name = caps.maxTier) ∧
    ∃ ceiling, c.routing.tierSet.ordinalOf? caps.maxTier = some ceiling ∧
    ∀ (m : Moment) (request : Request Double), request.identity = who → ∀ reason : NoTier,
      (state.route m request).1 = .error (.noTierAvailable reason) ↔
        Router.honoredModel? request caps = none ∧ reason = .noModel caps.maxTier ∧
        (∃ plan, Plan.make c.routing.tierSet state.router.settings ceiling caps
            request.normalizedComplexity = some plan ∧
          Router.NonePermitted plan.attempts caps) ∧
        ∀ tier model, ¬ state.router.FallsBack caps ceiling tier model := by
  intro caps
  have hcaps : caps = (Resolver.ofConfig c workspace).resolve who :=
    congrArg (fun r : Resolver Double => r.resolve who) hstate.resolver
  have htiers : state.router.tiers = c.routing.tierSet := by
    rw [hstate.router]
    rfl
  obtain ⟨ceiling, hceiling⟩ := Resolver.ordinalOf?_maxTier c workspace who hc hworkspace
  rw [← hcaps] at hceiling
  refine ⟨exists_entry_of_ordinalOf? c _ ceiling hceiling, ceiling, hceiling, ?_⟩
  rintro m request rfl reason
  rw [← htiers] at hceiling ⊢
  rw [route_error_iff]
  refine state.router.route_noTierAvailable_iff m request caps state.desk ?_ ceiling hceiling reason
  rw [htiers]
  exact ((Config.validate_eq_ok c).mp hc).ordinals_nodup

/-- The ceiling that a refusal for want of permitted models names. -/
def unmodelledCeiling? : Except (Refusal Double) (Decision Double) → Option String
  | .error (.noTierAvailable (.noModel ceiling)) => some ceiling
  | _ => none

theorem unmodelledCeiling?_eq_some {result : Except (Refusal Double) (Decision Double)}
    {ceiling : String} (h : unmodelledCeiling? result = some ceiling) :
    result = .error (.noTierAvailable (.noModel ceiling)) := by
  unfold unmodelledCeiling? at h
  split at h
  · cases h
    rfl
  · cases h

def passerBy : Identity := ⟨"visitor", "web", false⟩

def withoutModels : Permissions Double := { zeroTrust := { modelAllow := some [] } }

def withoutModelsRequest : Request Double where
  identity := passerBy
  complexity := 0.2
  inputTokens := 1000

theorem ceiling_configured_passerBy :
    let c : Config Double := .default
    let state := ofConfig (fun _ => 0) c (some withoutModels)
    let caps := state.capabilities passerBy
    c.validate = .ok () ∧ c.Admits (some withoutModels) ∧
    (ofConfig (fun _ => 0) c (some withoutModels)).SameRules state ∧
    (∃ entry ∈ c.routing.tiers, entry.name = caps.maxTier) ∧
    (state.route Router.noon withoutModelsRequest).1 =
      .error (.noTierAvailable (.noModel caps.maxTier)) ∧
    ∃ ceiling plan, Plan.make c.routing.tierSet state.router.settings ceiling caps
      withoutModelsRequest.normalizedComplexity = some plan ∧ Router.NonePermitted plan.attempts caps := by
  intro c state caps
  have hc : c.validate = .ok () := by decide +kernel
  have hworkspace : c.Admits (some withoutModels) := by
    rintro p hp
    cases hp
    decide +kernel
  obtain ⟨hentry, ceiling, -, hiff⟩ :=
    ceiling_configured (fun _ => 0) c (some withoutModels) hc hworkspace state (.refl state) passerBy
  have hroute : (state.route Router.noon withoutModelsRequest).1 =
      .error (.noTierAvailable (.noModel caps.maxTier)) :=
    unmodelledCeiling?_eq_some (by decide +kernel)
  obtain ⟨-, -, ⟨plan, hplan⟩, -⟩ := (hiff Router.noon withoutModelsRequest rfl _).mp hroute
  exact ⟨hc, hworkspace, .refl state, hentry, hroute, ceiling, plan, hplan⟩

end Controller

end Admission
