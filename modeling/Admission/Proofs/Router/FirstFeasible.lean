import Admission.Proofs.Router.Admitted
import Admission.Proofs.Router.Planned

/-!
# The first feasible tier

The tiers of a plan are tried in their order, and the first one is used that has a permitted model and
whose cost the ledger accepts. Where there is none the fallback model is tried, and only if it cannot be
used either the request is refused.
-/

namespace Admission

variable {α : Type} [Amount α]

namespace Selector

omit [Amount α] in
theorem permitted_eq_nil_iff (tier : Tier α) (caps : Capabilities α) :
    permitted tier caps = [] ↔
      ∀ model, tier.lists model = true → caps.permitsModel model = false := by
  simp [List.eq_nil_iff_forall_not_mem, mem_permitted]

theorem select_isSome (s : Selector) (table : PriceTable α) (dice : Nat) (tier : Tier α)
    (models : List String) (h : models ≠ []) : (s.select table dice tier models).1.isSome := by
  have hpos : 0 < models.length := List.length_pos_iff.mpr h
  have hnth : ∀ n, (models[n % models.length]?).isSome := fun n => by
    rw [List.getElem?_eq_getElem (Nat.mod_lt n hpos)]
    rfl
  unfold select
  rw [if_neg (by simpa using h)]
  cases s.strategy with
  | preferenceOrder => simpa using h
  | roundRobin => exact hnth _
  | lowestCost => exact firstLeast?_isSome _ models h
  | random => exact hnth dice

end Selector

namespace Router

section

variable (r : Router α) (m : Moment) (request : Request α) (caps : Capabilities α)

/-! ## One tier -/

/-- A tier has a permitted model, which is selected, and the ledger accepts the estimate. -/
structure Taken (tier : Tier α) (model : String) (cost : α) (desk desk' : Desk α) : Prop where
  lists : tier.lists model = true
  permitted : caps.permitsModel model = true
  reserved : ∃ selector,
    desk.selector.select r.prices m.dice tier (Selector.permitted tier caps) = (some model, selector) ∧
    r.reserve m request caps tier model { desk with selector } = (.ok cost, desk')

/-- A tier is passed over: it has no permitted model, or the ledger rejects the estimate. -/
inductive PassedOver (tier : Tier α) (desk : Desk α) : List (Rejection α) → Desk α → Prop
  | unpermitted (hnone : ∀ model, tier.lists model = true → caps.permitsModel model = false) :
      PassedOver tier desk [] desk
  | rejected (model : String) (selector : Selector) (rejection : Rejection α) (desk' : Desk α)
      (hlists : tier.lists model = true) (hpermitted : caps.permitsModel model = true)
      (hselect : desk.selector.select r.prices m.dice tier (Selector.permitted tier caps) =
        (some model, selector))
      (hreserve : r.reserve m request caps tier model { desk with selector } =
        (.error rejection, desk')) :
      PassedOver tier desk [rejection] desk'

theorem taken_or_passedOver (tier : Tier α) (desk : Desk α) :
    (∃ model cost desk', r.Taken m request caps tier model cost desk desk') ∨
      ∃ rejections desk', r.PassedOver m request caps tier desk rejections desk' := by
  rcases hselect : desk.selector.select r.prices m.dice tier (Selector.permitted tier caps) with
    ⟨_ | model, selector⟩
  · right
    refine ⟨[], desk, .unpermitted ((Selector.permitted_eq_nil_iff tier caps).mp ?_)⟩
    by_contra hne
    have hsome := desk.selector.select_isSome r.prices m.dice tier _ hne
    rw [hselect] at hsome
    cases hsome
  · obtain ⟨hlists, hpermits⟩ := (Selector.mem_permitted tier caps model).mp
      (desk.selector.select_mem selector r.prices m.dice tier _ model hselect)
    rcases hreserve : r.reserve m request caps tier model { desk with selector } with
      ⟨rejection | cost, desk'⟩
    · exact Or.inr ⟨[rejection], desk', .rejected model selector rejection desk' hlists hpermits hselect
        hreserve⟩
    · exact Or.inl ⟨model, cost, desk', hlists, hpermits, selector, hselect, hreserve⟩

/-! ## All tiers -/

/-- Tiers are passed over one after the other. The rejections are those of the ledger, in their order. -/
inductive AllPassedOver : List (Tier α) → Desk α → List (Rejection α) → Desk α → Prop
  | nil (desk : Desk α) : AllPassedOver [] desk [] desk
  | cons (tier : Tier α) (rest : List (Tier α)) (desk between desk' : Desk α)
      (first later : List (Rejection α)) (hfirst : r.PassedOver m request caps tier desk first between)
      (hlater : AllPassedOver rest between later desk') :
      AllPassedOver (tier :: rest) desk (first ++ later) desk'

theorem first_taken (tiers : List (Tier α)) (desk : Desk α) :
    (∃ before tier after rejections between model cost desk', tiers = before ++ tier :: after ∧
      r.AllPassedOver m request caps before desk rejections between ∧
      r.Taken m request caps tier model cost between desk') ∨
    ∃ rejections desk', r.AllPassedOver m request caps tiers desk rejections desk' := by
  induction tiers generalizing desk with
  | nil => exact Or.inr ⟨[], desk, .nil desk⟩
  | cons tier rest ih =>
    rcases r.taken_or_passedOver m request caps tier desk with
      ⟨model, cost, desk', htaken⟩ | ⟨first, next, hpassed⟩
    · exact Or.inl ⟨[], tier, rest, [], desk, model, cost, desk', rfl, .nil desk, htaken⟩
    · rcases ih next with
        ⟨before, used, after, later, between, model, cost, desk', rfl, hbefore, htaken⟩ |
          ⟨later, desk', hall⟩
      · exact Or.inl ⟨tier :: before, used, after, first ++ later, between, model, cost, desk', rfl,
          .cons tier before desk next between first later hpassed hbefore, htaken⟩
      · exact Or.inr ⟨first ++ later, desk', .cons tier rest desk next desk' first later hpassed hall⟩

variable {r m request caps}

theorem Taken.attempt {tier : Tier α} {model : String} {cost : α} {desk desk' : Desk α}
    (h : r.Taken m request caps tier model cost desk desk') (rest : List (Tier α))
    (rejection : Option (Rejection α)) :
    r.attempt m request caps (tier :: rest) rejection desk =
      (⟨some (tier, model, cost), rejection⟩, desk') := by
  obtain ⟨selector, hselect, hreserve⟩ := h.reserved
  simp only [Router.attempt, hselect, hreserve]

theorem PassedOver.attempt {tier : Tier α} {desk desk' : Desk α} {rejections : List (Rejection α)}
    (h : r.PassedOver m request caps tier desk rejections desk') (rest : List (Tier α))
    (rejection : Option (Rejection α)) :
    r.attempt m request caps (tier :: rest) rejection desk =
      r.attempt m request caps rest (rejection.or rejections.head?) desk' := by
  cases h with
  | unpermitted hnone =>
    have hempty := (Selector.permitted_eq_nil_iff tier caps).mpr hnone
    simp only [Router.attempt, hempty, Selector.select, List.isEmpty_nil, if_true, List.head?_nil,
      Option.or_none]
  | rejected model selector refused _ _ _ hselect hreserve =>
    simp only [Router.attempt, hselect, hreserve, List.head?_cons]

theorem AllPassedOver.attempt {tiers : List (Tier α)} {desk desk' : Desk α}
    {rejections : List (Rejection α)} (h : r.AllPassedOver m request caps tiers desk rejections desk')
    (rest : List (Tier α)) (rejection : Option (Rejection α)) :
    r.attempt m request caps (tiers ++ rest) rejection desk =
      r.attempt m request caps rest (rejection.or rejections.head?) desk' := by
  induction h generalizing rejection with
  | nil desk => simp
  | cons tier tiers desk between desk' first later hfirst _ ih =>
    rw [List.cons_append, hfirst.attempt, ih, List.head?_append, Option.or_assoc]

/-! ## The end -/

variable (r m request caps)

/-- The fallback model lies within the ceiling and is permitted. -/
structure FallsBack (ceiling : Nat) (tier : Tier α) (model : String) : Prop where
  configured : r.settings.fallbackModel = some model
  owner : r.tiers.tierOfModel? model = some tier
  within : tier.ordinal ≤ ceiling
  permitted : caps.permitsModel model = true

omit [Amount α] in
theorem fallback?_eq_some_iff (ceiling : Nat) (tier : Tier α) (model : String) :
    r.fallback? ceiling caps = some (tier, model) ↔ r.FallsBack caps ceiling tier model := by
  constructor
  · intro h
    unfold fallback? at h
    obtain ⟨found, hconfigured, h⟩ := Option.bind_eq_some_iff.mp h
    obtain ⟨owner, howner, h⟩ := Option.bind_eq_some_iff.mp h
    split at h
    · next hmay =>
      cases h
      simp only [Bool.and_eq_true, decide_eq_true_eq] at hmay
      exact ⟨hconfigured, howner, hmay.1, hmay.2⟩
    · cases h
  · intro h
    simp [fallback?, h.configured, h.owner, h.within, h.permitted]

/-- How a request ends that is planned on a tier and those below it. -/
inductive Outcome (ceiling : Nat) (first : Tier α) (escalated : Bool) (lower : List (Tier α))
    (desk : Desk α) : Except (Refusal α) (Admitted α) × Desk α → Prop
  /-- The first tier that can be taken is used. -/
  | attempted (before after : List (Tier α)) (tier : Tier α) (rejections : List (Rejection α))
      (between : Desk α) (model : String) (cost : α) (desk' : Desk α) (reason : String)
      (result : Except (Refusal α) (Admitted α) × Desk α)
      (hsplit : first :: lower = before ++ tier :: after)
      (hbefore : r.AllPassedOver m request caps before desk rejections between)
      (htaken : r.Taken m request caps tier model cost between desk')
      (hused : Used m request caps
        { tier, model, estimate := cost, escalated := escalated && tier.ordinal == first.ordinal
          budgetConstrained := !rejections.isEmpty, usedFallback := false, reason } desk' result) :
      Outcome ceiling first escalated lower desk result
  /-- No tier can be taken, and the fallback model is used. -/
  | fallback (rejections : List (Rejection α)) (between : Desk α) (tier : Tier α) (model : String)
      (cost : α) (desk' : Desk α) (reason : String)
      (result : Except (Refusal α) (Admitted α) × Desk α)
      (hall : r.AllPassedOver m request caps (first :: lower) desk rejections between)
      (hfallback : r.FallsBack caps ceiling tier model)
      (hreserve : r.reserve m request caps tier model between = (.ok cost, desk'))
      (hused : Used m request caps
        { tier, model, estimate := cost, escalated := false
          budgetConstrained := !rejections.isEmpty, usedFallback := true, reason } desk' result) :
      Outcome ceiling first escalated lower desk result
  /-- No tier can be taken, and the ledger rejects the fallback model too. -/
  | fallbackRejected (rejections : List (Rejection α)) (between : Desk α) (tier : Tier α)
      (model : String) (last : Rejection α) (desk' : Desk α)
      (hall : r.AllPassedOver m request caps (first :: lower) desk rejections between)
      (hfallback : r.FallsBack caps ceiling tier model)
      (hreserve : r.reserve m request caps tier model between = (.error last, desk')) :
      Outcome ceiling first escalated lower desk
        (.error (exhausted caps (rejections ++ [last]).head?), desk')
  /-- No tier can be taken, and no fallback model can be tried. -/
  | noFallback (rejections : List (Rejection α)) (between : Desk α)
      (hall : r.AllPassedOver m request caps (first :: lower) desk rejections between)
      (hnone : ∀ tier model, ¬ r.FallsBack caps ceiling tier model) :
      Outcome ceiling first escalated lower desk
        (.error (exhausted caps rejections.head?), between)

omit [Amount α] in
theorem isSome_head?_eq (rejections : List (Rejection α)) :
    rejections.head?.isSome = !rejections.isEmpty := by
  cases rejections <;> rfl

theorem routeFallback_outcome (ceiling : Nat) (first : Tier α) (escalated : Bool)
    (lower : List (Tier α)) (desk between : Desk α) (rejections : List (Rejection α))
    (hall : r.AllPassedOver m request caps (first :: lower) desk rejections between) :
    r.Outcome m request caps ceiling first escalated lower desk
      (r.routeFallback m request caps ceiling rejections.head? between) := by
  unfold routeFallback
  cases hfallback : r.fallback? ceiling caps with
  | none =>
    refine .noFallback rejections between hall fun tier model h => ?_
    rw [(r.fallback?_eq_some_iff caps ceiling tier model).mpr h] at hfallback
    cases hfallback
  | some found =>
    obtain ⟨tier, model⟩ := found
    have hfalls := (r.fallback?_eq_some_iff caps ceiling tier model).mp hfallback
    rcases hreserve : r.reserve m request caps tier model between with ⟨last | cost, desk'⟩ <;>
      simp only [hreserve]
    · rw [← List.head?_cons (a := last) (l := []), ← List.head?_append]
      exact .fallbackRejected rejections between tier model last desk' hall hfalls hreserve
    · rw [isSome_head?_eq]
      exact .fallback rejections between tier model cost desk' _ _ hall hfalls hreserve
        (conclude_used m request caps _ desk')

theorem routePlanned_outcome (ceiling : Nat) (plan : Plan α) (lower : List (Tier α)) (desk : Desk α)
    (hplan : Plan.make r.tiers r.settings ceiling caps request.normalizedComplexity = some plan)
    (hattempts : plan.attempts = plan.chosen :: lower) :
    r.Outcome m request caps ceiling plan.chosen plan.escalated lower desk
      (r.routePlanned m request caps ceiling desk) := by
  unfold routePlanned
  simp only [hplan, hattempts]
  rcases r.first_taken m request caps (plan.chosen :: lower) desk with
    ⟨before, tier, after, rejections, between, model, cost, desk', hsplit, hbefore, htaken⟩ |
      ⟨rejections, between, hall⟩
  · rw [hsplit, hbefore.attempt, htaken.attempt, Option.none_or]
    simp only [isSome_head?_eq]
    exact .attempted before after tier rejections between model cost desk' _ _ hsplit hbefore htaken
      (conclude_used m request caps _ desk')
  · have hattempt := hall.attempt [] none
    rw [List.append_nil, Option.none_or] at hattempt
    rw [hattempt]
    exact r.routeFallback_outcome m request caps ceiling plan.chosen plan.escalated lower desk between
      rejections hall

end

/-! ## Plans under a ceiling -/

variable (r : Router Double) (m : Moment) (request : Request Double) (caps : Capabilities Double)

theorem exists_plan (ceiling : Nat) (hceiling : r.tiers.ordinalOf? caps.maxTier = some ceiling) :
    ∃ plan, Plan.make r.tiers r.settings ceiling caps request.normalizedComplexity = some plan := by
  obtain ⟨tier, htier, rfl⟩ := Option.map_eq_some_iff.mp hceiling
  refine Option.isSome_iff_exists.mp (Plan.make_isSome (List.ne_nil_of_mem (a := tier) ?_))
  exact (r.tiers.mem_upTo tier.ordinal tier).mpr ⟨(r.tiers.get?_spec _ _ htier).1, le_rfl⟩

def thrifty : Capabilities Double := { Capabilities.builtin .standard with dailyBudget := 0.001 }

end Router

end Admission
