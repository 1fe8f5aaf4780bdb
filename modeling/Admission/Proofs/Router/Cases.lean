import Admission.Proofs.Router.Plan
import Admission.Router.Route

/-!
# How routing a request ends

Some reservations may be refused on the way. In the end the request is turned away, or the cost of one
candidate is reserved and the rate limit has the last word.
-/

namespace Admission

variable {α : Type} [Amount α]

/-! ## Candidates -/

/-- A candidate that the caller may have: its tier lies within the ceiling, or the request escalates
to it. -/
structure Candidate.Sound (r : Router α) (request : Request α) (caps : Capabilities α) (ceiling : Nat)
    (c : Candidate α) : Prop where
  tier : c.tier ∈ r.tiers.toList
  lists : c.tier.lists c.model = true
  permitted : caps.permitsModel c.model = true
  escalated_iff : c.escalated = true ↔ ceiling < c.tier.ordinal
  escalates : c.escalated = true →
    Plan.Escalates r.tiers r.settings ceiling caps request.normalizedComplexity c.tier

def Candidate.decision (c : Candidate α) (m : Moment) (request : Request α) (caps : Capabilities α) :
    Decision α where
  reservation := m.id
  identity := request.identity
  provider := (splitModel c.model).1
  model := c.model
  tier := c.tier.name
  tierOrdinal := c.tier.ordinal
  costEstimate := c.estimate
  escalated := c.escalated
  budgetConstrained := c.budgetConstrained
  usedFallback := c.usedFallback
  streaming := request.stream && caps.streamingAllowed
  maxContextTokens := min c.tier.maxContextTokens caps.maxContextTokens
  maxOutputTokens := outputCap request caps
  reason := c.reason
  decidedAt := m.time

theorem Candidate.sound_of_le (r : Router α) (request : Request α) (caps : Capabilities α)
    (ceiling : Nat) (c : Candidate α) (htier : c.tier ∈ r.tiers.toList)
    (hlists : c.tier.lists c.model = true) (hpermitted : caps.permitsModel c.model = true)
    (hescalated : c.escalated = false) (hle : c.tier.ordinal ≤ ceiling) :
    c.Sound r request caps ceiling := by
  refine ⟨htier, hlists, hpermitted, ?_, fun h => ?_⟩
  · rw [hescalated]
    exact ⟨fun h => absurd h Bool.false_ne_true, fun h => absurd hle (not_le.mpr h)⟩
  · rw [hescalated] at h
    cases h

namespace Router

variable (r : Router α) (m : Moment) (request : Request α) (caps : Capabilities α)

/-! ## Reservations -/

/-- A reservation for the request that is refused. -/
def RefusedTry (l l' : Ledger α) : Prop :=
  ∃ tier model rejection, l.reserve m.id request.identity caps
    (r.estimate tier request.inputTokens (outputCap request caps)) (some ⟨model, tier.costPer1k⟩)
    m.time = (.error rejection, l')

/-- Nothing happened but reservations that were refused. -/
structure Tried (desk desk' : Desk α) : Prop where
  limiter : desk'.limiter = desk.limiter
  ledger : Relation.ReflTransGen (r.RefusedTry m request caps) desk.ledger desk'.ledger

theorem Tried.refl (desk : Desk α) : r.Tried m request caps desk desk := ⟨rfl, .refl⟩

variable {r m request caps}

theorem Tried.trans {desk desk' desk'' : Desk α} (h : r.Tried m request caps desk desk')
    (h' : r.Tried m request caps desk' desk'') : r.Tried m request caps desk desk'' :=
  ⟨h'.limiter.trans h.limiter, h.ledger.trans h'.ledger⟩

variable (r m request caps)

/-- The cost of the request on a tier is reserved, and nothing but refused reservations was before. -/
def Reserved (tier : Tier α) (model : String) (cost : α) (desk desk' : Desk α) : Prop :=
  ∃ between, r.Tried m request caps desk between ∧
    r.reserve m request caps tier model between = (.ok cost, desk')

theorem reserve_cases (tier : Tier α) (model : String) (desk : Desk α) :
    let cost := r.estimate tier request.inputTokens (outputCap request caps)
    (∃ rejection l, desk.ledger.reserve m.id request.identity caps cost
        (some ⟨model, tier.costPer1k⟩) m.time = (.error rejection, l) ∧
      r.reserve m request caps tier model desk = (.error rejection, { desk with ledger := l })) ∨
    (∃ l, desk.ledger.reserve m.id request.identity caps cost (some ⟨model, tier.costPer1k⟩) m.time =
        (.ok (), l) ∧
      r.reserve m request caps tier model desk = (.ok cost, { desk with ledger := l })) := by
  intro cost
  have heq : r.reserve m request caps tier model desk =
      ((desk.ledger.reserve m.id request.identity caps cost (some ⟨model, tier.costPer1k⟩) m.time).1.map
          fun () => cost,
        { desk with ledger := (desk.ledger.reserve m.id request.identity caps cost
          (some ⟨model, tier.costPer1k⟩) m.time).2 }) := rfl
  rw [heq]
  generalize desk.ledger.reserve m.id request.identity caps cost (some ⟨model, tier.costPer1k⟩)
    m.time = result
  obtain ⟨outcome, l⟩ := result
  cases outcome with
  | error rejection => exact Or.inl ⟨rejection, l, rfl, rfl⟩
  | ok => exact Or.inr ⟨l, rfl, rfl⟩

theorem tried_of_reserve (tier : Tier α) (model : String) (rejection : Rejection α)
    (desk desk' : Desk α) (h : r.reserve m request caps tier model desk = (.error rejection, desk')) :
    r.Tried m request caps desk desk' := by
  rcases r.reserve_cases m request caps tier model desk with ⟨_, l, hl, heq⟩ | ⟨l, -, heq⟩
  · rw [heq] at h
    cases h
    exact ⟨rfl, .single ⟨tier, model, rejection, hl⟩⟩
  · rw [heq] at h
    cases h

/-! ## Attempts -/

/-- How a series of attempts ends: with a reservation on one of the tiers, or with none. -/
def AttemptEnds (tiers : List (Tier α)) (desk desk' : Desk α) :
    Option (Tier α × String × α) → Prop
  | none => r.Tried m request caps desk desk'
  | some (tier, model, cost) => tier ∈ tiers ∧ tier.lists model = true ∧
      caps.permitsModel model = true ∧ r.Reserved m request caps tier model cost desk desk'

variable {r m request caps} in
theorem AttemptEnds.cons {rest : List (Tier α)} {desk between desk' : Desk α}
    {reserved : Option (Tier α × String × α)} (tier : Tier α)
    (htried : r.Tried m request caps desk between)
    (hends : r.AttemptEnds m request caps rest between desk' reserved) :
    r.AttemptEnds m request caps (tier :: rest) desk desk' reserved := by
  match reserved with
  | none => exact htried.trans hends
  | some (chosen, model, cost) =>
    obtain ⟨hmem, hlists, hpermits, last, hlast, hreserve⟩ := hends
    exact ⟨List.mem_cons_of_mem tier hmem, hlists, hpermits, last, htried.trans hlast, hreserve⟩

theorem attempt_ends (tiers : List (Tier α)) (rejection : Option (Rejection α)) (desk : Desk α) :
    r.AttemptEnds m request caps tiers desk (r.attempt m request caps tiers rejection desk).2
      (r.attempt m request caps tiers rejection desk).1.reserved := by
  induction tiers generalizing rejection desk with
  | nil => exact .refl r m request caps desk
  | cons tier rest ih =>
    unfold attempt
    cases hpick : desk.selector.select r.prices m.dice tier (Selector.permitted tier caps) with
    | mk pick selector =>
    have hturn : r.Tried m request caps desk { desk with selector } := ⟨rfl, .refl⟩
    cases pick with
    | none => exact .cons tier hturn (ih rejection { desk with selector })
    | some model =>
      obtain ⟨hlists, hpermits⟩ := (Selector.mem_permitted tier caps model).mp
        (desk.selector.select_mem selector r.prices m.dice tier _ model hpick)
      rcases hreserve : r.reserve m request caps tier model { desk with selector } with
        ⟨refused | cost, desk'⟩
      · have htried := r.tried_of_reserve m request caps tier model refused _ desk' hreserve
        simp only [hreserve]
        exact .cons tier (hturn.trans htried) (ih (rejection.or (some refused)) desk')
      · simp only [hreserve]
        exact ⟨List.mem_cons_self, hlists, hpermits, _, hturn, hreserve⟩

/-! ## The end of a request -/

def TurnedAway (desk : Desk α) (result : Except (Refusal α) (Admitted α) × Desk α) : Prop :=
  ∃ refusal desk', result = (.error refusal, desk') ∧ (∀ seconds, refusal ≠ .rateLimited seconds) ∧
    r.Tried m request caps desk desk'

/-- The cost of a sound candidate is reserved, and the request is concluded. -/
def Concluded (ceiling : Nat) (desk : Desk α)
    (result : Except (Refusal α) (Admitted α) × Desk α) : Prop :=
  ∃ c desk', c.Sound r request caps ceiling ∧
    r.Reserved m request caps c.tier c.model c.estimate desk desk' ∧
    result = conclude m request caps c desk'

omit [Amount α] in
theorem exhausted_ne_rateLimited (rejection : Option (Rejection α)) (seconds : Nat) :
    exhausted caps rejection ≠ .rateLimited seconds := by
  cases rejection <;> simp [exhausted]

omit [Amount α] in
theorem fallback?_spec (ceiling : Nat) (tier : Tier α) (model : String)
    (h : r.fallback? ceiling caps = some (tier, model)) :
    tier ∈ r.tiers.toList ∧ tier.lists model = true ∧ caps.permitsModel model = true ∧
      tier.ordinal ≤ ceiling := by
  unfold fallback? at h
  obtain ⟨found, -, h⟩ := Option.bind_eq_some_iff.mp h
  obtain ⟨owner, howner, h⟩ := Option.bind_eq_some_iff.mp h
  split at h
  · next hmay =>
    cases h
    simp only [Bool.and_eq_true, decide_eq_true_eq] at hmay
    obtain ⟨hmem, hlists⟩ := r.tiers.tierOfModel?_spec model tier howner
    exact ⟨hmem, hlists, hmay.2, hmay.1⟩
  · cases h

theorem routeFallback_cases (ceiling : Nat) (rejection : Option (Rejection α)) (desk : Desk α) :
    r.TurnedAway m request caps desk (r.routeFallback m request caps ceiling rejection desk) ∨
      r.Concluded m request caps ceiling desk
        (r.routeFallback m request caps ceiling rejection desk) := by
  unfold routeFallback
  cases hfallback : r.fallback? ceiling caps with
  | none => exact Or.inl ⟨_, desk, rfl, exhausted_ne_rateLimited caps _, .refl r m request caps desk⟩
  | some found =>
    obtain ⟨tier, model⟩ := found
    obtain ⟨hmem, hlists, hpermits, hle⟩ := r.fallback?_spec caps ceiling tier model hfallback
    rcases hreserve : r.reserve m request caps tier model desk with ⟨refused | cost, desk'⟩ <;>
      simp only [hreserve]
    · exact Or.inl ⟨_, desk', rfl, exhausted_ne_rateLimited caps _,
        r.tried_of_reserve m request caps tier model refused _ _ hreserve⟩
    · refine Or.inr ⟨_, desk', ?_, ⟨desk, .refl r m request caps desk, ?_⟩, rfl⟩
      · exact Candidate.sound_of_le r request caps ceiling _ hmem hlists hpermits rfl hle
      · exact hreserve

theorem planned_sound (ceiling : Nat) (plan : Plan α) (c : Candidate α)
    (hplan : plan.Sound r.tiers r.settings ceiling caps request.normalizedComplexity)
    (hmem : c.tier ∈ plan.attempts) (hlists : c.tier.lists c.model = true)
    (hpermits : caps.permitsModel c.model = true)
    (hescalated : c.escalated = (plan.escalated && c.tier.ordinal == plan.chosen.ordinal)) :
    c.Sound r request caps ceiling := by
  obtain ⟨hlisted, hwithin⟩ := hplan.attempts c.tier hmem
  rcases hwithin with hle | ⟨hchosen, hplanned⟩
  · refine Candidate.sound_of_le r request caps ceiling c hlisted hlists hpermits ?_ hle
    rw [hescalated, Bool.and_eq_false_iff]
    by_cases hplanned : plan.escalated = true
    · have habove := (hplan.escalates hplanned).above
      refine Or.inr (beq_eq_false_iff_ne.mpr ?_)
      omega
    · exact Or.inl (by simpa using hplanned)
  · have htrue : c.escalated = true := by
      rw [hescalated, hchosen, hplanned]
      simp
    have hescalates := hplan.escalates hplanned
    rw [← hchosen] at hescalates
    exact ⟨hlisted, hlists, hpermits, ⟨fun _ => hescalates.above, fun _ => htrue⟩, fun _ => hescalates⟩

theorem routePlanned_cases (ceiling : Nat) (desk : Desk α) :
    r.TurnedAway m request caps desk (r.routePlanned m request caps ceiling desk) ∨
      r.Concluded m request caps ceiling desk (r.routePlanned m request caps ceiling desk) := by
  unfold routePlanned
  cases hplan : Plan.make r.tiers r.settings ceiling caps request.normalizedComplexity with
  | none => exact Or.inl ⟨_, desk, rfl, nofun, .refl r m request caps desk⟩
  | some plan =>
    have hsound := Plan.make_sound r.tiers r.settings ceiling caps request.normalizedComplexity plan hplan
    have hends := r.attempt_ends m request caps plan.attempts none desk
    rcases hattempt : r.attempt m request caps plan.attempts none desk with
      ⟨⟨_ | ⟨tier, model, cost⟩, rejection⟩, desk'⟩
    · simp only [hattempt] at hends ⊢
      rcases r.routeFallback_cases m request caps ceiling rejection desk' with
        ⟨refusal, last, heq, hrefusal, htried⟩ | ⟨c, last, hc, ⟨between, htried, hreserve⟩, heq⟩
      · exact Or.inl ⟨refusal, last, heq, hrefusal, hends.trans htried⟩
      · exact Or.inr ⟨c, last, hc, ⟨between, hends.trans htried, hreserve⟩, heq⟩
    · simp only [hattempt] at hends ⊢
      obtain ⟨hmem, hlists, hpermits, hreserved⟩ := hends
      refine Or.inr ⟨_, desk', ?_, ?_, rfl⟩
      · exact r.planned_sound request caps ceiling plan _ hsound hmem hlists hpermits rfl
      · exact hreserved

theorem routeRequested_cases (ceiling : Nat) (model : String) (desk : Desk α) :
    r.TurnedAway m request caps desk (r.routeRequested m request caps ceiling model desk) ∨
      r.Concluded m request caps ceiling desk
        (r.routeRequested m request caps ceiling model desk) := by
  unfold routeRequested
  cases howner : r.tiers.tierOfModel? model with
  | none => exact Or.inl ⟨_, desk, rfl, nofun, .refl r m request caps desk⟩
  | some tier =>
    obtain ⟨hmem, hlists⟩ := r.tiers.tierOfModel?_spec model tier howner
    by_cases habove : ceiling < tier.ordinal
    · simp only [habove, if_true]
      exact Or.inl ⟨_, desk, rfl, nofun, .refl r m request caps desk⟩
    by_cases hpermits : caps.permitsModel model = true
    · simp only [habove, if_false, hpermits, Bool.not_true, Bool.false_eq_true]
      rcases hreserve : r.reserve m request caps tier model desk with ⟨refused | cost, desk'⟩
      · exact Or.inl ⟨_, desk', rfl, nofun,
          r.tried_of_reserve m request caps tier model refused _ _ hreserve⟩
      · refine Or.inr ⟨_, desk', ?_, ⟨desk, .refl r m request caps desk, ?_⟩, rfl⟩
        · exact Candidate.sound_of_le r request caps ceiling _ hmem hlists hpermits rfl (not_lt.mp habove)
        · exact hreserve
    · simp only [habove, if_false, hpermits, Bool.not_false, if_true]
      exact Or.inl ⟨_, desk, rfl, nofun, .refl r m request caps desk⟩

theorem route_cases (desk : Desk α) :
    r.TurnedAway m request caps desk (r.route m request caps desk) ∨
      ∃ ceiling, r.tiers.ordinalOf? caps.maxTier = some ceiling ∧
        r.Concluded m request caps ceiling desk (r.route m request caps desk) := by
  unfold route
  cases hceiling : r.tiers.ordinalOf? caps.maxTier with
  | none => exact Or.inl ⟨_, desk, rfl, nofun, .refl r m request caps desk⟩
  | some ceiling =>
    cases honoredModel? request caps with
    | none => exact (r.routePlanned_cases m request caps ceiling desk).imp id fun h => ⟨ceiling, rfl, h⟩
    | some model =>
      exact (r.routeRequested_cases m request caps ceiling model desk).imp id fun h => ⟨ceiling, rfl, h⟩

theorem conclude_cases (c : Candidate α) (desk : Desk α) :
    let (rate, limiter) := desk.limiter.check request.identity caps.rateLimit m.instant
    (rate.allowed = true ∧ conclude m request caps c desk =
      (.ok ⟨c.decision m request caps, rate⟩, { desk with limiter })) ∨
    (rate.allowed = false ∧ conclude m request caps c desk =
      (.error (.rateLimited rate.retryAfterSeconds),
        { desk with limiter, ledger := (desk.ledger.release m.id m.time).2 })) := by
  unfold conclude
  rcases desk.limiter.check request.identity caps.rateLimit m.instant with ⟨rate, limiter⟩
  cases hallowed : rate.allowed with
  | true => exact Or.inl ⟨hallowed, by simp only [hallowed, if_true]; rfl⟩
  | false => exact Or.inr ⟨hallowed, by simp [hallowed]⟩

/-- A candidate whose cost is reserved is used. If the rate limit refuses the request, then the reservation
is given back and nothing else is tried. -/
inductive Used (c : Candidate α) (desk : Desk α) : Except (Refusal α) (Admitted α) × Desk α → Prop
  | admitted (rate : RateCheck) (limiter : Limiter α)
      (hcheck : desk.limiter.check request.identity caps.rateLimit m.instant = (rate, limiter))
      (hallowed : rate.allowed = true) :
      Used c desk (.ok ⟨c.decision m request caps, rate⟩, { desk with limiter })
  | rateLimited (rate : RateCheck) (limiter : Limiter α)
      (hcheck : desk.limiter.check request.identity caps.rateLimit m.instant = (rate, limiter))
      (hallowed : rate.allowed = false) :
      Used c desk (.error (.rateLimited rate.retryAfterSeconds),
        { desk with limiter, ledger := (desk.ledger.release m.id m.time).2 })

theorem conclude_used (c : Candidate α) (desk : Desk α) :
    Used m request caps c desk (conclude m request caps c desk) := by
  have hcases := conclude_cases m request caps c desk
  rcases hcheck : desk.limiter.check request.identity caps.rateLimit m.instant with ⟨rate, limiter⟩
  simp only [hcheck] at hcases
  rcases hcases with ⟨hallowed, heq⟩ | ⟨hallowed, heq⟩ <;> rw [heq]
  · exact .admitted rate limiter hcheck hallowed
  · exact .rateLimited rate limiter hcheck hallowed

end Router

end Admission
