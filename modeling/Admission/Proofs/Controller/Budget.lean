import Admission.Proofs.Controller.Log
import Admission.Proofs.Price

/-!
# Budgets from end to end

A reservation holds what the tokens cost at the rate of the tier; they are settled at the price of the
model. Where that price asks for no more, a caller's day stays within the budget however the agents
behave within what was admitted.
-/

namespace Admission

/-! ## One settlement -/

structure Router.NonnegRates (r : Router Rat) : Prop where
  rate : ∀ tier ∈ r.tiers.toList, 0 ≤ tier.costPer1k
  margin : 0 ≤ r.settings.safetyMargin
  price : ∀ model price, r.prices.get? model = some price → price.Nonneg

theorem Config.Valid.nonnegRates (c : Config Rat) (h : c.Valid) :
    (Router.ofRouting c.routing (.configured c.pricing)).NonnegRates :=
  ⟨h.rate_nonneg, Router.ofRouting_margin_nonneg c.routing (.configured c.pricing), h.price_nonneg⟩

theorem sanitize_mono (x y : Rat) (h : x ≤ y) : Amount.sanitize x ≤ Amount.sanitize y := by
  simp only [Amount.sanitize, Amount.isFinite, Amount.larger, if_true]
  grind

theorem Decision.Backs.cost_le {r : Router Rat} {request : Request Rat} {d : Decision Rat}
    {held : Reservation Rat} (h : d.Backs r request held) (hr : r.NonnegRates)
    (basis : PriceBasis Rat) (hbasis : held.basis = some basis)
    (hcovered : ∀ price ∈ r.prices.get? d.model,
      price.cost request.inputTokens d.maxOutputTokens ≤ d.costEstimate)
    (input output : Nat) (hinput : input ≤ request.inputTokens) (houtput : output ≤ d.maxOutputTokens) :
    Amount.sanitize (r.prices.costOrBlended basis.model input output basis.tierCostPer1k) ≤
      held.amount := by
  obtain ⟨tier, htier, hpriced, hestimate⟩ := h.priced
  rw [hbasis] at hpriced
  cases hpriced
  have hrate := hr.rate tier htier
  rw [h.amount]
  refine sanitize_mono _ _ (PriceTable.costOrBlended_le _ _ _ _ _ _ (fun price hprice => ?_) ?_)
  · calc price.cost input output
      _ ≤ price.cost request.inputTokens d.maxOutputTokens :=
        price.cost_mono _ _ (hr.price d.model price hprice) input output hinput houtput
      _ ≤ d.costEstimate := hcovered price hprice
  · calc (Price.blended tier.costPer1k).cost input output
      _ ≤ (Price.blended tier.costPer1k).cost request.inputTokens d.maxOutputTokens :=
        Price.cost_mono _ _ _ ⟨hrate, hrate⟩ input output hinput houtput
      _ ≤ r.estimate tier request.inputTokens d.maxOutputTokens :=
        r.blended_le_estimate tier hrate hr.margin _ _
      _ = d.costEstimate := hestimate.symm

namespace Controller

/-! ## Terms of a run -/

/-- Every report stays within what was admitted under its id. -/
def Honest (c : Controller Rat) (acts : List (Act Rat)) : Prop :=
  ∀ before now id input output, before ++ [.report now id input output] <+: acts →
    ∀ entry ∈ (c.log before).admitted, entry.2.reservation = id →
      input ≤ entry.1.inputTokens ∧ output ≤ entry.2.maxOutputTokens

/-- What is admitted under the key costs no more at the price of its model than its estimate. -/
def Covered (c : Controller Rat) (key : String) (acts : List (Act Rat)) : Prop :=
  ∀ entry ∈ (c.log acts).admitted, entry.1.identity.key = key →
    ∀ price ∈ c.router.prices.get? entry.2.model,
      price.cost entry.1.inputTokens entry.2.maxOutputTokens ≤ entry.2.costEstimate

def Capped (c : Controller Rat) (key : String) (cap : Rat) (acts : List (Act Rat)) : Prop :=
  ∀ m request, .route m request ∈ acts → request.identity.key = key →
    0 < (c.capabilities request.identity).dailyBudget ∧
      (c.capabilities request.identity).dailyBudget ≤ cap

/-- A run under fresh ids on these terms. -/
structure OnTerms (c : Controller Rat) (key : String) (cap : Rat) (acts : List (Act Rat)) : Prop where
  fresh : (acts.filterMap Act.newId?).Nodup
  honest : c.Honest acts
  covered : c.Covered key acts
  capped : c.Capped key cap acts

variable (c : Controller Rat) (key : String) (cap : Rat) (acts : List (Act Rat))

variable {c key cap acts} in
theorem OnTerms.of_prefix (h : c.OnTerms key cap acts) (before : List (Act Rat))
    (hpre : before <+: acts) : c.OnTerms key cap before where
  fresh := h.fresh.sublist (hpre.sublist.filterMap _)
  honest earlier now id input output hearlier := h.honest earlier now id input output (hearlier.trans hpre)
  covered entry hentry := h.covered entry ((c.log_admitted_mono _ before hpre).subset hentry)
  capped m request hroute := h.capped m request (hpre.subset hroute)

/-! ## The day of a key -/

theorem route_fits (m : Moment) (request : Request Rat) (hopen : c.desk.ledger.pending = [])
    (h : c.OnTerms key cap (acts ++ [.route m request])) :
    Router.Fits key cap m request (c.capabilities request.identity)
      (c.log acts).controller.desk.ledger := by
  refine ⟨h.capped m request (by simp), fun held hheld hid => ?_⟩
  -- What is open was reserved by an earlier request, under another id.
  obtain ⟨entry, hentry, hbacks⟩ := c.log_backed acts hopen held hheld
  obtain ⟨m', hroute, hreservation⟩ := c.log_routed acts entry hentry
  have hmem : m.id ∈ acts.filterMap Act.newId? := by
    refine List.mem_filterMap.mpr ⟨.route m' entry.1, hroute, ?_⟩
    rw [Act.newId?, ← hreservation, ← hbacks.id, hid]
  have hfresh := h.fresh
  rw [List.filterMap_append, List.nodup_append] at hfresh
  exact hfresh.2.2 m.id hmem m.id (by simp [Act.newId?]) rfl

theorem reportUsage_keepsDay (now : Timestamp) (id : ReservationId) (input output : Nat)
    (hopen : c.desk.ledger.pending = []) (hrates : c.router.NonnegRates)
    (h : c.OnTerms key cap (acts ++ [.report now id input output]))
    (hday : (c.log acts).controller.desk.ledger.KeepsDay key cap) :
    ((c.log acts).controller.reportUsage now id input output).2.desk.ledger.KeepsDay key cap := by
  unfold reportUsage
  split
  · exact hday
  · next basis hbasis =>
    obtain ⟨found, hfound, hfoundBasis⟩ := Option.bind_eq_some_iff.mp hbasis
    refine hday.reconcile id _ now fun held hheld hid hkey => ?_
    -- Ids are unique, so the price is looked up with the basis of this very reservation.
    have hheldBasis : held.basis = some basis := by
      have hsame : held = found := by
        refine List.inj_on_of_nodup_map hday.ids hheld (List.mem_of_find?_eq_some hfound) ?_
        have hfoundId : found.id = id := by simpa using List.find?_some hfound
        rw [hid, hfoundId]
      rw [hsame]
      exact hfoundBasis
    obtain ⟨entry, hentry, hbacks⟩ := c.log_backed acts hopen held hheld
    obtain ⟨hinput, houtput⟩ := h.honest acts now id input output (List.prefix_refl _) entry hentry
      (hbacks.id.symm.trans hid)
    have hcovered := h.covered entry
      ((c.log_admitted_mono _ acts (List.prefix_append _ _)).subset hentry) (hbacks.key.symm.trans hkey)
    rw [(c.log_sameRules acts).router]
    exact hbacks.cost_le hrates basis hheldBasis hcovered input output hinput houtput

theorem log_keepsDay (hopen : c.desk.ledger.pending = []) (hrates : c.router.NonnegRates)
    (hstart : c.desk.ledger.KeepsDay key cap) (h : c.OnTerms key cap acts) :
    (c.log acts).controller.desk.ledger.KeepsDay key cap := by
  induction acts using List.reverseRecOn with
  | nil => exact hstart
  | append_singleton acts act ih =>
    have hday := ih (h.of_prefix acts (List.prefix_append _ _))
    rw [log_append_singleton]
    cases act with
    | route m request =>
      have hfits := c.route_fits key cap acts m request hopen h
      have hcaps : (c.log acts).controller.capabilities request.identity =
          c.capabilities request.identity := by
        rw [capabilities, (c.log_sameRules acts).resolver, capabilities]
      simp only [Log.act]
      rw [route_ledger, hcaps]
      exact (Router.route_keepsDay hfits hday).usage _ _ _
    | report now id input output =>
      exact c.reportUsage_keepsDay key cap acts now id input output hopen hrates h hday
    | release now id => exact hday.release id now

/-- What a caller is shown of the day after a run. -/
def dayAfter (who : Identity) (t : Timestamp) : Usage Rat :=
  ((c.log acts).controller.desk.ledger.usage who (c.capabilities who) t).1.daily

/-- At no time of a run on terms does a caller's day exceed the budget. -/
theorem run_within_daily_budget (assign : String → Nat) (config : Config Rat)
    (workspace : Option (Permissions Rat)) (who : Identity) (acts : List (Act Rat))
    (hvalid : config.validate = .ok ())
    (hbudget : 0 < ((ofConfig assign config workspace).capabilities who).dailyBudget)
    (hterms : (ofConfig assign config workspace).OnTerms who.key
      ((ofConfig assign config workspace).capabilities who).dailyBudget acts)
    (before : List (Act Rat)) (hpre : before <+: acts) (t : Timestamp) :
    let c := ofConfig assign config workspace
    (c.dayAfter before who t).spent + (c.dayAfter before who t).reserved ≤
      (c.capabilities who).dailyBudget := by
  intro c
  have hrates : c.router.NonnegRates := (config.validate_eq_ok.mp hvalid).nonnegRates
  have hday := c.log_keepsDay who.key (c.capabilities who).dailyBudget before rfl hrates
    (Ledger.new_keepsDay _ _ _ _) (hterms.of_prefix before hpre)
  exact hday.shown who (c.capabilities who) t hbudget

/-! ## One request -/

def thrifty (prices : Dict (Price Rat)) : Config Rat :=
  { Config.default with
    permissions :=
      { users := Dict.empty.insert "alice" { level := some .standard, dailyBudget := some 0.006 } }
    pricing := prices }

def evenPrices : Dict (Price Rat) := Dict.empty.insert "anthropic/claude-3.5-haiku" ⟨0.001, 0.001⟩

def start (config : Config Rat) : Controller Rat := ofConfig (fun _ => 0) config none

def alice : Identity := ⟨"alice", "slack", true⟩

def afternoon : Timestamp := ⟨1773144000, 0⟩

def asks (who : Identity) (inputTokens : Nat) : Act Rat :=
  .route ⟨afternoon, 0, ⟨1⟩, 0⟩ { identity := who, complexity := 0.2, inputTokens }

def allUsed : List (Act Rat) := [asks alice 1000, .report afternoon ⟨1⟩ 1000 4096]

theorem honest_allUsed (c : Controller Rat)
    (hadmitted : ∀ entry ∈ (c.log [asks alice 1000]).admitted, entry.2.reservation = ⟨1⟩ →
      1000 ≤ entry.1.inputTokens ∧ 4096 ≤ entry.2.maxOutputTokens) : c.Honest allUsed := by
  intro before now id input output hpre
  -- Only the second act is a report.
  rcases before with _ | ⟨first, _ | ⟨second, rest⟩⟩
  · simp [allUsed, asks] at hpre
  · simp only [allUsed, List.cons_append, List.nil_append, List.cons_prefix_cons] at hpre
    obtain ⟨rfl, hreport, -⟩ := hpre
    cases hreport
    exact hadmitted
  · simp [allUsed] at hpre

theorem run_within_daily_budget_allUsed :
    let c := start (thrifty evenPrices)
    (thrifty evenPrices).validate = .ok () ∧ (c.capabilities alice).dailyBudget = 0.006 ∧
    c.OnTerms alice.key (c.capabilities alice).dailyBudget allUsed ∧
    (c.dayAfter allUsed alice afternoon).spent = 0.005096 ∧
    (c.dayAfter allUsed alice afternoon).spent + (c.dayAfter allUsed alice afternoon).reserved ≤
      (c.capabilities alice).dailyBudget := by
  intro c
  have hvalid : (thrifty evenPrices).validate = .ok () := by decide +kernel
  have hbudget : (c.capabilities alice).dailyBudget = 0.006 := by decide +kernel
  have hpositive : 0 < (c.capabilities alice).dailyBudget := by
    rw [hbudget]
    norm_num
  have hterms : c.OnTerms alice.key (c.capabilities alice).dailyBudget allUsed := by
    refine ⟨by decide, c.honest_allUsed (by decide +kernel), ?_, ?_⟩
    · unfold Covered
      decide +kernel
    · intro m request hroute _
      have hwho : request.identity = alice := by
        simp only [allUsed, asks, List.mem_cons, Act.route.injEq, List.not_mem_nil, reduceCtorEq,
          or_false] at hroute
        rw [hroute.2]
      rw [hwho]
      exact ⟨hpositive, le_refl _⟩
  exact ⟨hvalid, hbudget, hterms, by decide +kernel,
    run_within_daily_budget (fun _ => 0) (thrifty evenPrices) none alice allUsed hvalid hpositive hterms
      allUsed (List.prefix_refl _) afternoon⟩

structure Overruns (config : Config Rat) (who : Identity) (acts : List (Act Rat)) : Prop where
  valid : config.validate = .ok ()
  positive : 0 < ((start config).capabilities who).dailyBudget
  fresh : (acts.filterMap Act.newId?).Nodup
  honest : (start config).Honest acts
  exceeds : ((start config).capabilities who).dailyBudget <
    ((start config).dayAfter acts who afternoon).spent +
      ((start config).dayAfter acts who afternoon).reserved

/-- The known price of the model lies above the rate of its tier. And a trusted caller without a limit
spends under the key of an untrusted one. -/
theorem daily_budget_overruns :
    Overruns (thrifty ∅) alice allUsed ∧
    Overruns .default ⟨"operator", "cli", false⟩ [asks ⟨"operator", "cli", true⟩ 200000] := by
  refine ⟨⟨by decide +kernel, by decide +kernel, by decide, honest_allUsed _ (by decide +kernel),
    by decide +kernel⟩, ⟨by decide +kernel, by decide +kernel, by decide, ?_, by decide +kernel⟩⟩
  intro before now id input output hpre
  rcases before with _ | ⟨first, rest⟩
  · simp [asks] at hpre
  · simp at hpre

end Controller

end Admission
