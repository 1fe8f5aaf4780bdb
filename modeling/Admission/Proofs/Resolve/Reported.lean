import Admission.Proofs.Resolve.Overlay

/-!
# What a workspace asks for and does not get

A warning goes with every level, every field and every extension that an entry of the workspace asks for
and that the record does not carry after the entry. Three fields have gaps: the two limits of tokens are
lowered without a word, and so is an undefined threshold left out.
-/

namespace Admission

def Warning.Names (warning : Warning) (layer kind name : String) : Prop :=
  ("layer", layer) ∈ warning.details ∧ (kind, name) ∈ warning.details

/-! ## Fields -/

/-- Something is wanted and not carried. -/
def Missing {β : Type} (wanted : Option β) (carried : β → Prop) : Prop := ∃ w, wanted = some w ∧ ¬carried w

def Double.Carries (x wanted : Double) : Prop := sameAmount x wanted = true ∨ x = wanted

namespace Override

inductive Field where
  | maxTier
  | modelAllow
  | modelDeny
  | toolAllow
  | toolDeny
  | maxContextTokens
  | maxOutputTokens
  | rateLimit
  | streamingAllowed
  | escalationAllowed
  | escalationThreshold
  | canOverrideModel
  | dailyBudget
  | monthlyBudget

namespace Field

def name : Field → String
  | maxTier => "max_tier"
  | modelAllow => "model_allow"
  | modelDeny => "model_deny"
  | toolAllow => "tool_allow"
  | toolDeny => "tool_deny"
  | maxContextTokens => "max_context_tokens"
  | maxOutputTokens => "max_output_tokens"
  | rateLimit => "rate_limit"
  | streamingAllowed => "streaming_allowed"
  | escalationAllowed => "escalation_allowed"
  | escalationThreshold => "escalation_threshold"
  | canOverrideModel => "can_override_model"
  | dailyBudget => "cost_budget_daily"
  | monthlyBudget => "cost_budget_monthly"

/-- The entry sets the field, and the record does not carry what it asks for. Of lists every item is
asked for. -/
def Unmet (layer : Override Double) (caps : Capabilities Double) : Field → Prop
  | maxTier => Missing layer.maxTier (caps.maxTier = ·)
  | modelAllow => Missing layer.modelAllow (· ⊆ caps.modelAllow)
  | modelDeny => Missing layer.modelDeny (· ⊆ caps.modelDeny)
  | toolAllow => Missing layer.toolAllow (· ⊆ caps.toolAllow)
  | toolDeny => Missing layer.toolDeny (· ⊆ caps.toolDeny)
  | maxContextTokens => Missing layer.maxContextTokens (caps.maxContextTokens = ·)
  | maxOutputTokens => Missing layer.maxOutputTokens (caps.maxOutputTokens = ·)
  | rateLimit => Missing layer.rateLimit (caps.rateLimit = ·)
  | streamingAllowed => Missing layer.streamingAllowed (caps.streamingAllowed = ·)
  | escalationAllowed => Missing layer.escalationAllowed (caps.escalationAllowed = ·)
  | escalationThreshold => Missing layer.escalationThreshold caps.escalationThreshold.Carries
  | canOverrideModel => Missing layer.canOverrideModel (caps.canOverrideModel = ·)
  | dailyBudget => Missing layer.dailyBudget caps.dailyBudget.Carries
  | monthlyBudget => Missing layer.monthlyBudget caps.monthlyBudget.Carries

end Field

end Override

/-! ## What is reported of a field -/

theorem mem_warnUnless {β : Type} (granted : β → Bool) (warning found : Warning) (wanted : Option β) :
    found ∈ warnUnless granted warning wanted ↔
      found = warning ∧ ∃ w, wanted = some w ∧ granted w = false := by
  cases wanted with
  | none => simp [warnUnless]
  | some w => cases h : granted w <;> simp [warnUnless, h]

theorem clamped_mem {β γ : Type} (granted : β → Bool) (warning : Warning) (tighten : γ → β → γ)
    (current : γ) (wanted : Option β) (carries : γ → β → Prop)
    (h : Missing wanted (carries (tightenWith tighten current wanted)))
    (hgranted : ∀ w, wanted = some w → granted w = true → carries (tighten current w) w) :
    warning ∈ warnUnless granted warning wanted := by
  obtain ⟨w, rfl, hmiss⟩ := h
  refine (mem_warnUnless granted warning warning _).mpr ⟨rfl, w, rfl, ?_⟩
  rw [← Bool.not_eq_true]
  exact fun hpass => hmiss (hgranted w rfl hpass)

theorem mem_narrowWarnings {layer field : String} {current : List String}
    {wanted : Option (List String)} {warning : Warning}
    (h : warning ∈ narrowWarnings layer field current wanted) :
    warning = .wildcardNarrowed layer field ∨ ∃ dropped, warning = .entriesRemoved layer field dropped := by
  unfold narrowWarnings at h
  grind

theorem narrowed_reported (layer field : String) (current : List String)
    (wanted : Option (List String)) (h : Missing wanted (· ⊆ tightenWith narrowed current wanted)) :
    ∃ warning ∈ narrowWarnings layer field current wanted, warning.Names layer "field" field := by
  obtain ⟨w, rfl, hmiss⟩ := h
  suffices hsome : narrowWarnings layer field current (some w) ≠ [] by
    obtain ⟨warning, hwarning⟩ := List.exists_mem_of_ne_nil _ hsome
    refine ⟨warning, hwarning, ?_⟩
    rcases mem_narrowWarnings hwarning with rfl | ⟨dropped, rfl⟩ <;>
      exact ⟨by simp [Warning.details], by simp [Warning.details]⟩
  intro hnone
  refine hmiss fun entry hentry => ?_
  dsimp only [narrowWarnings, tightenWith, narrowed] at hnone ⊢
  split_ifs at hnone ⊢ with hcurrent hwanted hdropped
  · exact hentry
  · have hkept := List.filter_eq_nil_iff.mp (List.isEmpty_iff.mp hdropped) entry hentry
    exact List.mem_filter.mpr ⟨hentry, by simpa using hkept⟩

theorem not_missing_union (current : List String) (wanted : Option (List String)) :
    ¬Missing wanted (· ⊆ tightenWith union current wanted) := by
  rintro ⟨w, rfl, hmiss⟩
  exact hmiss fun entry hentry => (mem_union current w entry).mpr (Or.inr hentry)

theorem missing_min_iff (current : Nat) (wanted : Option Nat) :
    Missing wanted (tightenWith min current wanted = ·) ↔ ∃ w, wanted = some w ∧ current < w := by
  constructor
  · rintro ⟨w, rfl, hmiss⟩
    exact ⟨w, rfl, not_le.mp fun hle => hmiss (min_eq_right hle)⟩
  · rintro ⟨w, rfl, hmore⟩
    exact ⟨w, rfl, ((min_le_left current w).trans_lt hmore).ne⟩

theorem tighterTier_of_reachable (tiers : TierSet Double) (current wanted : String)
    (h : reachable tiers current wanted = true) : tighterTier tiers current wanted = wanted := by
  unfold reachable at h
  unfold tighterTier
  split at h
  · exact if_pos (of_decide_eq_true h)
  · cases h

theorem larger_carries (current wanted : Double) (hdefined : wanted.Defined ∨ ¬current.Defined)
    (h : ¬wanted < current) : (Amount.larger current wanted).Carries wanted := by
  refine Or.inr ?_
  unfold Amount.larger
  split_ifs with hle hself
  · rfl
  · exact absurd hself fun hcurrent => by
      have hwanted : wanted.Defined := hdefined.resolve_right (not_not.mpr hcurrent)
      refine h ((Double.lt_iff_le_not_ge wanted current).mpr ⟨?_, hle⟩)
      exact Double.le_of_not_le current wanted hcurrent hwanted hle
  · rfl

theorem larger_not_carries (current wanted : Double) (hcurrent : current.Defined)
    (hwanted : ¬wanted.Defined) : ¬(Amount.larger current wanted).Carries wanted := by
  have hle : ¬current ≤ wanted := fun hle => hwanted (Double.defined_of_le current wanted hle).2
  have hself : current ≤ current := hcurrent
  unfold Amount.larger
  rw [if_neg hle, if_pos hself]
  rintro (hsame | rfl)
  · exact hle (of_decide_eq_true (Bool.and_eq_true _ _ ▸ hsame).1)
  · exact hwanted hcurrent

section Clamps

variable (warning : Warning)

theorem tier_clamped (tiers : TierSet Double) (current : String) (wanted : Option String)
    (h : Missing wanted (tightenWith (tighterTier tiers) current wanted = ·)) :
    warning ∈ warnUnless (reachable tiers current) warning wanted :=
  clamped_mem (reachable tiers current) warning (tighterTier tiers) current wanted (· = ·) h fun w _ =>
    tighterTier_of_reachable tiers current w

theorem count_clamped (current : Nat) (wanted : Option Nat)
    (h : Missing wanted (tightenWith tighterCount current wanted = ·)) :
    warning ∈ warnUnless (fun w => tighterCount current w == w) warning wanted :=
  clamped_mem _ warning tighterCount current wanted (· = ·) h fun _ _ => eq_of_beq

theorem amount_clamped (current : Double) (wanted : Option Double)
    (h : Missing wanted (tightenWith tighterAmount current wanted).Carries) :
    warning ∈ warnUnless (fun w => sameAmount (tighterAmount current w) w) warning wanted :=
  clamped_mem _ warning tighterAmount current wanted Double.Carries h fun _ _ => Or.inl

theorem switch_clamped (current : Bool) (wanted : Option Bool)
    (h : Missing wanted (tightenWith and current wanted = ·)) :
    warning ∈ warnUnless (fun w => !w || current) warning wanted := by
  have hgranted : ∀ current w : Bool, (!w || current) = true → (current && w) = w := by decide
  exact clamped_mem _ warning and current wanted (· = ·) h fun w _ => hgranted current w

theorem threshold_clamped (current : Double) (wanted : Option Double)
    (hdefined : ∀ w, wanted = some w → w.Defined ∨ ¬current.Defined)
    (h : Missing wanted (tightenWith Amount.larger current wanted).Carries) :
    warning ∈ warnUnless (fun w => !decide (w < current)) warning wanted :=
  clamped_mem _ warning Amount.larger current wanted Double.Carries h fun w hw hpass =>
    larger_carries current w (hdefined w hw) (by simpa using hpass)

end Clamps

/-! ## Extensions -/

theorem contains_of_not_added (current : Dict Json) (extra : Option (Dict Json)) (key : String)
    (value : Json) (hwanted : (extra.getD ∅).get? key = some value)
    (h : (tightenWith addExtensions current extra).get? key ≠ some value) :
    key ∈ (extra.getD ∅).keys.filter current.contains := by
  cases extra with
  | none => cases hwanted
  | some extra =>
    refine List.mem_filter.mpr ⟨(extra.mem_keys key).mpr (Option.isSome_iff_exists.mpr ⟨value, hwanted⟩), ?_⟩
    rw [current.contains_eq_isSome]
    by_contra hnew
    rw [Option.not_isSome_iff_eq_none] at hnew
    refine h ?_
    show (addExtensions current extra).get? key = some value
    rw [get?_addExtensions, hnew, Option.none_or]
    exact hwanted

namespace Capabilities

variable (tiers : TierSet Double) (label : String) (caps : Capabilities Double) (layer : Override Double)

/-- The entry asks for no more tokens than the record has, and for no undefined threshold where the
record has a number. -/
structure Hears (caps : Capabilities Double) (layer : Override Double) : Prop where
  maxContextTokens : ∀ w, layer.maxContextTokens = some w → w ≤ caps.maxContextTokens
  maxOutputTokens : ∀ w, layer.maxOutputTokens = some w → w ≤ caps.maxOutputTokens
  escalationThreshold : ∀ w, layer.escalationThreshold = some w →
    w.Defined ∨ ¬caps.escalationThreshold.Defined

theorem clamped_names (layer field : String) : (Warning.clamped layer field).Names layer "field" field :=
  ⟨by simp [Warning.details], by simp [Warning.details]⟩

theorem field_reported (field : Override.Field) (h : field.Unmet layer (caps.restrict tiers layer))
    (hhears : caps.Hears layer) :
    ∃ warning ∈ caps.restrictWarnings tiers label layer, warning.Names label "field" field.name := by
  have hnamed : ∀ name, name = field.name →
      Warning.clamped label name ∈ caps.restrictWarnings tiers label layer →
        ∃ warning ∈ caps.restrictWarnings tiers label layer, warning.Names label "field" field.name := by
    rintro _ rfl hmem
    exact ⟨_, hmem, clamped_names label _⟩
  -- Every part of the warnings tests one field; what is not mentioned there is never reported.
  cases field with
  | maxTier => exact hnamed "max_tier" rfl (by simp [restrictWarnings, tier_clamped _ _ _ _ h])
  | modelAllow =>
    obtain ⟨warning, hmem, hnames⟩ := narrowed_reported label "model_allow" _ _ h
    exact ⟨warning, by simp [restrictWarnings, hmem], hnames⟩
  | toolAllow =>
    obtain ⟨warning, hmem, hnames⟩ := narrowed_reported label "tool_allow" _ _ h
    exact ⟨warning, by simp [restrictWarnings, hmem], hnames⟩
  | modelDeny => exact absurd h (not_missing_union caps.modelDeny layer.modelDeny)
  | toolDeny => exact absurd h (not_missing_union caps.toolDeny layer.toolDeny)
  | maxContextTokens =>
    obtain ⟨w, hw, hmore⟩ := (missing_min_iff caps.maxContextTokens layer.maxContextTokens).mp h
    exact absurd (hhears.maxContextTokens w hw) (not_le.mpr hmore)
  | maxOutputTokens =>
    obtain ⟨w, hw, hmore⟩ := (missing_min_iff caps.maxOutputTokens layer.maxOutputTokens).mp h
    exact absurd (hhears.maxOutputTokens w hw) (not_le.mpr hmore)
  | rateLimit => exact hnamed "rate_limit" rfl (by simp [restrictWarnings, count_clamped _ _ _ h])
  | dailyBudget =>
    exact hnamed "cost_budget_daily" rfl (by simp [restrictWarnings, amount_clamped _ _ _ h])
  | monthlyBudget =>
    exact hnamed "cost_budget_monthly" rfl (by simp [restrictWarnings, amount_clamped _ _ _ h])
  | streamingAllowed =>
    exact hnamed "streaming_allowed" rfl (by simp [restrictWarnings, switch_clamped _ _ _ h])
  | escalationAllowed =>
    exact hnamed "escalation_allowed" rfl (by simp [restrictWarnings, switch_clamped _ _ _ h])
  | canOverrideModel =>
    exact hnamed "can_override_model" rfl (by simp [restrictWarnings, switch_clamped _ _ _ h])
  | escalationThreshold =>
    exact hnamed "escalation_threshold" rfl
      (by simp [restrictWarnings, threshold_clamped _ _ _ hhears.escalationThreshold h])

variable {tiers label caps layer} {warning : Warning}

theorem extension_reported (key : String) (value : Json)
    (hwanted : (layer.extensions.getD ∅).get? key = some value)
    (h : (caps.restrict tiers layer).extensions.get? key ≠ some value) :
    ∃ warning ∈ caps.restrictWarnings tiers label layer, warning.Names label "key" key := by
  have hmem := contains_of_not_added caps.extensions layer.extensions key value hwanted h
  refine ⟨.extensionShadowed label key, ?_, by simp [Warning.details], by simp [Warning.details]⟩
  exact List.mem_append_right _ (List.mem_map_of_mem hmem)

theorem names_of_mem (h : warning ∈ caps.restrictWarnings tiers label layer) {layer' name : String}
    (hnames : warning.Names layer' "field" name) :
    layer' = label ∧ name ≠ "max_context_tokens" ∧ name ≠ "max_output_tokens" ∧
      (name = "escalation_threshold" →
        ∃ w, layer.escalationThreshold = some w ∧ w < caps.escalationThreshold) := by
  have hclamped : ∀ field, warning = .clamped label field → layer' = label ∧ name = field := by
    rintro field rfl
    simpa [Warning.Names, Warning.details] using hnames
  have hnarrowed : ∀ field current wanted, warning ∈ narrowWarnings label field current wanted →
      layer' = label ∧ name = field := by
    intro field current wanted hmem
    rcases mem_narrowWarnings hmem with rfl | ⟨dropped, rfl⟩ <;>
      simpa [Warning.Names, Warning.details] using hnames
  have hother : ∀ field, layer' = label ∧ name = field →
      field ∉ ["max_context_tokens", "max_output_tokens", "escalation_threshold"] →
      layer' = label ∧ name ≠ "max_context_tokens" ∧ name ≠ "max_output_tokens" ∧
        (name = "escalation_threshold" →
          ∃ w, layer.escalationThreshold = some w ∧ w < caps.escalationThreshold) := by
    rintro _ ⟨hlayer, rfl⟩ hfield
    simp only [List.mem_cons, List.not_mem_nil, or_false, not_or] at hfield
    exact ⟨hlayer, hfield.1, hfield.2.1, fun hname => absurd hname hfield.2.2⟩
  simp only [restrictWarnings, List.mem_append, mem_warnUnless, List.mem_map] at h
  -- One case for each part of the warnings, the extensions last.
  rcases h with (((((((((h | h) | h) | h) | h) | h) | h) | h) | h) | h) | h
  · exact hother "max_tier" (hclamped _ h.1) (by decide)
  · exact hother "model_allow" (hnarrowed _ _ _ h) (by decide)
  · exact hother "tool_allow" (hnarrowed _ _ _ h) (by decide)
  · exact hother "rate_limit" (hclamped _ h.1) (by decide)
  · exact hother "cost_budget_daily" (hclamped _ h.1) (by decide)
  · exact hother "cost_budget_monthly" (hclamped _ h.1) (by decide)
  · exact hother "streaming_allowed" (hclamped _ h.1) (by decide)
  · exact hother "escalation_allowed" (hclamped _ h.1) (by decide)
  · exact hother "can_override_model" (hclamped _ h.1) (by decide)
  · obtain ⟨rfl, w, hw, hlower⟩ := h
    obtain ⟨hlayer, rfl⟩ := hclamped _ rfl
    exact ⟨hlayer, by decide, by decide, fun _ => ⟨w, hw, by simpa using hlower⟩⟩
  · obtain ⟨key, -, rfl⟩ := h
    simp [Warning.Names, Warning.details] at hnames

theorem hears_iff (tiers : TierSet Double) (label : String) : caps.Hears layer ↔
    ∀ field : Override.Field, field.Unmet layer (caps.restrict tiers layer) →
      ∃ warning ∈ caps.restrictWarnings tiers label layer, warning.Names label "field" field.name := by
  refine ⟨fun hhears field h => field_reported tiers label caps layer field h hhears, fun hall => ?_⟩
  have hunnamed : ∀ field : Override.Field, field.Unmet layer (caps.restrict tiers layer) →
      field.name ≠ "max_context_tokens" ∧ field.name ≠ "max_output_tokens" ∧
        (field.name = "escalation_threshold" →
          ∃ w, layer.escalationThreshold = some w ∧ w < caps.escalationThreshold) := by
    intro field hunmet
    obtain ⟨warning, hwarning, hnames⟩ := hall field hunmet
    exact (names_of_mem hwarning hnames).2
  refine ⟨fun w hw => ?_, fun w hw => ?_, fun w hw => ?_⟩
  · by_contra hmore
    exact (hunnamed .maxContextTokens ((missing_min_iff _ _).mpr ⟨w, hw, not_le.mp hmore⟩)).1 rfl
  · by_contra hmore
    exact (hunnamed .maxOutputTokens ((missing_min_iff _ _).mpr ⟨w, hw, not_le.mp hmore⟩)).2.1 rfl
  · by_contra hundefined
    obtain ⟨hw', hcurrent⟩ := not_or.mp hundefined
    rw [not_not] at hcurrent
    have hunmet : Override.Field.escalationThreshold.Unmet layer (caps.restrict tiers layer) := by
      refine ⟨w, hw, ?_⟩
      simpa [restrict, hw, tightenWith] using larger_not_carries _ w hcurrent hw'
    obtain ⟨found, hfound, hlower⟩ := (hunnamed .escalationThreshold hunmet).2.2 rfl
    rw [hw] at hfound
    cases hfound
    exact hw' (Double.defined_of_le _ _ ((Double.lt_iff_le_not_ge _ _).mp hlower).1).1

end Capabilities

/-! ## All entries of a workspace -/

structure Restriction where
  label : String
  layer : Override Double
  caps : Capabilities Double

def Restriction.warnings (tiers : TierSet Double) (e : Restriction) : List Warning :=
  e.caps.restrictWarnings tiers ("workspace." ++ e.label) e.layer

def restrictions (tiers : TierSet Double) (caps : Capabilities Double) :
    List (String × Override Double) → List Restriction
  | [] => []
  | (label, layer) :: rest => ⟨label, layer, caps⟩ :: restrictions tiers (caps.restrict tiers layer) rest

theorem restrictions_labels (tiers : TierSet Double) (caps : Capabilities Double)
    (limits : List (String × Override Double)) :
    (restrictions tiers caps limits).map (·.label) = limits.map (·.1) := by
  induction limits generalizing caps with
  | nil => rfl
  | cons entry rest ih => exact congrArg (entry.1 :: ·) (ih _)

/-- How often the level that follows is not the one that is asked for. -/
def refusals (level : Level) : List Level → Nat
  | [] => 0
  | wanted :: rest =>
    let next := lowered level [wanted]
    (if next = wanted then 0 else 1) + refusals next rest

theorem count_loweringWarnings (level : Level) (wanted : List Level) :
    (loweringWarnings level wanted).count .levelRaised = refusals level wanted := by
  have hrefl : ∀ level : Level, level ≤ level := fun level => Nat.le_refl level.ordinal
  induction wanted generalizing level with
  | nil => rfl
  | cons first rest ih =>
    unfold loweringWarnings refusals
    by_cases h : first ≤ level
    · simp [lowered, h, ih]
    · have hne : level ≠ first := by
        rintro rfl
        exact h (hrefl level)
      simp [lowered, h, hne, ih, Nat.add_comm]

theorem mem_loweringWarnings (level : Level) (wanted : List Level) (warning : Warning)
    (h : warning ∈ loweringWarnings level wanted) : warning = .levelRaised := by
  induction wanted generalizing level with
  | nil => cases h
  | cons first rest ih =>
    unfold loweringWarnings at h
    split at h
    · exact ih first h
    · rcases List.mem_cons.mp h with h | h
      · exact h
      · exact ih level h

namespace Resolver

theorem restrictAll_warnings (tiers : TierSet Double) (limits : List (String × Override Double))
    (start : Resolved Double) :
    (restrictAll tiers start limits).warnings =
      start.warnings ++ (restrictions tiers start.caps limits).flatMap (·.warnings tiers) := by
  induction limits generalizing start with
  | nil => exact (List.append_nil _).symm
  | cons entry rest ih =>
    rw [restrictions, List.flatMap_cons, ← List.append_assoc]
    exact ih _

variable (r : Resolver Double) (who : Identity)

def askedLevels : List Level := if who.trusted then (r.workspace.map (wantedLevels who)).getD [] else []

/-- The entries of the workspace for a caller, in the order in which they are applied. -/
def applied : List Restriction :=
  restrictions r.tiers (r.globalCaps who (r.level who)) (r.limits who (r.level who))

/-- Whatever the workspace asks for and does not get is warned of. A warning about a level names nothing,
so there are as many as there are levels refused; any other names the entry and the field or key. -/
structure ReportsAll : Prop where
  levels : refusals (grantedLevel who r.global) (r.askedLevels who) ≤
    (r.run who).warnings.count .levelRaised
  fields : ∀ e ∈ r.applied who, ∀ field : Override.Field,
    field.Unmet e.layer (e.caps.restrict r.tiers e.layer) →
      ∃ warning ∈ (r.run who).warnings, warning.Names ("workspace." ++ e.label) "field" field.name
  extensions : ∀ e ∈ r.applied who, ∀ key value, (e.layer.extensions.getD ∅).get? key = some value →
    (e.caps.restrict r.tiers e.layer).extensions.get? key ≠ some value →
      ∃ warning ∈ (r.run who).warnings, warning.Names ("workspace." ++ e.label) "key" key

theorem run_warnings : (r.run who).warnings =
    loweringWarnings (grantedLevel who r.global) (r.askedLevels who) ++
      (r.applied who).flatMap (·.warnings r.tiers) :=
  restrictAll_warnings r.tiers _ _

theorem applied_labels_nodup : ((r.applied who).map (·.label)).Nodup := by
  rw [applied, restrictions_labels, limits]
  cases r.workspace with
  | none => exact List.nodup_nil
  | some p =>
    have hlevel : ∀ (level : Level) (name : String),
        level.name ≠ "channels." ++ name ∧ level.name ≠ "users." ++ name := by
      intro level name
      cases level <;> simp [Level.name, String.ext_iff]
    have hkinds : ∀ channel caller : String, "channels." ++ channel ≠ "users." ++ caller := by
      simp [String.ext_iff]
    show ((entries who (r.level who) p).map (·.1)).Nodup
    unfold entries
    cases p.channels.get? who.channel <;> cases p.users.get? who.caller <;> split <;>
      simp [hlevel, hkinds]

theorem mem_warnings_of_names {e : Restriction} (he : e ∈ r.applied who) {warning : Warning}
    (h : warning ∈ (r.run who).warnings) {name : String}
    (hnames : warning.Names ("workspace." ++ e.label) "field" name) : warning ∈ e.warnings r.tiers := by
  rw [run_warnings, List.mem_append, List.mem_flatMap] at h
  rcases h with h | ⟨found, hfound, h⟩
  · rw [mem_loweringWarnings _ _ _ h] at hnames
    exact absurd hnames.1 List.not_mem_nil
  · have hlabel : e.label = found.label :=
      (String.append_right_inj "workspace.").mp (Capabilities.names_of_mem h hnames).1
    rw [List.inj_on_of_nodup_map (r.applied_labels_nodup who) he hfound hlabel]
    exact h

theorem mem_run_warnings {e : Restriction} (he : e ∈ r.applied who) {warning : Warning}
    (h : warning ∈ e.warnings r.tiers) : warning ∈ (r.run who).warnings := by
  rw [run_warnings]
  exact List.mem_append_right _ (List.mem_flatMap.mpr ⟨e, he, h⟩)

/-- Everything is warned of exactly where no entry asks for more tokens than the record that it finds has,
and none for an undefined threshold where the record has a number. -/
theorem reportsAll_iff : r.ReportsAll who ↔ ∀ e ∈ r.applied who, e.caps.Hears e.layer := by
  constructor
  · intro hall e he
    refine (Capabilities.hears_iff r.tiers ("workspace." ++ e.label)).mpr fun field hunmet => ?_
    obtain ⟨warning, hwarning, hnames⟩ := hall.fields e he field hunmet
    exact ⟨warning, r.mem_warnings_of_names who he hwarning hnames, hnames⟩
  · intro hhears
    refine ⟨?_, fun e he field hunmet => ?_, fun e he key value hwanted hmiss => ?_⟩
    · rw [run_warnings, List.count_append, count_loweringWarnings]
      exact Nat.le_add_right _ _
    · obtain ⟨warning, hwarning, hnames⟩ :=
        (Capabilities.hears_iff r.tiers ("workspace." ++ e.label)).mp (hhears e he) field hunmet
      exact ⟨warning, r.mem_run_warnings who he hwarning, hnames⟩
    · obtain ⟨warning, hwarning, hnames⟩ := Capabilities.extension_reported key value hwanted hmiss
      exact ⟨warning, r.mem_run_warnings who he hwarning, hnames⟩

def moreContext : Resolver Double where
  global := { channels := Dict.empty.insert "web" { level := some .standard } }
  workspace := some { standard := { maxContextTokens := some 32768 } }
  tiers := threeTiers

/-- The record keeps what the level has, and nobody hears of it. -/
theorem moreContext_unreported :
    let bob : Identity := ⟨"bob", "web", true⟩
    (moreContext.resolve bob).maxContextTokens = 16384 ∧ (moreContext.run bob).warnings = [] ∧
      ¬moreContext.ReportsAll bob := by
  intro bob
  have hnone : (moreContext.run bob).warnings = [] := by decide
  have happlied : moreContext.applied bob =
      [⟨"standard", { maxContextTokens := some 32768 }, moreContext.globalCaps bob .standard⟩] := by rfl
  refine ⟨by decide, hnone, fun hall => ?_⟩
  obtain ⟨warning, hwarning, -⟩ := hall.fields _ (happlied ▸ List.mem_singleton_self _) .maxContextTokens
    ⟨32768, rfl, by decide⟩
  rw [hnone] at hwarning
  cases hwarning

end Resolver

end Admission
