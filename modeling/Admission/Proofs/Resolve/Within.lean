import Admission.Proofs.Double
import Admission.Resolve
import Admission.Tool

/-!
# Wider and narrower capabilities

Each field of a record has an order of its own. Of limits, 0 is the loosest; lists are compared by the
models and tools that they let through; tiers are compared by their ordinals.
-/

namespace Admission

/-! ## Fields -/

def CountWithin (a b : Nat) : Prop := b = 0 ∨ a ≠ 0 ∧ a ≤ b

def AmountWithin (a b : Double) : Prop := b ≤ 0 ∨ ¬ a ≤ 0 ∧ a ≤ b

def SwitchWithin (a b : Bool) : Prop := a = true → b = true

def TierWithin (tiers : TierSet Double) (a b : String) : Prop :=
  ∃ x y, tiers.ordinalOf? a = some x ∧ tiers.ordinalOf? b = some y ∧ x ≤ y

theorem CountWithin.refl (a : Nat) : CountWithin a a := by
  unfold CountWithin
  omega

theorem CountWithin.trans (a b c : Nat) (hab : CountWithin a b) (hbc : CountWithin b c) :
    CountWithin a c := by
  unfold CountWithin at *
  omega

theorem AmountWithin.refl (a : Double) (ha : a.Defined) : AmountWithin a a := by
  by_cases h : a ≤ 0
  · exact Or.inl h
  · exact Or.inr ⟨h, ha⟩

theorem AmountWithin.trans (a b c : Double) (hab : AmountWithin a b) (hbc : AmountWithin b c) :
    AmountWithin a c := by
  rcases hbc with hc | ⟨hb, hbc⟩
  · exact Or.inl hc
  · rcases hab with hb' | ⟨ha, hab⟩
    · exact absurd hb' hb
    · exact Or.inr ⟨ha, Double.le_trans a b c hab hbc⟩

variable (tiers : TierSet Double)

theorem TierWithin.refl (a : String) (h : (tiers.ordinalOf? a).isSome) : TierWithin tiers a a := by
  obtain ⟨x, hx⟩ := Option.isSome_iff_exists.mp h
  exact ⟨x, x, hx, hx, le_refl x⟩

theorem TierWithin.trans (a b c : String) (hab : TierWithin tiers a b) (hbc : TierWithin tiers b c) :
    TierWithin tiers a c := by
  obtain ⟨x, y, hx, hy, hxy⟩ := hab
  obtain ⟨y', z, hy', hz, hyz⟩ := hbc
  rw [hy] at hy'
  cases hy'
  exact ⟨x, z, hx, hz, hxy.trans hyz⟩

/-! ## Records -/

namespace Capabilities

/-- A record is in no field wider than another, and it has all extensions of the other. -/
structure Within (a b : Capabilities Double) : Prop where
  maxTier : TierWithin tiers a.maxTier b.maxTier
  maxContextTokens : a.maxContextTokens ≤ b.maxContextTokens
  maxOutputTokens : a.maxOutputTokens ≤ b.maxOutputTokens
  rateLimit : CountWithin a.rateLimit b.rateLimit
  streamingAllowed : SwitchWithin a.streamingAllowed b.streamingAllowed
  escalationAllowed : SwitchWithin a.escalationAllowed b.escalationAllowed
  escalationThreshold : b.escalationThreshold ≤ a.escalationThreshold
  canOverrideModel : SwitchWithin a.canOverrideModel b.canOverrideModel
  dailyBudget : AmountWithin a.dailyBudget b.dailyBudget
  monthlyBudget : AmountWithin a.monthlyBudget b.monthlyBudget
  models : ∀ model, a.permitsModel model = true → b.permitsModel model = true
  tools : ∀ name, (checkTool (some a) name).isAllowed = true → (checkTool (some b) name).isAllowed = true
  extensions : ∀ key value, b.extensions.get? key = some value → a.extensions.get? key = some value

/-- A list of tools lets a tool through, by name or by `*`. -/
def letsThrough (names : List String) (tool : String) : Bool :=
  namesTool names "*" || namesTool names tool

/-- A record is in no field wider than what a layer sets. -/
structure Respects (a : Capabilities Double) (layer : Override Double) : Prop where
  maxTier : ∀ w, layer.maxTier = some w → TierWithin tiers a.maxTier w
  maxContextTokens : ∀ w, layer.maxContextTokens = some w → a.maxContextTokens ≤ w
  maxOutputTokens : ∀ w, layer.maxOutputTokens = some w → a.maxOutputTokens ≤ w
  rateLimit : ∀ w, layer.rateLimit = some w → CountWithin a.rateLimit w
  streamingAllowed : ∀ w, layer.streamingAllowed = some w → SwitchWithin a.streamingAllowed w
  escalationAllowed : ∀ w, layer.escalationAllowed = some w → SwitchWithin a.escalationAllowed w
  escalationThreshold : ∀ w, layer.escalationThreshold = some w → w ≤ a.escalationThreshold
  canOverrideModel : ∀ w, layer.canOverrideModel = some w → SwitchWithin a.canOverrideModel w
  dailyBudget : ∀ w, layer.dailyBudget = some w → AmountWithin a.dailyBudget w
  monthlyBudget : ∀ w, layer.monthlyBudget = some w → AmountWithin a.monthlyBudget w
  modelAllow : ∀ w, layer.modelAllow = some w → ∀ model, a.permitsModel model = true →
    Pattern.anyMatches w model = true
  modelDeny : ∀ w, layer.modelDeny = some w → ∀ model, a.permitsModel model = true →
    Pattern.anyMatches w model = false
  toolAllow : ∀ w, layer.toolAllow = some w → ∀ name, (checkTool (some a) name).isAllowed = true →
    letsThrough w (Text.trim name) = true
  toolDeny : ∀ w, layer.toolDeny = some w → ∀ name, (checkTool (some a) name).isAllowed = true →
    namesTool w (Text.trim name) = false

/-- The tier is there and no number is undefined. -/
structure Proper (a : Capabilities Double) : Prop where
  maxTier : (tiers.ordinalOf? a.maxTier).isSome
  escalationThreshold : a.escalationThreshold.Defined
  dailyBudget : a.dailyBudget.Defined
  monthlyBudget : a.monthlyBudget.Defined

variable (a b c : Capabilities Double) (layer : Override Double)

theorem Within.refl (h : a.Proper tiers) : a.Within tiers a where
  maxTier := .refl tiers _ h.maxTier
  maxContextTokens := le_refl _
  maxOutputTokens := le_refl _
  rateLimit := .refl _
  streamingAllowed := id
  escalationAllowed := id
  escalationThreshold := h.escalationThreshold
  canOverrideModel := id
  dailyBudget := .refl _ h.dailyBudget
  monthlyBudget := .refl _ h.monthlyBudget
  models _ := id
  tools _ := id
  extensions _ _ := id

theorem Within.trans (hab : a.Within tiers b) (hbc : b.Within tiers c) : a.Within tiers c where
  maxTier := .trans tiers _ _ _ hab.maxTier hbc.maxTier
  maxContextTokens := hab.maxContextTokens.trans hbc.maxContextTokens
  maxOutputTokens := hab.maxOutputTokens.trans hbc.maxOutputTokens
  rateLimit := .trans _ _ _ hab.rateLimit hbc.rateLimit
  streamingAllowed h := hbc.streamingAllowed (hab.streamingAllowed h)
  escalationAllowed h := hbc.escalationAllowed (hab.escalationAllowed h)
  escalationThreshold := Double.le_trans _ _ _ hbc.escalationThreshold hab.escalationThreshold
  canOverrideModel h := hbc.canOverrideModel (hab.canOverrideModel h)
  dailyBudget := .trans _ _ _ hab.dailyBudget hbc.dailyBudget
  monthlyBudget := .trans _ _ _ hab.monthlyBudget hbc.monthlyBudget
  models model h := hbc.models model (hab.models model h)
  tools name h := hbc.tools name (hab.tools name h)
  extensions key value h := hab.extensions key value (hbc.extensions key value h)

theorem Within.respects (hab : a.Within tiers b) (hb : b.Respects tiers layer) :
    a.Respects tiers layer where
  maxTier w hw := .trans tiers _ _ _ hab.maxTier (hb.maxTier w hw)
  maxContextTokens w hw := hab.maxContextTokens.trans (hb.maxContextTokens w hw)
  maxOutputTokens w hw := hab.maxOutputTokens.trans (hb.maxOutputTokens w hw)
  rateLimit w hw := .trans _ _ _ hab.rateLimit (hb.rateLimit w hw)
  streamingAllowed w hw h := hb.streamingAllowed w hw (hab.streamingAllowed h)
  escalationAllowed w hw h := hb.escalationAllowed w hw (hab.escalationAllowed h)
  escalationThreshold w hw := Double.le_trans _ _ _ (hb.escalationThreshold w hw) hab.escalationThreshold
  canOverrideModel w hw h := hb.canOverrideModel w hw (hab.canOverrideModel h)
  dailyBudget w hw := .trans _ _ _ hab.dailyBudget (hb.dailyBudget w hw)
  monthlyBudget w hw := .trans _ _ _ hab.monthlyBudget (hb.monthlyBudget w hw)
  modelAllow w hw model h := hb.modelAllow w hw model (hab.models model h)
  modelDeny w hw model h := hb.modelDeny w hw model (hab.models model h)
  toolAllow w hw name h := hb.toolAllow w hw name (hab.tools name h)
  toolDeny w hw name h := hb.toolDeny w hw name (hab.tools name h)

end Capabilities

end Admission
