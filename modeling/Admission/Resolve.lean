import Admission.Identity
import Admission.Permissions
import Admission.Text.Quoted
import Admission.Tier

/-!
# Resolving permissions

From the layers to the capabilities of one caller. The global layers come first, each of them
replacing field by field: built-in, level, channel, caller. The layers of a workspace follow; they
can only tighten what the global layers gave, and what they ask for beyond that is reported.
-/

namespace Admission

/-- Something that a workspace asked for and did not get. -/
inductive Warning where
  | levelRaised
  | clamped (layer field : String)
  | wildcardNarrowed (layer field : String)
  | entriesRemoved (layer field : String) (dropped : List String)
  | extensionShadowed (layer key : String)
  deriving DecidableEq, Repr

namespace Warning

def message : Warning → String
  | levelRaised => "Workspace tried to raise permission level, clamped"
  | clamped .. => "Workspace value exceeds ceiling, clamped"
  | wildcardNarrowed .. => "Workspace wildcard narrowed to the global list"
  | entriesRemoved .. => "Workspace allow entries not granted globally, removed"
  | extensionShadowed .. => "Workspace extension shadows a global value, ignored"

/-- What the warning is about, by name. -/
def details : Warning → List (String × String)
  | levelRaised => []
  | clamped layer field | wildcardNarrowed layer field => [("layer", layer), ("field", field)]
  | entriesRemoved layer field dropped =>
    [("layer", layer), ("field", field), ("dropped", Text.quotedList dropped)]
  | extensionShadowed layer key => [("layer", layer), ("key", key)]

end Warning

variable {α : Type} [Amount α]

/-! ## Global layers -/

/-- The capabilities with what the layer sets; the level is decided elsewhere. -/
def Capabilities.apply (caps : Capabilities α) (layer : Override α) : Capabilities α where
  level := caps.level
  maxTier := layer.maxTier.getD caps.maxTier
  modelAllow := layer.modelAllow.getD caps.modelAllow
  modelDeny := layer.modelDeny.getD caps.modelDeny
  toolAllow := layer.toolAllow.getD caps.toolAllow
  toolDeny := layer.toolDeny.getD caps.toolDeny
  maxContextTokens := layer.maxContextTokens.getD caps.maxContextTokens
  maxOutputTokens := layer.maxOutputTokens.getD caps.maxOutputTokens
  rateLimit := layer.rateLimit.getD caps.rateLimit
  streamingAllowed := layer.streamingAllowed.getD caps.streamingAllowed
  escalationAllowed := layer.escalationAllowed.getD caps.escalationAllowed
  escalationThreshold := layer.escalationThreshold.getD caps.escalationThreshold
  canOverrideModel := layer.canOverrideModel.getD caps.canOverrideModel
  dailyBudget := layer.dailyBudget.getD caps.dailyBudget
  monthlyBudget := layer.monthlyBudget.getD caps.monthlyBudget
  extensions := caps.extensions.overlay (layer.extensions.getD ∅)

/-! ## Tightening -/

/-- The lower of two limits of which 0 is none. -/
def tighterCount (current wanted : Nat) : Nat :=
  if current = 0 then wanted else if wanted = 0 then current else min current wanted

/-- The lower of two budgets of which 0 is no limit. -/
def tighterAmount (current wanted : α) : α :=
  if current ≤ 0 then wanted else if wanted ≤ 0 then current else Amount.smaller current wanted

/-- The entries of `wanted` that `current` grants, as a list of literal entries. -/
def narrowed (current wanted : List String) : List String :=
  if current.contains "*" then wanted
  else if wanted.contains "*" then current
  else wanted.filter current.contains

/-- Both lists, the new entries of the second behind the first. -/
def union (current extra : List String) : List String :=
  extra.foldl (fun list item => if list.contains item then list else list ++ [item]) current

/-- The wanted tier where it does not lie above the current one. -/
def tighterTier (tiers : TierSet α) (current wanted : String) : String :=
  match tiers.ordinalOf? wanted, tiers.ordinalOf? current with
  | some w, some c => if w ≤ c then wanted else current
  | _, _ => current

/-- The new entries beside the old ones, none of which is changed. -/
def addExtensions (current extra : Dict Json) : Dict Json :=
  extra.toList.foldl
    (fun d (key, value) => if d.contains key then d else d.insert key value) current

/-- Combine a field with what the layer wants for it, if it wants anything. -/
def tightenWith {β γ : Type} (tighten : γ → β → γ) (current : γ) (wanted : Option β) : γ :=
  match wanted with
  | some w => tighten current w
  | none => current

/-- The capabilities within the limits of the layer. -/
def Capabilities.restrict (tiers : TierSet α) (caps : Capabilities α) (layer : Override α) :
    Capabilities α where
  level := caps.level
  maxTier := tightenWith (tighterTier tiers) caps.maxTier layer.maxTier
  modelAllow := tightenWith narrowed caps.modelAllow layer.modelAllow
  modelDeny := tightenWith union caps.modelDeny layer.modelDeny
  toolAllow := tightenWith narrowed caps.toolAllow layer.toolAllow
  toolDeny := tightenWith union caps.toolDeny layer.toolDeny
  maxContextTokens := tightenWith min caps.maxContextTokens layer.maxContextTokens
  maxOutputTokens := tightenWith min caps.maxOutputTokens layer.maxOutputTokens
  rateLimit := tightenWith tighterCount caps.rateLimit layer.rateLimit
  streamingAllowed := tightenWith and caps.streamingAllowed layer.streamingAllowed
  escalationAllowed := tightenWith and caps.escalationAllowed layer.escalationAllowed
  escalationThreshold :=
    tightenWith Amount.larger caps.escalationThreshold layer.escalationThreshold
  canOverrideModel := tightenWith and caps.canOverrideModel layer.canOverrideModel
  dailyBudget := tightenWith tighterAmount caps.dailyBudget layer.dailyBudget
  monthlyBudget := tightenWith tighterAmount caps.monthlyBudget layer.monthlyBudget
  extensions := tightenWith addExtensions caps.extensions layer.extensions

/-! ## Warnings -/

/-- A warning about a field that is set and fails the test. -/
def warnUnless {β : Type} (granted : β → Bool) (warning : Warning) (wanted : Option β) :
    List Warning :=
  match wanted with
  | some w => if granted w then [] else [warning]
  | none => []

/-- The wanted tier is one that `tighterTier` gives. -/
def reachable (tiers : TierSet α) (current wanted : String) : Bool :=
  match tiers.ordinalOf? wanted, tiers.ordinalOf? current with
  | some w, some c => w ≤ c
  | _, _ => false

/-- Equal as numbers; an undefined one equals none. -/
def sameAmount (a b : α) : Bool := a ≤ b && b ≤ a

/-- What becomes of a wanted list of entries. -/
def narrowWarnings (layer field : String) (current : List String) (wanted : Option (List String)) :
    List Warning :=
  match wanted with
  | none => []
  | some wanted =>
    if current.contains "*" then []
    else if wanted.contains "*" then [.wildcardNarrowed layer field]
    else
      let dropped := wanted.filter fun entry => !current.contains entry
      if dropped.isEmpty then [] else [.entriesRemoved layer field dropped]

/-- What the layer asks for and `restrict` does not give. -/
def Capabilities.restrictWarnings (tiers : TierSet α) (label : String) (caps : Capabilities α)
    (layer : Override α) : List Warning :=
  let switch (field : String) (current : Bool) (wanted : Option Bool) : List Warning :=
    warnUnless (fun w => !w || current) (.clamped label field) wanted
  let amount (field : String) (current : α) (wanted : Option α) : List Warning :=
    warnUnless (fun w => sameAmount (tighterAmount current w) w) (.clamped label field) wanted
  warnUnless (reachable tiers caps.maxTier) (.clamped label "max_tier") layer.maxTier ++
    narrowWarnings label "model_allow" caps.modelAllow layer.modelAllow ++
    narrowWarnings label "tool_allow" caps.toolAllow layer.toolAllow ++
    warnUnless (fun w => tighterCount caps.rateLimit w == w) (.clamped label "rate_limit")
      layer.rateLimit ++
    amount "cost_budget_daily" caps.dailyBudget layer.dailyBudget ++
    amount "cost_budget_monthly" caps.monthlyBudget layer.monthlyBudget ++
    switch "streaming_allowed" caps.streamingAllowed layer.streamingAllowed ++
    switch "escalation_allowed" caps.escalationAllowed layer.escalationAllowed ++
    switch "can_override_model" caps.canOverrideModel layer.canOverrideModel ++
    warnUnless (fun w => !decide (w < caps.escalationThreshold))
      (.clamped label "escalation_threshold") layer.escalationThreshold ++
    ((layer.extensions.getD ∅).keys.filter caps.extensions.contains).map
      (.extensionShadowed label ·)

/-! ## Levels -/

/-- The level that the global layers give a trusted caller. -/
def grantedLevel (who : Identity) (global : Permissions α) : Level :=
  ((global.users.get? who.caller).bind (·.level)).getD
    (((global.channels.get? who.channel).bind (·.level)).getD .zeroTrust)

/-- The levels that a workspace asks for, the channel's first. -/
def wantedLevels (who : Identity) (workspace : Permissions α) : List Level :=
  [(workspace.channels.get? who.channel).bind (·.level),
    (workspace.users.get? who.caller).bind (·.level)].filterMap id

/-- A workspace lowers the level and never raises it. -/
def lowered (level : Level) : List Level → Level
  | [] => level
  | wanted :: rest => lowered (if wanted ≤ level then wanted else level) rest

def loweringWarnings (level : Level) : List Level → List Warning
  | [] => []
  | wanted :: rest =>
    if wanted ≤ level then loweringWarnings wanted rest
    else .levelRaised :: loweringWarnings level rest

/-! ## Resolution -/

/-- Where the permissions of a caller come from. -/
structure Resolver (α : Type) where
  global : Permissions α
  workspace : Option (Permissions α)
  tiers : TierSet α

/-- Capabilities and what was reported on the way to them. -/
structure Resolved (α : Type) where
  caps : Capabilities α
  warnings : List Warning := []

namespace Resolver

/-- The level of a caller where there is no workspace. -/
def globalLevel (r : Resolver α) (who : Identity) : Level :=
  if who.trusted then grantedLevel who r.global else .zeroTrust

def level (r : Resolver α) (who : Identity) : Level :=
  if who.trusted then
    lowered (grantedLevel who r.global) ((r.workspace.map (wantedLevels who)).getD [])
  else .zeroTrust

/-- The overrides for this caller in a source, each with its label. Only a trusted caller has more
than the one of the level. -/
def entries (who : Identity) (level : Level) (p : Permissions α) : List (String × Override α) :=
  (level.name, p.ofLevel level) ::
    if who.trusted then
      ((p.channels.get? who.channel).toList.map fun o => ("channels." ++ who.channel, o)) ++
        (p.users.get? who.caller).toList.map fun o => ("users." ++ who.caller, o)
    else []

def globalCaps (r : Resolver α) (who : Identity) (level : Level) : Capabilities α :=
  (entries who level r.global).foldl (fun caps (_, layer) => caps.apply layer) (.builtin level)

/-- The entries of the workspace for this caller, in the order in which they restrict. -/
def limits (r : Resolver α) (who : Identity) (level : Level) : List (String × Override α) :=
  (r.workspace.map (entries who level)).getD []

/-- A caller whom nobody authenticated has no tools, no escalation and no choice of model. -/
def harden (who : Identity) (caps : Capabilities α) : Capabilities α :=
  if who.trusted then caps
  else { caps with toolAllow := [], escalationAllowed := false, canOverrideModel := false }

def restrictAll (tiers : TierSet α) (start : Resolved α) (limits : List (String × Override α)) :
    Resolved α :=
  limits.foldl
    (fun acc (label, layer) =>
      { caps := acc.caps.restrict tiers layer
        warnings := acc.warnings ++
          acc.caps.restrictWarnings tiers ("workspace." ++ label) layer })
    start

/-- The capabilities of a caller with the warnings. Nobody is refused: a caller without any entry
has the built-in capabilities of the lowest level. -/
def run (r : Resolver α) (who : Identity) : Resolved α :=
  let level := r.level who
  let asked := if who.trusted then (r.workspace.map (wantedLevels who)).getD [] else []
  let result := restrictAll r.tiers
    { caps := r.globalCaps who level, warnings := loweringWarnings (grantedLevel who r.global) asked }
    (r.limits who level)
  { result with caps := harden who { result.caps with level } }

def resolve (r : Resolver α) (who : Identity) : Capabilities α := (r.run who).caps

end Resolver

end Admission
