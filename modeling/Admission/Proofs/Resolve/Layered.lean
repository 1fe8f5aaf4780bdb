import Admission.Proofs.Resolve.Overlay

/-!
# The global layers field by field

Without a workspace every field of a record comes from the first entry that sets it: that of the caller,
that of the channel, that of the level, and the built-in record of the level after them. Extensions are
looked for key by key in the same order. No other entry matters.
-/

namespace Admission

variable {β : Type}

/-- What is set for a caller, by the first entry that sets it. -/
def Permissions.setting (p : Permissions Double) (who : Identity) (level : Level)
    (field : Override Double → Option β) : Option β :=
  ((p.users.get? who.caller).bind field).or
    (((p.channels.get? who.channel).bind field).or (field (p.ofLevel level)))

/-- Every field of a record but its level is what is set for a caller, or else as in the base. -/
structure Capabilities.Overlaid (p : Permissions Double) (who : Identity) (level : Level)
    (caps base : Capabilities Double) : Prop where
  maxTier : caps.maxTier = (p.setting who level (·.maxTier)).getD base.maxTier
  modelAllow : caps.modelAllow = (p.setting who level (·.modelAllow)).getD base.modelAllow
  modelDeny : caps.modelDeny = (p.setting who level (·.modelDeny)).getD base.modelDeny
  toolAllow : caps.toolAllow = (p.setting who level (·.toolAllow)).getD base.toolAllow
  toolDeny : caps.toolDeny = (p.setting who level (·.toolDeny)).getD base.toolDeny
  maxContextTokens :
    caps.maxContextTokens = (p.setting who level (·.maxContextTokens)).getD base.maxContextTokens
  maxOutputTokens :
    caps.maxOutputTokens = (p.setting who level (·.maxOutputTokens)).getD base.maxOutputTokens
  rateLimit : caps.rateLimit = (p.setting who level (·.rateLimit)).getD base.rateLimit
  streamingAllowed :
    caps.streamingAllowed = (p.setting who level (·.streamingAllowed)).getD base.streamingAllowed
  escalationAllowed :
    caps.escalationAllowed = (p.setting who level (·.escalationAllowed)).getD base.escalationAllowed
  escalationThreshold : caps.escalationThreshold =
    (p.setting who level (·.escalationThreshold)).getD base.escalationThreshold
  canOverrideModel :
    caps.canOverrideModel = (p.setting who level (·.canOverrideModel)).getD base.canOverrideModel
  dailyBudget : caps.dailyBudget = (p.setting who level (·.dailyBudget)).getD base.dailyBudget
  monthlyBudget : caps.monthlyBudget = (p.setting who level (·.monthlyBudget)).getD base.monthlyBudget
  extensions : ∀ key, caps.extensions.get? key =
    (p.setting who level fun layer => layer.extensions.bind (·.get? key)).or (base.extensions.get? key)

namespace Resolver

/-! ## Folding layers -/

theorem foldl_apply_or (get : Capabilities Double → Option β) (set : Override Double → Option β)
    (happly : ∀ caps layer, get (caps.apply layer) = (set layer).or (get caps))
    (layers : List (String × Override Double)) (caps : Capabilities Double) :
    get (layers.foldl (fun caps entry => caps.apply entry.2) caps) =
      (layers.reverse.findSome? fun entry => set entry.2).or (get caps) := by
  induction layers generalizing caps with
  | nil => rfl
  | cons entry rest ih =>
    rw [List.foldl_cons, ih, happly, List.reverse_cons, List.findSome?_append, Option.or_assoc,
      List.findSome?_singleton]

theorem findSome?_entries (who : Identity) (level : Level) (p : Permissions Double)
    (htrusted : who.trusted = true) (field : Override Double → Option β) :
    ((entries who level p).reverse.findSome? fun entry => field entry.2) = p.setting who level field := by
  have hentry : ∀ (label : String) (entry : Option (Override Double)),
      ((entry.toList.map fun layer => (label, layer)).reverse.findSome? fun entry => field entry.2) =
        entry.bind field := by
    intro label entry
    cases entry with
    | none => rfl
    | some layer => exact List.findSome?_singleton
  rw [entries, if_pos htrusted, List.reverse_cons, List.reverse_append, List.append_assoc,
    List.findSome?_append, List.findSome?_append, hentry, hentry, List.findSome?_singleton]
  rfl

variable (r : Resolver Double) (who : Identity) (level : Level)

theorem globalCaps_or (htrusted : who.trusted = true) (get : Capabilities Double → Option β)
    (set : Override Double → Option β)
    (happly : ∀ caps layer, get (caps.apply layer) = (set layer).or (get caps)) :
    get (r.globalCaps who level) = (r.global.setting who level set).or (get (.builtin level)) := by
  rw [← findSome?_entries who level r.global htrusted]
  exact foldl_apply_or get set happly _ _

theorem globalCaps_getD (htrusted : who.trusted = true) (get : Capabilities Double → β)
    (set : Override Double → Option β)
    (happly : ∀ caps layer, get (caps.apply layer) = (set layer).getD (get caps)) :
    get (r.globalCaps who level) = (r.global.setting who level set).getD (get (.builtin level)) := by
  apply Option.some.inj
  rw [← Option.or_some]
  apply r.globalCaps_or who level htrusted (fun caps => some (get caps)) set
  intro caps layer
  rw [happly, Option.or_some]

theorem globalCaps_overlaid (htrusted : who.trusted = true) :
    (r.globalCaps who level).Overlaid r.global who level (.builtin level) where
  maxTier := r.globalCaps_getD who level htrusted (·.maxTier) _ fun _ _ => rfl
  modelAllow := r.globalCaps_getD who level htrusted (·.modelAllow) _ fun _ _ => rfl
  modelDeny := r.globalCaps_getD who level htrusted (·.modelDeny) _ fun _ _ => rfl
  toolAllow := r.globalCaps_getD who level htrusted (·.toolAllow) _ fun _ _ => rfl
  toolDeny := r.globalCaps_getD who level htrusted (·.toolDeny) _ fun _ _ => rfl
  maxContextTokens := r.globalCaps_getD who level htrusted (·.maxContextTokens) _ fun _ _ => rfl
  maxOutputTokens := r.globalCaps_getD who level htrusted (·.maxOutputTokens) _ fun _ _ => rfl
  rateLimit := r.globalCaps_getD who level htrusted (·.rateLimit) _ fun _ _ => rfl
  streamingAllowed := r.globalCaps_getD who level htrusted (·.streamingAllowed) _ fun _ _ => rfl
  escalationAllowed := r.globalCaps_getD who level htrusted (·.escalationAllowed) _ fun _ _ => rfl
  escalationThreshold := r.globalCaps_getD who level htrusted (·.escalationThreshold) _ fun _ _ => rfl
  canOverrideModel := r.globalCaps_getD who level htrusted (·.canOverrideModel) _ fun _ _ => rfl
  dailyBudget := r.globalCaps_getD who level htrusted (·.dailyBudget) _ fun _ _ => rfl
  monthlyBudget := r.globalCaps_getD who level htrusted (·.monthlyBudget) _ fun _ _ => rfl
  extensions key := by
    apply r.globalCaps_or who level htrusted (·.extensions.get? key)
    intro caps layer
    show (caps.extensions.overlay (layer.extensions.getD ∅)).get? key = _
    rw [Dict.get?_overlay]
    cases layer.extensions <;> rfl

/-! ## Without a workspace -/

theorem resolve_of_no_workspace (htrusted : who.trusted = true) (hnone : r.workspace = none) :
    r.resolve who = r.globalCaps who (grantedLevel who r.global) := by
  have hlevel : r.level who = grantedLevel who r.global := by
    rw [level, if_pos htrusted, hnone]
    rfl
  rw [resolve_eq_harden, harden, if_pos htrusted, hlevel, limits, hnone]
  rfl

/-- Without a workspace, the level of a trusted caller is that of the caller's entry, else that of the
channel's, else the lowest. Every other field is what the first entry for the caller sets at that level,
or else as the built-in record has it. What the global layers say beside these entries does not matter. -/
theorem resolve_overlaid (htrusted : who.trusted = true) (hnone : r.workspace = none) :
    let caps := r.resolve who
    caps.level = (((r.global.users.get? who.caller).bind (·.level)).or
      ((r.global.channels.get? who.channel).bind (·.level))).getD .zeroTrust ∧
    caps.Overlaid r.global who caps.level (.builtin caps.level) ∧
    ∀ r' : Resolver Double, r'.workspace = none →
      r'.global.users.get? who.caller = r.global.users.get? who.caller →
      r'.global.channels.get? who.channel = r.global.channels.get? who.channel →
      r'.global.ofLevel caps.level = r.global.ofLevel caps.level → r'.resolve who = caps := by
  intro caps
  have hcaps : caps = _ := r.resolve_of_no_workspace who htrusted hnone
  have hlevel : caps.level = grantedLevel who r.global := by
    rw [hcaps, globalCaps_level]
  refine ⟨?_, ?_, ?_⟩
  · rw [hlevel, Option.getD_or]
    rfl
  · rw [hlevel, hcaps]
    exact r.globalCaps_overlaid who _ htrusted
  · intro r' hnone' husers hchannels hlayer
    have hgranted : grantedLevel who r'.global = grantedLevel who r.global := by
      rw [grantedLevel, husers, hchannels]
      rfl
    rw [hlevel] at hlayer
    rw [r'.resolve_of_no_workspace who htrusted hnone', hgranted, hcaps, globalCaps, globalCaps, entries,
      entries, husers, hchannels, hlayer]

def threeLayers : Resolver Double where
  global :=
    { standard := { rateLimit := some 30, toolDeny := some ["web_fetch"] }
      channels := Dict.empty.insert "slack"
        { level := some .standard, toolAllow := some [],
          extensions := some (.ofList [("region", .str "eu"), ("queue", .nat 1)]) }
      users := Dict.empty.insert "alice"
        { dailyBudget := some 20.0, rateLimit := some 5, extensions := some (.ofList [("queue", .null)]) } }
  workspace := none
  tiers := threeTiers

def moreLayers : Resolver Double :=
  { threeLayers with
    global :=
      { threeLayers.global with
        elevated := { maxTier := some "free" }
        channels := threeLayers.global.channels.insert "web" { level := some .elevated }
        users := threeLayers.global.users.insert "bob" { modelDeny := some ["*"] } } }

theorem resolve_overlaid_threeLayers :
    let alice : Identity := ⟨"alice", "slack", true⟩
    let caps := threeLayers.resolve alice
    caps.level = .standard ∧ caps.rateLimit = 5 ∧ caps.toolDeny = ["web_fetch"] ∧ caps.toolAllow = [] ∧
      caps.maxTier = "standard" ∧ (caps.extensions.get? "queue").isSome ∧
      caps.extensions.get? "region" = some (.str "eu") ∧ moreLayers.resolve alice = caps := by
  intro alice caps
  obtain ⟨hlevel, hcaps, hothers⟩ := resolve_overlaid threeLayers alice rfl rfl
  have hstandard : caps.level = .standard := hlevel.trans (by decide)
  rw [show (threeLayers.resolve alice).level = .standard from hstandard] at hcaps hothers
  refine ⟨hstandard, hcaps.rateLimit.trans (by decide), hcaps.toolDeny.trans (by decide),
    hcaps.toolAllow.trans (by decide), hcaps.maxTier.trans (by decide), ?_,
    (hcaps.extensions "region").trans rfl, hothers moreLayers rfl (by rfl) (by rfl) rfl⟩
  rw [hcaps.extensions "queue"]
  decide

end Resolver

end Admission
