import Admission.Proofs.Config
import Admission.Proofs.Resolve.Ceiling

/-!
# Adding the overlay of a workspace

An overlay restricts the record of the level that it leaves to the caller. At one and the same level it
never widens anything. A lower level has a base of its own, and no overlay widens exactly where the
bases of the lower levels are no wider than that of the level that the global layers give.
-/

namespace Admission

/-! ## Budgets in force -/

def Double.counted (x : Double) : Double := if 0 < x then x else 0

namespace Double

theorem zero_defined : (0 : Double).Defined := by
  unfold Defined
  decide +kernel

theorem pos_iff (x : Double) : 0 < x ↔ x.Defined ∧ ¬ x ≤ 0 := by
  rw [Double.lt_iff_le_not_ge]
  constructor
  · rintro ⟨hle, hnot⟩
    exact ⟨(defined_of_le 0 x hle).2, hnot⟩
  · rintro ⟨hdefined, hnot⟩
    exact ⟨Double.le_of_not_le x 0 hdefined zero_defined hnot, hnot⟩

theorem counted_of_pos (x : Double) (h : 0 < x) : counted x = x := if_pos h

theorem counted_of_not_pos (x : Double) (h : ¬ 0 < x) : counted x = 0 := if_neg h

theorem counted_defined (x : Double) : (counted x).Defined := by
  unfold counted
  split
  · next h => exact ((pos_iff x).mp h).1
  · exact zero_defined

end Double

open Double

theorem tighterAmount_of_not_pos_wanted (current wanted : Double) (hcurrent : 0 < current)
    (hwanted : ¬ 0 < wanted) : tighterAmount current wanted = current := by
  obtain ⟨hdefined, hnot⟩ := (pos_iff current).mp hcurrent
  unfold tighterAmount
  rw [if_neg hnot]
  split
  · rfl
  · next hw =>
    have hundefined : ¬ wanted.Defined := fun h => hwanted ((pos_iff wanted).mpr ⟨h, hw⟩)
    unfold Amount.smaller
    rw [if_neg fun hle => hundefined (defined_of_le wanted current hle).1]
    exact if_pos hdefined

theorem tighterAmount_of_not_pos_current (current wanted : Double) (hcurrent : ¬ 0 < current) :
    counted (tighterAmount current wanted) = counted wanted := by
  unfold tighterAmount
  split
  · rfl
  · next hnot =>
    have hundefined : ¬ current.Defined := fun h => hcurrent ((pos_iff current).mpr ⟨h, hnot⟩)
    split
    · next hw =>
      rw [counted_of_not_pos current hcurrent, counted_of_not_pos wanted fun h => ((pos_iff _).mp h).2 hw]
    · have hself : ¬ current ≤ current := hundefined
      unfold Amount.smaller
      rw [if_neg fun hle => hundefined (defined_of_le wanted current hle).2, if_neg hself]

theorem tighterAmount_pos (current wanted : Double) (hcurrent : 0 < current) (hwanted : 0 < wanted) :
    0 < tighterAmount current wanted := by
  obtain ⟨hdefined, hnot⟩ := (pos_iff current).mp hcurrent
  obtain ⟨hdefined', hnot'⟩ := (pos_iff wanted).mp hwanted
  unfold tighterAmount
  rw [if_neg hnot, if_neg hnot']
  rcases (smaller_le current wanted hdefined hdefined').1 with heq | heq
  · rw [heq]
    exact hcurrent
  · rw [heq]
    exact hwanted

theorem counted_tighterAmount (current wanted : Double) :
    counted (tighterAmount current wanted) = tighterAmount (counted current) (counted wanted) := by
  by_cases hcurrent : 0 < current
  · rw [counted_of_pos current hcurrent]
    by_cases hwanted : 0 < wanted
    · rw [counted_of_pos wanted hwanted]
      exact counted_of_pos _ (tighterAmount_pos current wanted hcurrent hwanted)
    · have hzero : ¬ (0 : Double) < 0 := by decide +kernel
      rw [counted_of_not_pos wanted hwanted, tighterAmount_of_not_pos_wanted current wanted hcurrent hwanted,
        tighterAmount_of_not_pos_wanted current 0 hcurrent hzero, counted_of_pos current hcurrent]
  · rw [counted_of_not_pos current hcurrent, tighterAmount_of_not_pos_current current wanted hcurrent]
    exact (if_pos zero_defined).symm

def Capabilities.inForce (caps : Capabilities Double) : Capabilities Double :=
  { caps with dailyBudget := caps.dailyBudget.counted, monthlyBudget := caps.monthlyBudget.counted }

def Override.inForce (layer : Override Double) : Override Double :=
  { layer with
    dailyBudget := layer.dailyBudget.map Double.counted
    monthlyBudget := layer.monthlyBudget.map Double.counted }

namespace Capabilities

variable (tiers : TierSet Double) (caps : Capabilities Double) (layer : Override Double)

theorem counted_tightenWith (current : Double) (wanted : Option Double) :
    (tightenWith tighterAmount current wanted).counted =
      tightenWith tighterAmount current.counted (wanted.map Double.counted) := by
  cases wanted with
  | none => rfl
  | some w => exact counted_tighterAmount current w

theorem restrict_inForce :
    (caps.restrict tiers layer).inForce = caps.inForce.restrict tiers layer.inForce := by
  unfold inForce restrict
  simp only [counted_tightenWith]
  rfl

theorem apply_inForce : (caps.apply layer).inForce = caps.inForce.apply layer.inForce := by
  have hgetD : ∀ (current : Double) (wanted : Option Double),
      (wanted.getD current).counted = (wanted.map Double.counted).getD current.counted := by
    intro current wanted
    cases wanted <;> rfl
  unfold inForce apply
  simp only [hgetD]
  rfl

/-! ## No wider -/

/-- A record is of no higher level than another and, with the budgets that are in force, in no field
wider. -/
structure NoWider (a b : Capabilities Double) : Prop where
  level : a.level ≤ b.level
  inForce : a.inForce.Within tiers b.inForce

variable {tiers} {a b c : Capabilities Double}

theorem NoWider.refl (h : a.inForce.Proper tiers) : a.NoWider tiers a :=
  ⟨Nat.le_refl _, .refl tiers _ h⟩

theorem NoWider.trans (hab : a.NoWider tiers b) (hbc : b.NoWider tiers c) : a.NoWider tiers c :=
  ⟨Nat.le_trans hab.level hbc.level, .trans tiers _ _ _ hab.inForce hbc.inForce⟩

theorem NoWider.harden (who : Identity) (h : a.NoWider tiers b) :
    (Resolver.harden who a).NoWider tiers (Resolver.harden who b) := by
  unfold Resolver.harden
  split
  · exact h
  · have hnothing : ∀ name, ¬ (checkTool (some { a.inForce with
        toolAllow := [], escalationAllowed := false, canOverrideModel := false }) name).isAllowed = true := by
      intro name hallowed
      obtain ⟨-, -, hthrough⟩ := (checkTool_isAllowed_iff _ name).mp hallowed
      cases hthrough
    exact ⟨h.level, { h.inForce with
      escalationAllowed := id
      canOverrideModel := id
      models := h.inForce.models
      tools := fun name hallowed => absurd hallowed (hnothing name) }⟩

end Capabilities

/-! ## Restricting -/

theorem Level.eq_zeroTrust (level : Level) (h : level ≤ .zeroTrust) : level = .zeroTrust := by
  cases level with
  | zeroTrust => rfl
  | standard => exact absurd h (by decide)
  | elevated => exact absurd h (by decide)

namespace Resolver

variable (tiers : TierSet Double)

def layersInForce (limits : List (String × Override Double)) : List (String × Override Double) :=
  limits.map fun (label, layer) => (label, layer.inForce)

theorem restrictAll_caps (limits : List (String × Override Double)) (start : Resolved Double) :
    (restrictAll tiers start limits).caps =
      limits.foldl (fun caps entry => caps.restrict tiers entry.2) start.caps := by
  induction limits generalizing start with
  | nil => rfl
  | cons entry rest ih => exact ih _

theorem restrictAll_inForce (limits : List (String × Override Double)) (start : Resolved Double) :
    (restrictAll tiers start limits).caps.inForce =
      (restrictAll tiers ⟨start.caps.inForce, []⟩ (layersInForce limits)).caps := by
  rw [restrictAll_caps, restrictAll_caps]
  generalize start.caps = caps
  induction limits generalizing caps with
  | nil => rfl
  | cons entry rest ih =>
    refine (ih _).trans ?_
    rw [Capabilities.restrict_inForce]
    rfl

theorem restrictAll_level (limits : List (String × Override Double)) (start : Resolved Double) :
    (restrictAll tiers start limits).caps.level = start.caps.level := by
  induction limits generalizing start with
  | nil => rfl
  | cons entry rest ih => exact ih _

theorem restrictAll_noWider (limits : List (String × Override Double)) (start : Resolved Double)
    (hstart : start.caps.inForce.Proper tiers)
    (hlimits : ∀ entry ∈ limits, entry.2.inForce.Proper tiers) :
    (restrictAll tiers start limits).caps.NoWider tiers start.caps := by
  have hproper : ∀ entry ∈ layersInForce limits, entry.2.Proper tiers := by
    intro entry hentry
    obtain ⟨listed, hlisted, rfl⟩ := List.mem_map.mp hentry
    exact hlimits listed hlisted
  obtain ⟨-, hwithin, -⟩ := restrictAll_spec tiers (layersInForce limits)
    ⟨start.caps.inForce, []⟩ hstart hproper
  refine ⟨?_, ?_⟩
  · rw [restrictAll_level]
    exact Nat.le_refl _
  · rw [restrictAll_inForce]
    exact hwithin

/-! ## Accepted layers -/

theorem valid_inForce_proper (layer : Override Double) (h : layer.Valid tiers) :
    layer.inForce.Proper tiers := by
  have hcounted : ∀ (budget : Option Double) x, budget.map Double.counted = some x → x.Defined := by
    intro budget x hx
    obtain ⟨y, -, rfl⟩ := Option.map_eq_some_iff.mp hx
    exact y.counted_defined
  refine ⟨h.maxTier, fun x hx => ?_, hcounted layer.dailyBudget, hcounted layer.monthlyBudget⟩
  exact (Double.defined_of_le 0 x (h.escalationThreshold x hx).1).2

theorem entries_valid (who : Identity) (level : Level) (p : Permissions Double)
    (h : ∀ entry ∈ p.labelled, entry.2.Valid tiers) :
    ∀ entry ∈ entries who level p, entry.2.Valid tiers := by
  intro entry hentry
  have happlies : p.Applies who level entry.2 := by
    by_cases htrusted : who.trusted = true
    · exact (mem_entries who level p entry.2 htrusted).mp ⟨entry, hentry, rfl⟩
    · have hlevel : entry = (level.name, p.ofLevel level) := by
        simpa [entries, htrusted] using hentry
      exact Or.inl (congrArg Prod.snd hlevel)
  obtain ⟨found, hfound, heq⟩ := happlies.labelled
  exact heq ▸ h found hfound

theorem firstLayer_proper (c : Config Double) (hc : c.Valid) (level : Level) :
    ((Capabilities.builtin level).apply (c.permissions.ofLevel level)).inForce.Proper
      c.routing.tierSet := by
  have happlies : c.permissions.Applies ⟨"", "", true⟩ level (c.permissions.ofLevel level) := Or.inl rfl
  obtain ⟨entry, hentry, heq⟩ := happlies.labelled
  have hlayer := valid_inForce_proper c.routing.tierSet _ (heq ▸ hc.permissions entry hentry)
  obtain ⟨hthreshold, -, -⟩ := builtin_defined level
  refine ⟨?_, ?_, Double.counted_defined _, Double.counted_defined _⟩
  · show (c.routing.tierSet.ordinalOf? ((c.permissions.ofLevel level).maxTier.getD
      (Capabilities.builtin level : Capabilities Double).maxTier)).isSome
    cases htier : (c.permissions.ofLevel level).maxTier with
    | some name => exact hlayer.maxTier name htier
    | none =>
      rcases hc.builtin level with h | h
      · rw [htier] at h
        cases h
      · exact h
  · exact Capabilities.getD_of_forall Double.Defined _ _ hthreshold hlayer.escalationThreshold

theorem foldl_apply_proper (layers : List (String × Override Double)) (caps : Capabilities Double)
    (hcaps : caps.inForce.Proper tiers) (hlayers : ∀ entry ∈ layers, entry.2.Valid tiers) :
    (layers.foldl (fun caps entry => caps.apply entry.2) caps).inForce.Proper tiers := by
  induction layers generalizing caps with
  | nil => exact hcaps
  | cons entry rest ih =>
    refine ih _ ?_ fun e he => hlayers e (List.mem_cons_of_mem entry he)
    rw [Capabilities.apply_inForce]
    exact Capabilities.apply_proper hcaps
      (valid_inForce_proper tiers entry.2 (hlayers entry List.mem_cons_self))

def ofConfig (c : Config Double) (workspace : Option (Permissions Double)) : Resolver Double :=
  ⟨c.permissions, workspace, c.routing.tierSet⟩

variable (c : Config Double) (workspace : Option (Permissions Double)) (who : Identity)

theorem globalCaps_inForce_proper (hc : c.Valid) (level : Level) :
    ((ofConfig c workspace).globalCaps who level).inForce.Proper c.routing.tierSet := by
  have hentries := entries_valid c.routing.tierSet who level c.permissions hc.permissions
  exact foldl_apply_proper c.routing.tierSet (entries who level c.permissions).tail _
    (firstLayer_proper c hc level) fun entry hentry => hentries entry (List.mem_of_mem_tail hentry)

/-! ## With and without an overlay -/

theorem resolve_eq_harden (r : Resolver Double) :
    r.resolve who = harden who (restrictAll r.tiers ⟨r.globalCaps who (r.level who), []⟩
      (r.limits who (r.level who))).caps := by
  -- The warnings, with which the run starts, do not matter for the record.
  have hlevel : ∀ start : Resolved Double, start.caps = r.globalCaps who (r.level who) →
      { (restrictAll r.tiers start (r.limits who (r.level who))).caps with level := r.level who } =
        (restrictAll r.tiers ⟨r.globalCaps who (r.level who), []⟩ (r.limits who (r.level who))).caps := by
    intro start hstart
    rw [with_own_level, restrictAll_caps, restrictAll_caps, hstart]
    rw [restrictAll_level, hstart, globalCaps_level]
  exact congrArg (harden who) (hlevel _ rfl)

theorem resolve_noWider_globalCaps (hc : c.Valid)
    (hworkspace : ∀ p, workspace = some p → ∀ entry ∈ p.labelled, entry.2.Valid c.routing.tierSet) :
    let r := ofConfig c workspace
    (r.resolve who).NoWider c.routing.tierSet (harden who (r.globalCaps who (r.level who))) := by
  intro r
  have hlimits : ∀ entry ∈ r.limits who (r.level who), entry.2.inForce.Proper c.routing.tierSet := by
    unfold limits
    cases hp : r.workspace with
    | none => simp
    | some p =>
      intro entry hentry
      refine valid_inForce_proper _ entry.2 ?_
      exact entries_valid c.routing.tierSet who _ p (hworkspace p hp) entry hentry
  rw [resolve_eq_harden]
  refine Capabilities.NoWider.harden who ?_
  exact restrictAll_noWider c.routing.tierSet _ _
    (globalCaps_inForce_proper c workspace who hc (r.level who)) hlimits

theorem level_le_globalLevel (r : Resolver Double) : r.level who ≤ r.globalLevel who := by
  unfold level globalLevel
  split
  · exact (lowered_spec _ _).2 _ List.mem_cons_self
  · exact Nat.le_refl _

theorem resolve_ofConfig_none :
    (ofConfig c none).resolve who = harden who ((ofConfig c none).globalCaps who
      ((ofConfig c none).globalLevel who)) := by
  rw [resolve_eq_harden]
  rfl

def lowering (channel : String) (level : Level) : Permissions Double where
  channels := Dict.empty.insert channel { level := some level }

theorem lowering_valid (tiers : TierSet Double) (channel : String) (level : Level) :
    ∀ entry ∈ (lowering channel level).labelled, entry.2.Valid tiers := by
  have hnothing : ∀ level : Option Level, Override.Valid tiers { level } := fun level =>
    ⟨by simp, by simp, by simp, by simp⟩
  intro entry hentry
  have hlayer : entry.2 ∈ [{}, {}, {}, { level := some level }] := List.mem_map_of_mem hentry
  simp only [List.mem_cons, List.not_mem_nil, or_false] at hlayer
  rcases hlayer with h | h | h | h <;> rw [h] <;> exact hnothing _

theorem resolve_lowering (htrusted : who.trusted = true) (level : Level)
    (hle : level ≤ (ofConfig c none).globalLevel who) :
    (ofConfig c (some (lowering who.channel level))).resolve who =
      (ofConfig c none).globalCaps who level := by
  have hchannel : (lowering who.channel level).channels.get? who.channel =
      some { level := some level } := Dict.get?_insert_self _ _ _
  have husers : (lowering who.channel level).users.get? who.caller = none := rfl
  have hgranted : level ≤ grantedLevel who c.permissions := by
    have hglobal : (ofConfig c none).globalLevel who = grantedLevel who c.permissions := if_pos htrusted
    exact hglobal ▸ hle
  have hlevel : (ofConfig c (some (lowering who.channel level))).level who = level := by
    have hwanted : wantedLevels who (lowering who.channel level) = [level] := by
      simp [wantedLevels, hchannel, husers]
    unfold Resolver.level
    rw [if_pos htrusted]
    show lowered (grantedLevel who c.permissions) (wantedLevels who (lowering who.channel level)) = level
    rw [hwanted]
    exact if_pos hgranted
  have hlimits : (ofConfig c (some (lowering who.channel level))).limits who level =
      [(level.name, {}), ("channels." ++ who.channel, { level := some level })] := by
    show entries who level (lowering who.channel level) = _
    have hown : (lowering who.channel level).ofLevel level = {} := by cases level <;> rfl
    unfold entries
    rw [if_pos htrusted, hchannel, husers, hown]
    rfl
  rw [resolve_eq_harden, hlevel, hlimits, restrictAll_caps, harden, if_pos htrusted]
  rfl

/-- An accepted overlay never widens access where the global layers give no lower level more than the
level without an overlay; and if they give some lower level more, an overlay that lowers the caller to
it widens access. -/
theorem overlay_noWider_iff (hc : c.validate = .ok ()) :
    let without := ofConfig c none
    (∀ p, checkLayer c.routing.tierSet p = .ok () →
      ((ofConfig c (some p)).resolve who).NoWider c.routing.tierSet (without.resolve who)) ↔
    ∀ level ≤ without.globalLevel who, (without.globalCaps who level).NoWider c.routing.tierSet
      (without.globalCaps who (without.globalLevel who)) := by
  intro without
  have hvalid := (Config.validate_eq_ok c).mp hc
  have hwithout : without.resolve who = harden who (without.globalCaps who (without.globalLevel who)) :=
    resolve_ofConfig_none c who
  constructor
  · intro h level hle
    by_cases htrusted : who.trusted = true
    · have hlower := h (lowering who.channel level)
        ((checkLayer_eq_ok _ _).mpr (lowering_valid c.routing.tierSet who.channel level))
      rw [resolve_lowering c who htrusted level hle, hwithout, harden, if_pos htrusted] at hlower
      exact hlower
    · -- Without trust there is no level but the lowest.
      have hlowest : without.globalLevel who = .zeroTrust := if_neg htrusted
      rw [hlowest] at hle
      rw [level.eq_zeroTrust hle, hlowest]
      exact .refl (globalCaps_inForce_proper c none who hvalid .zeroTrust)
  · intro h p hp
    have hoverlay := resolve_noWider_globalCaps c (some p) who hvalid fun p' hp' => by
      cases hp'
      exact (checkLayer_eq_ok _ _).mp hp
    rw [hwithout]
    refine hoverlay.trans (.harden who ?_)
    exact h _ (level_le_globalLevel who (ofConfig c (some p)))

def operator : Identity := ⟨"operator", "cli", true⟩

theorem builtin_noWider_elevated (level : Level) :
    (Capabilities.builtin level : Capabilities Double).NoWider
      (Config.default : Config Double).routing.tierSet (.builtin .elevated) := by
  have hnumbers : ∀ level : Level,
      let caps : Capabilities Double := (Capabilities.builtin level).inForce
      (0 : Double) ≤ caps.escalationThreshold ∧ caps.maxContextTokens ≤ 200000 ∧
        caps.maxOutputTokens ≤ 16384 := by
    intro level
    cases level <;> decide +kernel
  have htier : ∀ level : Level, ∃ x, (Config.default : Config Double).routing.tierSet.ordinalOf?
      (Capabilities.builtin level : Capabilities Double).maxTier = some x ∧ x ≤ 3 := by
    intro level
    cases level
    · exact ⟨0, by decide +kernel, by decide⟩
    · exact ⟨1, by decide +kernel, by decide⟩
    · exact ⟨3, by decide +kernel, by decide⟩
  obtain ⟨hthreshold, hcontext, houtput⟩ := hnumbers level
  obtain ⟨x, hx, hle⟩ := htier level
  have hunlimited : Double.counted 0 ≤ 0 := by decide +kernel
  refine ⟨by cases level <;> decide, ?_⟩
  exact {
    maxTier := ⟨x, 3, hx, by decide +kernel, hle⟩
    maxContextTokens := hcontext
    maxOutputTokens := houtput
    rateLimit := Or.inl rfl
    streamingAllowed := fun _ => rfl
    escalationAllowed := fun _ => rfl
    escalationThreshold := hthreshold
    canOverrideModel := fun _ => rfl
    dailyBudget := Or.inl hunlimited
    monthlyBudget := Or.inl hunlimited
    models := fun model h => by cases level <;> exact h
    tools := fun name h => by
      obtain ⟨hname, -, -⟩ := (Capabilities.checkTool_isAllowed_iff _ name).mp h
      exact (Capabilities.checkTool_isAllowed_iff _ name).mpr ⟨hname, rfl, rfl⟩
    extensions := fun key value h => by cases h }

theorem overlay_noWider_default :
    (Config.default : Config Double).validate = .ok () ∧
    ∀ p, checkLayer (Config.default : Config Double).routing.tierSet p = .ok () →
      ((ofConfig .default (some p)).resolve operator).NoWider
        (Config.default : Config Double).routing.tierSet ((ofConfig .default none).resolve operator) := by
  have hvalid : (Config.default : Config Double).validate = .ok () := by decide +kernel
  have hcaps : ∀ level, (ofConfig .default none).globalCaps operator level = .builtin level := by
    intro level
    cases level <;> rfl
  refine ⟨hvalid, (overlay_noWider_iff .default operator hvalid).mpr fun level _ => ?_⟩
  have helevated : (ofConfig .default none).globalLevel operator = .elevated := by decide
  rw [helevated, hcaps, hcaps]
  exact builtin_noWider_elevated level

def narrowTerminal : Config Double :=
  { Config.default with
    permissions :=
      { elevated := { rateLimit := some 30, dailyBudget := some 2.0, toolAllow := some ["read_file"] }
        channels := Dict.empty.insert "cli" { level := some .elevated } } }

/-- Lowered to a known user, the operator gets twice the rate, more than twice the budget and tools that
change files. -/
theorem overlay_widens_narrowTerminal :
    let alone := (ofConfig narrowTerminal none).resolve operator
    let overlaid := (ofConfig narrowTerminal (some (lowering "cli" .standard))).resolve operator
    narrowTerminal.validate = .ok () ∧
    checkLayer narrowTerminal.routing.tierSet (lowering "cli" .standard) = .ok () ∧
    alone.rateLimit = 30 ∧ overlaid.rateLimit = 60 ∧
    0 < alone.dailyBudget ∧ alone.dailyBudget < overlaid.dailyBudget ∧
    (checkTool (some alone) "write_file").isAllowed = false ∧
    (checkTool (some overlaid) "write_file").isAllowed = true ∧
    ¬ overlaid.NoWider narrowTerminal.routing.tierSet alone := by
  intro alone overlaid
  have halone : alone.rateLimit = 30 := by decide +kernel
  have hoverlaid : overlaid.rateLimit = 60 := by decide +kernel
  refine ⟨by decide +kernel, by decide +kernel, halone, hoverlaid, by decide +kernel, by decide +kernel,
    by decide +kernel, by decide +kernel, fun h => ?_⟩
  have hrate : CountWithin overlaid.rateLimit alone.rateLimit := h.inForce.rateLimit
  rw [halone, hoverlaid] at hrate
  unfold CountWithin at hrate
  omega

end Resolver

end Admission
