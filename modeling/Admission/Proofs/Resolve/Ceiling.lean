import Admission.Proofs.Dict
import Admission.Proofs.Resolve.Within

/-!
# The ceiling of the global layers

What a workspace says can only tighten what the global layers gave. Every entry that applies is at the
same time a limit of its own, whatever the other entries say.
-/

namespace Admission

/-! ## Tightening a field -/

theorem tightenWith_within {β γ : Type} (rel : γ → γ → Prop) (tighten : γ → β → γ) (current : γ)
    (wanted : Option β) (hrefl : rel current current)
    (h : ∀ w, wanted = some w → rel (tighten current w) current) :
    rel (tightenWith tighten current wanted) current := by
  cases wanted with
  | none => exact hrefl
  | some w => exact h w rfl

theorem tightenWith_respects {β γ : Type} (rel : γ → β → Prop) (tighten : γ → β → γ) (current : γ)
    (wanted : Option β) (h : ∀ w, wanted = some w → rel (tighten current w) w) :
    ∀ w, wanted = some w → rel (tightenWith tighten current wanted) w := by
  rintro w rfl
  exact h w rfl

theorem and_within (current wanted : Bool) :
    SwitchWithin (current && wanted) current ∧ SwitchWithin (current && wanted) wanted := by
  cases current <;> cases wanted <;> simp [SwitchWithin]

theorem tighterCount_within (current wanted : Nat) :
    CountWithin (tighterCount current wanted) current ∧
      CountWithin (tighterCount current wanted) wanted := by
  unfold tighterCount CountWithin
  split
  · omega
  · split <;> omega

theorem smaller_le (x y : Double) (hx : x.Defined) (hy : y.Defined) :
    (Amount.smaller x y = x ∨ Amount.smaller x y = y) ∧
      Amount.smaller x y ≤ x ∧ Amount.smaller x y ≤ y := by
  unfold Amount.smaller
  split
  · next h => exact ⟨Or.inr rfl, h, hy⟩
  · next h =>
    have hself : x ≤ x := hx
    rw [if_pos hself]
    exact ⟨Or.inl rfl, hx, Double.le_of_not_le y x hy hx h⟩

theorem le_larger (x y : Double) (hx : x.Defined) (hy : y.Defined) :
    (Amount.larger x y = x ∨ Amount.larger x y = y) ∧
      x ≤ Amount.larger x y ∧ y ≤ Amount.larger x y := by
  unfold Amount.larger
  split
  · next h => exact ⟨Or.inr rfl, h, hy⟩
  · next h =>
    have hself : x ≤ x := hx
    rw [if_pos hself]
    exact ⟨Or.inl rfl, hx, Double.le_of_not_le x y hx hy h⟩

theorem tighterAmount_within (current wanted : Double) (hc : current.Defined) (hw : wanted.Defined) :
    AmountWithin (tighterAmount current wanted) current ∧
      AmountWithin (tighterAmount current wanted) wanted := by
  unfold tighterAmount
  split
  · next h => exact ⟨Or.inl h, .refl wanted hw⟩
  · next h =>
    split
    · next h' => exact ⟨.refl current hc, Or.inl h'⟩
    · next h' =>
      obtain ⟨heq, hle, hle'⟩ := smaller_le current wanted hc hw
      have hpos : ¬ Amount.smaller current wanted ≤ 0 := by
        rcases heq with heq | heq
        · rw [heq]
          exact h
        · rw [heq]
          exact h'
      exact ⟨Or.inr ⟨hpos, hle⟩, Or.inr ⟨hpos, hle'⟩⟩

theorem tighterAmount_defined (current wanted : Double) (hc : current.Defined) (hw : wanted.Defined) :
    (tighterAmount current wanted).Defined := by
  unfold tighterAmount
  split
  · exact hw
  · split
    · exact hc
    · rcases (smaller_le current wanted hc hw).1 with h | h
      · rw [h]
        exact hc
      · rw [h]
        exact hw

theorem tighterTier_within (tiers : TierSet Double) (current wanted : String)
    (hc : (tiers.ordinalOf? current).isSome) (hw : (tiers.ordinalOf? wanted).isSome) :
    TierWithin tiers (tighterTier tiers current wanted) current ∧
      TierWithin tiers (tighterTier tiers current wanted) wanted := by
  obtain ⟨c, hc⟩ := Option.isSome_iff_exists.mp hc
  obtain ⟨w, hw⟩ := Option.isSome_iff_exists.mp hw
  unfold tighterTier
  rw [hc, hw]
  split
  · next x y hx hy =>
    cases hx
    cases hy
    split
    · next hle => exact ⟨⟨w, c, hw, hc, hle⟩, w, w, hw, hw, le_refl w⟩
    · next hgt => exact ⟨⟨c, c, hc, hc, le_refl c⟩, c, w, hc, hw, (not_le.mp hgt).le⟩
  · next h => exact absurd rfl (h w c rfl)

/-! ## Lists of patterns and names -/

/-- The list has the entry, or `*`, which stands for every entry. -/
def Holds (list : List String) (entry : String) : Prop := entry ∈ list ∨ "*" ∈ list

instance (list : List String) (entry : String) : Decidable (Holds list entry) :=
  inferInstanceAs (Decidable (entry ∈ list ∨ "*" ∈ list))

theorem holds_narrowed (entry : String) (current wanted : List String) :
    Holds (narrowed current wanted) entry ↔ Holds current entry ∧ Holds wanted entry := by
  unfold Holds narrowed
  split_ifs with hcurrent hwanted
  · rw [List.contains_iff_mem] at hcurrent
    simp only [hcurrent, or_true, true_and]
  · rw [List.contains_iff_mem] at hwanted
    simp only [hwanted, or_true, and_true]
  · rw [List.contains_iff_mem] at hcurrent hwanted
    simp only [hcurrent, hwanted, or_false, List.mem_filter, List.contains_iff_mem, false_and]
    exact and_comm

theorem any_iff_holds (p : String → Bool) (hstar : p "*" = true) (list : List String) :
    list.any p = true ↔ ∃ entry, p entry = true ∧ Holds list entry := by
  rw [List.any_eq_true]
  constructor
  · rintro ⟨entry, hmem, hp⟩
    exact ⟨entry, hp, Or.inl hmem⟩
  · rintro ⟨entry, hp, hmem | hmem⟩
    · exact ⟨entry, hmem, hp⟩
    · exact ⟨"*", hmem, hstar⟩

theorem any_narrowed (p : String → Bool) (hstar : p "*" = true) (current wanted : List String)
    (h : (narrowed current wanted).any p = true) : current.any p = true ∧ wanted.any p = true := by
  obtain ⟨entry, hp, hholds⟩ := (any_iff_holds p hstar _).mp h
  obtain ⟨hcurrent, hwanted⟩ := (holds_narrowed entry current wanted).mp hholds
  exact ⟨(any_iff_holds p hstar current).mpr ⟨entry, hp, hcurrent⟩,
    (any_iff_holds p hstar wanted).mpr ⟨entry, hp, hwanted⟩⟩

theorem mem_union (current extra : List String) (x : String) :
    x ∈ union current extra ↔ x ∈ current ∨ x ∈ extra := by
  unfold union
  induction extra generalizing current with
  | nil => simp
  | cons item rest ih =>
    rw [List.foldl_cons, ih]
    split
    · next hmem =>
      rw [List.contains_iff_mem] at hmem
      grind
    · grind

theorem any_union (p : String → Bool) (current extra : List String) :
    (union current extra).any p = false ↔ current.any p = false ∧ extra.any p = false := by
  simp only [List.any_eq_false, mem_union, or_imp, forall_and]

theorem any_tightenWith_narrowed (p : String → Bool) (hstar : p "*" = true) (current : List String)
    (wanted : Option (List String)) (h : (tightenWith narrowed current wanted).any p = true) :
    current.any p = true ∧ ∀ w, wanted = some w → w.any p = true := by
  cases wanted with
  | none => exact ⟨h, fun w hw => by cases hw⟩
  | some w =>
    obtain ⟨hcurrent, hwanted⟩ := any_narrowed p hstar current w h
    exact ⟨hcurrent, fun w' hw' => by cases hw'; exact hwanted⟩

theorem any_tightenWith_union (p : String → Bool) (current : List String)
    (wanted : Option (List String)) (h : (tightenWith union current wanted).any p = false) :
    current.any p = false ∧ ∀ w, wanted = some w → w.any p = false := by
  cases wanted with
  | none => exact ⟨h, fun w hw => by cases hw⟩
  | some w =>
    obtain ⟨hcurrent, hwanted⟩ := (any_union p current w).mp h
    exact ⟨hcurrent, fun w' hw' => by cases hw'; exact hwanted⟩

theorem matchesModel_star (model : String) : Pattern.matchesModel "*" model = true := by
  have htrim : Text.trim "*" = "*" := by decide
  simp [Pattern.matchesModel, htrim]

theorem get?_addExtensions (current extra : Dict Json) (key : String) :
    (addExtensions current extra).get? key = (current.get? key).or (extra.get? key) := by
  have hfold : ∀ (entries : List (String × Json)) (d : Dict Json),
      (entries.foldl (fun d entry => if d.contains entry.1 then d else d.insert entry.1 entry.2) d).get? key =
        (d.get? key).or ((entries.find? fun entry => entry.1 == key).map (·.2)) := by
    intro entries
    induction entries with
    | nil => simp
    | cons entry rest ih =>
      intro d
      rw [List.foldl_cons, ih]
      by_cases hkey : entry.1 = key
      · rw [List.find?_cons_of_pos (by simpa using hkey), d.contains_eq_isSome, hkey]
        cases hget : d.get? key with
        | some value => simp [hget]
        | none => simp [d.get?_insert_self]
      · rw [List.find?_cons_of_neg (by simpa using hkey)]
        split_ifs
        · rfl
        · rw [d.get?_insert_of_ne entry.1 key entry.2 (Ne.symm hkey)]
  exact hfold extra.toList current

/-! ## Models and tools -/

namespace Capabilities

theorem permitsModel_iff (caps : Capabilities Double) (model : String) :
    caps.permitsModel model = true ↔
      caps.modelDeny.any (Pattern.matchesModel · model) = false ∧
        caps.modelAllow.any (Pattern.matchesModel · model) = true := by
  simp only [permitsModel, Pattern.permits, Pattern.anyMatches, Bool.and_eq_true, Bool.not_eq_true']

theorem letsThrough_eq (names : List String) (tool : String) :
    letsThrough names tool = names.any fun name => Text.trim name == "*" || Text.trim name == tool := by
  unfold letsThrough namesTool
  induction names with
  | nil => rfl
  | cons name rest ih =>
    simp only [List.any_cons, ← ih]
    grind

theorem checkTool_isAllowed_iff (caps : Capabilities Double) (name : String) :
    (checkTool (some caps) name).isAllowed = true ↔
      Text.trim name ≠ "" ∧ namesTool caps.toolDeny (Text.trim name) = false ∧
        letsThrough caps.toolAllow (Text.trim name) = true := by
  unfold checkTool letsThrough
  grind [ToolVerdict.isAllowed]

variable (tiers : TierSet Double) (caps : Capabilities Double) (layer : Override Double)

theorem restrict_models (model : String)
    (h : (caps.restrict tiers layer).permitsModel model = true) :
    caps.permitsModel model = true ∧
      (∀ w, layer.modelAllow = some w → Pattern.anyMatches w model = true) ∧
      ∀ w, layer.modelDeny = some w → Pattern.anyMatches w model = false := by
  obtain ⟨hdeny, hallow⟩ := (permitsModel_iff _ model).mp h
  obtain ⟨hallow, hallow'⟩ := any_tightenWith_narrowed _ (matchesModel_star model) _ _ hallow
  obtain ⟨hdeny, hdeny'⟩ := any_tightenWith_union _ _ _ hdeny
  exact ⟨(permitsModel_iff caps model).mpr ⟨hdeny, hallow⟩, hallow', hdeny'⟩

theorem restrict_tools (name : String)
    (h : (checkTool (some (caps.restrict tiers layer)) name).isAllowed = true) :
    (checkTool (some caps) name).isAllowed = true ∧
      (∀ w, layer.toolAllow = some w → letsThrough w (Text.trim name) = true) ∧
      ∀ w, layer.toolDeny = some w → namesTool w (Text.trim name) = false := by
  obtain ⟨hname, hdeny, hallow⟩ := (checkTool_isAllowed_iff _ name).mp h
  have htrim : Text.trim "*" = "*" := by decide
  rw [letsThrough_eq] at hallow
  obtain ⟨hallow, hallow'⟩ := any_tightenWith_narrowed _ (by simp [htrim]) _ _ hallow
  obtain ⟨hdeny, hdeny'⟩ := any_tightenWith_union _ _ _ hdeny
  refine ⟨(checkTool_isAllowed_iff caps name).mpr ⟨hname, hdeny, ?_⟩, fun w hw => ?_, hdeny'⟩
  · rw [letsThrough_eq]
    exact hallow
  · rw [letsThrough_eq]
    exact hallow' w hw

/-! ## One layer -/

end Capabilities

/-- The tier that a layer names is there, and none of its numbers is undefined. -/
structure Override.Proper (tiers : TierSet Double) (layer : Override Double) : Prop where
  maxTier : ∀ name, layer.maxTier = some name → (tiers.ordinalOf? name).isSome
  escalationThreshold : ∀ x, layer.escalationThreshold = some x → x.Defined
  dailyBudget : ∀ x, layer.dailyBudget = some x → x.Defined
  monthlyBudget : ∀ x, layer.monthlyBudget = some x → x.Defined

namespace Capabilities

variable {tiers : TierSet Double} {caps : Capabilities Double} {layer : Override Double}

theorem restrict_within (hcaps : caps.Proper tiers) (hlayer : layer.Proper tiers) :
    (caps.restrict tiers layer).Within tiers caps where
  maxTier := tightenWith_within (TierWithin tiers) _ _ _ (.refl tiers _ hcaps.maxTier) fun w hw =>
    (tighterTier_within tiers _ w hcaps.maxTier (hlayer.maxTier w hw)).1
  maxContextTokens := tightenWith_within (· ≤ ·) _ _ _ (le_refl _) fun w _ => min_le_left _ w
  maxOutputTokens := tightenWith_within (· ≤ ·) _ _ _ (le_refl _) fun w _ => min_le_left _ w
  rateLimit := tightenWith_within CountWithin _ _ _ (.refl _) fun w _ => (tighterCount_within _ w).1
  streamingAllowed := tightenWith_within SwitchWithin _ _ _ id fun w _ => (and_within _ w).1
  escalationAllowed := tightenWith_within SwitchWithin _ _ _ id fun w _ => (and_within _ w).1
  escalationThreshold :=
    tightenWith_within (fun a b => b ≤ a) _ _ _ hcaps.escalationThreshold fun w hw =>
      (le_larger _ w hcaps.escalationThreshold (hlayer.escalationThreshold w hw)).2.1
  canOverrideModel := tightenWith_within SwitchWithin _ _ _ id fun w _ => (and_within _ w).1
  dailyBudget := tightenWith_within AmountWithin _ _ _ (.refl _ hcaps.dailyBudget) fun w hw =>
    (tighterAmount_within _ w hcaps.dailyBudget (hlayer.dailyBudget w hw)).1
  monthlyBudget := tightenWith_within AmountWithin _ _ _ (.refl _ hcaps.monthlyBudget) fun w hw =>
    (tighterAmount_within _ w hcaps.monthlyBudget (hlayer.monthlyBudget w hw)).1
  models model h := (restrict_models tiers caps layer model h).1
  tools name h := (restrict_tools tiers caps layer name h).1
  extensions key value h :=
    tightenWith_within (fun (a : Dict Json) _ => a.get? key = some value) _ _ _ h fun w _ => by
      rw [get?_addExtensions, h, Option.some_or]

theorem restrict_respects (hcaps : caps.Proper tiers) (hlayer : layer.Proper tiers) :
    (caps.restrict tiers layer).Respects tiers layer where
  maxTier := tightenWith_respects (TierWithin tiers) _ _ _ fun w hw =>
    (tighterTier_within tiers _ w hcaps.maxTier (hlayer.maxTier w hw)).2
  maxContextTokens := tightenWith_respects (· ≤ ·) _ _ _ fun w _ => min_le_right _ w
  maxOutputTokens := tightenWith_respects (· ≤ ·) _ _ _ fun w _ => min_le_right _ w
  rateLimit := tightenWith_respects CountWithin _ _ _ fun w _ => (tighterCount_within _ w).2
  streamingAllowed := tightenWith_respects SwitchWithin _ _ _ fun w _ => (and_within _ w).2
  escalationAllowed := tightenWith_respects SwitchWithin _ _ _ fun w _ => (and_within _ w).2
  escalationThreshold := tightenWith_respects (fun a b => b ≤ a) _ _ _ fun w hw =>
    (le_larger _ w hcaps.escalationThreshold (hlayer.escalationThreshold w hw)).2.2
  canOverrideModel := tightenWith_respects SwitchWithin _ _ _ fun w _ => (and_within _ w).2
  dailyBudget := tightenWith_respects AmountWithin _ _ _ fun w hw =>
    (tighterAmount_within _ w hcaps.dailyBudget (hlayer.dailyBudget w hw)).2
  monthlyBudget := tightenWith_respects AmountWithin _ _ _ fun w hw =>
    (tighterAmount_within _ w hcaps.monthlyBudget (hlayer.monthlyBudget w hw)).2
  modelAllow w hw model h := (restrict_models tiers caps layer model h).2.1 w hw
  modelDeny w hw model h := (restrict_models tiers caps layer model h).2.2 w hw
  toolAllow w hw name h := (restrict_tools tiers caps layer name h).2.1 w hw
  toolDeny w hw name h := (restrict_tools tiers caps layer name h).2.2 w hw

theorem restrict_proper (hcaps : caps.Proper tiers) (hlayer : layer.Proper tiers) :
    (caps.restrict tiers layer).Proper tiers := by
  obtain ⟨x, _, hx, -, -⟩ := (restrict_within hcaps hlayer).maxTier
  refine ⟨by rw [hx]; rfl, ?_, ?_, ?_⟩
  · refine tightenWith_within (fun (a : Double) _ => a.Defined) _ _ _ hcaps.escalationThreshold fun w hw => ?_
    rcases (le_larger _ w hcaps.escalationThreshold (hlayer.escalationThreshold w hw)).1 with h | h
    · rw [h]
      exact hcaps.escalationThreshold
    · rw [h]
      exact hlayer.escalationThreshold w hw
  · exact tightenWith_within (fun (a : Double) _ => a.Defined) _ _ _ hcaps.dailyBudget fun w hw =>
      tighterAmount_defined _ w hcaps.dailyBudget (hlayer.dailyBudget w hw)
  · exact tightenWith_within (fun (a : Double) _ => a.Defined) _ _ _ hcaps.monthlyBudget fun w hw =>
      tighterAmount_defined _ w hcaps.monthlyBudget (hlayer.monthlyBudget w hw)

theorem getD_of_forall {β : Type} (p : β → Prop) (current : β) (wanted : Option β) (hc : p current)
    (hw : ∀ w, wanted = some w → p w) : p (wanted.getD current) := by
  cases wanted with
  | none => exact hc
  | some w => exact hw w rfl

theorem apply_proper (hcaps : caps.Proper tiers) (hlayer : layer.Proper tiers) :
    (caps.apply layer).Proper tiers where
  maxTier := getD_of_forall (fun name => (tiers.ordinalOf? name).isSome) _ _ hcaps.maxTier hlayer.maxTier
  escalationThreshold :=
    getD_of_forall Double.Defined _ _ hcaps.escalationThreshold hlayer.escalationThreshold
  dailyBudget := getD_of_forall Double.Defined _ _ hcaps.dailyBudget hlayer.dailyBudget
  monthlyBudget := getD_of_forall Double.Defined _ _ hcaps.monthlyBudget hlayer.monthlyBudget

end Capabilities

/-! ## All layers -/

/-- The overrides of a source that are about a trusted caller at a level. -/
def Permissions.Applies (p : Permissions Double) (who : Identity) (level : Level)
    (layer : Override Double) : Prop :=
  layer = p.ofLevel level ∨ p.channels.get? who.channel = some layer ∨
    p.users.get? who.caller = some layer

theorem Permissions.Applies.labelled {p : Permissions Double} {who : Identity} {level : Level}
    {layer : Override Double} (h : p.Applies who level layer) : ∃ entry ∈ p.labelled, entry.2 = layer := by
  unfold Permissions.labelled
  rcases h with rfl | h | h
  · exact ⟨("permissions." ++ level.name, p.ofLevel level), by cases level <;> simp [Level.all], rfl⟩
  · refine ⟨("permissions.channels." ++ who.channel, layer), ?_, rfl⟩
    exact List.mem_append_right _ (List.mem_map.mpr ⟨_, p.channels.mem_of_get? _ layer h, rfl⟩)
  · refine ⟨("permissions.users." ++ who.caller, layer), ?_, rfl⟩
    refine List.mem_append_left _ (List.mem_append_right _ ?_)
    exact List.mem_map.mpr ⟨_, p.users.mem_of_get? _ layer h, rfl⟩

namespace Resolver

theorem mem_entries (who : Identity) (level : Level) (p : Permissions Double) (layer : Override Double)
    (htrusted : who.trusted = true) :
    (∃ entry ∈ entries who level p, entry.2 = layer) ↔ p.Applies who level layer := by
  unfold entries Permissions.Applies
  simp only [htrusted, if_true, List.mem_cons, List.mem_append, List.mem_map, Option.mem_toList]
  grind

structure Proper (r : Resolver Double) : Prop where
  builtin : ∀ level, (r.tiers.ordinalOf? (Capabilities.builtin level : Capabilities Double).maxTier).isSome
  global : ∀ entry ∈ r.global.labelled, entry.2.Proper r.tiers
  workspace : ∀ p, r.workspace = some p → ∀ entry ∈ p.labelled, entry.2.Proper r.tiers

theorem entries_proper (tiers : TierSet Double) (who : Identity) (level : Level) (p : Permissions Double)
    (htrusted : who.trusted = true) (hp : ∀ entry ∈ p.labelled, entry.2.Proper tiers) :
    ∀ entry ∈ entries who level p, entry.2.Proper tiers := by
  intro entry hentry
  obtain ⟨found, hfound, heq⟩ :=
    ((mem_entries who level p entry.2 htrusted).mp ⟨entry, hentry, rfl⟩).labelled
  exact heq ▸ hp found hfound

theorem builtin_defined (level : Level) :
    (Capabilities.builtin level : Capabilities Double).escalationThreshold.Defined ∧
      (Capabilities.builtin level : Capabilities Double).dailyBudget.Defined ∧
      (Capabilities.builtin level : Capabilities Double).monthlyBudget.Defined := by
  unfold Double.Defined
  cases level <;> decide +kernel

theorem globalCaps_proper (r : Resolver Double) (who : Identity) (level : Level)
    (htrusted : who.trusted = true) (hr : r.Proper) : (r.globalCaps who level).Proper r.tiers := by
  have hentries := entries_proper r.tiers who level r.global htrusted hr.global
  obtain ⟨hthreshold, hdaily, hmonthly⟩ := builtin_defined level
  have hbuiltin : (Capabilities.builtin level).Proper r.tiers :=
    ⟨hr.builtin level, hthreshold, hdaily, hmonthly⟩
  unfold globalCaps
  generalize (Capabilities.builtin level : Capabilities Double) = caps at hbuiltin
  generalize entries who level r.global = layers at hentries
  induction layers generalizing caps with
  | nil => exact hbuiltin
  | cons entry rest ih =>
    exact ih _ (Capabilities.apply_proper hbuiltin (hentries entry List.mem_cons_self))
      fun e he => hentries e (List.mem_cons_of_mem entry he)

theorem globalCaps_level (r : Resolver Double) (who : Identity) (level : Level) :
    (r.globalCaps who level).level = level := by
  have hbuiltin : (Capabilities.builtin level : Capabilities Double).level = level := by
    cases level <;> rfl
  unfold globalCaps
  generalize (Capabilities.builtin level : Capabilities Double) = caps at hbuiltin
  generalize entries who level r.global = layers
  induction layers generalizing caps with
  | nil => exact hbuiltin
  | cons entry rest ih => exact ih _ hbuiltin

theorem restrictAll_spec (tiers : TierSet Double) (limits : List (String × Override Double))
    (start : Resolved Double) (hstart : start.caps.Proper tiers)
    (hlimits : ∀ entry ∈ limits, entry.2.Proper tiers) :
    (restrictAll tiers start limits).caps.level = start.caps.level ∧
      (restrictAll tiers start limits).caps.Within tiers start.caps ∧
      ∀ entry ∈ limits, (restrictAll tiers start limits).caps.Respects tiers entry.2 := by
  induction limits generalizing start with
  | nil => exact ⟨rfl, .refl tiers _ hstart, by simp⟩
  | cons entry rest ih =>
    have hentry := hlimits entry List.mem_cons_self
    obtain ⟨hlevel, hwithin, hrespects⟩ := ih
      ⟨start.caps.restrict tiers entry.2,
        start.warnings ++ start.caps.restrictWarnings tiers ("workspace." ++ entry.1) entry.2⟩
      (Capabilities.restrict_proper hstart hentry) fun e he => hlimits e (List.mem_cons_of_mem entry he)
    refine ⟨hlevel, .trans tiers _ _ _ hwithin (Capabilities.restrict_within hstart hentry), ?_⟩
    intro e he
    rcases List.mem_cons.mp he with rfl | he
    · exact Capabilities.Within.respects tiers _ _ _ hwithin
        (Capabilities.restrict_respects hstart hentry)
    · exact hrespects e he

/-! ## The level -/

theorem lowered_spec (level : Level) (wanted : List Level) :
    lowered level wanted ∈ level :: wanted ∧ ∀ l ∈ level :: wanted, lowered level wanted ≤ l := by
  induction wanted generalizing level with
  | nil => exact ⟨List.mem_cons_self, fun l hl => List.mem_singleton.mp hl ▸ le_refl l.ordinal⟩
  | cons first rest ih =>
    unfold lowered
    split
    · next hle =>
      obtain ⟨hmem, hleast⟩ := ih first
      refine ⟨List.mem_cons_of_mem level hmem, fun l hl => ?_⟩
      rcases List.mem_cons.mp hl with rfl | hl
      · exact Nat.le_trans (hleast first List.mem_cons_self) hle
      · exact hleast l hl
    · next hgt =>
      obtain ⟨hmem, hleast⟩ := ih level
      refine ⟨?_, fun l hl => ?_⟩
      · rcases List.mem_cons.mp hmem with heq | hmem
        · rw [heq]
          exact List.mem_cons_self
        · exact List.mem_cons_of_mem level (List.mem_cons_of_mem first hmem)
      · rcases List.mem_cons.mp hl with rfl | hl
        · exact hleast l List.mem_cons_self
        rcases List.mem_cons.mp hl with rfl | hl
        · exact Nat.le_trans (hleast level List.mem_cons_self) (Nat.le_of_not_le hgt)
        · exact hleast l (List.mem_cons_of_mem level hl)

/-- The levels that count for a trusted caller: the one that the global layers give and those that the
workspace asks for. -/
def levels (r : Resolver Double) (who : Identity) : List Level :=
  r.globalLevel who :: (r.workspace.map (wantedLevels who)).getD []

theorem limits_proper (r : Resolver Double) (who : Identity) (level : Level)
    (htrusted : who.trusted = true) (hr : r.Proper) :
    ∀ entry ∈ r.limits who level, entry.2.Proper r.tiers := by
  unfold limits
  cases hworkspace : r.workspace with
  | none => simp
  | some p => exact entries_proper r.tiers who level p htrusted (hr.workspace p hworkspace)

def start (r : Resolver Double) (who : Identity) : Resolved Double where
  caps := r.globalCaps who (r.level who)
  warnings := loweringWarnings (grantedLevel who r.global)
    ((r.workspace.map (wantedLevels who)).getD [])

theorem with_own_level (caps : Capabilities Double) (level : Level) (h : caps.level = level) :
    { caps with level } = caps := by
  rw [← h]

theorem resolve_eq (r : Resolver Double) (who : Identity) (htrusted : who.trusted = true)
    (hr : r.Proper) :
    r.resolve who = (restrictAll r.tiers (r.start who) (r.limits who (r.level who))).caps := by
  obtain ⟨hlevel, -, -⟩ := restrictAll_spec r.tiers (r.limits who (r.level who)) (r.start who)
    (r.globalCaps_proper who _ htrusted hr) (r.limits_proper who _ htrusted hr)
  unfold resolve run harden
  simp only [htrusted, if_true]
  exact with_own_level _ _ (hlevel.trans (r.globalCaps_level who (r.level who)))

/-- The level of a trusted caller is the least of the levels that count, and the record is neither wider
than what the global layers give at that level nor than any entry of the workspace that applies. -/
theorem resolve_ceiling (r : Resolver Double) (who : Identity) (htrusted : who.trusted = true)
    (hr : r.Proper) :
    let caps := r.resolve who
    (caps.level ∈ r.levels who ∧ ∀ level ∈ r.levels who, caps.level ≤ level) ∧
    caps.Within r.tiers (r.globalCaps who caps.level) ∧
    ∀ p, r.workspace = some p → ∀ layer, p.Applies who caps.level layer →
      caps.Respects r.tiers layer := by
  intro caps
  obtain ⟨hlevel, hwithin, hrespects⟩ := restrictAll_spec r.tiers (r.limits who (r.level who))
    (r.start who) (r.globalCaps_proper who _ htrusted hr) (r.limits_proper who _ htrusted hr)
  have hcaps : caps = _ := r.resolve_eq who htrusted hr
  rw [← hcaps] at hlevel hwithin hrespects
  replace hlevel : caps.level = r.level who := hlevel.trans (r.globalCaps_level who (r.level who))
  rw [hlevel]
  refine ⟨?_, hwithin, fun p hp layer happlies => ?_⟩
  · unfold level levels globalLevel
    simp only [htrusted, if_true]
    exact lowered_spec _ _
  · obtain ⟨entry, hentry, rfl⟩ := (mem_entries who (r.level who) p layer htrusted).mpr happlies
    refine hrespects entry ?_
    unfold limits
    rw [hp]
    exact hentry

def threeTiers : TierSet Double :=
  let tier (name : String) (ordinal : Nat) : Tier Double :=
    { name, ordinal, models := [], range := ⟨0, 1.0⟩, costPer1k := 0, maxContextTokens := 4096 }
  .ofList [tier "free" 0, tier "standard" 1, tier "elite" 2]

def terminalLimits : Override Double :=
  { level := some .standard, toolAllow := some ["read_file"], dailyBudget := some 2.5 }

def terminal : Resolver Double where
  global := .default
  workspace := some { channels := Dict.empty.insert "cli" terminalLimits }
  tiers := threeTiers

theorem terminal_proper : terminal.Proper := by
  have hnothing : ∀ level : Option Level, Override.Proper threeTiers { level } := fun level =>
    ⟨by simp, by simp, by simp, by simp⟩
  refine ⟨fun level => by cases level <;> decide, fun entry hentry => ?_, fun p hp entry hentry => ?_⟩
  · have hlabelled : terminal.global.labelled.map (·.2) = [{}, {}, {}, { level := some .elevated }] := rfl
    have hlayer := hlabelled ▸ List.mem_map_of_mem hentry
    simp only [List.mem_cons, List.not_mem_nil, or_false] at hlayer
    rcases hlayer with h | h | h | h <;> rw [h] <;> exact hnothing _
  · cases hp
    have hlimits : terminalLimits.Proper threeTiers := by
      refine ⟨by simp [terminalLimits], by simp [terminalLimits], fun x hx => ?_, by simp [terminalLimits]⟩
      cases hx
      unfold Double.Defined
      decide +kernel
    have hlayer : entry.2 ∈ [{}, {}, {}, terminalLimits] := List.mem_map_of_mem hentry
    simp only [List.mem_cons, List.not_mem_nil, or_false] at hlayer
    rcases hlayer with h | h | h | h <;> rw [h]
    · exact hnothing none
    · exact hnothing none
    · exact hnothing none
    · exact hlimits

theorem resolve_ceiling_terminal :
    let who : Identity := ⟨"operator", "cli", true⟩
    who.trusted = true ∧ terminal.Proper ∧ (terminal.resolve who).level = .standard ∧
    (terminal.resolve who).Within terminal.tiers (terminal.globalCaps who .standard) := by
  intro who
  have hlevel : (terminal.resolve who).level = .standard := by decide +kernel
  exact ⟨rfl, terminal_proper, hlevel,
    hlevel ▸ (resolve_ceiling terminal who rfl terminal_proper).2.1⟩

end Resolver

end Admission
