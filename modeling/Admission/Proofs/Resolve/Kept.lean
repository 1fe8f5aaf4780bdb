import Admission.Proofs.Resolve.Overlay

/-!
# What the allow lists of a workspace keep

Allow lists are compared entry by entry, as they are written. What all of them grant by one and the same
entry stays granted, where a list with `*` has every entry. A pattern and a name that it matches are not
one entry, so that a workspace can drop what each list grants in its own way.
-/

namespace Admission.Resolver

theorem foldl_restrict_iff (tiers : TierSet Double) (P : List String → Prop)
    (tighten : List String → List String → List String) (hP : ∀ c w, P (tighten c w) ↔ P c ∧ P w)
    (get : Capabilities Double → List String) (field : Override Double → Option (List String))
    (hget : ∀ caps layer, get (caps.restrict tiers layer) = tightenWith tighten (get caps) (field layer))
    (limits : List (String × Override Double)) (caps : Capabilities Double) :
    P (get (limits.foldl (fun caps entry => caps.restrict tiers entry.2) caps)) ↔
      ∀ list ∈ get caps :: limits.filterMap (fun entry => field entry.2), P list := by
  induction limits generalizing caps with
  | nil => simp
  | cons entry rest ih =>
    rw [List.foldl_cons, ih, List.forall_mem_cons, hget, List.forall_mem_cons]
    cases hfield : field entry.2 with
    | none => simp [tightenWith, hfield]
    | some w => simp [tightenWith, hfield, hP, and_assoc]

variable (r : Resolver Double) (who : Identity)

def base : Capabilities Double := r.globalCaps who (r.level who)

def asked (field : Override Double → Option (List String)) : List (List String) :=
  (r.limits who (r.level who)).filterMap fun entry => field entry.2

def listsOf (get : Capabilities Double → List String) (field : Override Double → Option (List String)) :
    List (List String) :=
  get (r.base who) :: r.asked who field

theorem resolve_permitsModel_iff (model : String) :
    (r.resolve who).permitsModel model = true ↔
      (∀ list ∈ r.listsOf who (·.modelDeny) (·.modelDeny), Pattern.anyMatches list model = false) ∧
      ∃ pattern, Pattern.matchesModel pattern model = true ∧
        ∀ list ∈ r.listsOf who (·.modelAllow) (·.modelAllow), Holds list pattern := by
  have hmodels : ∀ caps : Capabilities Double,
      (harden who caps).permitsModel model = caps.permitsModel model := by
    intro caps
    unfold harden
    split <;> rfl
  rw [resolve_eq_harden, hmodels, restrictAll_caps, Capabilities.permitsModel_iff,
    any_iff_holds _ (matchesModel_star model)]
  refine and_congr ?_ (exists_congr fun pattern => and_congr_right fun _ => ?_)
  · exact foldl_restrict_iff r.tiers (fun list => list.any (Pattern.matchesModel · model) = false) union
      (any_union _) (·.modelDeny) (·.modelDeny) (fun _ _ => rfl) _ _
  · exact foldl_restrict_iff r.tiers (Holds · pattern) narrowed (holds_narrowed pattern) (·.modelAllow)
      (·.modelAllow) (fun _ _ => rfl) _ _

/-- The entry is `*` or names the tool, blanks at the ends aside. -/
def covers (entry tool : String) : Bool := Text.trim entry == "*" || Text.trim entry == Text.trim tool

theorem resolve_allowsTool_iff (htrusted : who.trusted = true) (tool : String) :
    (checkTool (some (r.resolve who)) tool).isAllowed = true ↔
      Text.trim tool ≠ "" ∧
      (∀ list ∈ r.listsOf who (·.toolDeny) (·.toolDeny), namesTool list (Text.trim tool) = false) ∧
      ∃ entry, covers entry tool = true ∧
        ∀ list ∈ r.listsOf who (·.toolAllow) (·.toolAllow), Holds list entry := by
  have hstar : covers "*" tool = true := by
    have htrim : Text.trim "*" = "*" := by decide
    simp [covers, htrim]
  rw [resolve_eq_harden, harden, if_pos htrusted, restrictAll_caps, Capabilities.checkTool_isAllowed_iff,
    Capabilities.letsThrough_eq]
  refine and_congr_right fun _ => and_congr ?_ ((any_iff_holds (covers · tool) hstar _).trans ?_)
  · exact foldl_restrict_iff r.tiers (namesTool · (Text.trim tool) = false) union (any_union _)
      (·.toolDeny) (·.toolDeny) (fun _ _ => rfl) _ _
  · refine exists_congr fun entry => and_congr_right fun _ => ?_
    exact foldl_restrict_iff r.tiers (Holds · entry) narrowed (holds_narrowed entry) (·.toolAllow)
      (·.toolAllow) (fun _ _ => rfl) _ _

/-- What the global layers grant and every list of the workspace grants by one and the same entry is
granted in the end, unless the workspace denies it. -/
theorem resolve_keeps_shared :
    (∀ model, (r.base who).permitsModel model = true →
      (∀ list ∈ r.asked who (·.modelDeny), Pattern.anyMatches list model = false) →
      (∃ pattern, Pattern.matchesModel pattern model = true ∧
        ∀ list ∈ (r.base who).modelAllow :: r.asked who (·.modelAllow), Holds list pattern) →
      (r.resolve who).permitsModel model = true) ∧
    (who.trusted = true → ∀ tool, (checkTool (some (r.base who)) tool).isAllowed = true →
      (∀ list ∈ r.asked who (·.toolDeny), namesTool list (Text.trim tool) = false) →
      (∃ entry, covers entry tool = true ∧
        ∀ list ∈ (r.base who).toolAllow :: r.asked who (·.toolAllow), Holds list entry) →
      (checkTool (some (r.resolve who)) tool).isAllowed = true) := by
  constructor
  · intro model hbase hdeny hshared
    have hglobal := ((Capabilities.permitsModel_iff (r.base who) model).mp hbase).1
    exact (r.resolve_permitsModel_iff who model).mpr ⟨List.forall_mem_cons.mpr ⟨hglobal, hdeny⟩, hshared⟩
  · intro htrusted tool hbase hdeny hshared
    obtain ⟨hname, hglobal, -⟩ := (Capabilities.checkTool_isAllowed_iff (r.base who) tool).mp hbase
    exact (r.resolve_allowsTool_iff who htrusted tool).mpr
      ⟨hname, List.forall_mem_cons.mpr ⟨hglobal, hdeny⟩, hshared⟩

def sameEntries : Resolver Double where
  global :=
    { standard :=
        { modelAllow := some ["anthropic/*", "openai/gpt"], toolAllow := some ["read_file", "message"] }
      channels := Dict.empty.insert "web" { level := some .standard } }
  workspace := some
    { standard :=
        { modelAllow := some ["anthropic/*"], modelDeny := some ["anthropic/old"], toolAllow := some ["*"] }
      channels := Dict.empty.insert "web"
        { modelAllow := some ["*", "mistral/*"], toolAllow := some ["read_file", "web_fetch"],
          toolDeny := some ["message"] } }
  tiers := threeTiers

theorem resolve_keeps_shared_sameEntries :
    let bob : Identity := ⟨"bob", "web", true⟩
    (sameEntries.resolve bob).permitsModel "anthropic/claude" = true ∧
      (checkTool (some (sameEntries.resolve bob)) " read_file").isAllowed = true := by
  intro bob
  obtain ⟨hmodels, htools⟩ := resolve_keeps_shared sameEntries bob
  exact ⟨hmodels "anthropic/claude" (by decide) (by decide) ⟨"anthropic/*", by decide, by decide⟩,
    htools rfl " read_file" (by decide) (by decide) ⟨"read_file", by decide, by decide⟩⟩

def widerPattern : Resolver Double where
  global :=
    { standard := { modelAllow := some ["anthropic/claude"] }
      channels := Dict.empty.insert "web" { level := some .standard } }
  workspace := some { standard := { modelAllow := some ["anthropic/*"] } }
  tiers := threeTiers

theorem resolve_drops_widerPattern :
    let bob : Identity := ⟨"bob", "web", true⟩
    (widerPattern.base bob).permitsModel "anthropic/claude" = true ∧
      (∀ list ∈ widerPattern.asked bob (·.modelAllow), Pattern.anyMatches list "anthropic/claude" = true) ∧
      widerPattern.asked bob (·.modelDeny) = [] ∧
      (widerPattern.resolve bob).permitsModel "anthropic/claude" = false := by
  decide

end Admission.Resolver
