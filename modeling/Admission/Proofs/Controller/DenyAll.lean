import Admission.Proofs.Controller.Step
import Admission.Proofs.Resolve.Overlay
import Admission.Proofs.Router.Admitted
import Mathlib.Data.Set.Finite.Range

/-!
# Overlays that deny everything

What an entry of a workspace denies stays denied, whatever the other entries allow. Of models, `*`
denies all of them. Of tools it denies the one of that name.
-/

namespace Admission

/-! ## Deny lists -/

namespace Resolver

/-- The entries of the workspace that are about a caller. Only a trusted one has more than the entry of
the level. -/
inductive LimitedBy (r : Resolver Double) (who : Identity) : Override Double → Prop
  | level (p : Permissions Double) (hp : r.workspace = some p) :
    LimitedBy r who (p.ofLevel (r.level who))
  | channel (p : Permissions Double) (hp : r.workspace = some p) (htrusted : who.trusted = true)
      (layer : Override Double) (hlayer : p.channels.get? who.channel = some layer) :
    LimitedBy r who layer
  | caller (p : Permissions Double) (hp : r.workspace = some p) (htrusted : who.trusted = true)
      (layer : Override Double) (hlayer : p.users.get? who.caller = some layer) :
    LimitedBy r who layer

variable (r : Resolver Double) (who : Identity)

theorem LimitedBy.mem_limits {r : Resolver Double} {who : Identity} {layer : Override Double}
    (h : r.LimitedBy who layer) : ∃ entry ∈ r.limits who (r.level who), entry.2 = layer := by
  have happlies (p : Permissions Double) (hp : r.workspace = some p) (htrusted : who.trusted = true)
      (h : p.Applies who (r.level who) layer) :
      ∃ entry ∈ r.limits who (r.level who), entry.2 = layer := by
    unfold limits
    rw [hp]
    exact (mem_entries who (r.level who) p layer htrusted).mpr h
  cases h with
  | level p hp =>
    refine ⟨((r.level who).name, p.ofLevel (r.level who)), ?_, rfl⟩
    unfold limits
    rw [hp]
    exact List.mem_cons_self
  | channel p hp htrusted _ hlayer => exact happlies p hp htrusted (.inr (.inl hlayer))
  | caller p hp htrusted _ hlayer => exact happlies p hp htrusted (.inr (.inr hlayer))

theorem mem_restrictAll (tiers : TierSet Double) (denied : Capabilities Double → List String)
    (wanted : Override Double → Option (List String))
    (hunion : ∀ caps layer,
      denied (caps.restrict tiers layer) = tightenWith union (denied caps) (wanted layer))
    (limits : List (String × Override Double)) (start : Resolved Double) (x : String) :
    x ∈ denied (restrictAll tiers start limits).caps ↔
      x ∈ denied start.caps ∨ ∃ entry ∈ limits, ∃ w, wanted entry.2 = some w ∧ x ∈ w := by
  rw [restrictAll_caps]
  generalize start.caps = caps
  induction limits generalizing caps with
  | nil => simp
  | cons entry rest ih =>
    rw [List.foldl_cons, ih, hunion]
    cases hwanted : wanted entry.2 with
    | none => simp [tightenWith, hwanted]
    | some w => simp [tightenWith, hwanted, mem_union, or_assoc]

theorem mem_resolve (denied : Capabilities Double → List String)
    (wanted : Override Double → Option (List String))
    (hunion : ∀ caps layer,
      denied (caps.restrict r.tiers layer) = tightenWith union (denied caps) (wanted layer))
    (hharden : ∀ caps, denied (harden who caps) = denied caps) (layer : Override Double)
    (hlayer : r.LimitedBy who layer) (w : List String) (hw : wanted layer = some w) (x : String)
    (hx : x ∈ w) : x ∈ denied (r.resolve who) := by
  obtain ⟨entry, hentry, rfl⟩ := hlayer.mem_limits
  rw [resolve_eq_harden, hharden, mem_restrictAll r.tiers denied wanted hunion]
  exact Or.inr ⟨entry, hentry, w, hw, hx⟩

theorem harden_denied (caps : Capabilities Double) :
    (harden who caps).modelDeny = caps.modelDeny ∧ (harden who caps).toolDeny = caps.toolDeny := by
  unfold harden
  split <;> exact ⟨rfl, rfl⟩

end Resolver

/-! ## Models -/

theorem Capabilities.permitsModel_of_star (caps : Capabilities Double) (h : "*" ∈ caps.modelDeny)
    (model : String) : caps.permitsModel model = false := by
  by_contra hpermits
  obtain ⟨hdeny, -⟩ := (caps.permitsModel_iff model).mp (by simpa using hpermits)
  have hstar := List.any_eq_false.mp hdeny "*" h
  exact hstar (matchesModel_star model)

theorem Router.route_refused_of_none (r : Router Double) (m : Moment) (request : Request Double)
    (caps : Capabilities Double) (desk : Desk Double)
    (h : ∀ model, caps.permitsModel model = false) :
    ∃ refusal, (r.route m request caps desk).1 = .error refusal := by
  cases hroute : (r.route m request caps desk).1 with
  | error refusal => exact ⟨refusal, rfl⟩
  | ok a =>
    obtain ⟨ceiling, c, -, hc, -⟩ := r.admitted_candidate m request caps desk a hroute
    have := hc.permitted
    rw [h c.model] at this
    cases this

/-! ## Tools -/

def longName (n : Nat) : String := .ofList (.replicate (n + 1) 'a')

theorem trim_longName (n : Nat) : Text.trim (longName n) = longName n := by
  have hletter : Text.isBlank 'a' = false := by decide
  have hdrop : (List.replicate (n + 1) 'a').dropWhile Text.isBlank = List.replicate (n + 1) 'a' := by
    rw [List.replicate_succ, List.dropWhile_cons_of_neg (by simp [hletter])]
  simp [longName, Text.trim, Text.trimStart, Text.trimEnd, hdrop]

theorem longName_injective : Function.Injective longName := by
  intro a b h
  have hlists := congrArg (fun s : String => s.toList.length) h
  simpa [longName] using hlists

theorem exists_unnamed_tool (names : List String) :
    ∃ tool, Text.trim tool = tool ∧ tool ≠ "" ∧ tool ≠ "*" ∧ namesTool names tool = false := by
  obtain ⟨-, ⟨n, rfl⟩, hfresh⟩ := (Set.infinite_range_of_injective longName_injective).exists_notMem_finset
    ("*" :: names.map Text.trim).toFinset
  simp only [List.mem_toFinset, List.mem_cons, List.mem_map, not_or, not_exists, not_and] at hfresh
  refine ⟨longName n, trim_longName n, ?_, hfresh.1, ?_⟩
  · simp [longName, List.replicate_succ]
  · simp only [namesTool, List.any_eq_false, beq_iff_eq]
    exact fun name hname => hfresh.2 name hname

/-- Whatever is allowed is allowed by name, and denied by name. -/
def Capabilities.LocksTools (caps : Capabilities Double) : Prop :=
  ∀ name ∈ caps.toolAllow, Text.trim name ≠ "*" ∧
    (Text.trim name = "" ∨ namesTool caps.toolDeny (Text.trim name) = true)

theorem Capabilities.locksTools_iff (caps : Capabilities Double) :
    caps.LocksTools ↔ ∀ tool, (checkTool (some caps) tool).isAllowed = false := by
  simp only [← Bool.not_eq_true, checkTool_isAllowed_iff, letsThrough_eq, List.any_eq_true,
    Bool.or_eq_true, beq_iff_eq]
  constructor
  · rintro h tool ⟨hname, hdeny, name, hmem, hstar | hnamed⟩
    · exact (h name hmem).1 hstar
    · rcases (h name hmem).2 with hempty | hdenied
      · exact hname (hnamed ▸ hempty)
      · exact hdeny (hnamed ▸ hdenied)
  · intro h name hmem
    refine ⟨fun hstar => ?_, ?_⟩
    · obtain ⟨tool, htrim, hne, -, hfree⟩ := exists_unnamed_tool caps.toolDeny
      exact h tool ⟨by rwa [htrim], by simp [htrim, hfree], name, hmem, Or.inl hstar⟩
    · by_contra hallowed
      rw [not_or] at hallowed
      exact h name ⟨hallowed.1, hallowed.2, name, hmem, Or.inr rfl⟩

namespace Controller

theorem authorizeTool_fst (c : Controller Double) (now : Timestamp) (who : Identity) (tool : String) :
    (c.authorizeTool now who tool).1 = Admission.checkTool (some (c.capabilities who)) tool := rfl

/-- Where an entry of the workspace denies the model `*`, every request of the caller is refused. Where
it denies the tool `*`, that tool is denied; all tools are if each tool that the record allows is denied
by its own name, and otherwise not. -/
theorem denyAll_locks (c : Controller Double) (who : Identity) (layer : Override Double)
    (hlayer : c.resolver.LimitedBy who layer) :
    (∀ w, layer.modelDeny = some w → "*" ∈ w → ∀ m request, request.identity = who →
      ∃ refusal, (c.route m request).1 = .error refusal) ∧
    (∀ w, layer.toolDeny = some w → "*" ∈ w →
      (∀ now, (c.authorizeTool now who "*").1.isAllowed = false) ∧
      ((∀ now tool, (c.authorizeTool now who tool).1.isAllowed = false) ↔
        (c.capabilities who).LocksTools)) := by
  refine ⟨fun w hw hstar m request hwho => ?_, fun w hw hstar => ⟨fun now => ?_, ?_⟩⟩
  · have hdenied := c.resolver.mem_resolve who (·.modelDeny) (·.modelDeny) (fun _ _ => rfl)
      (fun caps => (Resolver.harden_denied who caps).1) layer hlayer w hw "*" hstar
    obtain ⟨refusal, hrefusal⟩ := c.router.route_refused_of_none m request (c.capabilities who) c.desk
      ((c.capabilities who).permitsModel_of_star hdenied)
    refine ⟨refusal, (c.route_error_iff m request refusal).mpr ?_⟩
    rw [hwho]
    exact hrefusal
  · have hdenied := c.resolver.mem_resolve who (·.toolDeny) (·.toolDeny) (fun _ _ => rfl)
      (fun caps => (Resolver.harden_denied who caps).2) layer hlayer w hw "*" hstar
    have htrim : Text.trim "*" = "*" := by decide
    rw [authorizeTool_fst, ← Bool.not_eq_true]
    intro hallowed
    obtain ⟨-, hfree, -⟩ := (Capabilities.checkTool_isAllowed_iff (c.capabilities who) "*").mp hallowed
    rw [htrim, namesTool, List.any_eq_false] at hfree
    exact hfree "*" hdenied (by simp [htrim])
  · simp only [authorizeTool_fst, Capabilities.locksTools_iff, forall_const]

def everythingDenied : Override Double where
  modelDeny := some ["*"]
  toolDeny := some ["*"]

def locked : Controller Double :=
  .ofConfig (fun _ => 0) .default
    (some { channels := Dict.empty.insert "cli" everythingDenied })

theorem locked_limits_operator : locked.resolver.LimitedBy Resolver.operator everythingDenied :=
  .channel _ rfl rfl _ (Dict.get?_insert_self _ _ _)

theorem denyAll_locks_operator :
    locked.resolver.LimitedBy Resolver.operator everythingDenied ∧
    (∀ m request, request.identity = Resolver.operator →
      ∃ refusal, (locked.route m request).1 = .error refusal) ∧
    (∀ now, (locked.authorizeTool now Resolver.operator "*").1.isAllowed = false) := by
  obtain ⟨hmodels, htools⟩ :=
    denyAll_locks locked Resolver.operator everythingDenied locked_limits_operator
  exact ⟨locked_limits_operator, hmodels ["*"] rfl (by decide), (htools ["*"] rfl (by decide)).1⟩

/-- The terminal may use every tool by default, and the one called `*` is all that it loses. -/
theorem denyAll_leaves_tools :
    locked.resolver.LimitedBy Resolver.operator everythingDenied ∧
    everythingDenied.toolDeny = some ["*"] ∧
    (locked.authorizeTool default Resolver.operator "read_file").1 = .allow :=
  ⟨locked_limits_operator, rfl, by decide +kernel⟩

end Controller

end Admission
