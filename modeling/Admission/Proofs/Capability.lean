import Admission.Proofs.Json.Tidy

/-!
# Permissions as JSON

The permissions of a caller and what a layer says about them are read back as they were, as a value and from their text.
A field that is not set stays apart from an empty list, and `null` is a value of an extension like any other. Only
extensions can nest so deep that a text of them is not read.
-/

namespace Admission

/-! ## Permissions -/

/-- The numbers of the permissions are such as `number` says, or of 32 bits. -/
structure Capabilities.Tidy (number : Double → Prop) (caps : Capabilities Double) : Prop where
  maxContextTokens : caps.maxContextTokens < 2 ^ 32
  maxOutputTokens : caps.maxOutputTokens < 2 ^ 32
  rateLimit : caps.rateLimit < 2 ^ 32
  escalationThreshold : number caps.escalationThreshold
  dailyBudget : number caps.dailyBudget
  monthlyBudget : number caps.monthlyBudget
  extensions : ∀ entry ∈ caps.extensions.toList, entry.2.Tidy number

structure Override.Tidy (number : Double → Prop) (layer : Override Double) : Prop where
  maxContextTokens : ∀ n ∈ layer.maxContextTokens, n < 2 ^ 32
  maxOutputTokens : ∀ n ∈ layer.maxOutputTokens, n < 2 ^ 32
  rateLimit : ∀ n ∈ layer.rateLimit, n < 2 ^ 32
  escalationThreshold : ∀ x ∈ layer.escalationThreshold, number x
  dailyBudget : ∀ x ∈ layer.dailyBudget, number x
  monthlyBudget : ∀ x ∈ layer.monthlyBudget, number x
  extensions : ∀ d ∈ layer.extensions, ∀ entry ∈ d.toList, entry.2.Tidy number

variable {β : Type} {number : Double → Prop}

namespace Faithful

theorem level (level : Level) : Faithful Level.toJson Level.ofJson level := ⟨Level.ofJson_toJson .json level, nofun⟩

theorem extensions {number : Double → Prop} (hnumber : ∀ x, number x → x.isFinite = true) {d : Dict Json}
    (h : ∀ entry ∈ d.toList, entry.2.Tidy number) : Faithful .ofDict (.dictOf .anything) d :=
  ⟨Decode.dictOf_self .anything d fun entry hentry => (h entry hentry).anything_eq_ok hnumber, nofun⟩

end Faithful

namespace Json.Legible

theorem texts (names : List String) : (Json.texts names).Legible := by
  refine .arr _ fun item hitem => ?_
  obtain ⟨name, -, rfl⟩ := List.mem_map.mp hitem
  exact .str name

theorem nat32 {n : Nat} (h : n < 2 ^ 32) : (Json.nat n).Legible := .int n (Json.fitsWord_of_lt (by omega))

theorem extensions (hnumber : ∀ x, number x → x.Kept) {d : Dict Json} (h : ∀ entry ∈ d.toList, entry.2.Tidy number) :
    (Json.ofDict d).Legible :=
  .obj _ fun entry hentry => (h entry hentry).legible hnumber

theorem of_map {write : β → Json} {field : Option β} (h : ∀ x ∈ field, (write x).Legible) :
    ∀ value ∈ field.map write, value.Legible := by
  intro value hvalue
  obtain ⟨x, hx, rfl⟩ := Option.map_eq_some_iff.mp hvalue
  exact h x hx

end Json.Legible

theorem capabilityFields_nodup : capabilityFields.Nodup := by decide

namespace Capabilities

variable {caps : Capabilities Double}

theorem ofJson_toJson (hnumber : ∀ x, number x → x.isFinite = true) (h : caps.Tidy number) :
    ofJson .json caps.toJson = .ok caps := by
  refine Decode.openStructure_eq_ok _ _ _ _ (by exact capabilityFields_nodup) fun parts hformat hvalue => ?_
  simp only [List.forall_mem_cons] at hvalue
  obtain ⟨hlevel, htier, hmodelAllow, hmodelDeny, htoolAllow, htoolDeny, hcontext, houtput, hrate, hstreaming,
    hescalation, hthreshold, hmodel, hdaily, hmonthly, hextensions, -⟩ := hvalue
  have hgives := (Fields.Gives.required hformat hlevel (.level _)).map Capabilities.mk
    |>.seq (.required hformat htier (.string _))
    |>.seq (.required hformat hmodelAllow (.texts _))
    |>.seq (.required hformat hmodelDeny (.texts _))
    |>.seq (.required hformat htoolAllow (.texts _))
    |>.seq (.required hformat htoolDeny (.texts _))
    |>.seq (.required hformat hcontext (.nat h.maxContextTokens))
    |>.seq (.required hformat houtput (.nat h.maxOutputTokens))
    |>.seq (.required hformat hrate (.nat h.rateLimit))
    |>.seq (.required hformat hstreaming (.bool _))
    |>.seq (.required hformat hescalation (.bool _))
    |>.seq (.required hformat hthreshold (.float (hnumber _ h.escalationThreshold)))
    |>.seq (.required hformat hmodel (.bool _))
    |>.seq (.required hformat hdaily (.float (hnumber _ h.dailyBudget)))
    |>.seq (.required hformat hmonthly (.float (hnumber _ h.monthlyBudget)))
    |>.seq (.part hformat (some ∅) hextensions (Faithful.extensions hnumber h.extensions).read)
  exact hgives

theorem toJson_legible (hnumber : ∀ x, number x → x.Kept) (h : caps.Tidy number) : caps.toJson.Legible := by
  refine .obj _ ?_
  simp only [List.forall_mem_cons]
  exact ⟨.str _, .str _, .texts _, .texts _, .texts _, .texts _, .nat32 h.maxContextTokens, .nat32 h.maxOutputTokens,
    .nat32 h.rateLimit, .bool _, .bool _, .float _ (hnumber _ h.escalationThreshold).exact, .bool _,
    .float _ (hnumber _ h.dailyBudget).exact, .float _ (hnumber _ h.monthlyBudget).exact,
    .extensions hnumber h.extensions, List.forall_mem_nil _⟩

end Capabilities

namespace Override

open Json.Legible (of_map)

/-- The fields by their names, with what is written for each one that is set. -/
def fields (layer : Override Double) : List Decode.Field :=
  [("level", layer.level.map Level.toJson), ("max_tier", layer.maxTier.map .str),
    ("model_allow", layer.modelAllow.map .texts), ("model_deny", layer.modelDeny.map .texts),
    ("tool_allow", layer.toolAllow.map .texts), ("tool_deny", layer.toolDeny.map .texts),
    ("max_context_tokens", layer.maxContextTokens.map .nat), ("max_output_tokens", layer.maxOutputTokens.map .nat),
    ("rate_limit", layer.rateLimit.map .nat), ("streaming_allowed", layer.streamingAllowed.map .bool),
    ("escalation_allowed", layer.escalationAllowed.map .bool),
    ("escalation_threshold", layer.escalationThreshold.map .float),
    ("can_override_model", layer.canOverrideModel.map .bool), ("cost_budget_daily", layer.dailyBudget.map .float),
    ("cost_budget_monthly", layer.monthlyBudget.map .float), ("extensions", layer.extensions.map .ofDict)]

variable {layer : Override Double}

theorem fields_names : layer.fields.map (·.1) = capabilityFields := rfl

theorem toJson_eq : layer.toJson = .obj (layer.fields.filterMap Decode.Field.member?) := by
  have hmembers : layer.fields.filterMap Decode.Field.member? = (layer.fields.map Decode.Field.member?).filterMap id := by
    rw [List.filterMap_map]
    rfl
  rw [hmembers]
  refine congrArg (fun members => Json.obj (List.filterMap id members)) ?_
  simp only [fields, Decode.Field.member?, List.map_cons, List.map_nil, Option.map_map]
  rfl

theorem ofJson_toJson (hnumber : ∀ x, number x → x.isFinite = true) (h : layer.Tidy number) :
    ofJson .json layer.toJson = .ok layer := by
  rw [toJson_eq]
  refine Decode.structured_fields_eq_ok _ _ _ fields_names capabilityFields_nodup fun parts hformat hfields => ?_
  simp only [fields, List.forall_mem_cons] at hfields
  obtain ⟨hlevel, htier, hmodelAllow, hmodelDeny, htoolAllow, htoolDeny, hcontext, houtput, hrate, hstreaming,
    hescalation, hthreshold, hmodel, hdaily, hmonthly, hextensions, -⟩ := hfields
  have hgives := (Fields.Gives.optional hformat hlevel fun _ _ => .level _).map Override.mk
    |>.seq (.optional hformat htier fun _ _ => .string _)
    |>.seq (.optional hformat hmodelAllow fun _ _ => .texts _)
    |>.seq (.optional hformat hmodelDeny fun _ _ => .texts _)
    |>.seq (.optional hformat htoolAllow fun _ _ => .texts _)
    |>.seq (.optional hformat htoolDeny fun _ _ => .texts _)
    |>.seq (.optional hformat hcontext fun n hn => .nat (h.maxContextTokens n hn))
    |>.seq (.optional hformat houtput fun n hn => .nat (h.maxOutputTokens n hn))
    |>.seq (.optional hformat hrate fun n hn => .nat (h.rateLimit n hn))
    |>.seq (.optional hformat hstreaming fun _ _ => .bool _)
    |>.seq (.optional hformat hescalation fun _ _ => .bool _)
    |>.seq (.optional hformat hthreshold fun x hx => .float (hnumber x (h.escalationThreshold x hx)))
    |>.seq (.optional hformat hmodel fun _ _ => .bool _)
    |>.seq (.optional hformat hdaily fun x hx => .float (hnumber x (h.dailyBudget x hx)))
    |>.seq (.optional hformat hmonthly fun x hx => .float (hnumber x (h.monthlyBudget x hx)))
    |>.seq (.optional hformat hextensions fun d hd => .extensions hnumber (h.extensions d hd))
  exact hgives

theorem toJson_legible (hnumber : ∀ x, number x → x.Kept) (h : layer.Tidy number) : layer.toJson.Legible := by
  have hfields : ∀ field ∈ layer.fields, ∀ value ∈ field.2, value.Legible := by
    simp only [fields, List.forall_mem_cons]
    exact ⟨of_map fun _ _ => .str _, of_map fun _ _ => .str _, of_map fun _ _ => .texts _, of_map fun _ _ => .texts _,
      of_map fun _ _ => .texts _, of_map fun _ _ => .texts _, of_map fun n hn => .nat32 (h.maxContextTokens n hn),
      of_map fun n hn => .nat32 (h.maxOutputTokens n hn), of_map fun n hn => .nat32 (h.rateLimit n hn),
      of_map fun _ _ => .bool _, of_map fun _ _ => .bool _,
      of_map fun x hx => .float x (hnumber x (h.escalationThreshold x hx)).exact, of_map fun _ _ => .bool _,
      of_map fun x hx => .float x (hnumber x (h.dailyBudget x hx)).exact,
      of_map fun x hx => .float x (hnumber x (h.monthlyBudget x hx)).exact,
      of_map fun d hd => .extensions hnumber (h.extensions d hd), List.forall_mem_nil _⟩
  rw [toJson_eq]
  refine .obj _ fun m hm => ?_
  exact hfields _ (Decode.Field.mem_members.mp hm) _ rfl

end Override

/-! ## Both codecs -/

section Examples

variable {number : Double → Prop} (hquarter : number 0.25) (hhalf : number 0.5)
include hhalf

include hquarter

end Examples

end Admission
