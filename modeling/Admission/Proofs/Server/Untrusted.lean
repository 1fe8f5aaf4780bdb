import Admission.Proofs.Controller.Step
import Admission.Proofs.Resolve.Untrusted
import Admission.Proofs.Router.Admitted
import Admission.Proofs.Server.Message
import Admission.Server.Basic

/-!
# Channels that are not trusted

Whatever comes in on such a channel, and whatever was answered before, no tool is allowed, nothing
escalates and the model that the caller names is not looked at.
-/

namespace Admission

/-! ## The model that a caller names -/

section Requested

variable {α : Type} [Amount α] (m : Moment) (request : Request α) (caps : Capabilities α)
  (model : Option String)

namespace Router

variable (r : Router α)

theorem attempt_requestedModel (tiers : List (Tier α)) (rejection : Option (Rejection α))
    (desk : Desk α) :
    r.attempt m { request with requestedModel := model } caps tiers rejection desk =
      r.attempt m request caps tiers rejection desk := by
  induction tiers generalizing rejection desk with
  | nil => rfl
  | cons tier rest ih =>
    unfold attempt
    cases desk.selector.select r.prices m.dice tier (Selector.permitted tier caps) with
    | mk pick selector =>
    cases pick with
    | none => exact ih rejection { desk with selector }
    | some picked =>
      have hreserve : r.reserve m { request with requestedModel := model } caps tier picked
          { desk with selector } = r.reserve m request caps tier picked { desk with selector } := rfl
      simp only [hreserve, ih]

theorem route_requestedModel (desk : Desk α) (h : caps.canOverrideModel = false) :
    r.route m { request with requestedModel := model } caps desk = r.route m request caps desk := by
  -- Nothing but the choice of the way looks at the model that is asked for.
  have hhonored : ∀ request : Request α, honoredModel? request caps = none := by
    intro request
    unfold honoredModel?
    rw [h]
    rfl
  have hfallback : ∀ ceiling rejection desk,
      r.routeFallback m { request with requestedModel := model } caps ceiling rejection desk =
        r.routeFallback m request caps ceiling rejection desk := fun _ _ _ => rfl
  have hconclude : ∀ c desk, conclude m { request with requestedModel := model } caps c desk =
      conclude m request caps c desk := fun _ _ => rfl
  have hcomplexity : { request with requestedModel := model }.normalizedComplexity =
      request.normalizedComplexity := rfl
  unfold route routePlanned
  simp only [hhonored, hcomplexity, attempt_requestedModel, hfallback, hconclude]

theorem preview?_requestedModel (h : caps.canOverrideModel = false) :
    r.preview? { request with requestedModel := model } caps = r.preview? request caps := by
  unfold preview? honoredModel?
  rw [h]
  rfl

end Router

theorem Controller.route_requestedModel [Recordable α] (c : Controller α)
    (h : (c.capabilities request.identity).canOverrideModel = false) :
    c.route m { request with requestedModel := model } = c.route m request := by
  unfold Controller.route Controller.denialDetails
  simp only [Router.route_requestedModel m request _ model c.router c.desk h,
    Router.preview?_requestedModel request _ model c.router h]

end Requested

/-! ## Any caller on the channel -/

theorem checkTool_denied (caps : Capabilities Double) (tool : String) (h : caps.toolAllow = []) :
    ∃ reason, checkTool (some caps) tool = .deny reason := by
  unfold checkTool
  simp only [h, namesTool, List.any_nil, Bool.or_self, Bool.false_eq_true, if_false]
  split
  · exact ⟨_, rfl⟩
  · split
    · exact ⟨_, rfl⟩
    · exact ⟨_, rfl⟩

def Reply.ofRoute {α : Type} : Except (Refusal α) (Decision α) → Reply α
  | .ok decision => .admitted decision
  | .error refusal => .refused refusal

namespace Server

variable (s : Server Double) (m : Moment) (caller channel : String)

theorem identity_untrusted (h : channel ∉ s.trustedChannels) :
    s.identity caller channel = ⟨caller, channel, false⟩ := by
  unfold identity
  rw [List.contains_eq_mem, decide_eq_false h]

theorem handle_tool (tool : String) :
    s.handle m (.tool caller channel tool) =
      (.verdict (s.controller.authorizeTool m.time (s.identity caller channel) tool).1,
        { s with controller :=
          (s.controller.authorizeTool m.time (s.identity caller channel) tool).2 }) := rfl

theorem handle_tool_denied (tool : String) (h : channel ∉ s.trustedChannels) :
    ∃ reason, (s.handle m (.tool caller channel tool)).1 = .verdict (.deny reason) := by
  obtain ⟨hnone, -, -⟩ := s.controller.resolver.resolve_hardened ⟨caller, channel, false⟩ rfl
  obtain ⟨reason, hreason⟩ := checkTool_denied _ tool hnone
  refine ⟨reason, ?_⟩
  rw [handle_tool, identity_untrusted s caller channel h]
  exact congrArg Reply.verdict hreason

variable (complexity : Double) (inputTokens : Nat) (maxOutput : Option Nat) (model : Option String)

def requestOf : Request Double :=
  { identity := s.identity caller channel, complexity, inputTokens
    maxOutputTokens := maxOutput, requestedModel := model }

theorem handle_route :
    s.handle m (.route caller channel complexity inputTokens maxOutput model) =
      (.ofRoute (s.controller.route m
        (s.requestOf caller channel complexity inputTokens maxOutput model)).1,
      { s with controller := (s.controller.route m
        (s.requestOf caller channel complexity inputTokens maxOutput model)).2 }) := by
  simp only [handle, requestOf]
  rcases s.controller.route m _ with ⟨refusal | decision, controller⟩ <;> rfl

theorem handle_route_model (h : channel ∉ s.trustedChannels) :
    s.handle m (.route caller channel complexity inputTokens maxOutput model) =
      s.handle m (.route caller channel complexity inputTokens maxOutput none) := by
  have hnochoice : (s.controller.capabilities (s.identity caller channel)).canOverrideModel = false := by
    rw [identity_untrusted s caller channel h]
    exact (s.controller.resolver.resolve_hardened ⟨caller, channel, false⟩ rfl).2.2
  have hroute := Controller.route_requestedModel m
    (s.requestOf caller channel complexity inputTokens maxOutput none) model s.controller hnochoice
  rw [handle_route, handle_route, ← hroute]
  rfl

theorem handle_route_admitted (d : Decision Double) (h : channel ∉ s.trustedChannels)
    (hd : (s.handle m (.route caller channel complexity inputTokens maxOutput model)).1 = .admitted d) :
    d.escalated = false ∧ ∃ ceiling, s.controller.router.tiers.ordinalOf?
      (s.controller.resolver.resolve ⟨caller, channel, false⟩).maxTier = some ceiling ∧
      d.tierOrdinal ≤ ceiling := by
  have hok : (s.controller.route m
      (s.requestOf caller channel complexity inputTokens maxOutput model)).1 = .ok d := by
    rw [handle_route] at hd
    generalize (s.controller.route m _).1 = result at hd
    cases result with
    | error refusal => cases hd
    | ok decision =>
      cases hd
      rfl
  obtain ⟨a, ha, rfl⟩ := s.controller.routed_of_ok m _ d hok
  obtain ⟨ceiling, c, hceiling, hc, hdecision⟩ := Router.admitted_candidate _ m _ _ _ a ha
  have hidentity : (s.requestOf caller channel complexity inputTokens maxOutput model).identity =
      ⟨caller, channel, false⟩ := identity_untrusted s caller channel h
  rw [hidentity] at hceiling hc
  obtain ⟨-, hcalm, -⟩ := s.controller.resolver.resolve_hardened ⟨caller, channel, false⟩ rfl
  have hescalated : c.escalated = false := by
    by_contra hne
    have hallowed := (hc.escalates (Bool.not_eq_false _ ▸ hne)).allowed
    exact absurd (hcalm.symm.trans hallowed) Bool.false_ne_true
  rw [hdecision]
  refine ⟨hescalated, ceiling, hceiling, ?_⟩
  refine not_lt.mp fun habove => ?_
  exact absurd (hescalated.symm.trans (hc.escalated_iff.mpr habove)) Bool.false_ne_true

/-! ## A session -/

def after (lines : List (Moment × String)) : Server Double :=
  lines.foldl (fun s line => (s.answer line.1 line.2).2) s

/-- Two servers that trust the same channels and grant the same. -/
structure SameRules (s s' : Server Double) : Prop where
  controller : s.controller.SameRules s'.controller
  trustedChannels : s'.trustedChannels = s.trustedChannels

theorem answer_sameRules (line : String) : s.SameRules (s.answer m line).2 := by
  unfold answer
  cases Message.ofText? line with
  | none => exact ⟨⟨rfl, rfl⟩, rfl⟩
  | some message =>
    cases message with
    | route caller channel complexity inputTokens maxOutput model =>
      simp only [handle_route]
      exact ⟨s.controller.route_sameRules m _, rfl⟩
    | usage id input output =>
      have hrules := s.controller.reportUsage_sameRules m.time id input output
      simp only [handle]
      rcases hreported : s.controller.reportUsage m.time id input output with ⟨_ | cost, controller⟩
      · rw [hreported] at hrules
        exact ⟨hrules, rfl⟩
      · rw [hreported] at hrules
        exact ⟨hrules, rfl⟩
    | release id => exact ⟨⟨rfl, rfl⟩, rfl⟩
    | tool caller channel tool => exact ⟨⟨rfl, rfl⟩, rfl⟩

theorem after_sameRules (lines : List (Moment × String)) : s.SameRules (s.after lines) := by
  induction lines generalizing s with
  | nil => exact ⟨⟨rfl, rfl⟩, rfl⟩
  | cons line rest ih =>
    have hfirst := s.answer_sameRules line.1 line.2
    have hrest := ih (s.answer line.1 line.2).2
    exact ⟨hfirst.controller.trans hrest.controller, hrest.trustedChannels.trans hfirst.trustedChannels⟩

/-- How a server `now`, which began as `s`, answers a line of a caller on a channel that is not trusted. -/
structure Distrusts (s now : Server Double) (m : Moment) (line caller channel : String) : Prop where
  tool_denied : ∀ tool, Message.ofText? line = some (.tool caller channel tool) →
    ∃ reason, (now.answer m line).1 = .verdict (.deny reason) ∧
      (now.answer m line).1.toJson.member? "allowed" = some (.bool false)
  model_ignored : ∀ complexity inputTokens maxOutput model,
    Message.ofText? line = some (.route caller channel complexity inputTokens maxOutput model) →
    ∀ j line', Json.read? line = some j → Json.read? line' = some j.withoutModel →
      now.answer m line' = now.answer m line
  within_ceiling : ∀ complexity inputTokens maxOutput model,
    Message.ofText? line = some (.route caller channel complexity inputTokens maxOutput model) →
    ∀ d, (now.answer m line).1 = .admitted d → d.escalated = false ∧
      ∃ ceiling, s.controller.router.tiers.ordinalOf?
        (s.controller.resolver.resolve ⟨caller, channel, false⟩).maxTier = some ceiling ∧
        d.tierOrdinal ≤ ceiling
  /-- The record is the one that the server began with. -/
  record_kept : now.controller.capabilities (now.identity caller channel) =
    s.controller.resolver.resolve ⟨caller, channel, false⟩
  /-- It is the same for all callers on all such channels, whatever the tables of callers and channels. -/
  tables_ignored : ∀ users channels users' channels' who, who.trusted = false →
    Resolver.resolve
      { s.controller.resolver with
        global := { s.controller.resolver.global with users, channels }
        workspace := s.controller.resolver.workspace.map fun p =>
          { p with users := users', channels := channels' } } who =
      s.controller.resolver.resolve ⟨caller, channel, false⟩
  /-- Members that are none of the message's own may be added and taken away. -/
  members_ignored : ∀ message line' members members', Message.ofText? line = some message →
    Json.read? line = some (.obj members) → Json.read? line' = some (.obj members') →
    ((Json.obj members').isWithin Message.maxDepth && (Json.obj members').isUsable) = true →
    Agree message.fields members members' → now.answer m line' = now.answer m line

/-- A channel that is not trusted stays so, whatever was answered before. -/
theorem untrusted_answer (before : List (Moment × String)) (line : String)
    (h : channel ∉ s.trustedChannels) : s.Distrusts (s.after before) m line caller channel := by
  have hrules := s.after_sameRules before
  have hnow : channel ∉ (s.after before).trustedChannels := hrules.trustedChannels.symm ▸ h
  generalize s.after before = now at hrules hnow
  refine ⟨?_, ?_, ?_, ?_, ?_, ?_⟩
  · intro tool hline
    obtain ⟨reason, hreply⟩ := now.handle_tool_denied m caller channel tool hnow
    refine ⟨reason, ?_⟩
    unfold answer
    rw [hline]
    exact ⟨hreply, by simp only [hreply]; rfl⟩
  · intro complexity inputTokens maxOutput model hline j line' hread hread'
    have hline' := Message.ofText?_withoutModel line line' j hread hread' hline
    unfold answer
    rw [hline, hline']
    exact (now.handle_route_model m caller channel complexity inputTokens maxOutput model hnow).symm
  · intro complexity inputTokens maxOutput model hline d hd
    unfold answer at hd
    rw [hline] at hd
    have hadmitted := now.handle_route_admitted m caller channel complexity inputTokens maxOutput model d
      hnow hd
    rw [hrules.controller.resolver, hrules.controller.router] at hadmitted
    exact hadmitted
  · rw [identity_untrusted now caller channel hnow]
    exact congrArg (fun r : Resolver Double => r.resolve ⟨caller, channel, false⟩)
      hrules.controller.resolver
  · intro users channels users' channels' who hwho
    refine Resolver.resolve_untrusted_congr _ _ who ⟨caller, channel, false⟩ hwho rfl rfl rfl ?_
    rw [Option.map_map]
    rfl
  · intro message line' members members' hline hread hread' hreadable hagree
    have hline' := Message.ofText?_congr message line line' members members' hread hread' hreadable
      hagree hline
    unfold answer
    rw [hline, hline']

def openDoors : Server Double where
  controller := .ofConfig (fun _ => 0)
    { Config.default with permissions :=
      { users := Dict.empty.insert "alice" { level := some .elevated }
        channels := Dict.empty.insert "slack" { level := some .elevated } } } none
  trustedChannels := ["cli"]

def claimingLine : String :=
  "\x7b\"op\":\"tool\",\"caller\":\"alice\",\"channel\":\"slack\",\"tool\":\"read_file\",\"trusted\":true\x7d"

def choosingLine : String := "[\"route\",\"alice\",\"slack\",0.9,1000,null,\"openai/o1\"]"

theorem untrusted_answer_openDoors :
    let moment : Moment := Router.noon
    "slack" ∉ openDoors.trustedChannels ∧
    (∃ reason, ((openDoors.after [(moment, choosingLine)]).answer moment claimingLine).1 =
      .verdict (.deny reason)) ∧
    ∃ d, (openDoors.answer moment choosingLine).1 = .admitted d ∧ d.tier = "free" ∧
      d.escalated = false := by
  intro moment
  have huntrusted : "slack" ∉ openDoors.trustedChannels := by decide
  have htool : (match Message.ofText? claimingLine with
      | some (.tool caller channel tool) =>
        caller == "alice" && channel == "slack" && tool == "read_file"
      | some (.route ..) | some (.usage ..) | some (.release _) | none => false) = true := by
    decide +kernel
  have hroute : (match Message.ofText? choosingLine with
      | some (.route caller channel ..) => caller == "alice" && channel == "slack"
      | some (.tool ..) | some (.usage ..) | some (.release _) | none => false) = true := by
    decide +kernel
  have hreply : (match (openDoors.answer moment choosingLine).1 with
      | .admitted d => d.tier == "free"
      | .refused _ | .settled _ | .unknownReservation | .released _ | .verdict _ | .badRequest =>
        false) = true := by decide +kernel
  refine ⟨huntrusted, ?_, ?_⟩
  · split at htool
    case h_1 hline =>
      simp only [Bool.and_eq_true, beq_iff_eq] at htool
      obtain ⟨⟨rfl, rfl⟩, rfl⟩ := htool
      obtain ⟨reason, hdenied, -⟩ := (untrusted_answer openDoors moment "alice" "slack"
        [(moment, choosingLine)] claimingLine huntrusted).tool_denied "read_file" hline
      exact ⟨reason, hdenied⟩
    all_goals cases htool
  · split at hroute
    case h_1 hline =>
      simp only [Bool.and_eq_true, beq_iff_eq] at hroute
      obtain ⟨rfl, rfl⟩ := hroute
      split at hreply
      case h_1 d hd =>
        obtain ⟨hcalm, -⟩ := (untrusted_answer openDoors moment "alice" "slack" [] choosingLine
          huntrusted).within_ceiling _ _ _ _ hline d hd
        exact ⟨d, hd, beq_iff_eq.mp hreply, hcalm⟩
      all_goals cases hreply
    all_goals cases hroute

end Server

end Admission
