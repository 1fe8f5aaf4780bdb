import Admission.Proofs.Controller.Step
import Admission.Proofs.Router.Admitted
import Mathlib.Data.List.DropRight
import Mathlib.Data.List.Forall2

/-!
# The audit trail of a run

Every request and every tool check leaves one entry, whatever comes of it. The trail holds the newest
of them in the order of the calls.
-/

namespace Admission

/-! ## The trail -/

namespace Trail

theorem record_entries (t : Trail) (all : List AuditEntry) (h : t.entries = all.rtake t.capacity)
    (e : AuditEntry) : (t.record e).entries = (all ++ [e]).rtake t.capacity := by
  have hpos := t.capacity_pos
  have hlength : t.entries.length = min all.length t.capacity := by
    rw [h, List.rtake, List.length_drop]
    omega
  simp only [record, List.rtake, List.length_append, List.length_singleton] at h ⊢
  rw [List.drop_append_of_le_length (by omega)]
  split
  · next hfull =>
    rw [h, List.drop_drop]
    congr 2
    omega
  · next hfull =>
    rw [h]
    congr 2
    omega

end Trail

namespace Controller

/-! ## Calls and what they leave -/

inductive Call (α : Type) where
  | route (m : Moment) (request : Request α)
  | authorize (now : Timestamp) (who : Identity) (tool : String)
  | check (now : Timestamp) (caps : Option (Capabilities α)) (tool : String)

inductive Answer (α : Type) where
  | routed (result : Except (Refusal α) (Decision α))
  | judged (verdict : ToolVerdict)

namespace Call

variable {α : Type}

def time : Call α → Timestamp
  | route m _ => m.time
  | authorize now .. | check now .. => now

def key : Call α → String
  | route _ request => request.identity.key
  | authorize _ who _ => who.key
  | check .. => "unresolved"

end Call

def Answer.outcome {α : Type} : Answer α → Outcome
  | .routed (.ok _) | .judged .allow => .allowed
  | .routed (.error _) | .judged (.deny _) => .denied

structure Exchange (α : Type) where
  call : Call α
  answer : Answer α

variable {α : Type}

inductive Exchange.About : Exchange α → AuditEvent → Prop
  | decision (m : Moment) (request : Request α) (d : Decision α) :
    About ⟨.route m request, .routed (.ok d)⟩ (.routeDecision d.tier d.model)
  | refusal (m : Moment) (request : Request α) (refusal : Refusal α) :
    About ⟨.route m request, .routed (.error refusal)⟩ (.routeDenied refusal.kind)
  | authorized (now : Timestamp) (who : Identity) (tool : String) (verdict : ToolVerdict) :
    About ⟨.authorize now who tool, .judged verdict⟩ (.toolCheck (Text.trim tool))
  | checked (now : Timestamp) (caps : Option (Capabilities α)) (tool : String)
      (verdict : ToolVerdict) :
    About ⟨.check now caps tool, .judged verdict⟩ (.toolCheck (Text.trim tool))

/-- The entry of an exchange tells who called and when, what came of it, and what it was about. -/
structure Exchange.Entry (x : Exchange α) (e : AuditEntry) : Prop where
  timestamp : e.timestamp = x.call.time
  identity : e.identity = x.call.key
  outcome : e.outcome = x.answer.outcome
  event : x.About e.event

/-- A controller with the calls that it answered. -/
structure Transcript (α : Type) where
  controller : Controller α
  exchanges : List (Exchange α)

def audited (c : Controller α) (capacity : Nat) : Controller α :=
  { c with trail := some (.new capacity) }

variable [Amount α] [Recordable α]

def answer (c : Controller α) : Call α → Answer α × Controller α
  | .route m request => let (result, c) := c.route m request; (.routed result, c)
  | .authorize now who tool => let (verdict, c) := c.authorizeTool now who tool; (.judged verdict, c)
  | .check now caps tool => let (verdict, c) := c.checkTool now caps tool; (.judged verdict, c)

def Transcript.next (s : Transcript α) (call : Call α) : Transcript α where
  controller := (s.controller.answer call).2
  exchanges := s.exchanges ++ [⟨call, (s.controller.answer call).1⟩]

def transcript (c : Controller α) (calls : List (Call α)) : Transcript α :=
  calls.foldl Transcript.next ⟨c, []⟩

/-- The newest `n` exchanges, in their order. -/
def Transcript.latest (s : Transcript α) (n : Nat) : List (Exchange α) :=
  s.exchanges.rtake n

theorem transcript_append_singleton (c : Controller α) (calls : List (Call α)) (call : Call α) :
    c.transcript (calls ++ [call]) = (c.transcript calls).next call := by
  simp [transcript]

theorem transcript_calls (c : Controller α) (calls : List (Call α)) :
    (c.transcript calls).exchanges.map (·.call) = calls := by
  induction calls using List.reverseRecOn with
  | nil => rfl
  | append_singleton calls call ih => simp [transcript_append_singleton, Transcript.next, ih]

/-! ## One call -/

variable (c : Controller α)

theorem route_decides_for (m : Moment) (request : Request α) (d : Decision α)
    (h : (c.route m request).1 = .ok d) : d.identity = request.identity ∧ d.decidedAt = m.time := by
  obtain ⟨a, ha, rfl⟩ := c.routed_of_ok m request d h
  obtain ⟨ceiling, candidate, -, -, hdecision⟩ := c.router.admitted_candidate m request _ c.desk a ha
  rw [hdecision]
  exact ⟨rfl, rfl⟩

theorem route_trail (m : Moment) (request : Request α) :
    ∃ e, (c.route m request).2.trail = c.trail.map (·.record e) ∧
      (Exchange.mk (.route m request) (.routed (c.route m request).1)).Entry e := by
  have hfor := c.route_decides_for m request
  rw [route_eq] at hfor ⊢
  generalize c.router.route m request (c.capabilities request.identity) c.desk = routed at hfor ⊢
  rcases routed with ⟨refusal | a, desk⟩
  · exact ⟨_, rfl, rfl, rfl, rfl, .refusal m request refusal⟩
  · obtain ⟨hidentity, htime⟩ := hfor a.decision rfl
    exact ⟨_, rfl, htime, congrArg Identity.key hidentity, rfl, .decision m request a.decision⟩

omit [Amount α] [Recordable α] in
theorem outcome_judged (verdict : ToolVerdict) :
    (Answer.judged verdict : Answer α).outcome = if verdict.isAllowed then .allowed else .denied := by
  cases verdict with
  | allow => rfl
  | deny reason => rfl

theorem answer_trail (call : Call α) :
    ∃ e, (c.answer call).2.trail = c.trail.map (·.record e) ∧
      (Exchange.mk call (c.answer call).1).Entry e := by
  cases call with
  | route m request => exact c.route_trail m request
  | authorize now who tool =>
    exact ⟨_, rfl, rfl, rfl, (outcome_judged _).symm, .authorized now who tool _⟩
  | check now caps tool =>
    exact ⟨_, rfl, rfl, rfl, (outcome_judged _).symm, .checked now caps tool _⟩

/-! ## Whole transcripts -/

variable (capacity : Nat) (calls : List (Call α))

theorem transcript_trail :
    ∃ t all, ((c.audited capacity).transcript calls).controller.trail = some t ∧
      t.capacity = max capacity 1 ∧ t.entries = all.rtake t.capacity ∧
      List.Forall₂ Exchange.Entry ((c.audited capacity).transcript calls).exchanges all := by
  induction calls using List.reverseRecOn with
  | nil => exact ⟨.new capacity, [], rfl, rfl, by simp [Trail.new], .nil⟩
  | append_singleton calls call ih =>
    obtain ⟨t, all, htrail, hcapacity, hentries, hall⟩ := ih
    rw [transcript_append_singleton]
    generalize (c.audited capacity).transcript calls = s at htrail hall ⊢
    obtain ⟨e, he, hentry⟩ := s.controller.answer_trail call
    rw [htrail] at he
    exact ⟨t.record e, all ++ [e], he, hcapacity, t.record_entries all hentries e,
      List.rel_append hall (.cons hentry .nil)⟩

/-- A trail that starts empty holds the entries of the last calls, one for each and in their order;
those of one outcome are the entries of the calls that ended so. -/
theorem trail_complete :
    ((c.audited capacity).transcript calls).exchanges.map (·.call) = calls ∧
    ∃ t, ((c.audited capacity).transcript calls).controller.trail = some t ∧
      t.entries.length = min calls.length (max 1 capacity) ∧
      List.Forall₂ Exchange.Entry (((c.audited capacity).transcript calls).latest t.entries.length)
        t.entries ∧
      ∀ outcome, t.byOutcome outcome = t.entries.filter (fun e => e.outcome = outcome) ∧
        List.Forall₂ Exchange.Entry
          ((((c.audited capacity).transcript calls).latest t.entries.length).filter
            fun x => x.answer.outcome = outcome)
          (t.byOutcome outcome) := by
  have hcalls := (c.audited capacity).transcript_calls calls
  obtain ⟨t, all, htrail, hcapacity, hentries, hall⟩ := c.transcript_trail capacity calls
  generalize (c.audited capacity).transcript calls = s at hcalls htrail hall ⊢
  have hlength : s.exchanges.length = calls.length := by rw [← hcalls, List.length_map]
  have hall_length : s.exchanges.length = all.length := hall.length_eq
  have hkept_length : t.entries.length = min calls.length (max 1 capacity) := by
    rw [hentries, List.rtake, List.length_drop]
    omega
  have hkept : List.Forall₂ Exchange.Entry (s.latest t.entries.length) t.entries := by
    have hend : all.length - t.capacity = s.exchanges.length - t.entries.length := by omega
    rw [Transcript.latest, List.rtake, ← hend, hentries, List.rtake]
    exact List.forall₂_drop _ hall
  refine ⟨hcalls, t, htrail, hkept_length, hkept, fun outcome => ⟨rfl, ?_⟩⟩
  refine List.rel_filter (fun x e hentry => ?_) hkept
  simp [hentry.outcome]

end Controller

end Admission
