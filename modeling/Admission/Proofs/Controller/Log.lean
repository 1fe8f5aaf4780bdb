import Admission.Proofs.Controller.Step
import Admission.Proofs.Router.Admitted
import Admission.Proofs.Router.Reserved

/-!
# Runs of the controller

Agents route requests, report what they used and give reservations up. The log of a run keeps what was
admitted, and every open reservation belongs to one of these decisions.
-/

namespace Admission.Controller

/-- One call of an agent. -/
inductive Act (α : Type) where
  | route (m : Moment) (request : Request α)
  | report (now : Timestamp) (id : ReservationId) (input output : Nat)
  | release (now : Timestamp) (id : ReservationId)

def Act.newId? {α : Type} : Act α → Option ReservationId
  | route m _ => some m.id
  | report .. | release .. => none

/-- A controller and the requests that were admitted, with their decisions. -/
structure Log (α : Type) where
  controller : Controller α
  admitted : List (Request α × Decision α)

variable {α : Type} [Amount α] [Recordable α]

def Log.act (log : Log α) : Act α → Log α
  | .route m request =>
    { controller := (log.controller.route m request).2
      admitted := match (log.controller.route m request).1 with
        | .ok d => log.admitted ++ [(request, d)]
        | .error _ => log.admitted }
  | .report now id input output =>
    { log with controller := (log.controller.reportUsage now id input output).2 }
  | .release now id => { log with controller := (log.controller.release now id).2 }

def log (c : Controller α) (acts : List (Act α)) : Log α := acts.foldl Log.act ⟨c, []⟩

theorem log_append_singleton (c : Controller α) (acts : List (Act α)) (act : Act α) :
    c.log (acts ++ [act]) = (c.log acts).act act := by
  simp [log]

/-! ## One act -/

variable (c : Controller α) (m : Moment) (request : Request α)

theorem route_ledger :
    (c.route m request).2.desk.ledger =
      ((c.router.route m request (c.capabilities request.identity) c.desk).2.ledger.usage
        request.identity (c.capabilities request.identity) m.time).2 := by
  rw [route_eq]
  rcases c.router.route m request (c.capabilities request.identity) c.desk with ⟨refusal | a, desk⟩
  · rfl
  · rfl

theorem mem_route (held : Reservation α) (hheld : held ∈ (c.route m request).2.desk.ledger.pending) :
    held ∈ c.desk.ledger.pending ∨ ∃ d, (c.route m request).1 = .ok d ∧
      d.Backs c.router request held := by
  rw [route_ledger, Ledger.usage, Ledger.usageOfKey_eq] at hheld
  rcases c.router.mem_route m request _ c.desk held hheld with hold | ⟨a, ha, hbacks⟩
  · exact Or.inl hold
  · refine Or.inr ⟨a.decision, ?_, hbacks⟩
    rw [route_eq]
    rcases hroute : c.router.route m request (c.capabilities request.identity) c.desk with
      ⟨refusal | a', desk⟩
    · rw [hroute] at ha
      cases ha
    · rw [hroute] at ha
      cases ha
      rfl

omit [Recordable α] in
theorem mem_reportUsage (now : Timestamp) (id : ReservationId) (input output : Nat)
    (held : Reservation α) (hheld : held ∈ (c.reportUsage now id input output).2.desk.ledger.pending) :
    held ∈ c.desk.ledger.pending := by
  unfold reportUsage at hheld
  split at hheld
  · exact hheld
  · exact (c.desk.ledger.mem_reconcile id now _ held hheld).1

theorem route_reservation (d : Decision α) (h : (c.route m request).1 = .ok d) :
    d.reservation = m.id := by
  obtain ⟨a, ha, rfl⟩ := c.routed_of_ok m request d h
  obtain ⟨ceiling, candidate, -, -, hdecision⟩ := c.router.admitted_candidate m request _ c.desk a ha
  rw [hdecision]
  rfl

theorem Log.act_sameRules (log : Log α) (act : Act α) :
    log.controller.SameRules (log.act act).controller := by
  cases act with
  | route m request => exact log.controller.route_sameRules m request
  | report now id input output => exact log.controller.reportUsage_sameRules now id input output
  | release now id => exact log.controller.release_sameRules now id

theorem Log.act_admitted (log : Log α) (act : Act α) : log.admitted <+: (log.act act).admitted := by
  cases act with
  | route m request =>
    simp only [Log.act]
    split
    · exact List.prefix_append _ _
    · exact List.prefix_refl _
  | report => exact List.prefix_refl _
  | release => exact List.prefix_refl _

theorem Log.admitted_act (log : Log α) (act : Act α) (entry : Request α × Decision α)
    (h : entry ∈ (log.act act).admitted) :
    entry ∈ log.admitted ∨ ∃ m, act = .route m entry.1 ∧ entry.2.reservation = m.id := by
  cases act with
  | route m request =>
    simp only [Log.act] at h
    split at h
    · next d hd =>
      rcases List.mem_append.mp h with hold | hnew
      · exact Or.inl hold
      · rw [List.mem_singleton.mp hnew]
        exact Or.inr ⟨m, rfl, log.controller.route_reservation m request d hd⟩
    · exact Or.inl h
  | report => exact Or.inl h
  | release => exact Or.inl h

/-! ## Whole runs -/

variable (acts : List (Act α))

theorem log_sameRules : c.SameRules (c.log acts).controller := by
  induction acts using List.reverseRecOn with
  | nil => exact .refl c
  | append_singleton acts act ih =>
    rw [log_append_singleton]
    exact ih.trans ((c.log acts).act_sameRules act)

theorem log_admitted_mono (before : List (Act α)) (h : before <+: acts) :
    (c.log before).admitted <+: (c.log acts).admitted := by
  obtain ⟨later, rfl⟩ := h
  induction later using List.reverseRecOn with
  | nil => rw [List.append_nil]
  | append_singleton later act ih =>
    rw [← List.append_assoc, log_append_singleton]
    exact ih.trans ((c.log (before ++ later)).act_admitted act)

theorem log_routed (entry : Request α × Decision α) (h : entry ∈ (c.log acts).admitted) :
    ∃ m, .route m entry.1 ∈ acts ∧ entry.2.reservation = m.id := by
  induction acts using List.reverseRecOn with
  | nil => cases h
  | append_singleton acts act ih =>
    rw [log_append_singleton] at h
    rcases (c.log acts).admitted_act act entry h with hold | ⟨m, rfl, hid⟩
    · obtain ⟨m, hm, hid⟩ := ih hold
      exact ⟨m, List.mem_append_left _ hm, hid⟩
    · exact ⟨m, by simp, hid⟩

/-- Every open reservation is held by a request of the log. -/
theorem log_backed (hopen : c.desk.ledger.pending = []) (held : Reservation α)
    (hheld : held ∈ (c.log acts).controller.desk.ledger.pending) :
    ∃ entry ∈ (c.log acts).admitted, entry.2.Backs c.router entry.1 held := by
  induction acts using List.reverseRecOn with
  | nil =>
    rw [log, List.foldl_nil, hopen] at hheld
    cases hheld
  | append_singleton acts act ih =>
    rw [log_append_singleton] at hheld ⊢
    -- Nothing is struck out of the log, so what was open before still has its request in it.
    have hold (h : held ∈ (c.log acts).controller.desk.ledger.pending) :
        ∃ entry ∈ ((c.log acts).act act).admitted, entry.2.Backs c.router entry.1 held := by
      obtain ⟨entry, hentry, hbacks⟩ := ih h
      exact ⟨entry, ((c.log acts).act_admitted act).subset hentry, hbacks⟩
    cases act with
    | route m request =>
      rcases (c.log acts).controller.mem_route m request held hheld with h | ⟨d, hd, hbacks⟩
      · exact hold h
      · rw [(c.log_sameRules acts).router] at hbacks
        exact ⟨(request, d), by simp [Log.act, hd], hbacks⟩
    | report now id input output =>
      exact hold ((c.log acts).controller.mem_reportUsage now id input output held hheld)
    | release now id =>
      exact hold ((c.log acts).controller.desk.ledger.mem_reconcile id now 0 held hheld).1

end Admission.Controller
