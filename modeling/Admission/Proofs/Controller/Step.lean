import Admission.Controller

/-!
# Steps of the controller

What the calls of the controller do to the desk is done by the router and the ledger. The permissions
and the settings stay as they are.
-/

namespace Admission.Controller

variable {α : Type} [Amount α] [Recordable α] (c : Controller α) (m : Moment) (request : Request α)

def afterDecision (a : Admitted α) (desk : Desk α) : Controller α :=
  let caps := c.capabilities request.identity
  let (remaining, desk) := dailyRemaining request.identity caps m.time desk
  { c with desk }.record (.ofDecision a.decision caps a.rate.remaining remaining)

def afterRefusal (refusal : Refusal α) (desk : Desk α) : Controller α :=
  let caps := c.capabilities request.identity
  let (details, desk) := denialDetails c.router m request caps desk
  { c with desk }.record (.ofRefusal m.time request.identity caps refusal details)

theorem route_eq :
    c.route m request =
      match c.router.route m request (c.capabilities request.identity) c.desk with
      | (.ok a, desk) => (.ok a.decision, c.afterDecision m request a desk)
      | (.error refusal, desk) => (.error refusal, c.afterRefusal m request refusal desk) := rfl

theorem routed_of_ok (d : Decision α) (h : (c.route m request).1 = .ok d) :
    ∃ a, (c.router.route m request (c.capabilities request.identity) c.desk).1 = .ok a ∧
      a.decision = d := by
  rw [route_eq] at h
  rcases hroute : c.router.route m request (c.capabilities request.identity) c.desk with
    ⟨refusal | a, desk⟩
  · rw [hroute] at h
    cases h
  · rw [hroute] at h
    cases h
    exact ⟨a, rfl, rfl⟩

theorem route_error_iff (refusal : Refusal α) :
    (c.route m request).1 = .error refusal ↔
      (c.router.route m request (c.capabilities request.identity) c.desk).1 = .error refusal := by
  rw [route_eq]
  rcases c.router.route m request (c.capabilities request.identity) c.desk with ⟨refusal' | a, desk⟩
  · simp
  · simp

/-- Two controllers that grant and route by the same rules. -/
structure SameRules (c c' : Controller α) : Prop where
  resolver : c'.resolver = c.resolver
  router : c'.router = c.router

omit [Amount α] [Recordable α] in
theorem SameRules.refl : c.SameRules c := ⟨rfl, rfl⟩

omit [Amount α] [Recordable α] in
variable {c} in
theorem SameRules.trans {c' c'' : Controller α} (h : c.SameRules c') (h' : c'.SameRules c'') :
    c.SameRules c'' :=
  ⟨h'.resolver.trans h.resolver, h'.router.trans h.router⟩

theorem route_sameRules : c.SameRules (c.route m request).2 := by
  rw [route_eq]
  rcases c.router.route m request (c.capabilities request.identity) c.desk with ⟨refusal | a, desk⟩
  · exact ⟨rfl, rfl⟩
  · exact ⟨rfl, rfl⟩

omit [Recordable α] in
theorem reportUsage_sameRules (now : Timestamp) (id : ReservationId) (input output : Nat) :
    c.SameRules (c.reportUsage now id input output).2 := by
  unfold reportUsage
  split
  · exact ⟨rfl, rfl⟩
  · exact ⟨rfl, rfl⟩

omit [Recordable α] in
theorem release_sameRules (now : Timestamp) (id : ReservationId) : c.SameRules (c.release now id).2 :=
  ⟨rfl, rfl⟩

end Admission.Controller
