import Admission.Proofs.Ledger.OneDay
import Admission.Proofs.Router.Cases

/-!
# What a request leaves open

An admitted request leaves one reservation more, and its decision says how much is held and how that is
priced. A request that is turned away leaves none.
-/

namespace Admission

/-- A reservation that an admitted request holds. -/
structure Decision.Backs {α : Type} [Amount α] (r : Router α) (request : Request α) (d : Decision α)
    (held : Reservation α) : Prop where
  id : held.id = d.reservation
  key : held.key = request.identity.key
  amount : held.amount = Amount.sanitize d.costEstimate
  priced : ∃ tier ∈ r.tiers.toList, held.basis = some ⟨d.model, tier.costPer1k⟩ ∧
    d.costEstimate = r.estimate tier request.inputTokens d.maxOutputTokens

namespace Router

section

variable {α : Type} [Amount α] {r : Router α} {m : Moment} {request : Request α}
  {caps : Capabilities α} {desk desk' : Desk α}

theorem RefusedTry.exists_reserve {l l' : Ledger α} (h : r.RefusedTry m request caps l l') :
    ∃ estimate basis, (∃ rejection,
        (l.reserve m.id request.identity caps estimate basis m.time).1 = .error rejection) ∧
      l' = (l.reserve m.id request.identity caps estimate basis m.time).2 := by
  obtain ⟨tier, model, rejection, hreserve⟩ := h
  exact ⟨_, _, ⟨rejection, congrArg Prod.fst hreserve⟩, (congrArg Prod.snd hreserve).symm⟩

theorem RefusedTry.pending_eq {l l' : Ledger α} (h : r.RefusedTry m request caps l l') :
    l'.pending = (l.prepared m.time).pending := by
  obtain ⟨estimate, basis, hrejected, rfl⟩ := h.exists_reserve
  obtain ⟨global, -, hl⟩ := l.reserve_rejected _ _ _ _ _ _ hrejected
  rw [hl]
  rfl

theorem refused_pending {l l' : Ledger α}
    (h : Relation.ReflTransGen (r.RefusedTry m request caps) l l') : l'.pending.Sublist l.pending := by
  induction h with
  | refl => exact .refl _
  | @tail between last _ hlast ih =>
    rw [hlast.pending_eq]
    exact (between.prepared_pending m.time).trans ih

theorem Reserved.mem_pending {c : Candidate α}
    (h : r.Reserved m request caps c.tier c.model c.estimate desk desk') (ceiling : Nat)
    (hc : c.Sound r request caps ceiling) (held : Reservation α) (hheld : held ∈ desk'.ledger.pending) :
    held ∈ desk.ledger.pending ∨ (c.decision m request caps).Backs r request held := by
  obtain ⟨between, htried, hreserve⟩ := h
  rcases r.reserve_cases m request caps c.tier c.model between with ⟨_, _, -, heq⟩ | ⟨l, hl, heq⟩
  · rw [heq] at hreserve
    cases hreserve
  · rw [heq, Prod.mk.injEq, Except.ok.injEq] at hreserve
    obtain ⟨hcost, rfl⟩ := hreserve
    rcases between.ledger.mem_reserve m.id m.time request.identity caps _ _ held
      (by rw [hl]; exact hheld) with hold | ⟨-, hid, hkey, hamount, -, hbasis⟩
    · exact Or.inl ((refused_pending htried.ledger).subset hold)
    · rw [hcost] at hamount
      exact Or.inr ⟨hid, hkey, hamount, c.tier, hc.tier, hbasis, hcost.symm⟩

variable (r m request caps desk)

theorem mem_route (held : Reservation α)
    (hheld : held ∈ (r.route m request caps desk).2.ledger.pending) :
    held ∈ desk.ledger.pending ∨ ∃ a, (r.route m request caps desk).1 = .ok a ∧
      a.decision.Backs r request held := by
  rcases r.route_cases m request caps desk with
    ⟨refusal, desk', heq, -, htried⟩ | ⟨ceiling, -, c, desk', hc, hreserved, heq⟩
  · rw [heq] at hheld
    exact Or.inl ((refused_pending htried.ledger).subset hheld)
  · rw [heq] at hheld ⊢
    rcases conclude_cases m request caps c desk' with ⟨-, hconclude⟩ | ⟨-, hconclude⟩
    · rw [hconclude] at hheld ⊢
      exact (hreserved.mem_pending ceiling hc held hheld).imp id fun hbacks => ⟨_, rfl, hbacks⟩
    · -- The release takes back the one reservation that the request has made.
      rw [hconclude] at hheld
      obtain ⟨hopen, hid⟩ := desk'.ledger.mem_reconcile m.id m.time 0 held hheld
      refine Or.inl ((hreserved.mem_pending ceiling hc held hopen).resolve_right fun hbacks => ?_)
      exact hid hbacks.id

end

/-! ## The day of one key -/

/-- A request under a fresh id which, if it comes under the key, comes with a daily budget within the
cap. -/
structure Fits (key : String) (cap : Rat) (m : Moment) (request : Request Rat) (caps : Capabilities Rat)
    (l : Ledger Rat) : Prop where
  budget : request.identity.key = key → 0 < caps.dailyBudget ∧ caps.dailyBudget ≤ cap
  fresh : ∀ held ∈ l.pending, held.id ≠ m.id

variable {r : Router Rat} {m : Moment} {request : Request Rat} {caps : Capabilities Rat}
  {desk desk' : Desk Rat} {key : String} {cap : Rat} {l l' : Ledger Rat}

theorem Fits.mono (h : Fits key cap m request caps l) (hpending : l'.pending ⊆ l.pending) :
    Fits key cap m request caps l' :=
  ⟨h.budget, fun held hheld => h.fresh held (hpending hheld)⟩

theorem Fits.reserve_keepsDay (h : Fits key cap m request caps l) (estimate : Rat)
    (basis : Option (PriceBasis Rat)) (hday : l.KeepsDay key cap) :
    (l.reserve m.id request.identity caps estimate basis m.time).2.KeepsDay key cap :=
  hday.reserve m.id request.identity caps estimate basis m.time h.budget h.fresh

theorem refused_keepsDay (h : Relation.ReflTransGen (r.RefusedTry m request caps) l l')
    (hfits : Fits key cap m request caps l) (hday : l.KeepsDay key cap) : l'.KeepsDay key cap := by
  induction h with
  | refl => exact hday
  | tail hfirst hlast ih =>
    obtain ⟨tier, model, rejection, hreserve⟩ := hlast
    have hnext := (hfits.mono (refused_pending hfirst).subset).reserve_keepsDay
      (r.estimate tier request.inputTokens (outputCap request caps)) (some ⟨model, tier.costPer1k⟩) ih
    rw [hreserve] at hnext
    exact hnext

theorem Reserved.keepsDay {tier : Tier Rat} {model : String} {cost : Rat}
    (h : r.Reserved m request caps tier model cost desk desk')
    (hfits : Fits key cap m request caps desk.ledger) (hday : desk.ledger.KeepsDay key cap) :
    desk'.ledger.KeepsDay key cap := by
  obtain ⟨between, htried, hreserve⟩ := h
  have hbetween := refused_keepsDay htried.ledger hfits hday
  rcases r.reserve_cases m request caps tier model between with ⟨_, _, -, heq⟩ | ⟨l, hl, heq⟩
  · rw [heq] at hreserve
    cases hreserve
  · have hnext := (hfits.mono (refused_pending htried.ledger).subset).reserve_keepsDay
      (r.estimate tier request.inputTokens (outputCap request caps)) (some ⟨model, tier.costPer1k⟩)
      hbetween
    rw [hl] at hnext
    rw [heq] at hreserve
    cases hreserve
    exact hnext

theorem route_keepsDay (hfits : Fits key cap m request caps desk.ledger)
    (hday : desk.ledger.KeepsDay key cap) :
    (r.route m request caps desk).2.ledger.KeepsDay key cap := by
  rcases r.route_cases m request caps desk with
    ⟨refusal, desk', heq, -, htried⟩ | ⟨ceiling, -, c, desk', -, hreserved, heq⟩
  · rw [heq]
    exact refused_keepsDay htried.ledger hfits hday
  · have hheld := hreserved.keepsDay hfits hday
    rw [heq]
    rcases conclude_cases m request caps c desk' with ⟨-, hconclude⟩ | ⟨-, hconclude⟩
    · rw [hconclude]
      exact hheld
    · rw [hconclude]
      exact hheld.release m.id m.time

end Router

end Admission
