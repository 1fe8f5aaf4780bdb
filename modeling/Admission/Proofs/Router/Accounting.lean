import Admission.Proofs.Ledger.Balances
import Admission.Proofs.Ledger.Undoing
import Admission.Proofs.Rate.Recorded
import Admission.Proofs.Router.Admitted
import Admission.Proofs.Router.Reserved

/-!
# What a request is accounted for

An admitted request leaves one reservation more and one request more in the window of its caller. A
request that is turned away leaves neither, whatever was tried for it. The amount that is held is the
estimated cost where that is finite and not negative, and nothing otherwise.
-/

namespace Admission

/-- A reservation that a decision is accounted for with. Its amount is the estimate of the decision exactly
where that is finite and not negative. -/
structure Decision.Accounts (r : Router Double) (request : Request Double) (d : Decision Double)
    (held : Reservation Double) : Prop where
  id : held.id = d.reservation
  key : held.key = request.identity.key
  amount_iff : (held.amount ≤ d.costEstimate ∧ d.costEstimate ≤ held.amount) ↔
    d.costEstimate.isFinite = true ∧ 0 ≤ d.costEstimate
  amount_of_not : ¬ (d.costEstimate.isFinite = true ∧ 0 ≤ d.costEstimate) → held.amount = 0
  basis : ∃ tier ∈ r.tiers.toList, tier.name = d.tier ∧ tier.ordinal = d.tierOrdinal ∧
    held.basis = some ⟨d.model, tier.costPer1k⟩

/-! ## What is held for an estimate -/

namespace Double

theorem isFinite_of_zero (x : Double) (hle : x ≤ 0) (hge : 0 ≤ x) : x.isFinite = true := by
  have hone : (0 : Double) < 1.0 := by decide +kernel
  exact isFinite_of_lt x 1.0 hge (Double.lt_of_le_of_lt x 0 1.0 hle hone)

theorem sanitize_eq_iff (x : Double) :
    (Amount.sanitize x ≤ x ∧ x ≤ Amount.sanitize x) ↔ x.isFinite = true ∧ 0 ≤ x := by
  constructor
  · rintro ⟨hle, hge⟩
    have hpos : 0 ≤ x := Double.le_trans 0 (Amount.sanitize x) x (sanitize_nonneg x) hle
    refine ⟨?_, hpos⟩
    by_contra hfinite
    have hzero : Amount.sanitize x = 0 := if_neg hfinite
    rw [hzero] at hge
    exact hfinite (isFinite_of_zero x hge hpos)
  · rintro ⟨hfinite, hpos⟩
    have hlarger : Amount.sanitize x = Amount.larger x 0 := if_pos hfinite
    rw [hlarger, Amount.larger]
    split
    · next hzero => exact ⟨hpos, hzero⟩
    · have hself : x ≤ x := (defined_of_le 0 x hpos).2
      rw [if_pos hself]
      exact ⟨hself, hself⟩

theorem sanitize_eq_zero (x : Double) (h : ¬ (x.isFinite = true ∧ 0 ≤ x)) : Amount.sanitize x = 0 := by
  unfold Amount.sanitize
  split
  · next hfinite =>
    have hneg : ¬ 0 ≤ x := fun hpos => h ⟨hfinite, hpos⟩
    unfold Amount.larger
    split
    · rfl
    · next hnot =>
      -- A defined number is one or the other, so this one is not defined.
      have hself : ¬ x ≤ x := fun hself => hnot (Double.le_of_not_le 0 x zero_le_zero hself hneg)
      rw [if_neg hself]
  · rfl

end Double

/-! ## What stays open -/

namespace Ledger

variable {α : Type} [Amount α]

/-- What was open is still open, but for what made room. Where there was room, that is nothing. -/
structure Leaves (l : Ledger α) (t : Timestamp) (kept : List (Reservation α)) : Prop where
  sublist : kept.Sublist l.pending
  all : l.Ready t → kept = l.pending

variable (l : Ledger α) (id : ReservationId) (who : Identity) (caps : Capabilities α) (estimate : α)
  (basis : Option (PriceBasis α)) (t : Timestamp)

theorem prepared_leaves : l.Leaves t (l.prepared t).pending := by
  refine ⟨l.prepared_pending t, fun hready => ?_⟩
  rw [l.prepared_eq t hready.month hready.room]
  rfl

theorem reserve_accepted_leaves (haccepted : (l.reserve id who caps estimate basis t).1 = .ok ()) :
    ∃ kept held, l.Leaves t kept ∧ (l.reserve id who caps estimate basis t).2.pending = kept ++ [held] ∧
      (Call.reserve id who caps estimate basis t).Makes held := by
  refine ⟨(l.prepared t).pending, ?_⟩
  rw [reserve_eq] at haccepted ⊢
  rcases (l.prepared t).enroll_cases id who caps (Amount.sanitize estimate) basis t (l.periodsAt t) with
    ⟨_, _, -, -, he⟩ | ⟨held, hid, hkey, hamount, ht, hbasis, -, -, -, he⟩
  · rw [he] at haccepted
    cases haccepted
  · rw [he]
    exact ⟨held, l.prepared_leaves t, rfl, hid, hkey, hamount, ht, hbasis⟩

theorem reserve_rejected_ready (hready : l.Ready t)
    (hrejected : ∃ rejection, (l.reserve id who caps estimate basis t).1 = .error rejection) :
    (l.reserve id who caps estimate basis t).2.Ready t ∧
      (l.reserve id who caps estimate basis t).2.pending = l.pending := by
  obtain ⟨global, -, hl⟩ := l.reserve_rejected id who caps estimate basis t hrejected
  rw [l.prepared_eq t hready.month hready.room] at hl
  rw [hl]
  have htouched := l.put_touched (l.periodsAt t) who.key ((l.row who.key).roll (l.periodsAt t)) global
    hready.sound l.pending l.dirty
  exact ⟨htouched.ready rfl hready, rfl⟩

theorem reserve_released_leaves (hfresh : ∀ held ∈ l.pending, held.id ≠ id)
    (haccepted : (l.reserve id who caps estimate basis t).1 = .ok ()) :
    l.Leaves t ((l.reserve id who caps estimate basis t).2.release id t).2.pending := by
  refine ⟨(l.reserve_released_pending id who caps estimate basis t hfresh haccepted).trans
    (l.prepared_pending t), fun hready => ?_⟩
  -- No month opens between the two, so the release settles the one reservation that was made.
  obtain ⟨r, rfl, -, -, -, htouched, hpending⟩ :=
    l.reserve_accepted_touched id who caps estimate basis t hready haccepted
  have hmonth : ((l.reserve r.id who caps estimate basis t).2.periodsAt t).month ≤
      (l.reserve r.id who caps estimate basis t).2.clock.month := by
    rw [htouched.periodsAt t, htouched.clock]
    exact hready.month.trans (le_max_left _ _)
  exact (release_touched _ t htouched.sound hmonth l.pending r hpending hfresh).2

end Ledger

/-! ## What a request leaves open -/

namespace Router

section

variable {α : Type} [Amount α] {r : Router α} {m : Moment} {request : Request α}
  {caps : Capabilities α} {desk desk' : Desk α} {l l' : Ledger α}

theorem refused_ready (hready : l.Ready m.time)
    (h : Relation.ReflTransGen (r.RefusedTry m request caps) l l') :
    l'.Ready m.time ∧ l'.pending = l.pending := by
  induction h with
  | refl => exact ⟨hready, rfl⟩
  | @tail between last _ hlast ih =>
    obtain ⟨hbetween, hpending⟩ := ih
    obtain ⟨estimate, basis, hrejected, rfl⟩ := hlast.exists_reserve
    obtain ⟨hnext, hsame⟩ := between.reserve_rejected_ready _ _ _ _ _ _ hbetween hrejected
    exact ⟨hnext, hsame.trans hpending⟩

theorem leaves_of_refused {kept : List (Reservation α)}
    (h : Relation.ReflTransGen (r.RefusedTry m request caps) l l') (hkept : l'.Leaves m.time kept) :
    l.Leaves m.time kept := by
  refine ⟨hkept.sublist.trans (refused_pending h), fun hready => ?_⟩
  obtain ⟨hready', hpending⟩ := refused_ready hready h
  exact (hkept.all hready').trans hpending

theorem Tried.leaves (h : r.Tried m request caps desk desk') :
    desk.ledger.Leaves m.time desk'.ledger.pending :=
  leaves_of_refused h.ledger ⟨.refl _, fun _ => rfl⟩

theorem Reserved.exists_reserve {tier : Tier α} {model : String} {cost : α}
    (h : r.Reserved m request caps tier model cost desk desk') :
    ∃ between, r.Tried m request caps desk between ∧ desk'.limiter = desk.limiter ∧
      between.ledger.reserve m.id request.identity caps cost (some ⟨model, tier.costPer1k⟩) m.time =
        (.ok (), desk'.ledger) := by
  obtain ⟨between, htried, hreserve⟩ := h
  refine ⟨between, htried, ?_⟩
  rcases r.reserve_cases m request caps tier model between with ⟨_, _, -, heq⟩ | ⟨l, hl, heq⟩
  · rw [heq] at hreserve
    cases hreserve
  · rw [heq] at hreserve
    cases hreserve
    exact ⟨htried.limiter, hl⟩

theorem Reserved.exists_held {tier : Tier α} {model : String} {cost : α}
    (h : r.Reserved m request caps tier model cost desk desk') :
    ∃ kept held, desk.ledger.Leaves m.time kept ∧ desk'.ledger.pending = kept ++ [held] ∧
      (Ledger.Call.reserve m.id request.identity caps cost (some ⟨model, tier.costPer1k⟩)
        m.time).Makes held := by
  obtain ⟨between, htried, -, hreserve⟩ := h.exists_reserve
  obtain ⟨kept, held, hkept, hpending, hmakes⟩ := between.ledger.reserve_accepted_leaves m.id
    request.identity caps cost (some ⟨model, tier.costPer1k⟩) m.time (congrArg Prod.fst hreserve)
  rw [hreserve] at hpending
  exact ⟨kept, held, leaves_of_refused htried.ledger hkept, hpending, hmakes⟩

theorem Reserved.released_leaves {tier : Tier α} {model : String} {cost : α}
    (h : r.Reserved m request caps tier model cost desk desk')
    (hfresh : ∀ held ∈ desk.ledger.pending, held.id ≠ m.id) :
    desk.ledger.Leaves m.time (desk'.ledger.release m.id m.time).2.pending := by
  obtain ⟨between, htried, -, hreserve⟩ := h.exists_reserve
  have hback := between.ledger.reserve_released_leaves m.id request.identity caps cost
    (some ⟨model, tier.costPer1k⟩) m.time
    (fun held hheld => hfresh held ((refused_pending htried.ledger).subset hheld))
    (congrArg Prod.fst hreserve)
  rw [hreserve] at hback
  exact leaves_of_refused htried.ledger hback

end

/-! ## What a request is accounted for -/

/-- What an admitted request leaves: one reservation more, which accounts for its decision, and one request
more in the window of the caller, if the caller has a limit. -/
structure LeavesOne (r : Router Double) (m : Moment) (request : Request Double)
    (caps : Capabilities Double) (d : Decision Double) (before after : Desk Double) : Prop where
  reservation : ∃ kept held, before.ledger.Leaves m.time kept ∧
    after.ledger.pending = kept ++ [held] ∧ d.Accounts r request held
  recorded : Limiter.Checked request.identity caps.rateLimit m.instant true before.limiter after.limiter

/-- What a request leaves that is turned away: no reservation and no request in a window. -/
structure LeavesNone (m : Moment) (request : Request Double) (caps : Capabilities Double)
    (before after : Desk Double) : Prop where
  reservation : before.ledger.Leaves m.time after.ledger.pending
  recorded : after.limiter = before.limiter ∨
    Limiter.Looked request.identity.key caps.rateLimit m.instant false before.limiter after.limiter

variable {r : Router Double} {m : Moment} {request : Request Double} {caps : Capabilities Double}
  {desk desk' : Desk Double}

theorem accounts_of_makes {ceiling : Nat} {c : Candidate Double} {held : Reservation Double}
    (hc : c.Sound r request caps ceiling)
    (hmakes : (Ledger.Call.reserve m.id request.identity caps c.estimate
      (some ⟨c.model, c.tier.costPer1k⟩) m.time).Makes held) :
    (c.decision m request caps).Accounts r request held := by
  obtain ⟨hid, hkey, hamount, -, hbasis⟩ := hmakes
  exact {
    id := hid
    key := hkey
    amount_iff := hamount ▸ Double.sanitize_eq_iff c.estimate
    amount_of_not := fun hnot => hamount.trans (Double.sanitize_eq_zero c.estimate hnot)
    basis := ⟨c.tier, hc.tier, rfl, rfl, hbasis⟩ }

theorem Reserved.concluded {ceiling : Nat} {c : Candidate Double} (hc : c.Sound r request caps ceiling)
    (h : r.Reserved m request caps c.tier c.model c.estimate desk desk')
    (hwindows : desk.limiter.windows.Sound) (hfresh : ∀ held ∈ desk.ledger.pending, held.id ≠ m.id) :
    (∀ a, (conclude m request caps c desk').1 = .ok a →
      LeavesOne r m request caps a.decision desk (conclude m request caps c desk').2) ∧
    (∀ refusal, (conclude m request caps c desk').1 = .error refusal →
      LeavesNone m request caps desk (conclude m request caps c desk').2) := by
  obtain ⟨-, -, hlimiter, -⟩ := h.exists_reserve
  have hchecked := desk.limiter.check_checked request.identity caps.rateLimit m.instant hwindows
  have hlimit := desk.limiter.limit_ne_zero_of_refused request.identity caps.rateLimit m.instant
  have hused := conclude_used m request caps c desk'
  generalize conclude m request caps c desk' = result at hused ⊢
  cases hused with
  | admitted rate limiter hcheck hallowed =>
    rw [hlimiter] at hcheck
    rw [hcheck, hallowed] at hchecked
    refine ⟨fun a ha => ?_, nofun⟩
    cases ha
    obtain ⟨kept, held, hkept, hpending, hmakes⟩ := h.exists_held
    exact ⟨⟨kept, held, hkept, hpending, accounts_of_makes hc hmakes⟩, hchecked⟩
  | rateLimited rate limiter hcheck hallowed =>
    rw [hlimiter] at hcheck
    rw [hcheck] at hchecked hlimit
    rw [hallowed] at hchecked
    exact ⟨nofun, fun _ _ => ⟨h.released_leaves hfresh, Or.inr (hchecked.looked (hlimit hallowed))⟩⟩

/-- Every request is accounted for: what is admitted leaves one reservation and one request in the window
of the caller, what is turned away leaves none of them. -/
theorem route_accounts (r : Router Double) (m : Moment) (request : Request Double)
    (caps : Capabilities Double) (desk : Desk Double) (hwindows : desk.limiter.windows.Sound)
    (hfresh : ∀ held ∈ desk.ledger.pending, held.id ≠ m.id) :
    (∀ a, (r.route m request caps desk).1 = .ok a →
      LeavesOne r m request caps a.decision desk (r.route m request caps desk).2) ∧
    (∀ refusal, (r.route m request caps desk).1 = .error refusal →
      LeavesNone m request caps desk (r.route m request caps desk).2) := by
  rcases r.route_cases m request caps desk with
    ⟨refusal, desk', heq, -, htried⟩ | ⟨ceiling, -, c, desk', hc, hreserved, heq⟩
  · rw [heq]
    exact ⟨nofun, fun _ _ => ⟨htried.leaves, Or.inl htried.limiter⟩⟩
  · rw [heq]
    exact hreserved.concluded hc hwindows hfresh

def otherHolds : Ledger Double :=
  (Ledger.new (fun _ => 0) (.ofBudgets .default)).call
    (.reserve ⟨0⟩ ⟨"bob", "web", true⟩ (.builtin .standard) 0.5 none noon.time)

def openDesk : Desk Double := { freshDesk with ledger := otherHolds }

theorem openDesk_sound : openDesk.limiter.windows.Sound := Shards.new_sound _ _ _

theorem openDesk_ready : openDesk.ledger.Ready noon.time where
  sound := (Ledger.Reachable.call _ _ .new).sound
  month := by decide +kernel
  room := by decide +kernel

theorem openDesk_fresh : ∀ held ∈ openDesk.ledger.pending, held.id ≠ noon.id := by decide +kernel

theorem route_accounts_second :
    openDesk.limiter.windows.Sound ∧ (∀ held ∈ openDesk.ledger.pending, held.id ≠ noon.id) ∧
    ∃ a, (byDefault.route noon hardRequest (.builtin .standard) openDesk).1 = .ok a ∧
      LeavesOne byDefault noon hardRequest (.builtin .standard) a.decision openDesk
        (byDefault.route noon hardRequest (.builtin .standard) openDesk).2 ∧
      a.decision.costEstimate.isFinite = true ∧ 0 ≤ a.decision.costEstimate := by
  have hrun : (match (byDefault.route noon hardRequest (.builtin .standard) openDesk).1 with
      | .ok a => a.decision.costEstimate.isFinite && decide (0 ≤ a.decision.costEstimate)
      | .error _ => false) = true := by decide +kernel
  refine ⟨openDesk_sound, openDesk_fresh, ?_⟩
  cases hroute : (byDefault.route noon hardRequest (.builtin .standard) openDesk).1 with
  | error refusal =>
    rw [hroute] at hrun
    cases hrun
  | ok a =>
    rw [hroute] at hrun
    simp only [Bool.and_eq_true, decide_eq_true_eq] at hrun
    exact ⟨a, rfl, (byDefault.route_accounts noon hardRequest (.builtin .standard) openDesk openDesk_sound
      openDesk_fresh).1 a hroute, hrun⟩

def dear : Router Double := .ofRouting
  { Routing.default with
    tiers := [{ name := "free", models := ["groq/llama-3.1-8b"], range := ⟨0, 0.3⟩, costPer1k := 0,
                maxContextTokens := 8192 },
      { name := "standard", models := ["anthropic/claude-3.5-haiku"], range := ⟨0, 0.7⟩,
        costPer1k := 1e308, maxContextTokens := 16384 }] } (.configured ∅)

def simpleRequest : Request Double where
  identity := ⟨"alice", "web", true⟩
  complexity := 0.2
  inputTokens := 1000

def unbudgeted : Capabilities Double :=
  { Capabilities.builtin .standard with dailyBudget := 0, monthlyBudget := 0 }

/-- Nothing is held for a request whose estimate is infinite, although all costs are finite. -/
theorem admitted_holds_nothing :
    ¬ ∀ (r : Router Double) (m : Moment) (request : Request Double) (caps : Capabilities Double)
        (desk : Desk Double),
      (∀ tier ∈ r.tiers.toList, tier.costPer1k.isFinite = true ∧ 0 ≤ tier.costPer1k) →
      r.settings.safetyMargin.isFinite = true ∧ 0 ≤ r.settings.safetyMargin →
      desk.limiter.windows.Sound → desk.ledger.Ready m.time →
      (∀ held ∈ desk.ledger.pending, held.id ≠ m.id) →
      ∀ a, (r.route m request caps desk).1 = .ok a →
        ∃ held ∈ (r.route m request caps desk).2.ledger.pending, held.id = a.decision.reservation ∧
          held.amount ≤ a.decision.costEstimate ∧ a.decision.costEstimate ≤ held.amount := by
  intro h
  have hrun : (match (dear.route noon simpleRequest unbudgeted openDesk).1 with
      | .ok a => (dear.route noon simpleRequest unbudgeted openDesk).2.ledger.pending.all fun held =>
          held.id != a.decision.reservation || !decide (a.decision.costEstimate ≤ held.amount)
      | .error _ => false) = true := by decide +kernel
  have hclaim := h dear noon simpleRequest unbudgeted openDesk (by decide +kernel) (by decide +kernel)
    openDesk_sound openDesk_ready openDesk_fresh
  cases hroute : (dear.route noon simpleRequest unbudgeted openDesk).1 with
  | error refusal =>
    rw [hroute] at hrun
    cases hrun
  | ok a =>
    rw [hroute] at hrun
    obtain ⟨held, hheld, hid, -, hle⟩ := hclaim a hroute
    have hnot := List.all_eq_true.mp hrun held hheld
    simp [hid, hle] at hnot

end Router

end Admission
