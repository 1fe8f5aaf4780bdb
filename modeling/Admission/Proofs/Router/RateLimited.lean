import Admission.Proofs.Ledger.Undoing
import Admission.Proofs.Router.Reserved

/-!
# Turned away for its rate

The rate of a request is looked at after its cost is reserved, and a request that comes too often gives
its reservation back. That leaves no amount changed, unless reserving has settled another reservation
or displaced a row with amounts in it.
-/

namespace Admission.Router

variable {r : Router Rat} {m : Moment} {request : Request Rat} {caps : Capabilities Rat}
  {l l' : Ledger Rat}

/-- A reservation for the request is made and given back. -/
def GivenBack (m : Moment) (request : Request Rat) (caps : Capabilities Rat) (l l' : Ledger Rat) :
    Prop :=
  ∃ estimate basis, (l.reserve m.id request.identity caps estimate basis m.time).1 = .ok () ∧
    l' = ((l.reserve m.id request.identity caps estimate basis m.time).2.release m.id m.time).2

theorem route_rateLimited (desk : Desk Rat) (seconds : Nat)
    (h : (r.route m request caps desk).1 = .error (.rateLimited seconds)) :
    ∃ between, Relation.ReflTransGen (r.RefusedTry m request caps) desk.ledger between ∧
      GivenBack m request caps between (r.route m request caps desk).2.ledger := by
  rcases r.route_cases m request caps desk with
    ⟨refusal, desk', heq, hrefusal, -⟩ | ⟨_, -, c, desk', -, ⟨between, htried, hreserve⟩, heq⟩
  · rw [heq] at h
    cases h
    exact absurd rfl (hrefusal seconds)
  · refine ⟨between.ledger, htried.ledger, ?_⟩
    rw [heq] at h ⊢
    rcases conclude_cases m request caps c desk' with ⟨-, hconclude⟩ | ⟨-, hconclude⟩
    · rw [hconclude] at h
      cases h
    · rw [hconclude]
      rcases r.reserve_cases m request caps c.tier c.model between with ⟨_, _, -, he⟩ | ⟨l, hl, he⟩
      · rw [he] at hreserve
        cases hreserve
      · have hdesk : { between with ledger := l } = desk' := congrArg Prod.snd (he.symm.trans hreserve)
        refine ⟨_, _, congrArg Prod.fst hl, ?_⟩
        rw [hl, ← hdesk]

/-! ## With room for one more reservation -/

theorem refused_visited (hready : l.Ready m.time)
    (h : Relation.ReflTransGen (r.RefusedTry m request caps) l l') :
    l' = l ∨ Ledger.Visited (l.periodsAt m.time) request.identity.key l l' := by
  induction h with
  | refl => exact Or.inl rfl
  | @tail between last _ hlast ih =>
    obtain ⟨estimate, basis, hrejected, rfl⟩ := hlast.exists_reserve
    right
    rcases ih with rfl | hvisited
    · exact between.reserve_rejected_visited _ _ _ _ _ _ hready hrejected
    · obtain ⟨hnow, hready'⟩ := hvisited.ready hready
      have hnext := between.reserve_rejected_visited _ _ _ _ _ _ hready' hrejected
      rw [hnow] at hnext
      exact hvisited.trans hnext

theorem GivenBack.visited (hready : l.Ready m.time) (hrow : (l.row request.identity.key).Holds)
    (hglobal : l.global.Holds) (hfresh : ∀ held ∈ l.pending, held.id ≠ m.id)
    (h : GivenBack m request caps l l') :
    Ledger.Visited (l.periodsAt m.time) request.identity.key l l' := by
  obtain ⟨estimate, basis, haccepted, rfl⟩ := h
  exact l.reserve_released_visited _ _ _ _ _ _ hready hrow hglobal hfresh haccepted

theorem visited_of_rateLimited {desk : Desk Rat} {seconds : Nat} (hready : desk.ledger.Ready m.time)
    (hbacked : desk.ledger.Backed desk.ledger.pending)
    (hfresh : ∀ held ∈ desk.ledger.pending, held.id ≠ m.id)
    (h : (r.route m request caps desk).1 = .error (.rateLimited seconds)) :
    Ledger.Visited (desk.ledger.periodsAt m.time) request.identity.key desk.ledger
      (r.route m request caps desk).2.ledger := by
  obtain ⟨hrows, hglobal⟩ := hbacked.holds
  obtain ⟨between, hrefused, hback⟩ := r.route_rateLimited desk seconds h
  rcases refused_visited hready hrefused with heq | hvisited
  · rw [heq] at hback
    exact hback.visited hready (hrows _) hglobal hfresh
  · obtain ⟨hnow, hready'⟩ := hvisited.ready hready
    obtain ⟨hrow', hglobal'⟩ := hvisited.holds (hrows _) hglobal
    have hlast := hback.visited hready' hrow' hglobal' (hvisited.pending ▸ hfresh)
    rw [hnow] at hlast
    exact hvisited.trans hlast

/-! ## With no room -/

theorem GivenBack.pending_sublist (hfresh : ∀ held ∈ l.pending, held.id ≠ m.id)
    (h : GivenBack m request caps l l') : l'.pending.Sublist (l.prepared m.time).pending := by
  obtain ⟨estimate, basis, haccepted, rfl⟩ := h
  exact l.reserve_released_pending _ _ _ _ _ _ hfresh haccepted

theorem rateLimited_pending_lt {desk : Desk Rat} {seconds : Nat}
    (hfull : desk.ledger.pendingLimit ≤ desk.ledger.pending.length)
    (hmonth : (desk.ledger.periodsAt m.time).month ≤ desk.ledger.clock.month)
    (hfresh : ∀ held ∈ desk.ledger.pending, held.id ≠ m.id)
    (h : (r.route m request caps desk).1 = .error (.rateLimited seconds)) :
    (r.route m request caps desk).2.ledger.pending.length < desk.ledger.pending.length := by
  have hprepared := desk.ledger.prepared_pending_lt m.time hfull hmonth
  obtain ⟨between, hrefused, hback⟩ := r.route_rateLimited desk seconds h
  have hbetween := refused_pending hrefused
  have hlast := hback.pending_sublist fun held hheld => hfresh held (hbetween.subset hheld)
  rcases hrefused.cases_head with heq | ⟨first, hfirst, hrest⟩
  · rw [← heq] at hlast
    exact hlast.length_le.trans_lt hprepared
  · have hkept := (hlast.trans (between.prepared_pending m.time)).trans (refused_pending hrest)
    rw [hfirst.pending_eq] at hkept
    exact hkept.length_le.trans_lt hprepared

/-! ## What is shown afterwards -/

/-- In a month that is open already, a request that is turned away for its rate changes neither what is
open nor any amount, from then on, exactly if the ledger had room for one more reservation and the row of
the caller displaced none in which a caller still has amounts. -/
theorem rateLimited_sameAmounts_iff (assign : String → Nat) (settings : LedgerSettings Rat)
    (steps : List (Ledger.Step Rat)) (hsteps : (steps.filterMap Ledger.Step.newId?).Nodup)
    (r : Router Rat) (m : Moment) (request : Request Rat) (caps : Capabilities Rat) (desk : Desk Rat)
    (hledger : desk.ledger = (Ledger.new assign settings).follow steps)
    (hfresh : ∀ held ∈ desk.ledger.pending, held.id ≠ m.id)
    (hmonth : (desk.ledger.periodsAt m.time).month ≤ desk.ledger.clock.month) (seconds : Nat)
    (hlimited : (r.route m request caps desk).1 = .error (.rateLimited seconds)) :
    let l := desk.ledger
    let now := l.periodsAt m.time
    (∀ later, now.NotBefore (l.periodsAt later) →
        l.SameAmounts (r.route m request caps desk).2.ledger later) ↔
      l.pending.length < l.pendingLimit ∧
      ∀ entry, (l.advance now).displaced? request.identity.key = some entry →
        (∃ other : Identity, other.key = entry.1) → entry.2.Blank now := by
  intro l now
  obtain ⟨hbacked, -, -⟩ := Ledger.backed_preserved.follow assign settings
    ⟨_, Ledger.new_balanced assign settings⟩ steps hsteps
  rw [← hledger] at hbacked
  have hsound : l.rows.Sound := by
    obtain ⟨b, hb⟩ := hbacked
    exact hb.sound
  by_cases hroom : l.pending.length < l.pendingLimit
  · have hvisited := visited_of_rateLimited ⟨hsound, hmonth, hroom⟩ hbacked hfresh hlimited
    exact (hvisited.sameAmounts_iff hsound).trans (and_iff_right hroom).symm
  · refine ⟨fun hsame => ?_, fun h => absurd h.1 hroom⟩
    have hlt := rateLimited_pending_lt (not_lt.mp hroom) hmonth hfresh hlimited
    have hlength := (hsame m.time ⟨le_rfl, le_rfl⟩).pending.length_eq
    exact absurd hlength hlt.ne

def wait? (answer : Except (Refusal Rat) (Admitted Rat)) : Option Nat :=
  match answer with
  | .error (.rateLimited seconds) => some seconds
  | _ => none

theorem eq_of_wait? {answer : Except (Refusal Rat) (Admitted Rat)} {seconds : Nat}
    (h : wait? answer = some seconds) : answer = .error (.rateLimited seconds) := by
  unfold wait? at h
  split at h <;> cases h
  rfl

def exactly : Router Rat := .ofRouting .default (.configured ∅)

def easyRequest : Request Rat where
  identity := ⟨"alice", "web", true⟩
  complexity := 0.2
  inputTokens := 1000

def oncePerWindow : Capabilities Rat := { Capabilities.builtin .standard with rateLimit := 1 }

def secondRequest : Moment where
  time := ⟨1773144000, 0⟩
  instant := 0
  id := ⟨2⟩
  dice := 0

def openAtMost (maxPending : Nat) : LedgerSettings Rat :=
  { resetHour := 0, globalDaily := 0, globalMonthly := 0, maxTracked := 16, maxPending }

def heldForBob : List (Ledger.Step Rat) :=
  [.call (.reserve ⟨1⟩ ⟨"bob", "web", true⟩ (.builtin .standard) (1 / 2) none ⟨1773144000, 0⟩)]

def busyDesk (settings : LedgerSettings Rat) : Desk Rat where
  selector := .new .preferenceOrder exactly.tiers
  limiter := ((Limiter.new (fun _ => 0) (.ofConfig {})).check easyRequest.identity 1 0).2
  ledger := (Ledger.new (fun _ => 0) settings).follow heldForBob

theorem rateLimited_sameAmounts_twoOpen :
    let desk := busyDesk (openAtMost 2)
    (heldForBob.filterMap Ledger.Step.newId?).Nodup ∧
    (∀ held ∈ desk.ledger.pending, held.id ≠ secondRequest.id) ∧
    (desk.ledger.periodsAt secondRequest.time).month ≤ desk.ledger.clock.month ∧
    (exactly.route secondRequest easyRequest oncePerWindow desk).1 = .error (.rateLimited 60) ∧
    ∀ later, (desk.ledger.periodsAt secondRequest.time).NotBefore (desk.ledger.periodsAt later) →
      desk.ledger.SameAmounts (exactly.route secondRequest easyRequest oncePerWindow desk).2.ledger
        later := by
  have hsteps : (heldForBob.filterMap Ledger.Step.newId?).Nodup := by decide
  have hfresh : ∀ held ∈ (busyDesk (openAtMost 2)).ledger.pending, held.id ≠ secondRequest.id := by
    decide +kernel
  have hmonth : ((busyDesk (openAtMost 2)).ledger.periodsAt secondRequest.time).month ≤
      (busyDesk (openAtMost 2)).ledger.clock.month := by decide +kernel
  have hlimited : (exactly.route secondRequest easyRequest oncePerWindow (busyDesk (openAtMost 2))).1 =
      .error (.rateLimited 60) := eq_of_wait? (by decide +kernel)
  have hnone : (((busyDesk (openAtMost 2)).ledger.advance ((busyDesk (openAtMost 2)).ledger.periodsAt
      secondRequest.time)).displaced? easyRequest.identity.key).isNone = true := by decide +kernel
  refine ⟨hsteps, hfresh, hmonth, hlimited, ?_⟩
  refine (rateLimited_sameAmounts_iff (fun _ => 0) (openAtMost 2) heldForBob hsteps exactly secondRequest
    easyRequest oncePerWindow (busyDesk (openAtMost 2)) rfl hfresh hmonth 60 hlimited).mpr ⟨?_, ?_⟩
  · decide +kernel
  · intro entry hdisplaced
    rw [Option.isNone_iff_eq_none.mp hnone] at hdisplaced
    cases hdisplaced

/-- Where no more than one reservation may be open, the one of another caller is settled for a request
that is turned away. -/
theorem rateLimited_settles_oldest :
    ¬ ∀ (assign : String → Nat) (settings : LedgerSettings Rat) (steps : List (Ledger.Step Rat)),
      (steps.filterMap Ledger.Step.newId?).Nodup →
      ∀ (r : Router Rat) (m : Moment) (request : Request Rat) (caps : Capabilities Rat)
        (desk : Desk Rat), desk.ledger = (Ledger.new assign settings).follow steps →
      (∀ held ∈ desk.ledger.pending, held.id ≠ m.id) →
      (desk.ledger.periodsAt m.time).month ≤ desk.ledger.clock.month →
      ∀ seconds, (r.route m request caps desk).1 = .error (.rateLimited seconds) →
      desk.ledger.SameAmounts (r.route m request caps desk).2.ledger m.time := by
  intro h
  have hlimited : (exactly.route secondRequest easyRequest oncePerWindow (busyDesk (openAtMost 1))).1 =
      .error (.rateLimited 60) := eq_of_wait? (by decide +kernel)
  have hsame := h (fun _ => 0) (openAtMost 1) heldForBob (by decide) exactly secondRequest easyRequest
    oncePerWindow (busyDesk (openAtMost 1)) rfl (by decide +kernel) (by decide +kernel) 60 hlimited
  have hlength := hsame.pending.length_eq
  revert hlength
  decide +kernel

end Admission.Router
