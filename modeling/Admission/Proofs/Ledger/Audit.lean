import Admission.Proofs.Ledger.Call

/-!
# The books of a ledger

A ledger keeps running totals. Its books list what was settled, read off the open reservations before
and after each call: per row since the row is there, and altogether.
-/

namespace Admission.Ledger

variable {α : Type} [Amount α]

/-! ## Books -/

/-- A reservation that is not open any more, and what was booked for it. -/
structure Settlement (α : Type) where
  reservation : Reservation α
  cost : α

def estimated (r : Reservation α) : Settlement α := ⟨r, r.amount⟩

structure Books (α : Type) where
  /-- The settlements under a key since its row is there. -/
  ofKey : String → List (Settlement α)
  /-- All settlements. -/
  all : List (Settlement α)

namespace Books

def empty : Books α := ⟨fun _ => [], []⟩

def enter (b : Books α) (ss : List (Settlement α)) : Books α where
  ofKey key := b.ofKey key ++ ss.filter fun s => s.reservation.key = key
  all := b.all ++ ss

def close (b : Books α) (l : Ledger α) : Books α where
  ofKey key := if l.rows.contains key then b.ofKey key else []
  all := b.all

def Same (b b' : Books α) : Prop := (∀ key, (b.ofKey key).Perm (b'.ofKey key)) ∧ b.all.Perm b'.all

omit [Amount α] in
theorem Same.rfl (b : Books α) : b.Same b := ⟨fun _ => .rfl, .rfl⟩

omit [Amount α] in
theorem enter_nil (b : Books α) : b.enter [] = b := by simp [enter]

omit [Amount α] in
theorem enter_enter (b : Books α) (ss ss' : List (Settlement α)) :
    (b.enter ss).enter ss' = b.enter (ss ++ ss') := by
  simp [enter]

omit [Amount α] in
theorem enter_same (b : Books α) (ss ss' : List (Settlement α)) (h : ss.Perm ss') :
    (b.enter ss).Same (b.enter ss') :=
  ⟨fun _ => .append_left _ (h.filter _), .append_left _ h⟩

omit [Amount α] in
theorem close_same (b b' : Books α) (l : Ledger α) (h : b.Same b') : (b.close l).Same (b'.close l) := by
  refine ⟨fun key => ?_, h.2⟩
  simp only [close]
  split
  · exact h.1 key
  · exact .rfl

end Books

namespace Call

/-- The id under which a call wants to reserve. -/
def newId? : Call α → Option ReservationId
  | reserve id .. => some id
  | reconcile .. | release .. | sweep .. => none

/-- What a call books for a reservation that it settles: what it reports, where it names that one, and
else the estimate. -/
def cost (r : Reservation α) : Call α → α
  | reconcile id actual _ => if r.id = id then Amount.sanitize actual else r.amount
  | release id _ => if r.id = id then 0 else r.amount
  | reserve .. | sweep .. => r.amount

/-- The reservation is the one that the call asks for. -/
def Makes (r : Reservation α) : Call α → Prop
  | reserve id who _ estimate basis t =>
    r.id = id ∧ r.key = who.key ∧ r.amount = Amount.sanitize estimate ∧ r.chargedAt = t ∧ r.basis = basis
  | reconcile .. | release .. | sweep .. => False

/-- The budgets with which a call reserves, if it does, are budgets of its key. -/
def Budgeted (budgets : String → Capabilities α → Prop) : Call α → Prop
  | reserve _ who caps .. => budgets who.key caps
  | reconcile .. | release .. | sweep .. => True

end Call

/-- The reservations that are open before a call and not after it. -/
def settledBy (l : Ledger α) (c : Call α) : List (Settlement α) :=
  (l.pending.filter fun r => (l.call c).pending.all fun other => other.id != r.id).map fun r =>
    ⟨r, c.cost r⟩

structure Audit (α : Type) where
  ledger : Ledger α
  books : Books α

def Audit.call (a : Audit α) (c : Call α) : Audit α where
  ledger := a.ledger.call c
  books := (a.books.enter (a.ledger.settledBy c)).close (a.ledger.call c)

def audit (l : Ledger α) (calls : List (Call α)) : Audit α := calls.foldl Audit.call ⟨l, .empty⟩

theorem audit_append_singleton (l : Ledger α) (calls : List (Call α)) (c : Call α) :
    l.audit (calls ++ [c]) = (l.audit calls).call c := by
  simp [audit]

theorem audit_ledger (l : Ledger α) (calls : List (Call α)) : (l.audit calls).ledger = l.run calls := by
  induction calls using List.reverseRecOn with
  | nil => rfl
  | append_singleton calls c ih => rw [audit_append_singleton, run_append_singleton, ← ih]; rfl

/-! ## Outcomes -/

/-- A call settles some reservations, each at the cost of the call, keeps the others and makes at
most one. -/
structure Outcome (l : Ledger α) (c : Call α) (done kept made : List (Reservation α)) : Prop where
  perm : (done ++ kept).Perm l.pending
  pending : (l.call c).pending = kept ++ made
  ids : (made.map (·.id)).Sublist c.newId?.toList
  makes : ∀ r ∈ made, c.Makes r

theorem Outcome.settledBy_perm {l : Ledger α} {c : Call α}
    {done kept made : List (Reservation α)} (ho : Outcome l c done kept made)
    (hids : (l.pending.map (·.id)).Nodup)
    (hnew : ∀ id, c.newId? = some id → ∀ r ∈ l.pending, r.id ≠ id) :
    (l.settledBy c).Perm (done.map fun r => ⟨r, c.cost r⟩) := by
  have hboth := (ho.perm.map (·.id)).nodup_iff.mpr hids
  rw [List.map_append, List.nodup_append] at hboth
  have hmade : ∀ r ∈ made, ∀ other ∈ l.pending, other.id ≠ r.id := by
    intro r hr
    refine hnew r.id ?_
    simpa using ho.ids.subset (List.mem_map_of_mem hr)
  have hdone : done.filter (fun r => (l.call c).pending.all fun other => other.id != r.id) = done := by
    rw [List.filter_eq_self]
    intro r hr
    rw [ho.pending, List.all_eq_true]
    intro other hother
    rcases List.mem_append.mp hother with hk | hm
    · have hne := hboth.2.2 r.id (List.mem_map_of_mem hr) other.id (List.mem_map_of_mem hk)
      simpa using Ne.symm hne
    · have hne := hmade other hm r (ho.perm.mem_iff.mp (List.mem_append_left _ hr))
      simpa using Ne.symm hne
  have hkept : kept.filter (fun r => (l.call c).pending.all fun other => other.id != r.id) = [] := by
    rw [List.filter_eq_nil_iff]
    intro r hr hall
    rw [ho.pending, List.all_eq_true] at hall
    simpa using hall r (List.mem_append_left _ hr)
  have hfilter := ho.perm.symm.filter fun r => (l.call c).pending.all fun other => other.id != r.id
  rw [List.filter_append, hdone, hkept, List.append_nil] at hfilter
  exact hfilter.map _

/-! ## Where reservations come from -/

/-- All reservations of an audit come from its calls, each id from one. -/
structure Audit.Sourced (calls : List (Call α)) (a : Audit α) : Prop where
  ids : (a.books.all.map (·.reservation.id) ++ a.ledger.pending.map (·.id)).Subperm
    (calls.filterMap Call.newId?)
  makes : ∀ r, r ∈ a.ledger.pending ∨ r ∈ a.books.all.map (·.reservation) → ∃ c ∈ calls, c.Makes r

theorem Audit.Sourced.settled_ids (calls : List (Call α)) (a : Audit α) (h : a.Sourced calls)
    (hfresh : (calls.filterMap Call.newId?).Nodup) :
    (a.books.all.map (·.reservation.id) ++ a.ledger.pending.map (·.id)).Nodup := by
  obtain ⟨ids, hperm, hsub⟩ := h.ids
  exact hperm.nodup_iff.mp (hfresh.sublist hsub)

theorem Audit.Sourced.call (calls : List (Call α)) (a : Audit α) (c : Call α) (h : a.Sourced calls)
    (done kept made : List (Reservation α)) (ho : Outcome a.ledger c done kept made)
    (hsettled : (a.ledger.settledBy c).Perm (done.map fun r => ⟨r, c.cost r⟩)) :
    (a.call c).Sourced (calls ++ [c]) := by
  have hall : (a.call c).books.all = a.books.all ++ a.ledger.settledBy c := rfl
  have hpending : (a.call c).ledger.pending = kept ++ made := ho.pending
  have hrs : ((a.ledger.settledBy c).map (·.reservation)).Perm done := by
    simpa [Function.comp_def] using hsettled.map (·.reservation)
  refine ⟨?_, ?_⟩
  · have hids : ((a.ledger.settledBy c).map (·.reservation.id) ++ kept.map (·.id)).Perm
        (a.ledger.pending.map (·.id)) := by
      have hp := (hrs.append_right kept).trans ho.perm
      simpa [Function.comp_def] using hp.map (·.id)
    rw [hall, hpending, List.map_append, List.map_append, List.filterMap_append]
    have hp : ((a.books.all.map (·.reservation.id) ++ a.ledger.pending.map (·.id)) ++
        made.map (·.id)).Perm
        (a.books.all.map (·.reservation.id) ++ (a.ledger.settledBy c).map (·.reservation.id) ++
          (kept.map (·.id) ++ made.map (·.id))) := by
      simp only [List.append_assoc]
      refine .append_left _ ?_
      rw [← List.append_assoc]
      exact hids.symm.append_right _
    refine hp.symm.subperm.trans (h.ids.append ?_)
    have hc : [c].filterMap Call.newId? = c.newId?.toList := by
      cases hn : c.newId? <;> simp [hn]
    rw [hc]
    exact ho.ids.subperm
  · intro r hr
    rw [hall, hpending, List.map_append] at hr
    have hold : r ∈ a.ledger.pending ∨ r ∈ a.books.all.map (·.reservation) →
        ∃ c' ∈ calls ++ [c], c'.Makes r := by
      intro hr
      obtain ⟨c', hc', hm⟩ := h.makes r hr
      exact ⟨c', List.mem_append_left _ hc', hm⟩
    rcases hr with hr | hr
    · rcases List.mem_append.mp hr with hk | hm
      · exact hold (Or.inl (ho.perm.mem_iff.mp (List.mem_append_right _ hk)))
      · exact ⟨c, by simp, ho.makes r hm⟩
    · rcases List.mem_append.mp hr with hb | hs
      · exact hold (Or.inr hb)
      · exact hold (Or.inl (ho.perm.mem_iff.mp (List.mem_append_left _ (hrs.mem_iff.mp hs))))

end Admission.Ledger
