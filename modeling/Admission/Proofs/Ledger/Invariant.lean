import Admission.Proofs.Ledger.Audit

/-!
# Invariants of a ledger and its books

A call is a series of single bookings. What every booking keeps is kept by every call, and so it holds
after every run of calls with fresh ids.
-/

namespace Admission.Ledger

variable {α : Type} [Amount α]

/-- Something said of the rows of a ledger, of the reservations that hold them and of the books, which
every booking keeps. -/
structure Invariant (allowed : Reservation α → α → Prop) (budgets : String → Capabilities α → Prop)
    (P : Ledger α → List (Reservation α) → Books α → Prop) : Prop where
  /-- An estimate may be booked. -/
  allowed_amount : ∀ r, allowed r r.amount
  /-- Only rows, settings and the contents of the lists matter. -/
  quiet : ∀ l l' held held' b b', l'.rows = l.rows → l'.global = l.global → l'.settings = l.settings →
    held.Perm held' → b.Same b' → P l held b → P l' held' b'
  close : ∀ l held b, P l held b → P l held (b.close l)
  charge : ∀ l r held b cost now, allowed r cost → P l (r :: held) b →
    P (l.charge r cost now) held (b.enter [⟨r, cost⟩])
  /-- A rejection leaves rows at the new periods behind. -/
  reject : ∀ l held b key now global, (global = l.global ∨ global = l.global.roll now) →
    P l held b → P (l.put key ((l.row key).roll now) global) held
      (b.close (l.put key ((l.row key).roll now) global))
  accept : ∀ l held b r caps estimate now, budgets r.key caps → r.amount = Amount.sanitize estimate →
    r.madeIn = ((l.row r.key).roll now).periods → r.globalMadeIn = (l.global.roll now).periods →
    Passes l.settings caps r.amount ((l.row r.key).roll now) (l.global.roll now) →
    P l held b → P (l.put r.key (((l.row r.key).roll now).reserve r.amount)
      ((l.global.roll now).reserve r.amount)) (r :: held)
      (b.close (l.put r.key (((l.row r.key).roll now).reserve r.amount)
        ((l.global.roll now).reserve r.amount)))

namespace Invariant

variable {allowed : Reservation α → α → Prop} {budgets : String → Capabilities α → Prop}
  {P : Ledger α → List (Reservation α) → Books α → Prop}

theorem perm (inv : Invariant allowed budgets P) (l : Ledger α) (held held' : List (Reservation α))
    (b : Books α) (hp : held.Perm held') (h : P l held b) : P l held' b :=
  inv.quiet l l held held' b b rfl rfl rfl hp (.rfl b) h

theorem bookAll (inv : Invariant allowed budgets P) (rs held : List (Reservation α)) (l : Ledger α)
    (b : Books α) (now : Periods) (h : P l (rs ++ held) b) :
    P (l.bookAll rs now) held (b.enter (rs.map estimated)) := by
  induction rs generalizing l b with
  | nil => simpa [Ledger.bookAll, Books.enter_nil] using h
  | cons r rs ih =>
    have hadvance : P (l.advance now) (r :: (rs ++ held)) b :=
      inv.quiet l _ _ _ b b rfl rfl rfl (.refl _) (.rfl b) h
    have hcharge := inv.charge _ r _ b r.amount now (inv.allowed_amount r) hadvance
    have hrest := ih _ _ hcharge
    rw [Books.enter_enter] at hrest
    exact hrest

theorem sweepPeriods (inv : Invariant allowed budgets P) (held : List (Reservation α)) (l : Ledger α)
    (b : Books α) (now : Periods) (h : P l (l.pending ++ held) b) :
    P (l.sweepPeriods now) ((l.sweepPeriods now).pending ++ held)
      (b.enter ((l.expired now).map estimated)) := by
  rw [sweepPeriods_eq]
  refine inv.bookAll _ _ _ b now (inv.quiet l _ _ _ b b rfl rfl rfl ?_ (.rfl b) h)
  rw [← List.append_assoc, ← sweepPeriods_eq]
  exact (l.expired_perm now).symm.append_right held

theorem observe (inv : Invariant allowed budgets P) (held : List (Reservation α)) (l : Ledger α)
    (b : Books α) (now : Periods) (h : P l (l.pending ++ held) b) :
    P (l.observe now) ((l.observe now).pending ++ held) (b.enter ((l.swept now).map estimated)) := by
  have hadvance : P (l.advance now) ((l.advance now).pending ++ held) b :=
    inv.quiet l _ _ _ b b rfl rfl rfl (.refl _) (.rfl b) h
  unfold Ledger.observe swept
  split
  · exact inv.sweepPeriods held (l.advance now) b now hadvance
  · simpa [Books.enter_nil] using hadvance

theorem settle (inv : Invariant allowed budgets P) (l : Ledger α) (b : Books α) (r : Reservation α)
    (cost : α) (t : Timestamp) (hcost : allowed r cost) (h : P l (r :: l.pending) b) :
    P (l.settle r cost t) (l.settle r cost t).pending
      (b.enter ((l.swept (l.periodsAt t)).map estimated ++ [⟨r, cost⟩])) := by
  have hobserve := inv.observe [r] l b (l.periodsAt t)
    (inv.perm l _ _ b (List.perm_append_singleton r l.pending).symm h)
  have hcharge := inv.charge _ r _ _ cost (l.periodsAt t) hcost
    (inv.perm _ _ _ _ (List.perm_append_singleton r _) hobserve)
  rw [Books.enter_enter] at hcharge
  simpa [Ledger.settle] using hcharge

theorem take (inv : Invariant allowed budgets P) (l l' : Ledger α) (b : Books α) (id : ReservationId)
    (r : Reservation α) (hids : (l.pending.map (·.id)).Nodup) (htake : l.take id = some (r, l'))
    (h : P l l.pending b) : P l' (r :: l'.pending) b := by
  obtain ⟨-, hl', hperm⟩ := take_spec l l' id r hids htake
  refine inv.quiet l l' _ _ b b ?_ ?_ ?_ hperm (.rfl b) h <;> rw [hl']

theorem makeRoom (inv : Invariant allowed budgets P) (t : Timestamp) (steps : Nat) (l : Ledger α)
    (b : Books α) (hids : (l.pending.map (·.id)).Nodup) (h : P l l.pending b) :
    ∃ done, (done ++ (makeRoom t steps l).pending).Perm l.pending ∧
      P (makeRoom t steps l) (makeRoom t steps l).pending (b.enter (done.map estimated)) := by
  have hnone : ∀ (l : Ledger α) (b : Books α), P l l.pending b → ∃ done,
      (done ++ l.pending).Perm l.pending ∧ P l l.pending (b.enter (done.map estimated)) :=
    fun l b h => ⟨[], .refl _, by simpa [Books.enter_nil] using h⟩
  induction steps generalizing l b with
  | zero => exact hnone l b h
  | succ steps ih =>
    unfold Ledger.makeRoom
    split
    · exact hnone l b h
    split
    · next r l' htake =>
      obtain ⟨oldest, -, htake⟩ := Option.bind_eq_some_iff.mp htake
      obtain ⟨-, -, hperm⟩ := take_spec l l' oldest.id r hids htake
      have hsettle := inv.settle l' b r r.amount t (inv.allowed_amount r)
        (inv.take l l' b oldest.id r hids htake h)
      have hleft := l'.settle_perm r r.amount t
      have hids' : ((l'.settle r r.amount t).pending.map (·.id)).Nodup :=
        ids_nodup_of_perm _ _ _ hleft (ids_nodup_of_perm [r] _ _ hperm.symm hids)
      obtain ⟨done, hdone, hP⟩ := ih _ _ hids' hsettle
      refine ⟨l'.swept (l'.periodsAt t) ++ r :: done, ?_, ?_⟩
      · rw [List.append_assoc, List.cons_append]
        refine (List.perm_middle).trans (.trans (.cons r ?_) hperm.symm)
        exact (hdone.append_left _).trans hleft
      · rw [Books.enter_enter] at hP
        simpa [estimated] using hP
    · exact hnone l b h

theorem reserve (inv : Invariant allowed budgets P) (l : Ledger α) (b : Books α) (id : ReservationId)
    (who : Identity) (caps : Capabilities α) (estimate : α) (basis : Option (PriceBasis α))
    (t : Timestamp) (hids : (l.pending.map (·.id)).Nodup) (hbudget : budgets who.key caps)
    (h : P l l.pending b) :
    ∃ done kept made, Outcome l (.reserve id who caps estimate basis t) done kept made ∧
      P (l.reserve id who caps estimate basis t).2 (kept ++ made)
        ((b.enter (done.map estimated)).close (l.reserve id who caps estimate basis t).2) := by
  have hobserve := inv.observe [] l b (l.periodsAt t) (by simpa using h)
  rw [List.append_nil] at hobserve
  have hswept := l.swept_perm (l.periodsAt t)
  have hids' := ids_nodup_of_perm _ _ _ hswept hids
  obtain ⟨done, hdone, hroom⟩ := inv.makeRoom t (l.observe (l.periodsAt t)).pending.length _ _ hids'
    hobserve
  rw [Books.enter_enter, ← List.map_append] at hroom
  have hperm : (l.swept (l.periodsAt t) ++ done ++ (l.prepared t).pending).Perm l.pending := by
    rw [List.append_assoc]
    exact (hdone.append_left _).trans hswept
  rcases (l.prepared t).enroll_cases id who caps (Amount.sanitize estimate) basis t (l.periodsAt t) with
    ⟨rejection, global, hglobal, -, he⟩ |
    ⟨r, hid, hkey, hamount, ht, hbasis, hmadeIn, hglobalMadeIn, hpasses, he⟩
  · have hl : (l.reserve id who caps estimate basis t).2 = (l.prepared t).put who.key
        (((l.prepared t).row who.key).roll (l.periodsAt t)) global := by
      rw [reserve_eq, he]
    refine ⟨_, _, [], ⟨hperm, ?_, by simp, by simp⟩, ?_⟩
    · simp only [Ledger.call, hl, List.append_nil]
      rfl
    · rw [hl, List.append_nil]
      exact inv.reject _ _ _ who.key (l.periodsAt t) global hglobal hroom
  · have hl : (l.reserve id who caps estimate basis t).2 =
        { (l.prepared t).put who.key
            ((((l.prepared t).row who.key).roll (l.periodsAt t)).reserve (Amount.sanitize estimate))
            (((l.prepared t).global.roll (l.periodsAt t)).reserve (Amount.sanitize estimate)) with
          pending := (l.prepared t).pending ++ [r], dirty := true } := by
      rw [reserve_eq, he]
    refine ⟨_, _, [r], ⟨hperm, ?_, by simp [Call.newId?, hid], ?_⟩, ?_⟩
    · simp only [Ledger.call, hl]
    · simp [Call.Makes, hid, hkey, hamount, ht, hbasis]
    · rw [hl]
      have haccept := inv.accept (l.prepared t) _ _ r caps estimate (l.periodsAt t)
        (by rw [hkey]; exact hbudget) hamount (by rw [hkey]; exact hmadeIn) hglobalMadeIn
        (by rw [hkey, hamount]; exact hpasses) hroom
      rw [hkey, hamount] at haccept
      exact inv.quiet ((l.prepared t).put who.key _ _) _ (r :: _) _ _ _ rfl rfl rfl
        (List.perm_append_singleton r _).symm (.rfl _) haccept

theorem reconcile (inv : Invariant allowed budgets P) (l : Ledger α) (b : Books α) (id : ReservationId)
    (actual : α) (t : Timestamp) (hids : (l.pending.map (·.id)).Nodup)
    (hallowed : ∀ r ∈ l.pending, r.id = id → allowed r (Amount.sanitize actual))
    (h : P l l.pending b) :
    ∃ done, (done ++ (l.reconcile id actual t).2.pending).Perm l.pending ∧
      P (l.reconcile id actual t).2 (l.reconcile id actual t).2.pending
        (b.enter (done.map fun r => ⟨r, if r.id = id then Amount.sanitize actual else r.amount⟩)) := by
  cases htake : l.take id with
  | none =>
    have hl : (l.reconcile id actual t).2 = l := by simp [Ledger.reconcile, htake]
    rw [hl]
    exact ⟨[], .refl _, by simpa [Books.enter_nil] using h⟩
  | some taken =>
    obtain ⟨r, l'⟩ := taken
    have hl : (l.reconcile id actual t).2 = l'.settle r (Amount.sanitize actual) t := by
      simp [Ledger.reconcile, htake]
    obtain ⟨hid, -, hperm⟩ := take_spec l l' id r hids htake
    have hr : r ∈ l.pending := hperm.mem_iff.mpr List.mem_cons_self
    have hsettle := inv.settle l' b r (Amount.sanitize actual) t (hallowed r hr hid)
      (inv.take l l' b id r hids htake h)
    have hleft := l'.settle_perm r (Amount.sanitize actual) t
    have hothers : ∀ other ∈ l'.swept (l'.periodsAt t), other.id ≠ id := by
      intro other ho he
      have hcons := (hperm.map (·.id)).nodup_iff.mp hids
      refine (List.nodup_cons.mp hcons).1 (List.mem_map.mpr ⟨other, ?_, he.trans hid.symm⟩)
      exact hleft.mem_iff.mp (List.mem_append_left _ ho)
    refine ⟨l'.swept (l'.periodsAt t) ++ [r], ?_, ?_⟩
    · rw [hl, List.append_assoc]
      exact List.perm_middle.trans ((hleft.cons r).trans hperm.symm)
    · have hcosts : (l'.swept (l'.periodsAt t)).map estimated =
          (l'.swept (l'.periodsAt t)).map fun r =>
            ⟨r, if r.id = id then Amount.sanitize actual else r.amount⟩ :=
        List.map_congr_left fun other ho => by rw [if_neg (hothers other ho), estimated]
      rw [hl, List.map_append, ← hcosts, List.map_singleton, if_pos hid]
      exact hsettle

theorem sweep (inv : Invariant allowed budgets P) (l : Ledger α) (b : Books α) (t : Timestamp)
    (h : P l l.pending b) :
    ∃ done, (done ++ (l.sweep t).2.pending).Perm l.pending ∧
      P (l.sweep t).2 (l.sweep t).2.pending (b.enter (done.map estimated)) := by
  have hsweep := inv.sweepPeriods [] l b (l.periodsAt t) (by simpa using h)
  rw [List.append_nil] at hsweep
  exact ⟨l.expired (l.periodsAt t), l.expired_perm (l.periodsAt t), hsweep⟩

theorem exists_outcome (inv : Invariant allowed budgets P) (hz : Amount.sanitize (0 : α) = 0)
    (l : Ledger α) (b : Books α) (c : Call α) (hids : (l.pending.map (·.id)).Nodup)
    (hbudget : c.Budgeted budgets) (hallowed : ∀ r ∈ l.pending, allowed r (c.cost r))
    (h : P l l.pending b) :
    ∃ done kept made, Outcome l c done kept made ∧
      P (l.call c) (kept ++ made) ((b.enter (done.map fun r => ⟨r, c.cost r⟩)).close (l.call c)) := by
  cases c with
  | reserve id who caps estimate basis t =>
    exact inv.reserve l b id who caps estimate basis t hids hbudget h
  | reconcile id actual t =>
    obtain ⟨done, hperm, hP⟩ := inv.reconcile l b id actual t hids
      (fun r hr hid => by simpa [Call.cost, hid] using hallowed r hr) h
    exact ⟨done, _, [], ⟨hperm, by simp [Ledger.call], by simp, by simp⟩,
      inv.close _ _ _ (by rw [List.append_nil]; exact hP)⟩
  | release id t =>
    obtain ⟨done, hperm, hP⟩ := inv.reconcile l b id 0 t hids
      (fun r hr hid => by simpa [Call.cost, hid, hz] using hallowed r hr) h
    rw [hz] at hP
    exact ⟨done, _, [], ⟨hperm, by simp [Ledger.call, Ledger.release], by simp, by simp⟩,
      inv.close _ _ _ (by rw [List.append_nil]; exact hP)⟩
  | sweep t =>
    obtain ⟨done, hperm, hP⟩ := inv.sweep l b t h
    exact ⟨done, _, [], ⟨hperm, by simp [Ledger.call], by simp, by simp⟩,
      inv.close _ _ _ (by rw [List.append_nil]; exact hP)⟩

end Invariant

/-! ## Whole runs -/

/-- An invariant that holds at the start holds after every run with fresh ids. -/
theorem Invariant.audit {allowed : Reservation α → α → Prop} {budgets : String → Capabilities α → Prop}
    {P : Ledger α → List (Reservation α) → Books α → Prop} (inv : Invariant allowed budgets P)
    (hz : Amount.sanitize (0 : α) = 0) (l : Ledger α) (hopen : l.pending = []) (hstart : P l [] .empty)
    (calls : List (Call α)) (hfresh : (calls.filterMap Call.newId?).Nodup)
    (hcalls : ∀ before c, before ++ [c] <+: calls → c.Budgeted budgets ∧
      (P (l.run before) (l.run before).pending (l.audit before).books →
        ∀ r ∈ (l.run before).pending, allowed r (c.cost r))) :
    P (l.run calls) (l.run calls).pending (l.audit calls).books ∧ (l.audit calls).Sourced calls := by
  induction calls using List.reverseRecOn with
  | nil => exact ⟨hopen.symm ▸ hstart, by simp [Ledger.audit, Books.empty, hopen], fun r hr => by
      simp [Ledger.audit, Books.empty, hopen] at hr⟩
  | append_singleton calls c ih =>
    rw [List.filterMap_append] at hfresh
    obtain ⟨hP, hsourced⟩ := ih hfresh.of_append_left fun before c' hpre =>
      hcalls before c' (hpre.trans (List.prefix_append _ _))
    obtain ⟨hbudget, hallowed⟩ := hcalls calls c (List.prefix_refl _)
    have hledger : (l.audit calls).ledger = l.run calls := l.audit_ledger calls
    have hids := (hsourced.settled_ids calls _ hfresh.of_append_left).of_append_right
    rw [hledger] at hids
    have hnew : ∀ id, c.newId? = some id → ∀ r ∈ (l.run calls).pending, r.id ≠ id := by
      intro id hid r hr he
      have hmem : r.id ∈ calls.filterMap Call.newId? := by
        refine hsourced.ids.subset (List.mem_append_right _ ?_)
        rw [hledger]
        exact List.mem_map_of_mem hr
      rw [List.nodup_append] at hfresh
      exact hfresh.2.2 r.id hmem id (by simp [hid]) he
    obtain ⟨done, kept, made, ho, hnext⟩ := inv.exists_outcome hz (l.run calls) (l.audit calls).books c
      hids hbudget (hallowed hP) hP
    have hsettled := ho.settledBy_perm hids hnew
    rw [audit_append_singleton, run_append_singleton]
    rw [← hledger] at ho hsettled
    refine ⟨?_, hsourced.call calls _ c done kept made ho hsettled⟩
    have hpending : ((l.run calls).call c).pending = kept ++ made := by rw [← ho.pending, hledger]
    rw [hpending]
    refine inv.quiet _ _ _ _ _ _ rfl rfl rfl (.refl _) ?_ hnext
    have hbooks : ((l.audit calls).call c).books =
        ((l.audit calls).books.enter ((l.audit calls).ledger.settledBy c)).close
          ((l.run calls).call c) := by
      rw [← hledger]
      rfl
    rw [hbooks]
    exact Books.close_same _ _ _ (Books.enter_same _ _ _ hsettled.symm)

end Admission.Ledger
