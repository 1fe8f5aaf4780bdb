import Admission.Proofs.Ledger.Pinning

/-!
# What a bystander sees

Steps made for one caller leave the row and the open reservations of another key as they are, unless
they take something of it away: its row is displaced, or a reservation of it is settled to make room or
because its month is over. So its caller is shown the same amounts, and the next reserve ends alike.
-/

namespace Admission.Ledger

variable {α : Type} [Amount α]

/-! ## Steps for one caller -/

/-- A step reserves for nobody but a caller. Stored spending is not taken in for one caller. -/
def Step.MadeFor (who : Identity) : Step α → Prop
  | .call (.reserve _ other _ _ _ _) => other = who
  | .merge _ => False
  | .call _ | .usage .. | .takeDirty | .markDirty => True

/-- Nothing of a key is taken away: its row is not displaced, and what is open under it stays open. -/
structure Undisturbed (key : String) (l l' : Ledger α) : Prop where
  row : (l.rows.get? key).isSome → (l'.rows.get? key).isSome
  pending : ∀ r ∈ l.pending, r.key = key → r ∈ l'.pending

def heldBy (key : String) (held : List (Reservation α)) : List (Reservation α) :=
  held.filter fun r => r.key = key

/-- The month of the clock has not moved, or not beyond what is open. -/
def OnTime (clock clock' : Periods) (held : List (Reservation α)) : Prop :=
  clock'.month = clock.month ∨
    clock.month ≤ clock'.month ∧ ∀ r ∈ held, clock'.month ≤ r.madeIn.month

/-- Two ledgers that a key cannot tell apart: a new month sweeps the same reservations of it. -/
structure Alike (key : String) (l l' : Ledger α) : Prop where
  settings : l'.settings = l.settings
  row : l'.rows.get? key = l.rows.get? key
  held : heldBy key l'.pending = heldBy key l.pending
  clock : OnTime l.clock l'.clock (heldBy key l'.pending)

omit [Amount α] in
theorem OnTime.of_subset {clock clock' : Periods} {held held' : List (Reservation α)}
    (h : OnTime clock clock' held) (hsub : held' ⊆ held) : OnTime clock clock' held' := by
  rcases h with h | ⟨hle, h⟩
  · exact Or.inl h
  · exact Or.inr ⟨hle, fun r hr => h r (hsub hr)⟩

omit [Amount α] in
theorem Alike.refl (key : String) (l : Ledger α) : Alike key l l := ⟨rfl, rfl, rfl, Or.inl rfl⟩

omit [Amount α] in
theorem Alike.trans {key : String} {l l' l'' : Ledger α} (h : Alike key l l')
    (h' : Alike key l' l'') : Alike key l l'' := by
  refine ⟨h'.settings.trans h.settings, h'.row.trans h.row, h'.held.trans h.held, ?_⟩
  rcases h'.clock with hsame | ⟨hle', hheld'⟩
  · unfold OnTime
    rw [hsame, h'.held]
    exact h.clock
  · right
    refine ⟨?_, hheld'⟩
    rcases h.clock with hsame | ⟨hle, -⟩
    · exact hsame ▸ hle'
    · exact hle.trans hle'

/-! ## What stays open -/

omit [Amount α] in
theorem heldBy_eq (key : String) (kept old : List (Reservation α)) (hsub : kept.Sublist old)
    (hnodup : old.Nodup) (hall : ∀ r ∈ old, r.key = key → r ∈ kept) :
    heldBy key kept = heldBy key old := by
  apply (hsub.filter _).eq_of_length_le
  apply (List.subperm_of_subset (hnodup.filter _) _).length_le
  intro r hr
  obtain ⟨hr, hkey⟩ := List.mem_filter.mp hr
  exact List.mem_filter.mpr ⟨hall r hr (of_decide_eq_true hkey), hkey⟩

omit [Amount α] in
theorem onTime_join (clock now : Periods) (held : List (Reservation α))
    (h : ∀ r ∈ held, now.month ≤ r.madeIn.month) : OnTime clock (clock.join now) held := by
  by_cases hmonth : clock.month < now.month
  · right
    refine ⟨le_max_left _ _, ?_⟩
    intro r hr
    exact max_le (hmonth.le.trans (h r hr)) (h r hr)
  · left
    exact max_eq_left (not_lt.mp hmonth)

theorem sweepPeriods_onTime (l : Ledger α) (now : Periods) :
    OnTime l.clock (l.sweepPeriods now).clock (l.sweepPeriods now).pending := by
  rw [sweepPeriods_pending, sweepPeriods_eq]
  rcases bookAll_clock { l with pending := _ } (l.expired now) now with h | h
  · left
    rw [h]
  · rw [h]
    apply onTime_join
    intro r hr
    simpa using (List.mem_filter.mp hr).2

theorem observe_onTime (l : Ledger α) (now : Periods) :
    OnTime l.clock (l.observe now).clock (l.observe now).pending := by
  rw [observe_clock]
  by_cases h : l.clock.month < now.month
  · apply onTime_join
    intro r hr
    unfold observe at hr
    rw [if_pos h, sweepPeriods_pending] at hr
    simpa using (List.mem_filter.mp hr).2
  · left
    exact max_eq_left (not_lt.mp h)

/-! ## The row of a bystander -/

theorem bystander_settling (key : String) (l : Ledger α) (now : Periods) :
    Settling now fun l' held => Pinned l' held ∧
      openUnder key held ≤ openUnder key l.pending ∧
      (openUnder key held = openUnder key l.pending → l'.rows.get? key = l.rows.get? key) where
  quiet l' l'' held held' hrows hglobal hheld h := by
    obtain ⟨hpinned, hle, hrow⟩ := h
    have hcount : openUnder key held' = openUnder key held := (hheld.countP_eq _).symm
    rw [hcount, hrows]
    exact ⟨hpinned.quiet l' l'' held held' hrows (by rw [hglobal]) hheld, hle, hrow⟩
  charge l' r held h := by
    obtain ⟨hpinned, hle, hrow⟩ := h
    by_cases hkey : key = r.key
    · subst hkey
      rw [openUnder_cons_self] at hle
      refine ⟨hpinned.charge r r.amount now, by omega, fun he => by omega⟩
    · rw [openUnder_cons_of_ne r held key hkey] at hle hrow
      refine ⟨hpinned.charge r r.amount now, hle, fun he => ?_⟩
      rw [get?_charge_of_ne l' r r.amount now key hpinned.sound
        (hpinned.present r List.mem_cons_self) hkey]
      exact hrow he

omit [Amount α] in
theorem openUnder_eq (key : String) (held : List (Reservation α)) :
    openUnder key held = (heldBy key held).length := List.countP_eq_length_filter

variable {key : String} {l : Ledger α}

theorem prepared_alike (hpinned : Pinned l l.pending) (hids : (l.pending.map (·.id)).Nodup)
    (t : Timestamp) (hkept : ∀ r ∈ l.pending, r.key = key → r ∈ (l.prepared t).pending) :
    Alike key l (l.prepared t) := by
  have hheld := heldBy_eq key _ _ (l.prepared_pending t) (hids.of_map _) hkept
  have hclock : OnTime l.clock (l.prepared t).clock (l.prepared t).pending := by
    rw [prepared_clock, ← observe_clock]
    exact (l.observe_onTime _).of_subset (makeRoom_pending t _ _).subset
  obtain ⟨-, -, hrow⟩ := (bystander_settling key l (l.periodsAt t)).prepared l t hids
    ⟨hpinned, le_rfl, fun _ => rfl⟩
  refine ⟨l.prepared_settings t, hrow ?_, hheld, hclock.of_subset List.filter_sublist.subset⟩
  rw [openUnder_eq, openUnder_eq, hheld]

theorem alike_of_put (l' : Ledger α) (other : String) (row global : Row α) (h : l.rows.Sound)
    (hne : key ≠ other) (hsettings : l'.settings = l.settings)
    (hrows : l'.rows = (l.put other row global).rows) (hclock : l'.clock = l.clock)
    (hheld : heldBy key l'.pending = heldBy key l.pending)
    (hkept : (l.rows.get? key).isSome → (l'.rows.get? key).isSome) : Alike key l l' := by
  refine ⟨hsettings, ?_, hheld, Or.inl (by rw [hclock])⟩
  have hput := l.get?_put_of_ne other key row global h hne
  rw [← hrows] at hput
  split at hput
  · rw [hput] at hkept ⊢
    cases hget : l.rows.get? key with
    | none => rfl
    | some old =>
      rw [hget] at hkept
      cases hkept rfl
  · exact hput

theorem reserve_alike (hpinned : Pinned l l.pending) (hids : (l.pending.map (·.id)).Nodup)
    (id : ReservationId) (who : Identity) (caps : Capabilities α) (estimate : α)
    (basis : Option (PriceBasis α)) (t : Timestamp) (hne : key ≠ who.key)
    (h : Undisturbed key l (l.reserve id who caps estimate basis t).2) :
    Alike key l (l.reserve id who caps estimate basis t).2 := by
  have hsound : (l.prepared t).rows.Sound := makeRoom_sound t _ _ (l.observe_sound _ hpinned.sound)
  obtain ⟨row, global, made, dirty, hl, -, hmade⟩ := l.reserve_snd id who caps estimate basis t
  rw [hl] at h ⊢
  have hprepared := prepared_alike hpinned hids t fun r hr hkey =>
    (List.mem_append.mp (h.pending r hr hkey)).resolve_right fun hr' =>
      hne (hkey.symm.trans (hmade r hr'))
  have hheld : heldBy key ((l.prepared t).pending ++ made) = heldBy key (l.prepared t).pending := by
    have hnone : made.filter (fun r => r.key = key) = [] := by
      rw [List.filter_eq_nil_iff]
      intro r hr
      rw [hmade r hr]
      simpa using hne.symm
    unfold heldBy
    rw [List.filter_append, hnone, List.append_nil]
  refine hprepared.trans (alike_of_put _ who.key row global hsound hne rfl rfl rfl hheld ?_)
  rw [hprepared.row]
  exact h.row

theorem reconcile_alike (hpinned : Pinned l l.pending) (hids : (l.pending.map (·.id)).Nodup)
    (id : ReservationId) (actual : α) (t : Timestamp)
    (h : Undisturbed key l (l.reconcile id actual t).2) :
    Alike key l (l.reconcile id actual t).2 := by
  cases htake : l.take id with
  | none =>
    have hl : (l.reconcile id actual t).2 = l := by simp [reconcile, htake]
    rw [hl]
    exact .refl key l
  | some taken =>
    obtain ⟨r, l'⟩ := taken
    have hl : (l.reconcile id actual t).2 = l'.settle r (Amount.sanitize actual) t := by
      simp [reconcile, htake]
    rw [hl] at h ⊢
    obtain ⟨-, -, hperm⟩ := take_spec l l' id r hids htake
    obtain ⟨hsettings, hclock⟩ := take_settings l l' id r htake
    have hpending := l'.settle_pending r (Amount.sanitize actual) t
    have hsub : (l'.settle r (Amount.sanitize actual) t).pending.Sublist l.pending := by
      rw [hpending]
      exact (l'.observe_pending _).trans (take_pending l l' id r htake).1
    -- The one that is settled is not of the key, for those stay open.
    have hne : key ≠ r.key := by
      rintro rfl
      have hr : r ∈ l.pending := hperm.mem_iff.mpr List.mem_cons_self
      have hopen := h.pending r hr rfl
      rw [hpending] at hopen
      have hleft := (l'.observe_pending _).subset hopen
      have hcons := hperm.nodup_iff.mp (hids.of_map _)
      exact (List.nodup_cons.mp hcons).1 hleft
    have hheld := heldBy_eq key _ _ hsub (hids.of_map _) h.pending
    obtain ⟨hpinned', -, hrow⟩ := (bystander_settling key l (l'.periodsAt t)).taken l l' id r hids htake
      ⟨hpinned, le_rfl, fun _ => rfl⟩
    refine ⟨?_, ?_, hheld, ?_⟩
    · rw [settle_settings, hsettings]
    · unfold settle
      rw [get?_charge_of_ne _ r _ _ key hpinned'.sound
        (hpinned'.present r List.mem_cons_self) hne]
      apply hrow
      rw [openUnder_cons_of_ne r _ key hne, openUnder_eq, openUnder_eq, ← hheld, hpending]
    · have honTime := l'.observe_onTime (l'.periodsAt t)
      rw [← hpending, observe_clock, ← l'.settle_clock r (Amount.sanitize actual) t, hclock] at honTime
      exact honTime.of_subset List.filter_sublist.subset

theorem sweep_alike (hpinned : Pinned l l.pending) (hids : (l.pending.map (·.id)).Nodup)
    (t : Timestamp) (h : Undisturbed key l (l.sweep t).2) : Alike key l (l.sweep t).2 := by
  have hsub : (l.sweepPeriods (l.periodsAt t)).pending.Sublist l.pending := by
    rw [sweepPeriods_pending]
    exact List.filter_sublist
  have hheld := heldBy_eq key _ _ hsub (hids.of_map _) h.pending
  obtain ⟨-, -, hrow⟩ := (bystander_settling key l (l.periodsAt t)).sweepPeriods [] l
    (by simpa using hpinned)
  rw [List.append_nil] at hrow
  refine ⟨bookAll_settings _ _ _, hrow ?_, hheld, ?_⟩
  · rw [openUnder_eq, openUnder_eq, hheld]
  · exact (l.sweepPeriods_onTime _).of_subset List.filter_sublist.subset

theorem step_alike (hpinned : Pinned l l.pending) (hids : (l.pending.map (·.id)).Nodup) (s : Step α)
    (who : Identity) (hs : s.MadeFor who) (hne : key ≠ who.key) (h : Undisturbed key l (l.step s)) :
    Alike key l (l.step s) := by
  cases s with
  | call c =>
    cases c with
    | reserve id other caps estimate basis t =>
      obtain rfl : other = who := hs
      exact reserve_alike hpinned hids id other caps estimate basis t hne h
    | reconcile id actual t => exact reconcile_alike hpinned hids id actual t h
    | release id t => exact reconcile_alike hpinned hids id 0 t h
    | sweep t => exact sweep_alike hpinned hids t h
  | merge s => cases hs
  | usage other daily monthly t =>
    rw [step_usage]
    exact ⟨rfl, l.get?_look other key hpinned.sound, rfl, Or.inl rfl⟩
  | takeDirty | markDirty => exact ⟨rfl, rfl, rfl, Or.inl rfl⟩

/-! ## Many steps -/

/-- Steps for another caller, none of which takes anything of the key away. -/
theorem follow_alike (assign : String → Nat) (settings : LedgerSettings α) (past steps : List (Step α))
    (hfresh : ((past ++ steps).filterMap Step.newId?).Nodup) (who : Identity) (hne : key ≠ who.key)
    (hsteps : ∀ s ∈ steps, s.MadeFor who)
    (hundisturbed : ∀ before s, before ++ [s] <+: steps →
      Undisturbed key ((new assign settings).follow (past ++ before))
        ((new assign settings).follow (past ++ before ++ [s]))) :
    Alike key ((new assign settings).follow past) ((new assign settings).follow (past ++ steps)) := by
  induction steps using List.reverseRecOn with
  | nil =>
    rw [List.append_nil]
    exact .refl key _
  | append_singleton before s ih =>
    rw [← List.append_assoc] at hfresh ⊢
    have hbefore : ((past ++ before).filterMap Step.newId?).Nodup := by
      rw [List.filterMap_append] at hfresh
      exact hfresh.of_append_left
    obtain ⟨hpinned, hids, -⟩ := pinned_preserved.follow assign settings (new_pinned assign settings)
      (past ++ before) hbefore
    have hstep := hundisturbed before s (List.prefix_refl _)
    rw [follow_append_singleton] at hstep ⊢
    refine (ih hbefore ?_ ?_).trans ?_
    · exact fun s' hs' => hsteps s' (List.mem_append_left _ hs')
    · exact fun earlier s' hpre => hundisturbed earlier s' (hpre.trans (List.prefix_append _ _))
    · exact step_alike hpinned hids s who (hsteps s (by simp)) hne hstep

/-! ## What the key notices -/

def bookedRow (now : Periods) (row : Row α) (r : Reservation α) : Row α :=
  (row.roll now).settle r.amount r.amount r.madeIn

theorem row_bookAll (rs held : List (Reservation α)) (l : Ledger α) (now : Periods)
    (h : Pinned l (rs ++ held)) :
    (l.bookAll rs now).row key = (heldBy key rs).foldl (bookedRow now) (l.row key) := by
  induction rs generalizing l with
  | nil => rfl
  | cons r rs ih =>
    have hadvance : Pinned (l.advance now) (r :: (rs ++ held)) := h.quiet l _ _ _ rfl rfl (.refl _)
    refine (ih _ (hadvance.charge r r.amount now)).trans ?_
    by_cases hkey : r.key = key
    · subst hkey
      rw [row_charge_self _ r r.amount now hadvance.sound, heldBy, heldBy,
        List.filter_cons_of_pos (by simp)]
      rfl
    · have hget := get?_charge_of_ne (l.advance now) r r.amount now key hadvance.sound
        (hadvance.present r List.mem_cons_self) (Ne.symm hkey)
      rw [Ledger.row, hget, heldBy, heldBy, List.filter_cons_of_neg (by simpa using hkey)]
      rfl

theorem row_observe (h : Pinned l l.pending) (now : Periods) :
    (l.observe now).row key = (heldBy key (l.swept now)).foldl (bookedRow now) (l.row key) := by
  have hadvance : Pinned (l.advance now) l.pending := h.quiet l _ _ _ rfl rfl (.refl _)
  unfold observe swept
  split
  · rw [sweepPeriods_eq]
    refine row_bookAll ((l.advance now).expired now) ((l.advance now).sweepPeriods now).pending _ now ?_
    exact hadvance.quiet (l.advance now) _ _ _ rfl rfl ((l.advance now).expired_perm now).symm
  · rfl

omit [Amount α] in
theorem heldBy_expired (key : String) (l : Ledger α) (now : Periods) :
    heldBy key (l.expired now) =
      (heldBy key l.pending).filter fun r => r.madeIn.month < now.month := by
  unfold heldBy expired
  rw [List.filter_filter, List.filter_filter]
  exact List.filter_congr fun r _ => Bool.and_comm _ _

omit [Amount α] in
theorem Alike.swept {l' : Ledger α} (h : Alike key l l') (now : Periods) :
    heldBy key (l'.swept now) = heldBy key (l.swept now) := by
  have hexpired : heldBy key (l'.expired now) = heldBy key (l.expired now) := by
    rw [heldBy_expired, heldBy_expired, h.held]
  unfold Ledger.swept
  rcases h.clock with hsame | ⟨hle, hmade⟩
  · rw [hsame]
    split
    · exact hexpired
    · rfl
  · by_cases hopens : l'.clock.month < now.month
    · rw [if_pos hopens, if_pos (hle.trans_lt hopens)]
      exact hexpired
    · -- The clock has moved on, but nothing of the key is from before its month.
      have hnone : heldBy key (l.expired now) = [] := by
        rw [← hexpired, heldBy_expired, List.filter_eq_nil_iff]
        intro r hr
        have hmonth := hmade r hr
        simp only [decide_eq_true_eq]
        omega
      rw [if_neg hopens]
      split
      · exact hnone.symm
      · rfl

theorem check_of_no_limits (row : Row α) (estimate dailyCap monthlyCap : α)
    (daily monthly : BudgetLimit) (hdaily : ¬ 0 < dailyCap) (hmonthly : ¬ 0 < monthlyCap) :
    row.check estimate dailyCap monthlyCap daily monthly = none := by
  simp [Row.check, Meter.crosses, hdaily, hmonthly]

theorem reserve_fst_of_room (l : Ledger α) (id : ReservationId) (who : Identity)
    (caps : Capabilities α) (estimate : α) (basis : Option (PriceBasis α)) (t : Timestamp)
    (hdaily : ¬ 0 < l.settings.globalDaily) (hmonthly : ¬ 0 < l.settings.globalMonthly)
    (hroom : l.pending.length < l.pendingLimit) :
    (l.reserve id who caps estimate basis t).1 =
      verdict ((((l.observe (l.periodsAt t)).row who.key).roll (l.periodsAt t)).check
        (Amount.sanitize estimate) caps.dailyBudget caps.monthlyBudget .identityDaily
        .identityMonthly) := by
  have hprepared : l.prepared t = l.observe (l.periodsAt t) := by
    apply makeRoom_of_room
    unfold pendingLimit at hroom ⊢
    rw [observe_settings]
    exact (l.observe_pending _).length_le.trans_lt hroom
  rw [reserve_eq, enroll_fst, prepared_settings, check_of_no_limits _ _ _ _ _ _ hdaily hmonthly,
    Option.or_none, hprepared]

theorem Alike.reserve {l' : Ledger α} (who : Identity) (h : Alike who.key l l')
    (hpinned : Pinned l l.pending) (hpinned' : Pinned l' l'.pending)
    (hdaily : ¬ 0 < l.settings.globalDaily) (hmonthly : ¬ 0 < l.settings.globalMonthly)
    (hroom : l.pending.length < l.pendingLimit) (hroom' : l'.pending.length < l'.pendingLimit)
    (id : ReservationId) (caps : Capabilities α) (estimate : α) (basis : Option (PriceBasis α))
    (t : Timestamp) :
    (l'.reserve id who caps estimate basis t).1 = (l.reserve id who caps estimate basis t).1 := by
  have hnow : l'.periodsAt t = l.periodsAt t := by rw [periodsAt, periodsAt, h.settings]
  have hrow : (l'.observe (l.periodsAt t)).row who.key = (l.observe (l.periodsAt t)).row who.key := by
    rw [row_observe hpinned, row_observe hpinned', h.swept, Ledger.row, Ledger.row, h.row]
  rw [l.reserve_fst_of_room id who caps estimate basis t hdaily hmonthly hroom,
    l'.reserve_fst_of_room id who caps estimate basis t (h.settings ▸ hdaily) (h.settings ▸ hmonthly)
      hroom', hnow, hrow]

theorem Alike.usage {l' : Ledger α} (who : Identity) (h : Alike who.key l l')
    (caps : Capabilities α) (t : Timestamp) :
    (l'.usage who caps t).1 = (l.usage who caps t).1 := by
  rw [usage_eq, usage_eq, periodsAt, periodsAt, h.settings, Ledger.row, Ledger.row, h.row]

end Admission.Ledger
