import Admission.Proofs.Ledger.Step

/-!
# Open reservations hold their rows

A row counts the open reservations of its key, and a row that counts any is not displaced. So whatever
is open has its row in memory, and the number of open reservations is bounded.
-/

namespace Admission.Ledger

variable {α : Type} [Amount α]

/-! ## Rows -/

def openUnder (key : String) (held : List (Reservation α)) : Nat := held.countP fun r => r.key = key

/-- Every row counts the reservations under its key, and the row of everybody counts all. Each of them
has a row. -/
structure Pinned (l : Ledger α) (held : List (Reservation α)) : Prop where
  sound : l.rows.Sound
  rows : ∀ key row, l.rows.get? key = some row → row.pending = openUnder key held
  present : ∀ r ∈ held, (l.rows.get? r.key).isSome
  global : l.global.pending = held.length

omit [Amount α] in
theorem openUnder_cons_self (r : Reservation α) (held : List (Reservation α)) :
    openUnder r.key (r :: held) = openUnder r.key held + 1 :=
  List.countP_cons_of_pos (by simp)

omit [Amount α] in
theorem openUnder_cons_of_ne (r : Reservation α) (held : List (Reservation α)) (key : String)
    (hne : key ≠ r.key) : openUnder key (r :: held) = openUnder key held :=
  List.countP_cons_of_neg (by simpa using hne.symm)

theorem Pinned.row {l : Ledger α} {held : List (Reservation α)} (h : Pinned l held) (key : String) :
    (l.row key).pending = openUnder key held := by
  unfold Ledger.row
  cases hget : l.rows.get? key with
  | some row => exact h.rows key row hget
  | none =>
    have hnone : ∀ r ∈ held, r.key ≠ key := by
      rintro r hr rfl
      have hpresent := h.present r hr
      rw [hget] at hpresent
      cases hpresent
    symm
    apply List.countP_eq_zero.mpr
    intro r hr
    simpa using hnone r hr

theorem Pinned.put {l : Ledger α} {held held' : List (Reservation α)} (h : Pinned l held)
    (key : String) (row global : Row α) (hrow : row.pending = openUnder key held')
    (hglobal : global.pending = held'.length)
    (hheld : ∀ other ≠ key, openUnder other held' = openUnder other held) :
    Pinned (l.put key row global) held' := by
  have hself := l.get?_put_self key row global h.sound
  refine ⟨l.put_sound key row global h.sound, ?_, ?_, hglobal⟩
  · intro other row' hget
    by_cases hne : other = key
    · subst hne
      rw [hself] at hget
      cases hget
      exact hrow
    · rw [l.get?_put_of_ne key other row global h.sound hne] at hget
      split at hget
      · cases hget
      · rw [hheld other hne]
        exact h.rows other row' hget
  · intro r hr
    by_cases hne : r.key = key
    · rw [hne, hself]
      rfl
    · have hopen : 0 < openUnder r.key held := by
        rw [← hheld r.key hne]
        exact List.countP_pos_iff.mpr ⟨r, hr, by simp⟩
      rw [l.get?_put_of_ne key r.key row global h.sound hne]
      split
      · next hdisplaced =>
        obtain ⟨entry, hentry, hkey⟩ := Option.map_eq_some_iff.mp hdisplaced
        obtain ⟨hget, hpending, -⟩ := l.displaced?_spec key entry h.sound hentry
        have hcount := h.rows entry.1 entry.2 hget
        rw [hkey] at hcount
        omega
      · obtain ⟨old, hold, hkey⟩ := List.countP_pos_iff.mp hopen
        rw [← of_decide_eq_true hkey]
        exact h.present old hold

omit [Amount α] in
theorem Pinned.quiet (l l' : Ledger α) (held held' : List (Reservation α))
    (hrows : l'.rows = l.rows) (hglobal : l'.global.pending = l.global.pending)
    (hheld : held.Perm held') (h : Pinned l held) : Pinned l' held' := by
  refine ⟨hrows ▸ h.sound, ?_, ?_, ?_⟩
  · intro key row hget
    rw [h.rows key row (hrows ▸ hget)]
    exact hheld.countP_eq _
  · intro r hr
    rw [hrows]
    exact h.present r (hheld.mem_iff.mpr hr)
  · rw [hglobal, h.global, hheld.length_eq]

theorem Pinned.charge {l : Ledger α} {held : List (Reservation α)} (r : Reservation α)
    (h : Pinned l (r :: held)) (cost : α) (now : Periods) : Pinned (l.charge r cost now) held := by
  have hcount := h.row r.key
  rw [openUnder_cons_self] at hcount
  have hput : Pinned (l.put r.key (((l.row r.key).roll now).settle r.amount cost r.madeIn)
      ((l.global.roll now).settle r.amount cost r.globalMadeIn)) held := by
    apply h.put
    · show (l.row r.key).pending - 1 = openUnder r.key held
      omega
    · show l.global.pending - 1 = held.length
      rw [h.global]
      rfl
    · intro other hne
      exact (openUnder_cons_of_ne r held other hne).symm
  rw [charge_eq]
  exact hput.quiet (l.put r.key _ _) _ held held rfl rfl (.refl _)

theorem pinned_invariant :
    Invariant (fun _ _ => True) (fun _ _ => True)
      fun (l : Ledger α) held _ => Pinned l held where
  allowed_amount _ := trivial
  quiet l l' held held' _ _ hrows hglobal _ hheld _ h :=
    h.quiet l l' held held' hrows (by rw [hglobal]) hheld
  close _ _ _ h := h
  charge _ r _ _ cost now _ h := h.charge r cost now
  reject l held _ key now global hglobal h := by
    apply h.put
    · exact h.row key
    · rcases hglobal with rfl | rfl
      · exact h.global
      · exact h.global
    · exact fun _ _ => rfl
  accept l held _ r _ estimate now _ _ _ _ _ h := by
    apply h.put
    · show (l.row r.key).pending + 1 = openUnder r.key (r :: held)
      rw [openUnder_cons_self, h.row r.key]
    · show l.global.pending + 1 = held.length + 1
      rw [h.global]
    · exact openUnder_cons_of_ne r held

theorem pinned_preserved : Preserved (Pinned (α := α)) where
  booking := pinned_invariant
  absorbRow l held key stored h := by
    rw [absorbRow_eq_put]
    exact h.put key _ _ (h.row key) h.global fun _ _ => rfl
  absorbGlobal l held stored h := h.quiet l _ held held rfl rfl (.refl _)
  look l held key h := by
    refine ⟨l.rows.modify_sound key (fun row => (row, row)) h.sound, ?_, ?_, h.global⟩
    · intro other row hget
      rw [l.get?_look key other h.sound] at hget
      exact h.rows other row hget
    · intro r hr
      rw [l.get?_look key r.key h.sound]
      exact h.present r hr

theorem new_pinned (assign : String → Nat) (settings : LedgerSettings α) :
    Pinned (new assign settings) [] := by
  refine ⟨Shards.new_sound _ _ _, ?_, by simp, rfl⟩
  intro key row hget
  rw [new_get?] at hget
  cases hget

/-! ## The number of open reservations -/

theorem makeRoom_length (t : Timestamp) (steps : Nat) (l : Ledger α)
    (h : l.pending.length ≤ steps) : (makeRoom t steps l).pending.length < l.pendingLimit := by
  have hlimit : 1 ≤ l.pendingLimit := le_max_left 1 _
  induction steps generalizing l with
  | zero =>
    unfold makeRoom
    omega
  | succ steps ih =>
    unfold makeRoom
    split
    · next hroom => exact hroom
    next hfull =>
    have hne : l.pending ≠ [] := by
      intro he
      rw [he, List.length_nil] at hfull
      omega
    obtain ⟨oldest, holdest⟩ := Option.isSome_iff_exists.mp (firstLeast?_isSome older l.pending hne)
    rw [holdest, Option.bind_some]
    split
    · next r l' htake =>
      obtain ⟨-, hlt⟩ := take_pending l l' oldest.id r htake
      have hleft : (l'.settle r r.amount t).pending.length ≤ l'.pending.length := by
        rw [settle_pending]
        exact (l'.observe_pending _).length_le
      have hlimit' : (l'.settle r r.amount t).pendingLimit = l.pendingLimit := by
        unfold pendingLimit
        rw [settle_settings, (take_settings l l' oldest.id r htake).1]
      rw [← hlimit'] at hlimit ⊢
      exact ih _ (by omega) hlimit
    · next htake => exact absurd rfl ((take_eq_none _ _).mp htake oldest (firstLeast?_mem holdest))

theorem prepared_length (l : Ledger α) (t : Timestamp) :
    (l.prepared t).pending.length < l.pendingLimit := by
  have hroom := makeRoom_length t _ (l.observe (l.periodsAt t)) le_rfl
  unfold pendingLimit at hroom ⊢
  rw [observe_settings] at hroom
  exact hroom

theorem call_length (l : Ledger α) (c : Call α) (h : l.pending.length ≤ l.pendingLimit) :
    (l.call c).pending.length ≤ l.pendingLimit := by
  have hreconcile : ∀ id actual t, (l.reconcile id actual t).2.pending.length ≤ l.pendingLimit := by
    intro id actual t
    unfold reconcile
    split
    · next r l' htake =>
      have hleft := (l'.observe_pending (l'.periodsAt t)).length_le
      have htaken := (take_pending l l' id r htake).1.length_le
      rw [settle_pending]
      omega
    · exact h
  cases c with
  | reserve id who caps estimate basis t =>
    obtain ⟨row, global, made, dirty, hl, hmade, -⟩ := l.reserve_snd id who caps estimate basis t
    have hroom := l.prepared_length t
    show (l.reserve id who caps estimate basis t).2.pending.length ≤ l.pendingLimit
    rw [hl, List.length_append]
    omega
  | reconcile id actual t => exact hreconcile id actual t
  | release id t => exact hreconcile id 0 t
  | sweep t =>
    show (l.sweepPeriods _).pending.length ≤ _
    rw [sweepPeriods_pending]
    exact (List.length_filter_le _ _).trans h

theorem follow_length (assign : String → Nat) (settings : LedgerSettings α) (steps : List (Step α)) :
    ((new assign settings).follow steps).pending.length ≤ (new assign settings).pendingLimit := by
  induction steps using List.reverseRecOn with
  | nil => exact Nat.zero_le _
  | append_singleton before s ih =>
    have hlimit : ((new assign settings).follow before).pendingLimit =
        (new assign settings).pendingLimit := by
      unfold pendingLimit
      rw [follow_settings]
    rw [follow_append_singleton]
    by_cases hs : ∃ c, s = .call c
    · obtain ⟨c, rfl⟩ := hs
      rw [← hlimit] at ih ⊢
      exact call_length _ c ih
    · rw [step_pending _ s fun c he => hs ⟨c, he⟩]
      exact ih

/-! ## The oldest one -/

omit [Amount α] in
theorem older_asymm (a b : Reservation α) (h : older a b = true) : older b a = false := by
  simp only [older, Bool.or_eq_true, Bool.and_eq_true, decide_eq_true_eq, beq_iff_eq,
    Bool.or_eq_false_iff, Bool.and_eq_false_iff, decide_eq_false_iff_not, beq_eq_false_iff_ne] at h ⊢
  omega

omit [Amount α] in
theorem older_trans_false (a b c : Reservation α) (hab : older a b = false)
    (hbc : older b c = false) : older a c = false := by
  simp only [older, Bool.or_eq_false_iff, Bool.and_eq_false_iff, decide_eq_false_iff_not,
    beq_eq_false_iff_ne] at hab hbc ⊢
  omega

theorem prepared_pending_of_full (l : Ledger α) (t : Timestamp)
    (hmonth : (l.periodsAt t).month ≤ l.clock.month) (hfull : l.pending.length = l.pendingLimit) :
    ∃ oldest ∈ l.pending, (∀ r ∈ l.pending, older r oldest = false) ∧
      (l.prepared t).pending = l.pending.filter fun r => r.id != oldest.id := by
  have hlimit : 1 ≤ l.pendingLimit := le_max_left 1 _
  obtain ⟨steps, hsteps⟩ : ∃ steps, l.pending.length = steps + 1 := ⟨l.pending.length - 1, by omega⟩
  have hne : l.pending ≠ [] := List.ne_nil_of_length_eq_add_one hsteps
  obtain ⟨oldest, holdest⟩ := Option.isSome_iff_exists.mp (firstLeast?_isSome older l.pending hne)
  have hmem : oldest ∈ l.pending := firstLeast?_mem holdest
  refine ⟨oldest, hmem, firstLeast?_least older older_asymm older_trans_false _ _ holdest, ?_⟩
  have hadvance : (l.advance (l.periodsAt t)).pending = l.pending := rfl
  rw [prepared, l.observe_eq _ hmonth, hadvance, hsteps]
  unfold makeRoom
  rw [if_neg (by rw [hadvance]; exact not_lt.mpr hfull.ge), hadvance, holdest, Option.bind_some]
  split
  · next r l' htake =>
    obtain ⟨hsettings, hclock⟩ := take_settings _ l' oldest.id r htake
    have hpending : l'.pending = l.pending.filter fun r => r.id != oldest.id := by
      obtain ⟨_, -, he⟩ := Option.map_eq_some_iff.mp htake
      cases he
      rfl
    have hsame : (l'.periodsAt t).month ≤ l'.clock.month := by
      rw [periodsAt, hsettings, hclock]
      exact le_max_right _ _
    have hsettle : (l'.settle r r.amount t).pending = l'.pending := by
      rw [settle_pending, observe_eq _ _ hsame]
      rfl
    have hlt := (take_pending _ l' oldest.id r htake).2
    rw [makeRoom_of_room, hsettle, hpending]
    rw [hsettle, pendingLimit, settle_settings, hsettings]
    exact lt_of_lt_of_eq hlt hfull
  · next htake => exact absurd rfl ((take_eq_none _ _).mp htake oldest hmem)

/-- What a reserve that opens no month takes out is the oldest of a full ledger, and nothing else. -/
theorem reserve_gives_up_oldest (l : Ledger α) (id : ReservationId) (who : Identity)
    (caps : Capabilities α) (estimate : α) (basis : Option (PriceBasis α)) (t : Timestamp)
    (hids : (l.pending.map (·.id)).Nodup) (hlength : l.pending.length ≤ l.pendingLimit)
    (hmonth : (l.periodsAt t).month ≤ l.clock.month) (r : Reservation α) (hr : r ∈ l.pending)
    (hgone : r ∉ (l.reserve id who caps estimate basis t).2.pending) :
    l.pending.length = l.pendingLimit ∧ (∀ other ∈ l.pending, older other r = false) ∧
      ∀ other ∈ l.pending, other ≠ r →
        other ∈ (l.reserve id who caps estimate basis t).2.pending := by
  have hkept : (l.prepared t).pending ⊆ (l.reserve id who caps estimate basis t).2.pending := by
    obtain ⟨row, global, made, dirty, hl, -, -⟩ := l.reserve_snd id who caps estimate basis t
    rw [hl]
    exact List.subset_append_left _ made
  by_cases hroom : l.pending.length < l.pendingLimit
  · rw [l.prepared_eq t hmonth hroom] at hkept
    exact absurd (hkept hr) hgone
  have hfull : l.pending.length = l.pendingLimit := by omega
  obtain ⟨oldest, hmem, holdest, hprepared⟩ := l.prepared_pending_of_full t hmonth hfull
  rw [hprepared] at hkept
  have hsame : r = oldest := by
    by_contra hne
    apply hgone
    apply hkept
    rw [List.mem_filter, bne_iff_ne]
    exact ⟨hr, fun he => hne (List.inj_on_of_nodup_map hids hr hmem he)⟩
  subst hsame
  refine ⟨hfull, holdest, ?_⟩
  intro other ho hne
  apply hkept
  rw [List.mem_filter, bne_iff_ne]
  exact ⟨ho, fun he => hne (List.inj_on_of_nodup_map hids ho hr he)⟩

end Admission.Ledger
