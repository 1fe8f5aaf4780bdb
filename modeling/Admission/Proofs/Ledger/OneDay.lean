import Admission.Proofs.Ledger.Caps
import Admission.Proofs.Ledger.Rejection

/-!
# The day of one key

What a key commits in a day stays within a cap, whatever other keys do: it is enough that every reserve
under the key comes with a daily budget within the cap, and that nothing under it settles above its
estimate.
-/

namespace Admission.Ledger

/-! ## Open reservations -/

section

variable {α : Type} [Amount α] (l : Ledger α) (id : ReservationId) (t : Timestamp)

theorem prepared_pending : (l.prepared t).pending.Sublist l.pending :=
  (makeRoom_pending t _ _).trans (l.observe_pending _)

theorem mem_reserve (who : Identity) (caps : Capabilities α) (estimate : α)
    (basis : Option (PriceBasis α)) (r : Reservation α)
    (h : r ∈ (l.reserve id who caps estimate basis t).2.pending) :
    r ∈ l.pending ∨ (l.reserve id who caps estimate basis t).1 = .ok () ∧
      (Call.reserve id who caps estimate basis t).Makes r := by
  rw [reserve_eq] at h ⊢
  rcases (l.prepared t).enroll_cases id who caps (Amount.sanitize estimate) basis t (l.periodsAt t) with
    ⟨rejection, global, -, -, he⟩ | ⟨made, hid, hkey, hamount, ht, hbasis, -, -, -, he⟩
  · rw [he] at h
    exact Or.inl ((l.prepared_pending t).subset h)
  · rw [he] at h ⊢
    rcases List.mem_append.mp h with hold | hmade
    · exact Or.inl ((l.prepared_pending t).subset hold)
    · rw [List.mem_singleton.mp hmade]
      exact Or.inr ⟨rfl, hid, hkey, hamount, ht, hbasis⟩

theorem mem_reconcile (actual : α) (r : Reservation α) (h : r ∈ (l.reconcile id actual t).2.pending) :
    r ∈ l.pending ∧ r.id ≠ id := by
  cases htake : l.take id with
  | none =>
    have hl : (l.reconcile id actual t).2 = l := by simp [reconcile, htake]
    rw [hl] at h
    exact ⟨h, (take_eq_none l id).mp htake r h⟩
  | some taken =>
    obtain ⟨found, l'⟩ := taken
    have hl : (l.reconcile id actual t).2 = l'.settle found (Amount.sanitize actual) t := by
      simp [reconcile, htake]
    rw [hl, settle_pending] at h
    have hr := (l'.observe_pending _).subset h
    obtain ⟨_, -, he⟩ := Option.map_eq_some_iff.mp htake
    cases he
    simpa using List.mem_filter.mp hr

theorem Outcome.ids_nodup {l : Ledger α} {c : Call α} {done kept made : List (Reservation α)}
    (ho : Outcome l c done kept made) (hids : (l.pending.map (·.id)).Nodup)
    (hnew : ∀ id, c.newId? = some id → ∀ r ∈ l.pending, r.id ≠ id) :
    ((l.call c).pending.map (·.id)).Nodup := by
  rw [ho.pending, List.map_append, List.nodup_append]
  refine ⟨ids_nodup_of_perm done kept _ ho.perm hids, ?_, ?_⟩
  · refine List.Nodup.sublist ho.ids ?_
    cases c.newId? <;> simp
  · intro old hold new hmade he
    obtain ⟨r, hr, rfl⟩ := List.mem_map.mp hold
    have hid : c.newId? = some new := by simpa using ho.ids.subset hmade
    exact hnew new hid r (ho.perm.mem_iff.mp (List.mem_append_right _ hr)) he

end

theorem Balanced.look {l : Ledger Rat} {held : List (Reservation Rat)} {b : Books Rat}
    (h : Balanced l held b) (key : String) : Balanced (l.look key) held b := by
  have hget := fun other => l.get?_look key other h.sound
  refine ⟨l.rows.modify_sound key (fun row => (row, row)) h.sound, h.amounts, ?_, ?_, ?_, h.global⟩
  · intro other row hrow
    exact h.rows other row ((hget other).symm.trans hrow)
  · intro r hr
    rw [hget]
    exact h.present r hr
  · intro other hnone
    exact h.gone other ((hget other).symm.trans hnone)

/-! ## Within the cap -/

/-- A balanced ledger in which the day of a key stays within a cap. -/
structure WithinDay (key : String) (cap : Rat) (l : Ledger Rat) (held : List (Reservation Rat))
    (b : Books Rat) : Prop where
  balanced : Balanced l held b
  day : ∀ row, l.rows.get? key = some row → row.day.Within cap

variable {key : String} {cap : Rat} {l : Ledger Rat} {held : List (Reservation Rat)} {b : Books Rat}

theorem WithinDay.row (h : WithinDay key cap l held b) : (l.row key).day.Within cap := by
  unfold Ledger.row
  cases hget : l.rows.get? key with
  | some row => exact h.day row hget
  | none => exact Meter.zero_within cap

theorem WithinDay.put_day (h : WithinDay key cap l held b) (other : String) (row global : Row Rat)
    (hrow : other = key → row.day.Within cap) (row' : Row Rat)
    (hget : (l.put other row global).rows.get? key = some row') : row'.day.Within cap := by
  by_cases hkey : other = key
  · subst hkey
    rw [l.get?_put_self other row global h.balanced.sound] at hget
    cases hget
    exact hrow rfl
  · rw [l.get?_put_of_ne other key row global h.balanced.sound (Ne.symm hkey)] at hget
    split at hget
    · cases hget
    · exact h.day row' hget

theorem WithinDay.charge (r : Reservation Rat) (h : WithinDay key cap l (r :: held) b) (cost : Rat)
    (hcost : r.key = key → cost ≤ r.amount) (now : Periods) :
    WithinDay key cap (l.charge r cost now) held (b.enter [⟨r, cost⟩]) := by
  have hamounts : ∀ other ∈ held, 0 ≤ other.amount :=
    fun other ho => h.balanced.amounts other (List.mem_cons_of_mem r ho)
  have hrow := h.balanced.row l (r :: held) b r.key
  rw [under_cons_self] at hrow
  refine ⟨h.balanced.charge l held b r cost now, ?_⟩
  rw [charge_eq]
  refine h.put_day r.key _ ((l.global.roll now).settle r.amount cost r.globalMadeIn) fun hkey => ?_
  have hday : (l.row r.key).day.Within cap := by
    rw [hkey]
    exact h.row
  exact (hday.roll _ _ now.day).settle _ _ _ _ _ r (hrow.roll _ _ _ _ now).day
    (fun other ho => hamounts other (List.mem_of_mem_filter ho)) cost (hcost hkey)

theorem WithinDay.reject (h : WithinDay key cap l held b) (other : String) (now : Periods)
    (global : Row Rat) (hglobal : global = l.global ∨ global = l.global.roll now) :
    WithinDay key cap (l.put other ((l.row other).roll now) global) held
      (b.close (l.put other ((l.row other).roll now) global)) := by
  refine ⟨h.balanced.reject l held b other now global hglobal, h.put_day other _ global fun hkey => ?_⟩
  rw [hkey]
  exact h.row.roll _ _ now.day

theorem WithinDay.accept (h : WithinDay key cap l held b) (r : Reservation Rat)
    (caps : Capabilities Rat) (now : Periods) (hamount : 0 ≤ r.amount)
    (hbudget : r.key = key → 0 < caps.dailyBudget ∧ caps.dailyBudget ≤ cap)
    (hmadeIn : r.madeIn = ((l.row r.key).roll now).periods)
    (hglobalMadeIn : r.globalMadeIn = (l.global.roll now).periods)
    (hpasses : Passes l.settings caps r.amount ((l.row r.key).roll now) (l.global.roll now)) :
    WithinDay key cap (l.put r.key (((l.row r.key).roll now).reserve r.amount)
        ((l.global.roll now).reserve r.amount)) (r :: held)
      (b.close (l.put r.key (((l.row r.key).roll now).reserve r.amount)
        ((l.global.roll now).reserve r.amount))) := by
  refine ⟨h.balanced.accept l held b r now hamount hmadeIn hglobalMadeIn,
    h.put_day r.key _ _ fun hkey _ => ?_⟩
  obtain ⟨hpositive, hle⟩ := hbudget hkey
  have hday := (Row.check_eq_none _ _ _ _ _ _).mp hpasses.caller |>.1
  exact (Meter.reserve_within _ _ r.amount hday hpositive).trans hle

theorem withinDay_invariant (key : String) (cap : Rat) :
    Invariant (fun r cost => r.key = key → cost ≤ r.amount)
      (fun other caps => other = key → 0 < caps.dailyBudget ∧ caps.dailyBudget ≤ cap)
      (WithinDay key cap) where
  allowed_amount _ _ := le_refl _
  quiet l l' held held' b b' hrows hglobal _ hheld hb h :=
    ⟨h.balanced.quiet l l' held held' b b' hrows hglobal hheld hb, hrows ▸ h.day⟩
  close l held b h := ⟨h.balanced.close l held b, h.day⟩
  charge _ r _ _ cost now hcost h := h.charge r cost hcost now
  reject _ _ _ other now global hglobal h := h.reject other now global hglobal
  accept _ _ _ r caps estimate now hbudget hamount hmadeIn hglobalMadeIn hpasses h :=
    h.accept r caps now (hamount ▸ sanitize_nonneg estimate) hbudget hmadeIn hglobalMadeIn hpasses

/-! ## Step by step -/

/-- The day of a key stays within a cap in a ledger whose open reservations have ids of their own. -/
structure KeepsDay (key : String) (cap : Rat) (l : Ledger Rat) : Prop where
  ids : (l.pending.map (·.id)).Nodup
  books : ∃ b, WithinDay key cap l l.pending b

theorem new_keepsDay (key : String) (cap : Rat) (assign : String → Nat)
    (settings : LedgerSettings Rat) : KeepsDay key cap (new assign settings) := by
  refine ⟨List.nodup_nil, .empty, new_balanced assign settings, fun row hget => ?_⟩
  rw [new_get?] at hget
  cases hget

theorem KeepsDay.call (h : KeepsDay key cap l) (c : Call Rat)
    (hbudget : c.Budgeted fun other caps =>
      other = key → 0 < caps.dailyBudget ∧ caps.dailyBudget ≤ cap)
    (hcost : ∀ r ∈ l.pending, r.key = key → c.cost r ≤ r.amount)
    (hnew : ∀ id, c.newId? = some id → ∀ r ∈ l.pending, r.id ≠ id) : KeepsDay key cap (l.call c) := by
  obtain ⟨b, hb⟩ := h.books
  obtain ⟨done, kept, made, ho, hnext⟩ := (withinDay_invariant key cap).exists_outcome (by decide) l b c
    h.ids hbudget hcost hb
  rw [← ho.pending] at hnext
  exact ⟨ho.ids_nodup h.ids hnew, _, hnext⟩

theorem KeepsDay.reserve (h : KeepsDay key cap l) (id : ReservationId) (who : Identity)
    (caps : Capabilities Rat) (estimate : Rat) (basis : Option (PriceBasis Rat)) (t : Timestamp)
    (hbudget : who.key = key → 0 < caps.dailyBudget ∧ caps.dailyBudget ≤ cap)
    (hnew : ∀ r ∈ l.pending, r.id ≠ id) :
    KeepsDay key cap (l.reserve id who caps estimate basis t).2 := by
  refine h.call (.reserve id who caps estimate basis t) hbudget (fun r _ _ => le_refl _) ?_
  intro new hid
  cases hid
  exact hnew

theorem KeepsDay.reconcile (h : KeepsDay key cap l) (id : ReservationId) (actual : Rat)
    (t : Timestamp)
    (hactual : ∀ r ∈ l.pending, r.id = id → r.key = key → Amount.sanitize actual ≤ r.amount) :
    KeepsDay key cap (l.reconcile id actual t).2 := by
  refine h.call (.reconcile id actual t) trivial (fun r hr hkey => ?_) (fun new hid => by cases hid)
  simp only [Call.cost]
  split
  · next hid => exact hactual r hr hid hkey
  · exact le_refl _

theorem KeepsDay.release (h : KeepsDay key cap l) (id : ReservationId) (t : Timestamp) :
    KeepsDay key cap (l.release id t).2 := by
  obtain ⟨b, hb⟩ := h.books
  have hzero : Amount.sanitize (0 : Rat) = 0 := by decide
  refine h.reconcile id 0 t fun r hr _ _ => ?_
  rw [hzero]
  exact hb.balanced.amounts r hr

theorem KeepsDay.usage (h : KeepsDay key cap l) (who : Identity) (caps : Capabilities Rat)
    (t : Timestamp) : KeepsDay key cap (l.usage who caps t).2 := by
  obtain ⟨b, hb, hday⟩ := h.books
  rw [Ledger.usage, usageOfKey_eq]
  refine ⟨h.ids, b, hb.look who.key, fun row hget => ?_⟩
  exact hday row ((l.get?_look who.key key hb.sound).symm.trans hget)

theorem KeepsDay.shown (who : Identity) (caps : Capabilities Rat) (t : Timestamp)
    (hpositive : 0 < caps.dailyBudget) (h : KeepsDay who.key caps.dailyBudget l) :
    (l.usage who caps t).1.daily.spent + (l.usage who caps t).1.daily.reserved ≤ caps.dailyBudget := by
  obtain ⟨b, hb⟩ := h.books
  have hcommitted := hb.row hpositive
  rw [usage_eq]
  simp only [report, Meter.view]
  split
  · exact hcommitted
  · simpa using hpositive.le

end Admission.Ledger
