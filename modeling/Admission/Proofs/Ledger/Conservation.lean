import Admission.Proofs.Ledger.Invariant

/-!
# Nothing is lost, doubled or misdated

In exact arithmetic a meter always shows what its period owes: the sum of the open reservations that
were made in it as reserved, and the sum of what was booked for the settled ones as spent.
-/

namespace Admission

/-! ## One meter -/

namespace Meter

def ofPeriod (m : Meter Rat) (period : Reservation Rat → Int) (held : List (Reservation Rat)) :
    List (Reservation Rat) :=
  held.filter fun r => period r = m.marker

/-- What was settled of a meter's period. -/
def bookedInPeriod (m : Meter Rat) (period : Reservation Rat → Int)
    (booked : List (Ledger.Settlement Rat)) : List (Ledger.Settlement Rat) :=
  booked.filter fun s => period s.reservation = m.marker

/-- A meter shows the open and the settled reservations of its period. -/
structure Shows (m : Meter Rat) (period : Reservation Rat → Int) (held : List (Reservation Rat))
    (booked : List (Ledger.Settlement Rat)) : Prop where
  reserved : m.reserved = ((m.ofPeriod period held).map (·.amount)).sum
  spent : m.spent = ((m.bookedInPeriod period booked).map (·.cost)).sum

/-- A meter shows its period, and nothing comes from a later one. -/
structure Balanced (m : Meter Rat) (period : Reservation Rat → Int) (held : List (Reservation Rat))
    (booked : List (Ledger.Settlement Rat)) : Prop where
  shows : m.Shows period held booked
  held_le : ∀ r ∈ held, period r ≤ m.marker
  booked_le : ∀ s ∈ booked, period s.reservation ≤ m.marker

theorem zero_balanced (period : Reservation Rat → Int) : (zero : Meter Rat).Balanced period [] [] :=
  ⟨⟨rfl, rfl⟩, by simp, by simp⟩

variable (m : Meter Rat) (period : Reservation Rat → Int) (held held' : List (Reservation Rat))
  (booked booked' : List (Ledger.Settlement Rat))

theorem Balanced.perm (h : m.Balanced period held booked) (hh : held.Perm held')
    (hb : booked.Perm booked') : m.Balanced period held' booked' := by
  refine ⟨⟨?_, ?_⟩, fun r hr => h.held_le r (hh.mem_iff.mpr hr),
    fun s hs => h.booked_le s (hb.mem_iff.mpr hs)⟩
  · rw [h.shows.reserved]
    exact ((hh.filter _).map _).sum_eq
  · rw [h.shows.spent]
    exact ((hb.filter _).map _).sum_eq

theorem ofPeriod_cons_self (r : Reservation Rat) (hr : period r = m.marker) :
    m.ofPeriod period (r :: held) = r :: m.ofPeriod period held :=
  List.filter_cons_of_pos (decide_eq_true hr)

theorem Balanced.roll (h : m.Balanced period held booked) (now : Int) :
    (m.roll now).Balanced period held booked := by
  unfold Meter.roll
  split
  · next hlt =>
    have hheld : held.filter (fun r => period r = now) = [] := by
      rw [List.filter_eq_nil_iff]
      intro r hr he
      have hle := h.held_le r hr
      simp only [decide_eq_true_eq] at he
      omega
    have hbooked : booked.filter (fun s => period s.reservation = now) = [] := by
      rw [List.filter_eq_nil_iff]
      intro s hs he
      have hle := h.booked_le s hs
      simp only [decide_eq_true_eq] at he
      omega
    refine ⟨⟨?_, ?_⟩, fun r hr => ?_, fun s hs => ?_⟩
    · simp [ofPeriod, hheld]
    · simp [bookedInPeriod, hbooked]
    · exact (h.held_le r hr).trans hlt.le
    · exact (h.booked_le s hs).trans hlt.le
  · exact h

theorem Balanced.reserve (h : m.Balanced period held booked) (r : Reservation Rat)
    (hr : period r = m.marker) : (m.reserve r.amount).Balanced period (r :: held) booked := by
  refine ⟨⟨?_, h.shows.spent⟩, ?_, h.booked_le⟩
  · rw [ofPeriod_cons_self (m.reserve r.amount) _ _ r hr, List.map_cons, List.sum_cons]
    exact (congrArg (· + r.amount) h.shows.reserved).trans (add_comm _ _)
  · intro other ho
    rcases List.mem_cons.mp ho with rfl | ho
    · exact hr.le
    · exact h.held_le other ho

theorem ofPeriod_sum_nonneg (h : ∀ r ∈ held, 0 ≤ r.amount) :
    0 ≤ ((m.ofPeriod period held).map (·.amount)).sum := by
  refine List.sum_nonneg fun x hx => ?_
  obtain ⟨r, hr, rfl⟩ := List.mem_map.mp hx
  exact h r (List.mem_of_mem_filter hr)

theorem Balanced.settle (r : Reservation Rat) (h : m.Balanced period (r :: held) booked)
    (hamounts : ∀ r ∈ held, 0 ≤ r.amount) (cost : Rat) :
    (m.settle r.amount cost (period r)).Balanced period held (booked ++ [⟨r, cost⟩]) := by
  -- What the other reservations hold is still held after one is settled.
  have hreserved := h.shows.reserved
  have hspent := h.shows.spent
  have hmarker : (m.settle r.amount cost (period r)).marker = m.marker := by
    unfold Meter.settle
    split <;> rfl
  refine ⟨?_, fun other ho => ?_, fun s hs => ?_⟩
  · by_cases hr : m.marker = period r
    · have hbooked : m.bookedInPeriod period (booked ++ [⟨r, cost⟩]) =
          m.bookedInPeriod period booked ++ [⟨r, cost⟩] := by
        simp [bookedInPeriod, hr]
      have hnonneg := m.ofPeriod_sum_nonneg period held hamounts
      rw [ofPeriod_cons_self _ _ _ r hr.symm, List.map_cons, List.sum_cons] at hreserved
      have hsettle : m.settle r.amount cost (period r) =
          ⟨m.marker, m.spent + cost, ((m.ofPeriod period held).map (·.amount)).sum⟩ := by
        simp only [Meter.settle, hr, if_true, hreserved, add_sub_cancel_left, Amount.larger]
        grind
      rw [hsettle]
      refine ⟨rfl, ?_⟩
      show m.spent + cost = ((m.bookedInPeriod period (booked ++ [⟨r, cost⟩])).map (·.cost)).sum
      rw [hbooked, List.map_append, List.sum_append, ← hspent]
      simp
    · have hcons : m.ofPeriod period (r :: held) = m.ofPeriod period held :=
        List.filter_cons_of_neg (by simpa using Ne.symm hr)
      have hbooked : m.bookedInPeriod period (booked ++ [⟨r, cost⟩]) =
          m.bookedInPeriod period booked := by
        simp [bookedInPeriod, Ne.symm hr]
      have hsettle : m.settle r.amount cost (period r) = m := by
        simp [Meter.settle, hr]
      rw [hsettle]
      exact ⟨by rw [hreserved, hcons], by rw [hbooked, hspent]⟩
  · rw [hmarker]
    exact h.held_le other (List.mem_cons_of_mem r ho)
  · rw [hmarker]
    rcases List.mem_append.mp hs with hs | hs
    · exact h.booked_le s hs
    · rw [List.mem_singleton.mp hs]
      exact h.held_le r List.mem_cons_self

end Meter

/-! ## One row -/

namespace Row

/-- Both meters of a row are balanced, and it counts its open reservations. -/
structure Balanced (row : Row Rat) (madeIn : Reservation Rat → Periods) (held : List (Reservation Rat))
    (booked : List (Ledger.Settlement Rat)) : Prop where
  day : row.day.Balanced (fun r => (madeIn r).day) held booked
  month : row.month.Balanced (fun r => (madeIn r).month) held booked
  pending : row.pending = held.length

variable (row : Row Rat) (madeIn : Reservation Rat → Periods) (held held' : List (Reservation Rat))
  (booked booked' : List (Ledger.Settlement Rat))

theorem empty_balanced : (empty : Row Rat).Balanced madeIn [] [] :=
  ⟨Meter.zero_balanced _, Meter.zero_balanced _, rfl⟩

theorem Balanced.perm (h : row.Balanced madeIn held booked) (hh : held.Perm held')
    (hb : booked.Perm booked') : row.Balanced madeIn held' booked' :=
  ⟨h.day.perm _ _ _ _ _ _ hh hb, h.month.perm _ _ _ _ _ _ hh hb, h.pending.trans hh.length_eq⟩

theorem Balanced.roll (h : row.Balanced madeIn held booked) (now : Periods) :
    (row.roll now).Balanced madeIn held booked :=
  ⟨h.day.roll _ _ _ _ now.day, h.month.roll _ _ _ _ now.month, h.pending⟩

theorem Balanced.reserve (h : row.Balanced madeIn held booked) (r : Reservation Rat)
    (hr : madeIn r = row.periods) : (row.reserve r.amount).Balanced madeIn (r :: held) booked :=
  ⟨h.day.reserve _ _ _ _ r (congrArg Periods.day hr),
    h.month.reserve _ _ _ _ r (congrArg Periods.month hr), congrArg (· + 1) h.pending⟩

theorem Balanced.settle (r : Reservation Rat) (h : row.Balanced madeIn (r :: held) booked)
    (hamounts : ∀ r ∈ held, 0 ≤ r.amount) (cost : Rat) :
    (row.settle r.amount cost (madeIn r)).Balanced madeIn held (booked ++ [⟨r, cost⟩]) :=
  ⟨h.day.settle _ _ _ _ r hamounts cost, h.month.settle _ _ _ _ r hamounts cost,
    congrArg (· - 1) h.pending⟩

end Row

/-! ## The whole ledger -/

namespace Ledger

def under (key : String) (held : List (Reservation Rat)) : List (Reservation Rat) :=
  held.filter fun r => r.key = key

/-- Every row is balanced with the reservations under its key and with its book, and the row of
everybody with all of them. Open reservations have a row, and what has no row has no book. -/
structure Balanced (l : Ledger Rat) (held : List (Reservation Rat)) (b : Books Rat) : Prop where
  sound : l.rows.Sound
  amounts : ∀ r ∈ held, 0 ≤ r.amount
  rows : ∀ key row, l.rows.get? key = some row →
    row.Balanced (·.madeIn) (under key held) (b.ofKey key)
  present : ∀ r ∈ held, (l.rows.get? r.key).isSome
  gone : ∀ key, l.rows.get? key = none → b.ofKey key = []
  global : l.global.Balanced (·.globalMadeIn) held b.all

variable (l l' : Ledger Rat) (held held' : List (Reservation Rat)) (b b' : Books Rat)

theorem under_eq_nil (key : String) (h : Balanced l held b) (hnone : l.rows.get? key = none) :
    under key held = [] := by
  rw [under, List.filter_eq_nil_iff]
  intro r hr hkey
  have hpresent := h.present r hr
  rw [of_decide_eq_true hkey, hnone] at hpresent
  cases hpresent

theorem Balanced.row (h : Balanced l held b) (key : String) :
    (l.row key).Balanced (·.madeIn) (under key held) (b.ofKey key) := by
  unfold Ledger.row
  cases hget : l.rows.get? key with
  | some row => exact h.rows key row hget
  | none =>
    rw [under_eq_nil l held b key h hget, h.gone key hget]
    exact Row.empty_balanced _

theorem Balanced.quiet (hrows : l'.rows = l.rows) (hglobal : l'.global = l.global)
    (hheld : held.Perm held') (hb : b.Same b') (h : Balanced l held b) : Balanced l' held' b' := by
  refine ⟨hrows ▸ h.sound, ?_, ?_, ?_, ?_, ?_⟩
  · exact fun r hr => h.amounts r (hheld.mem_iff.mpr hr)
  · intro key row hget
    exact (h.rows key row (hrows ▸ hget)).perm _ _ _ _ _ _ (hheld.filter _) (hb.1 key)
  · intro r hr
    rw [hrows]
    exact h.present r (hheld.mem_iff.mpr hr)
  · intro key hnone
    have hnil := h.gone key (hrows ▸ hnone)
    exact (hnil ▸ hb.1 key).symm.eq_nil
  · rw [hglobal]
    exact h.global.perm _ _ _ _ _ _ hheld hb.2

theorem contains_eq (key : String) : l.rows.contains key = (l.rows.get? key).isSome := by
  simp [Shards.contains, Shards.get?]

theorem Balanced.close (h : Balanced l held b) : Balanced l held (b.close l) := by
  have hbooks : ∀ key, (b.close l).ofKey key = b.ofKey key := by
    intro key
    simp only [Books.close, contains_eq]
    split
    · rfl
    · next hnone => exact (h.gone key (by simpa using hnone)).symm
  refine ⟨h.sound, h.amounts, ?_, h.present, ?_, h.global⟩
  · intro key row hget
    rw [hbooks]
    exact h.rows key row hget
  · intro key hnone
    rw [hbooks]
    exact h.gone key hnone

theorem Balanced.put (h : Balanced l held b) (key : String) (row global : Row Rat)
    (hrow : row.Balanced (·.madeIn) (under key held') (b'.ofKey key))
    (hglobal : global.Balanced (·.globalMadeIn) held' b'.all)
    (hamounts : ∀ r ∈ held', 0 ≤ r.amount)
    (hheld : ∀ other ≠ key, under other held' = under other held)
    (hbooks : ∀ other ≠ key, b'.ofKey other =
      if ((l.put key row global).rows.get? other).isSome then b.ofKey other else []) :
    Balanced (l.put key row global) held' b' := by
  -- A row that is displaced has no open reservation, and its book ends.
  have hself := l.get?_put_self key row global h.sound
  refine ⟨l.put_sound key row global h.sound, hamounts, ?_, ?_, ?_, hglobal⟩
  · intro other row' hget
    by_cases hne : other = key
    · subst hne
      rw [hself] at hget
      cases hget
      exact hrow
    · rw [hheld other hne, hbooks other hne, hget, Option.isSome_some, if_pos rfl]
      rw [l.get?_put_of_ne key other row global h.sound hne] at hget
      split at hget
      · cases hget
      · exact h.rows other row' hget
  · intro r hr
    by_cases hne : r.key = key
    · rw [hne, hself]
      rfl
    · have hr' : r ∈ under r.key held := by
        rw [← hheld r.key hne]
        exact List.mem_filter.mpr ⟨hr, by simp⟩
      rw [l.get?_put_of_ne key r.key row global h.sound hne]
      split
      · next hdisplaced =>
        obtain ⟨entry, hentry, hkey⟩ := Option.map_eq_some_iff.mp hdisplaced
        obtain ⟨hget, hpending, -⟩ := l.displaced?_spec key entry h.sound hentry
        have hcount := (h.rows entry.1 entry.2 hget).pending
        rw [hpending, hkey] at hcount
        rw [List.length_eq_zero_iff.mp hcount.symm] at hr'
        cases hr'
      · exact h.present r (List.mem_of_mem_filter hr')
  · intro other hnone
    have hne : other ≠ key := by
      rintro rfl
      rw [hself] at hnone
      cases hnone
    rw [hbooks other hne, hnone]
    rfl

theorem close_ofKey (key other : String) (row global : Row Rat) :
    (b.close (l.put key row global)).ofKey other =
      if ((l.put key row global).rows.get? other).isSome then b.ofKey other else [] := by
  simp only [Books.close, contains_eq]

theorem close_ofKey_self (h : Balanced l held b) (key : String) (row global : Row Rat) :
    (b.close (l.put key row global)).ofKey key = b.ofKey key := by
  rw [close_ofKey, l.get?_put_self key row global h.sound, Option.isSome_some, if_pos rfl]

theorem under_cons_self (r : Reservation Rat) : under r.key (r :: held) = r :: under r.key held :=
  List.filter_cons_of_pos (by simp)

theorem under_cons_of_ne (r : Reservation Rat) (key : String) (hne : key ≠ r.key) :
    under key (r :: held) = under key held :=
  List.filter_cons_of_neg (by simpa using hne.symm)

theorem Balanced.charge (r : Reservation Rat) (h : Balanced l (r :: held) b) (cost : Rat)
    (now : Periods) : Balanced (l.charge r cost now) held (b.enter [⟨r, cost⟩]) := by
  -- The row of an open reservation is there, so a charge displaces nothing.
  have hamounts : ∀ other ∈ held, 0 ≤ other.amount :=
    fun other ho => h.amounts other (List.mem_cons_of_mem r ho)
  have hrow := h.row l (r :: held) b r.key
  rw [under_cons_self] at hrow
  have hput : (l.put r.key (((l.row r.key).roll now).settle r.amount cost r.madeIn)
      ((l.global.roll now).settle r.amount cost r.globalMadeIn)).Balanced held
        (b.enter [⟨r, cost⟩]) := by
    refine h.put l (r :: held) held b _ r.key _ _ ?_ ?_ hamounts ?_ ?_
    · have hbook : (b.enter [⟨r, cost⟩]).ofKey r.key = b.ofKey r.key ++ [⟨r, cost⟩] := by
        simp [Books.enter]
      rw [hbook]
      refine (hrow.roll _ _ _ _ now).settle _ _ _ _ r (fun other ho => ?_) cost
      exact hamounts other (List.mem_of_mem_filter ho)
    · exact (h.global.roll _ _ _ _ now).settle _ _ _ _ r hamounts cost
    · intro other hne
      exact (under_cons_of_ne held r other hne).symm
    · intro other hne
      have hbook : (b.enter [⟨r, cost⟩]).ofKey other = b.ofKey other := by
        simp [Books.enter, hne.symm]
      rw [hbook, l.get?_put_of_present r.key other _ _ h.sound (h.present r List.mem_cons_self) hne]
      split
      · rfl
      · next hnone => exact h.gone other (by simpa using hnone)
  rw [charge_eq]
  exact hput.quiet (l.put r.key _ _) _ held held _ _ rfl rfl (.refl _) (.rfl _)

theorem Balanced.reject (h : Balanced l held b) (key : String) (now : Periods) (global : Row Rat)
    (hglobal : global = l.global ∨ global = l.global.roll now) :
    Balanced (l.put key ((l.row key).roll now) global) held
      (b.close (l.put key ((l.row key).roll now) global)) := by
  refine h.put l held held b _ key _ _ ?_ ?_ h.amounts (fun _ _ => rfl)
    (fun other _ => close_ofKey l b key other _ _)
  · rw [close_ofKey_self l held b h]
    exact (h.row l held b key).roll _ _ _ _ now
  · rcases hglobal with rfl | rfl
    · exact h.global
    · exact h.global.roll _ _ _ _ now

theorem Balanced.accept (h : Balanced l held b) (r : Reservation Rat) (now : Periods)
    (hamount : 0 ≤ r.amount) (hmadeIn : r.madeIn = ((l.row r.key).roll now).periods)
    (hglobalMadeIn : r.globalMadeIn = (l.global.roll now).periods) :
    Balanced (l.put r.key (((l.row r.key).roll now).reserve r.amount)
        ((l.global.roll now).reserve r.amount)) (r :: held)
      (b.close (l.put r.key (((l.row r.key).roll now).reserve r.amount)
        ((l.global.roll now).reserve r.amount))) := by
  refine h.put l held (r :: held) b _ r.key _ _ ?_ ?_ ?_ (fun other hne => ?_)
    (fun other _ => close_ofKey l b r.key other _ _)
  · rw [close_ofKey_self l held b h, under_cons_self]
    exact ((h.row l held b r.key).roll _ _ _ _ now).reserve _ _ _ _ r hmadeIn
  · exact (h.global.roll _ _ _ _ now).reserve _ _ _ _ r hglobalMadeIn
  · intro other ho
    rcases List.mem_cons.mp ho with rfl | ho
    · exact hamount
    · exact h.amounts other ho
  · exact under_cons_of_ne held r other hne

theorem new_balanced (assign : String → Nat) (settings : LedgerSettings Rat) :
    Balanced (new assign settings) [] .empty := by
  refine ⟨Shards.new_sound _ _ _, by simp, ?_, by simp, fun _ _ => rfl, Row.empty_balanced _⟩
  intro key row hget
  rw [new_get?] at hget
  cases hget

theorem sanitize_nonneg (x : Rat) : 0 ≤ Amount.sanitize x := by
  simp only [Amount.sanitize, Amount.isFinite, Amount.larger, if_true]
  grind

theorem balanced_invariant : Invariant (fun _ _ => True) (fun _ _ => True) Balanced where
  allowed_amount _ := trivial
  quiet l l' held held' b b' hrows hglobal _ hheld hb h :=
    h.quiet l l' held held' b b' hrows hglobal hheld hb
  close l held b h := h.close l held b
  charge l r held b cost now _ h := h.charge l held b r cost now
  reject l held b key now global hglobal h := h.reject l held b key now global hglobal
  accept l held b r _ estimate now _ hamount hmadeIn hglobalMadeIn _ h :=
    h.accept l held b r now (hamount ▸ sanitize_nonneg estimate) hmadeIn hglobalMadeIn

/-- After every run each meter shows the open and the settled reservations of its period, no
reservation is settled twice, and an id that is not open settles nothing. -/
theorem run_conserves (assign : String → Nat) (settings : LedgerSettings Rat) (calls : List (Call Rat))
    (hfresh : (calls.filterMap Call.newId?).Nodup) :
    let l := (new assign settings).run calls
    let books := ((new assign settings).audit calls).books
    (∀ key row, l.rows.get? key = some row →
      row.day.Shows (·.madeIn.day) (under key l.pending) (books.ofKey key) ∧
      row.month.Shows (·.madeIn.month) (under key l.pending) (books.ofKey key)) ∧
    l.global.day.Shows (·.globalMadeIn.day) l.pending books.all ∧
    l.global.month.Shows (·.globalMadeIn.month) l.pending books.all ∧
    (∀ r, r ∈ l.pending ∨ r ∈ books.all.map (·.reservation) → ∃ c ∈ calls, c.Makes r) ∧
    (books.all.map (·.reservation.id) ++ l.pending.map (·.id)).Nodup ∧
    (∀ id actual t, (∀ r ∈ l.pending, r.id ≠ id) → l.reconcile id actual t = (none, l)) := by
  intro l books
  obtain ⟨hbalanced, hsourced⟩ := balanced_invariant.audit (by decide) (new assign settings) rfl
    (new_balanced assign settings) calls hfresh
    fun before c _ => ⟨by cases c <;> trivial, fun _ _ _ => trivial⟩
  have hledger : ((new assign settings).audit calls).ledger = l := audit_ledger _ calls
  refine ⟨?_, hbalanced.global.day.shows, hbalanced.global.month.shows, ?_, ?_, ?_⟩
  · intro key row hget
    exact ⟨(hbalanced.rows key row hget).day.shows, (hbalanced.rows key row hget).month.shows⟩
  · rw [← hledger]
    exact hsourced.makes
  · rw [← hledger]
    exact hsourced.settled_ids calls _ hfresh
  · intro id actual t hnone
    have htake : l.take id = none := (take_eq_none l id).mpr hnone
    simp [reconcile, htake]

def oneADay : LedgerSettings Rat :=
  { resetHour := 0, globalDaily := 1, globalMonthly := 0, maxTracked := 16, maxPending := 16 }

def settledOnce : List (Call Rat) :=
  let alice : Identity := ⟨"alice", "web", true⟩
  let t : Timestamp := ⟨1773144000, 0⟩
  [.reserve ⟨1⟩ alice (.builtin .standard) (1 / 2) none t,
    .reserve ⟨2⟩ alice (.builtin .standard) (1 / 8) none t,
    .reconcile ⟨1⟩ (1 / 4) t]

theorem run_conserves_settledOnce :
    let l := (new (fun _ => 0) oneADay).run settledOnce
    let books := ((new (fun _ => 0) oneADay).audit settledOnce).books
    (settledOnce.filterMap Call.newId?).Nodup ∧
    l.global.day.reserved = 1 / 8 ∧ l.global.day.spent = 1 / 4 ∧
    l.global.day.Shows (·.globalMadeIn.day) l.pending books.all :=
  ⟨by decide, by decide +kernel, by decide +kernel,
    (run_conserves (fun _ => 0) oneADay settledOnce (by decide)).2.1⟩

end Ledger

end Admission
