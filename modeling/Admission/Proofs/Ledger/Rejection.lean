import Admission.Proofs.Ledger.Reachable

/-!
# What a rejected reservation leaves behind

Before any limit is looked at, a reserve moves the clock on, makes room for itself and looks up the
row of its caller. That can be seen after a rejection in two cases: the ledger was full, so that the
oldest reservation is settled, or the new row displaces one with spending in it.
-/

namespace Admission

variable {α : Type} [Amount α]

/-! ## Rolling cannot be seen -/

theorem Meter.roll_of_le (m : Meter α) (now : Int) (h : now ≤ m.marker) : m.roll now = m := by
  unfold roll
  rw [if_neg (not_lt.mpr h)]

theorem Meter.view_roll_of_le (m : Meter α) (now later : Int) (limit : α) (h : now ≤ later) :
    (m.roll now).view later limit = m.view later limit := by
  unfold roll
  split
  · next hlt =>
    unfold view
    rw [if_neg (not_le.mpr (lt_of_lt_of_le hlt h))]
    split <;> rfl
  · rfl

theorem Meter.view_roll (m : Meter α) (now : Int) (limit : α) :
    (m.roll now).view now limit = m.view now limit :=
  m.view_roll_of_le now now limit le_rfl

theorem Meter.view_zero (now : Int) (limit : α) : (zero : Meter α).view now limit = ⟨0, 0, limit⟩ := by
  unfold view
  split <;> rfl

/-- A row that shows no amounts, as if it were not there. -/
def Row.Blank (row : Row α) (now : Periods) : Prop :=
  ∀ limit, row.day.view now.day limit = ⟨0, 0, limit⟩ ∧ row.month.view now.month limit = ⟨0, 0, limit⟩

namespace Ledger

theorem report_roll (key : String) (row : Row α) (now : Periods) (daily monthly : α) :
    report key (row.roll now) now daily monthly = report key row now daily monthly := by
  simp only [report, Row.roll, Meter.view_roll]

theorem report_empty_iff (key : String) (row : Row α) (now : Periods) :
    (∀ daily monthly, report key row now daily monthly = report key .empty now daily monthly) ↔
      row.Blank now := by
  simp only [report, Row.empty, Meter.view_zero, UsageReport.mk.injEq, true_and, Row.Blank]
  exact ⟨fun h limit => h limit limit, fun h daily monthly => ⟨(h daily).1, (h monthly).2⟩⟩

/-- Nothing that counts can be told apart at a time: what is open, the flag of unsaved changes, and what
is shown for every caller and for everybody. -/
structure Unchanged (l l' : Ledger α) (t : Timestamp) : Prop where
  pending : l'.pending.Perm l.pending
  dirty : l'.dirty = l.dirty
  usage : ∀ who caps, (l'.usage who caps t).1 = (l.usage who caps t).1
  globalUsage : l'.globalUsage t = l.globalUsage t

variable (l : Ledger α) (id : ReservationId) (who : Identity) (caps : Capabilities α) (estimate : α)
  (basis : Option (PriceBasis α)) (t : Timestamp)

theorem usage_eq :
    (l.usage who caps t).1 =
      report who.key (l.row who.key) (l.periodsAt t) caps.dailyBudget caps.monthlyBudget := by
  rw [usage, usageOfKey_eq]

theorem row_put_self (key : String) (row global : Row α) (h : l.rows.Sound) :
    (l.put key row global).row key = row := by
  rw [Ledger.row, l.get?_put_self key row global h, Option.getD_some]

theorem row_put_of_ne (key other : String) (row global : Row α) (h : l.rows.Sound) (hne : other ≠ key) :
    (l.put key row global).row other =
      if (l.displaced? key).map (·.1) = some other then .empty else l.row other := by
  rw [Ledger.row, l.get?_put_of_ne key other row global h hne]
  split <;> rfl

/-! ## Making room -/

theorem observe_eq (now : Periods) (hmonth : now.month ≤ l.clock.month) :
    l.observe now = l.advance now := by
  unfold observe
  rw [if_neg (not_lt.mpr hmonth)]

theorem makeRoom_of_room (t : Timestamp) (steps : Nat) (l : Ledger α)
    (h : l.pending.length < l.pendingLimit) : makeRoom t steps l = l := by
  cases steps with
  | zero => rfl
  | succ steps =>
    unfold makeRoom
    rw [if_pos h]

theorem prepared_eq (hmonth : (l.periodsAt t).month ≤ l.clock.month)
    (hroom : l.pending.length < l.pendingLimit) : l.prepared t = l.advance (l.periodsAt t) := by
  rw [prepared, l.observe_eq _ hmonth]
  exact makeRoom_of_room t _ (l.advance (l.periodsAt t)) hroom

theorem prepared_pending_lt (hfull : l.pendingLimit ≤ l.pending.length)
    (hmonth : (l.periodsAt t).month ≤ l.clock.month) :
    (l.prepared t).pending.length < l.pending.length := by
  have hpending : (l.advance (l.periodsAt t)).pending = l.pending := rfl
  have hpos : 0 < l.pending.length := by
    have hlimit : 1 ≤ l.pendingLimit := le_max_left 1 _
    omega
  obtain ⟨oldest, holdest⟩ := Option.isSome_iff_exists.mp
    (firstLeast?_isSome older l.pending (List.ne_nil_of_length_pos hpos))
  have hmem : oldest ∈ l.pending := firstLeast?_mem holdest
  rw [prepared, l.observe_eq _ hmonth, hpending]
  obtain ⟨steps, hsteps⟩ := Nat.exists_eq_succ_of_ne_zero hpos.ne'
  rw [hsteps]
  unfold makeRoom
  rw [if_neg (by rw [hpending]; exact not_lt.mpr hfull), hpending, holdest, Option.bind_some]
  split
  · next r l' htake =>
    obtain ⟨-, hlt⟩ := take_pending _ l' oldest.id r htake
    refine lt_of_le_of_lt ?_ (hsteps ▸ hlt)
    refine (makeRoom_pending t steps _).length_le.trans ?_
    rw [settle_pending]
    exact (l'.observe_pending _).length_le
  · next htake => exact absurd rfl ((take_eq_none _ _).mp htake oldest hmem)

/-! ## Rejections -/

theorem reserve_rejected
    (h : ∃ rejection, (l.reserve id who caps estimate basis t).1 = .error rejection) :
    ∃ global, (global = (l.prepared t).global ∨ global = (l.prepared t).global.roll (l.periodsAt t)) ∧
      (l.reserve id who caps estimate basis t).2 =
        (l.prepared t).put who.key (((l.prepared t).row who.key).roll (l.periodsAt t)) global := by
  obtain ⟨rejection, h⟩ := h
  rw [reserve_eq] at h ⊢
  rcases (l.prepared t).enroll_cases id who caps (Amount.sanitize estimate) basis t (l.periodsAt t) with
    ⟨_, global, hglobal, -, he⟩ | ⟨_, -, -, -, -, -, -, -, -, he⟩
  · exact ⟨global, hglobal, by rw [he]⟩
  · rw [he] at h
    cases h

/-- Where no month opens, a rejected reservation leaves no trace exactly if the ledger was not full and
the row of the caller displaced none in which a caller still has amounts. -/
theorem reserve_rejected_unchanged_iff (assign : String → Nat) (settings : LedgerSettings α)
    (hl : Reachable assign settings l) (hmonth : (l.periodsAt t).month ≤ l.clock.month)
    (hrejected : ∃ rejection, (l.reserve id who caps estimate basis t).1 = .error rejection) :
    Unchanged l (l.reserve id who caps estimate basis t).2 t ↔
      l.pending.length < l.pendingLimit ∧
      ∀ entry, (l.advance (l.periodsAt t)).displaced? who.key = some entry →
        (∃ other : Identity, other.key = entry.1) → entry.2.Blank (l.periodsAt t) := by
  have hsound := hl.sound
  obtain ⟨global, hglobal, hreserve⟩ := l.reserve_rejected id who caps estimate basis t hrejected
  rw [hreserve]
  by_cases hroom : l.pending.length < l.pendingLimit
  · rw [l.prepared_eq t hmonth hroom] at hglobal ⊢
    have hadvance : (l.advance (l.periodsAt t)).rows.Sound := hsound
    constructor
    · rintro h
      refine ⟨hroom, ?_⟩
      rintro entry hdisplaced ⟨other, hother⟩
      obtain ⟨hget, -, hnone⟩ := displaced?_spec _ who.key entry hadvance hdisplaced
      have hne : other.key ≠ who.key := by
        intro he
        rw [← hother, he, hnone] at hget
        cases hget
      have hrow : l.row other.key = entry.2 := by
        rw [hother]
        exact congrArg (·.getD .empty) hget
      rw [← report_empty_iff other.key]
      intro daily monthly
      have husage := h.usage other { caps with dailyBudget := daily, monthlyBudget := monthly }
      rw [usage_eq, usage_eq, hrow, row_put_of_ne _ _ _ _ _ hadvance hne, hdisplaced, hother] at husage
      rw [hother]
      rw [Option.map_some, if_pos rfl] at husage
      exact husage.symm
    · rintro ⟨-, hblank⟩
      refine ⟨.refl _, rfl, fun other caps' => ?_, ?_⟩
      · rw [usage_eq, usage_eq]
        by_cases hne : other.key = who.key
        · rw [hne, row_put_self _ _ _ _ hadvance]
          exact report_roll _ _ _ _ _
        · rw [row_put_of_ne _ _ _ _ _ hadvance hne]
          split
          · next hdisplaced =>
            obtain ⟨entry, hentry, hkey⟩ := Option.map_eq_some_iff.mp hdisplaced
            obtain ⟨hget, -, -⟩ := displaced?_spec _ who.key entry hadvance hentry
            have hrow : l.row other.key = entry.2 := by
              rw [← hkey]
              exact congrArg (·.getD .empty) hget
            rw [hrow]
            exact ((report_empty_iff other.key entry.2 _).mpr (hblank entry hentry ⟨other, hkey.symm⟩) _ _).symm
          · rfl
      · rcases hglobal with rfl | rfl
        · rfl
        · exact report_roll _ _ _ _ _
  · constructor
    · intro h
      have hlt := l.prepared_pending_lt t (not_lt.mp hroom) hmonth
      have hlength : (l.prepared t).pending.length = l.pending.length := h.pending.length_eq
      omega
    · exact fun h => absurd h.1 hroom

def alice : Identity := ⟨"alice", "web", true⟩

def bob : Identity := ⟨"bob", "web", true⟩

def someDay : Timestamp := ⟨1773144000, 0⟩

def poor : Capabilities Double := { Capabilities.builtin .standard with dailyBudget := 0.25 }

def oneOpen : LedgerSettings Double :=
  { resetHour := 0, globalDaily := 0, globalMonthly := 0, maxTracked := 16, maxPending := 1 }

def oneRow : LedgerSettings Double :=
  { resetHour := 0, globalDaily := 0, globalMonthly := 0, maxTracked := 1, maxPending := 16, shards := 1 }

def full : Ledger Double :=
  (new (fun _ => 0) oneOpen).call (.reserve ⟨1⟩ alice (.builtin .standard) 0.5 none someDay)

def crowded : Ledger Double :=
  ((new (fun _ => 0) oneRow).call (.reserve ⟨1⟩ alice (.builtin .standard) 0.5 none someDay)).call
    (.reconcile ⟨1⟩ 0.5 someDay)

theorem exists_rejection (l : Ledger α)
    (h : (l.reserve id who caps estimate basis t).1.isOk = false) :
    ∃ rejection, (l.reserve id who caps estimate basis t).1 = .error rejection := by
  cases hr : (l.reserve id who caps estimate basis t).1 with
  | error rejection => exact ⟨rejection, rfl⟩
  | ok _ =>
    rw [hr] at h
    cases h

/-- A rejected reservation does leave a trace where the ledger is full. -/
theorem reserve_rejected_settles_oldest :
    ¬ ∀ (assign : String → Nat) (settings : LedgerSettings Double) (l : Ledger Double)
      (id : ReservationId) (who : Identity) (caps : Capabilities Double) (estimate : Double)
      (t : Timestamp), Reachable assign settings l → (l.periodsAt t).month ≤ l.clock.month →
      (∃ rejection, (l.reserve id who caps estimate none t).1 = .error rejection) →
      Unchanged l (l.reserve id who caps estimate none t).2 t := by
  intro h
  have hreachable : Reachable (fun _ => 0) oneOpen full := .call _ _ .new
  have hunchanged := h _ _ full ⟨2⟩ bob poor 0.5 someDay hreachable (by decide +kernel)
    (exists_rejection _ _ _ _ _ _ _ (by decide +kernel))
  have hlength := hunchanged.pending.length_eq
  revert hlength
  decide +kernel

theorem reserve_rejected_displaces_spending :
    crowded.pending.length < crowded.pendingLimit ∧
    (crowded.periodsAt someDay).month ≤ crowded.clock.month ∧
    (∃ rejection, (crowded.reserve ⟨2⟩ bob poor 0.5 none someDay).1 = .error rejection) ∧
    ¬ Unchanged crowded (crowded.reserve ⟨2⟩ bob poor 0.5 none someDay).2 someDay := by
  have hmonth : (crowded.periodsAt someDay).month ≤ crowded.clock.month := by decide +kernel
  have hrejected := exists_rejection ⟨2⟩ bob poor 0.5 none someDay crowded (by decide +kernel)
  refine ⟨by decide +kernel, hmonth, hrejected, fun h => ?_⟩
  have hreachable : Reachable (fun _ => 0) oneRow crowded := .call _ _ (.call _ _ .new)
  have hblank := ((reserve_rejected_unchanged_iff crowded ⟨2⟩ bob poor 0.5 none someDay _ _
    hreachable hmonth hrejected).mp h).2
  have hshown : ((crowded.advance (crowded.periodsAt someDay)).displaced? bob.key).any (fun entry =>
      decide (entry.1 = alice.key) &&
        decide ((entry.2.day.view (crowded.periodsAt someDay).day 0).spent.bits ≠ 0)) = true := by
    decide +kernel
  obtain ⟨entry, hentry, hspec⟩ := Option.any_eq_true _ _ |>.mp hshown
  rw [Bool.and_eq_true, decide_eq_true_eq, decide_eq_true_eq] at hspec
  obtain ⟨hkey, hview⟩ := hspec
  refine hview ?_
  rw [(hblank entry hentry ⟨alice, hkey.symm⟩ 0).1]
  decide +kernel

end Ledger

end Admission
