import Admission.Proofs.Ledger.Step

/-!
# What is shown is what is checked

A look at the ledger reckons the periods of the moment without moving anything, while a reserve first
sweeps, makes room and rolls its rows. In exact arithmetic both come to the same committed amounts, so the
figures shown tell beforehand how a reserve will end.
-/

namespace Admission

/-! ## Meters -/

namespace Meter

/-- What is committed in the period `now`. -/
def due (m : Meter Rat) (now : Int) : Rat := (m.roll now).committed

theorem view_sum (m : Meter Rat) (now : Int) (limit : Rat) :
    (m.view now limit).spent + (m.view now limit).reserved = m.due now := by
  unfold view due roll committed
  by_cases h : now ≤ m.marker
  · rw [if_pos h, if_neg (not_lt.mpr h)]
  · rw [if_neg h, if_pos (not_le.mp h)]

theorem le_marker_roll (m : Meter Rat) (now : Int) : now ≤ (m.roll now).marker := by
  unfold roll
  split
  · exact le_rfl
  · next h => exact not_lt.mp h

theorem Balanced.amount_le {m : Meter Rat} {period : Reservation Rat → Int} {r : Reservation Rat}
    {held : List (Reservation Rat)} {booked : List (Ledger.Settlement Rat)}
    (h : m.Balanced period (r :: held) booked) (hamounts : ∀ other ∈ held, 0 ≤ other.amount)
    (hr : m.marker = period r) : r.amount ≤ m.reserved := by
  have hnonneg := m.ofPeriod_sum_nonneg period held hamounts
  rw [h.shows.reserved, ofPeriod_cons_self m period held r hr.symm, List.map_cons, List.sum_cons]
  linarith

theorem due_of_le (m : Meter Rat) (now : Int) (h : now ≤ m.marker) : m.due now = m.committed := by
  rw [due, m.roll_of_le now h]

theorem due_settle {m : Meter Rat} {period : Reservation Rat → Int} {r : Reservation Rat}
    {held : List (Reservation Rat)} {booked : List (Ledger.Settlement Rat)}
    (h : m.Balanced period (r :: held) booked) (hamounts : ∀ other ∈ held, 0 ≤ other.amount)
    (now : Int) : ((m.roll now).settle r.amount r.amount (period r)).due now = m.due now := by
  have hroll := h.roll m period _ _ now
  have hmarker := m.le_marker_roll now
  by_cases hr : (m.roll now).marker = period r
  · have hle := hroll.amount_le hamounts hr
    have hsettle : (m.roll now).settle r.amount r.amount (period r) =
        ⟨(m.roll now).marker, (m.roll now).spent + r.amount, (m.roll now).reserved - r.amount⟩ := by
      unfold settle Amount.larger
      rw [if_pos hr]
      grind
    have hdue := due_of_le ⟨(m.roll now).marker, (m.roll now).spent + r.amount,
      (m.roll now).reserved - r.amount⟩ now hmarker
    rw [hsettle, hdue]
    unfold due committed
    ring
  · have hsettle : (m.roll now).settle r.amount r.amount (period r) = m.roll now := by
      unfold settle
      rw [if_neg hr]
    rw [hsettle, due_of_le _ now hmarker]
    rfl

theorem reserved_absorb {m : Meter Rat} {period : Reservation Rat → Int}
    {held : List (Reservation Rat)} {booked : List (Ledger.Settlement Rat)}
    (h : m.Balanced period held booked) (marker : Int) (spent : Rat) :
    (m.absorb marker spent).reserved =
      (((m.absorb marker spent).ofPeriod period held).map (·.amount)).sum ∧
    ∀ r ∈ held, period r ≤ (m.absorb marker spent).marker := by
  unfold absorb
  split
  · exact ⟨h.shows.reserved, h.held_le⟩
  split
  · next hlt =>
    have hnil : held.filter (fun r => period r = marker) = [] := by
      rw [List.filter_eq_nil_iff]
      intro r hr he
      have hle := h.held_le r hr
      simp only [decide_eq_true_eq] at he
      omega
    refine ⟨?_, fun r hr => (h.held_le r hr).trans hlt.le⟩
    simp [ofPeriod, hnil]
  · exact ⟨h.shows.reserved, h.held_le⟩

end Meter

/-! ## Stored spending in the books -/

namespace Row

def unknown (periods : Periods) : Reservation Rat := ⟨⟨0⟩, "", 0, periods, periods, ⟨0, 0⟩, none⟩

/-- A book that accounts for the spending of a row, whatever it comes from. -/
def accounts (row : Row Rat) : List (Ledger.Settlement Rat) :=
  [⟨unknown ⟨row.day.marker, row.month.marker - 1⟩, row.day.spent⟩,
    ⟨unknown ⟨row.day.marker - 1, row.month.marker⟩, row.month.spent⟩]

theorem Balanced.absorb {row : Row Rat} {madeIn : Reservation Rat → Periods}
    {held : List (Reservation Rat)} {booked : List (Ledger.Settlement Rat)}
    (h : row.Balanced madeIn held booked) (hmadeIn : ∀ periods, madeIn (unknown periods) = periods)
    (stored : StoredRow Rat) :
    (row.absorb stored).Balanced madeIn held (row.absorb stored).accounts := by
  -- Stored spending is in no book, so a new one is made up for it.
  obtain ⟨hday, hdays⟩ := Meter.reserved_absorb h.day stored.day stored.dailySpent
  obtain ⟨hmonth, hmonths⟩ := Meter.reserved_absorb h.month stored.month stored.monthlySpent
  refine ⟨⟨⟨hday, ?_⟩, hdays, ?_⟩, ⟨⟨hmonth, ?_⟩, hmonths, ?_⟩, h.pending⟩
  · simp [Meter.bookedInPeriod, accounts, hmadeIn, Row.absorb]
  · simp [accounts, hmadeIn, Row.absorb]
  · simp [Meter.bookedInPeriod, accounts, hmadeIn, Row.absorb]
  · simp [accounts, hmadeIn, Row.absorb]

end Row

namespace Ledger

/-- A ledger that is balanced with some books. -/
def Backed (l : Ledger Rat) (held : List (Reservation Rat)) : Prop := ∃ b, Balanced l held b

theorem Backed.absorbRow (l : Ledger Rat) (held : List (Reservation Rat)) (key : String)
    (stored : StoredRow Rat) (h : Backed l held) : Backed (l.absorbRow key stored) held := by
  obtain ⟨b, hb⟩ := h
  rw [absorbRow_eq_put]
  let after := l.put key ((l.row key).absorb stored) l.global
  let ofKey (other : String) : List (Settlement Rat) :=
    if other = key then ((l.row key).absorb stored).accounts else (b.close after).ofKey other
  refine ⟨⟨ofKey, b.all⟩, hb.put l held held b _ key _ _ ?_ hb.global hb.amounts (fun _ _ => rfl) ?_⟩
  · show Row.Balanced _ _ _ (ofKey key)
    rw [show ofKey key = _ from if_pos rfl]
    exact (hb.row l held b key).absorb (fun _ => rfl) stored
  · intro other hne
    show ofKey other = _
    rw [show ofKey other = _ from if_neg hne]
    exact close_ofKey l b key other _ _

theorem Backed.absorbGlobal (l : Ledger Rat) (held : List (Reservation Rat)) (stored : StoredRow Rat)
    (h : Backed l held) : Backed (l.absorbGlobal stored) held := by
  obtain ⟨b, hb⟩ := h
  exact ⟨⟨b.ofKey, (l.global.absorb stored).accounts⟩, hb.sound, hb.amounts, hb.rows, hb.present,
    hb.gone, hb.global.absorb (fun _ => rfl) stored⟩

theorem backed_preserved : Preserved Backed where
  booking :=
    { allowed_amount := fun _ => trivial
      quiet := fun l l' held held' _ _ hrows hglobal _ hheld _ ⟨b, hb⟩ =>
        ⟨b, hb.quiet l l' held held' b b hrows hglobal hheld (.rfl b)⟩
      close := fun _ _ _ h => h
      charge := fun l r held _ cost now _ ⟨b, hb⟩ => ⟨_, hb.charge l held b r cost now⟩
      reject := fun l held _ key now global hglobal ⟨b, hb⟩ =>
        ⟨_, hb.reject l held b key now global hglobal⟩
      accept := fun l held _ r _ estimate now _ hamount hmadeIn hglobalMadeIn _ ⟨b, hb⟩ =>
        ⟨_, hb.accept l held b r now (hamount ▸ sanitize_nonneg estimate) hmadeIn hglobalMadeIn⟩ }
  absorbRow := Backed.absorbRow
  absorbGlobal := Backed.absorbGlobal
  look := fun _ _ key ⟨b, hb⟩ => ⟨b, hb.look key⟩

/-! ## Before the limits are looked at -/

end Ledger

def Row.dues (row : Row Rat) (now : Periods) : Rat × Rat :=
  (row.day.due now.day, row.month.due now.month)

theorem Row.dues_settle {row : Row Rat} {madeIn : Reservation Rat → Periods} {r : Reservation Rat}
    {held : List (Reservation Rat)} {booked : List (Ledger.Settlement Rat)}
    (h : row.Balanced madeIn (r :: held) booked) (hamounts : ∀ other ∈ held, 0 ≤ other.amount)
    (now : Periods) :
    ((row.roll now).settle r.amount r.amount (madeIn r)).dues now = row.dues now :=
  Prod.ext (Meter.due_settle h.day hamounts now.day) (Meter.due_settle h.month hamounts now.month)

namespace Ledger

theorem Backed.charge_dues {l : Ledger Rat} {r : Reservation Rat} {held : List (Reservation Rat)}
    (h : Backed l (r :: held)) (now : Periods) :
    (∀ key, ((l.charge r r.amount now).row key).dues now = (l.row key).dues now) ∧
      (l.charge r r.amount now).global.dues now = l.global.dues now := by
  obtain ⟨b, hb⟩ := h
  have hamounts : ∀ other ∈ held, 0 ≤ other.amount :=
    fun other ho => hb.amounts other (List.mem_cons_of_mem r ho)
  refine ⟨fun key => ?_, ?_⟩
  · by_cases hkey : key = r.key
    · subst hkey
      have hrow := hb.row l _ b r.key
      rw [under_cons_self] at hrow
      rw [row_charge_self l r r.amount now hb.sound]
      exact Row.dues_settle hrow (fun other ho => hamounts other (List.mem_of_mem_filter ho)) now
    · rw [Ledger.row, Ledger.row, get?_charge_of_ne l r r.amount now key hb.sound
        (hb.present r List.mem_cons_self) hkey]
  · rw [charge_eq]
    exact Row.dues_settle hb.global hamounts now

theorem dues_settling (shown : Ledger Rat) (now : Periods) :
    Settling now fun l held => Backed l held ∧
      (∀ key, (l.row key).dues now = (shown.row key).dues now) ∧
      l.global.dues now = shown.global.dues now where
  quiet l l' held held' hrows hglobal hheld h := by
    obtain ⟨⟨b, hb⟩, hdues, heverybody⟩ := h
    refine ⟨⟨b, hb.quiet l l' held held' b b hrows hglobal hheld (.rfl b)⟩, ?_, ?_⟩
    · intro key
      rw [← hdues key, Ledger.row, Ledger.row, hrows]
    · rw [hglobal, heverybody]
  charge l r held h := by
    obtain ⟨⟨b, hb⟩, hdues, heverybody⟩ := h
    obtain ⟨hkeys, hall⟩ := Backed.charge_dues ⟨b, hb⟩ now
    exact ⟨⟨_, hb.charge l held b r r.amount now⟩, fun key => (hkeys key).trans (hdues key),
      hall.trans heverybody⟩

/-! ## The verdict -/

end Ledger

/-- There is room for an estimate. -/
def Usage.Admits (u : Usage Rat) (estimate : Rat) : Prop :=
  u.limit ≤ 0 ∨ u.spent + u.reserved + estimate ≤ u.limit

instance (u : Usage Rat) (estimate : Rat) : Decidable (u.Admits estimate) :=
  inferInstanceAs (Decidable (u.limit ≤ 0 ∨ u.spent + u.reserved + estimate ≤ u.limit))

theorem Meter.view_limit (m : Meter Rat) (now : Int) (limit : Rat) :
    (m.view now limit).limit = limit := by
  unfold view
  split <;> rfl

theorem Meter.crosses_iff (m shown : Meter Rat) (now : Int) (hdue : m.due now = shown.due now)
    (estimate limit : Rat) :
    (m.roll now).crosses estimate limit = true ↔ ¬ (shown.view now limit).Admits estimate := by
  have hcommitted : (m.roll now).committed = shown.due now := hdue
  unfold Usage.Admits crosses
  rw [view_sum, view_limit, hcommitted, Bool.and_eq_true, decide_eq_true_eq, decide_eq_true_eq, not_or,
    not_le, not_le]

namespace Ledger

def refusal (figure : BudgetLimit × Usage Rat) : Rejection Rat :=
  ⟨figure.1, figure.2.spent + figure.2.reserved, figure.2.limit⟩

/-- The first figure without room for an estimate. -/
def violated? (figures : List (BudgetLimit × Usage Rat)) (estimate : Rat) :
    Option (BudgetLimit × Usage Rat) :=
  figures.find? fun figure => ¬ figure.2.Admits estimate

end Ledger

theorem Row.check_roll (row shown : Row Rat) (now : Periods) (hdues : row.dues now = shown.dues now)
    (estimate dailyCap monthlyCap : Rat) (daily monthly : BudgetLimit) :
    (row.roll now).check estimate dailyCap monthlyCap daily monthly =
      (Ledger.violated? [(daily, shown.day.view now.day dailyCap),
        (monthly, shown.month.view now.month monthlyCap)] estimate).map Ledger.refusal := by
  obtain ⟨hday, hmonth⟩ := Prod.mk.inj hdues
  have hdaily : (row.roll now).day.crosses estimate dailyCap = true ↔ _ :=
    Meter.crosses_iff row.day shown.day now.day hday estimate dailyCap
  have hmonthly : (row.roll now).month.crosses estimate monthlyCap = true ↔ _ :=
    Meter.crosses_iff row.month shown.month now.month hmonth estimate monthlyCap
  have hspent : (row.roll now).day.committed =
      (shown.day.view now.day dailyCap).spent + (shown.day.view now.day dailyCap).reserved :=
    hday.trans (Meter.view_sum _ _ _).symm
  have hspent' : (row.roll now).month.committed =
      (shown.month.view now.month monthlyCap).spent + (shown.month.view now.month monthlyCap).reserved :=
    hmonth.trans (Meter.view_sum _ _ _).symm
  unfold check Ledger.violated?
  by_cases hd : (shown.day.view now.day dailyCap).Admits estimate
  · rw [if_neg (fun hcrosses => hdaily.mp hcrosses hd), List.find?_cons_of_neg (by simpa using hd)]
    by_cases hm : (shown.month.view now.month monthlyCap).Admits estimate
    · rw [if_neg (fun hcrosses => hmonthly.mp hcrosses hm), List.find?_cons_of_neg (by simpa using hm)]
      rfl
    · rw [if_pos (hmonthly.mpr hm), List.find?_cons_of_pos (by simpa using hm), hspent']
      simp only [Option.map_some, Ledger.refusal, Meter.view_limit]
  · rw [if_pos (hdaily.mpr hd), List.find?_cons_of_pos (by simpa using hd), hspent]
    simp only [Option.map_some, Ledger.refusal, Meter.view_limit]

namespace Ledger

/-- The four figures that a reserve looks at, in the order in which they are shown and looked at. -/
def figures (l : Ledger Rat) (who : Identity) (caps : Capabilities Rat) (t : Timestamp) :
    List (BudgetLimit × Usage Rat) :=
  let (caller, l) := l.usage who caps t
  let everybody := l.globalUsage t
  [(.identityDaily, caller.daily), (.identityMonthly, caller.monthly),
    (.globalDaily, everybody.daily), (.globalMonthly, everybody.monthly)]

theorem figures_eq (l : Ledger Rat) (who : Identity) (caps : Capabilities Rat) (t : Timestamp) :
    l.figures who caps t =
      [(.identityDaily, (l.row who.key).day.view (l.periodsAt t).day caps.dailyBudget),
        (.identityMonthly, (l.row who.key).month.view (l.periodsAt t).month caps.monthlyBudget)] ++
      [(.globalDaily, l.global.day.view (l.periodsAt t).day l.settings.globalDaily),
        (.globalMonthly, l.global.month.view (l.periodsAt t).month l.settings.globalMonthly)] := by
  unfold figures usage
  rw [usageOfKey_eq]
  rfl

theorem sanitize_of_nonneg (x : Rat) (h : 0 ≤ x) : Amount.sanitize x = x := by
  simp only [Amount.sanitize, Amount.isFinite, Amount.larger, if_true]
  grind

theorem reserve_fst (l : Ledger Rat) (id : ReservationId) (who : Identity) (caps : Capabilities Rat)
    (estimate : Rat) (basis : Option (PriceBasis Rat)) (t : Timestamp)
    (hbacked : Backed l l.pending) (hids : (l.pending.map (·.id)).Nodup) (hestimate : 0 ≤ estimate) :
    (l.reserve id who caps estimate basis t).1 =
      verdict ((violated? (l.figures who caps t) estimate).map refusal) := by
  obtain ⟨-, hdues, heverybody⟩ := (dues_settling l (l.periodsAt t)).prepared l t hids
    ⟨hbacked, fun _ => rfl, rfl⟩
  rw [reserve_eq, enroll_fst, sanitize_of_nonneg estimate hestimate, prepared_settings, figures_eq,
    Row.check_roll _ (l.row who.key) _ (hdues who.key), Row.check_roll _ l.global _ heverybody]
  unfold violated?
  rw [List.find?_append, Option.map_or]

/-- In every reachable ledger a reserve succeeds exactly if all figures shown just before leave room for
the estimate, and a rejection names the first that does not. -/
theorem reserve_agrees (assign : String → Nat) (settings : LedgerSettings Rat) (steps : List (Step Rat))
    (hfresh : (steps.filterMap Step.newId?).Nodup) (id : ReservationId) (who : Identity)
    (caps : Capabilities Rat) (estimate : Rat) (basis : Option (PriceBasis Rat)) (t : Timestamp)
    (hestimate : 0 ≤ estimate) :
    let l := (new assign settings).follow steps
    let seen := (l.usage who caps t).2
    ((seen.reserve id who caps estimate basis t).1 = .ok () ↔
      ∀ figure ∈ l.figures who caps t, figure.2.limit ≤ 0 ∨
        figure.2.spent + figure.2.reserved + estimate ≤ figure.2.limit) ∧
    ∀ rejection, (seen.reserve id who caps estimate basis t).1 = .error rejection →
      ∃ figure, (l.figures who caps t).find? (fun figure => ¬ (figure.2.limit ≤ 0 ∨
          figure.2.spent + figure.2.reserved + estimate ≤ figure.2.limit)) = some figure ∧
        rejection = ⟨figure.1, figure.2.spent + figure.2.reserved, figure.2.limit⟩ := by
  intro l seen
  have hseen : seen = (new assign settings).follow
      (steps ++ [.usage who.key caps.dailyBudget caps.monthlyBudget t]) := by
    rw [follow_append_singleton]
    rfl
  obtain ⟨hbacked, -, -⟩ := backed_preserved.follow assign settings ⟨_, new_balanced assign settings⟩
    steps hfresh
  obtain ⟨hbacked', hids, -⟩ := backed_preserved.follow assign settings
    ⟨_, new_balanced assign settings⟩ (steps ++ [.usage who.key caps.dailyBudget caps.monthlyBudget t])
    (by rw [List.filterMap_append]; exact (List.append_nil _).symm ▸ hfresh)
  rw [← hseen] at hbacked' hids
  have hrow : seen.row who.key = l.row who.key := by
    obtain ⟨b, hb⟩ := hbacked
    have hlook : seen = l.look who.key := l.step_usage who.key caps.dailyBudget caps.monthlyBudget t
    rw [Ledger.row, Ledger.row, hlook, l.get?_look who.key who.key hb.sound]
  have hfigures : seen.figures who caps t = l.figures who caps t := by
    rw [figures_eq, figures_eq, hrow]
    rfl
  have hend := seen.reserve_fst id who caps estimate basis t hbacked' hids hestimate
  rw [hfigures] at hend
  rw [hend]
  cases hviolated : violated? (l.figures who caps t) estimate with
  | none =>
    have hall := List.find?_eq_none.mp hviolated
    refine ⟨⟨fun _ figure hf => ?_, fun _ => rfl⟩, fun rejection he => by cases he⟩
    show figure.2.Admits estimate
    simpa using hall figure hf
  | some figure =>
    have hnot : ¬ figure.2.Admits estimate := by simpa using List.find?_some hviolated
    refine ⟨⟨fun he => ?_, fun hall => ?_⟩, fun rejection he => ?_⟩
    · cases he
    · exact absurd (hall figure (List.mem_of_find?_eq_some hviolated)) hnot
    · cases he
      exact ⟨figure, hviolated, rfl⟩

theorem reserve_agrees_globalDaily :
    let steps := settledOnce.map Step.call
    let l := (new (fun _ => 0) oneADay).follow steps
    let bob : Identity := ⟨"bob", "web", true⟩
    let t : Timestamp := ⟨1773144000, 0⟩
    (steps.filterMap Step.newId?).Nodup ∧ (0 : Rat) ≤ 1 ∧
    ∃ figure, (l.figures bob (.builtin .standard) t).find? (fun figure => ¬ (figure.2.limit ≤ 0 ∨
        figure.2.spent + figure.2.reserved + 1 ≤ figure.2.limit)) = some figure ∧
      (⟨.globalDaily, 3 / 8, 1⟩ : Rejection Rat) =
        ⟨figure.1, figure.2.spent + figure.2.reserved, figure.2.limit⟩ :=
  ⟨by decide, by decide, (reserve_agrees (fun _ => 0) oneADay (settledOnce.map Step.call) (by decide) ⟨3⟩
    ⟨"bob", "web", true⟩ (.builtin .standard) 1 none ⟨1773144000, 0⟩ (by decide)).2 _ (by decide +kernel)⟩

end Ledger

end Admission
