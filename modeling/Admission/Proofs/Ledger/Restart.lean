import Mathlib
import Admission.Proofs.Ledger.Balances

/-!
# Spending survives a restart

A snapshot that is taken in by a new ledger brings back what was spent by everybody and by every caller
that the new ledger tracks. Which callers those are depends on how it spreads the keys: none is lost as long
as no shard gets more of them than it has room for.
-/

namespace Admission

variable {α : Type}

def UsageReport.spent (report : UsageReport α) : α × α := (report.daily.spent, report.monthly.spent)

/-! ## One row -/

theorem Meter.Sane.view_absorb {m : Meter Double} (h : m.Sane False) (now : Int) (limit : Double) :
    (((Meter.zero : Meter Double).absorb m.marker m.spent).view now limit).spent =
      (m.view now limit).spent := by
  have hmarker := h.marker
  unfold Meter.absorb
  split
  · next hzero =>
    have hlarger : Amount.larger 0 m.spent = m.spent := if_pos (h.spent (Or.inr hzero))
    unfold Meter.view
    rw [show (Meter.zero : Meter Double).marker = m.marker from hzero.symm]
    split
    · exact hlarger
    · rfl
  split
  · unfold Meter.view
    split <;> rfl
  · next hne hlt =>
    change m.marker ≠ 0 at hne
    change ¬ 0 < m.marker at hlt
    omega

namespace Ledger

theorem report_absorb (key : String) (row : Row Double) (h : row.Sane False) (now : Periods)
    (daily monthly : Double) :
    (report key (Row.empty.absorb row.stored) now daily monthly).spent =
      (report key row now daily monthly).spent :=
  Prod.ext (h.day.view_absorb now.day daily) (h.month.view_absorb now.month monthly)

/-! ## Snapshots -/

theorem get?_snapshot (l : Ledger α) (h : l.rows.Sound) (now : Timestamp) (key : String) :
    (l.snapshot now).identities.get? key = (l.rows.get? key).map Row.stored :=
  l.get?_ofList_rows h Row.stored key

/-! ## A new ledger without much room -/

variable [Amount α]

theorem absorbRows_new (assign : String → Nat) (settings : LedgerSettings α)
    (entries : List (String × StoredRow α)) (hkeys : (entries.map (·.1)).Nodup) :
    let l := (new assign settings).absorbRows entries
    l.rows.WithinRoom ∧
      ∀ key row, l.rows.get? key = some row → ∃ stored, (key, stored) ∈ entries ∧ row = Row.empty.absorb stored := by
  -- Nothing holds the copies, so that no shard ever grows beyond its room.
  intro l
  induction entries using List.reverseRecOn with
  | nil =>
    refine ⟨Shards.new_withinRoom _ _ _, fun key row hrow => ?_⟩
    rw [show l.rows.get? key = none from new_get? assign settings key] at hrow
    cases hrow
  | append_singleton before entry ih =>
    rw [List.map_append, List.nodup_append] at hkeys
    obtain ⟨hbefore, -, hnew⟩ := hkeys
    obtain ⟨hroom, hcopies⟩ := ih hbefore
    set old := (new assign settings).absorbRows before with hold
    have hl : l = old.absorbRow entry.1 entry.2 := by
      simp only [l, hold, absorbRows, List.foldl_append, List.foldl_cons, List.foldl_nil]
    have hsound : old.rows.Sound := absorbRows_sound _ before (Shards.new_sound _ _ _)
    have hnone : old.rows.get? entry.1 = none := by
      rw [Option.eq_none_iff_forall_not_mem]
      intro row hrow
      obtain ⟨stored, hmem, -⟩ := hcopies entry.1 row hrow
      exact hnew entry.1 (List.mem_map.mpr ⟨_, hmem, rfl⟩) entry.1 (by simp) rfl
    rw [hl]
    constructor
    · show (old.rows.upsert (Row.evictionRank old.clock) entry.1 .empty fun row =>
        ((), row.absorb entry.2)).2.WithinRoom
      refine hroom.upsert hsound ?_ _ (fun key row hrow => ?_) entry.1 .empty _
      · rw [hold, perShard_absorbRows]
        exact lt_of_lt_of_le one_pos (le_max_right _ 1)
      · obtain ⟨stored, -, rfl⟩ := hcopies key row hrow
        rfl
    · intro key row hrow
      by_cases hkey : key = entry.1
      · subst hkey
        rw [old.get?_absorbRow_self _ _ hsound, Ledger.row, hnone] at hrow
        exact ⟨entry.2, by simp, (Option.some.inj hrow).symm⟩
      · rw [old.get?_absorbRow_of_ne _ _ key hsound hkey] at hrow
        split at hrow
        · cases hrow
        · obtain ⟨stored, hmem, hcopy⟩ := hcopies key row hrow
          exact ⟨stored, List.mem_append_left _ hmem, hcopy⟩

theorem get?_restarted (assign : String → Nat) (settings : LedgerSettings α) (l : Ledger α)
    (h : l.rows.Sound) (now : Timestamp) (key : String) (row : Row α)
    (hrow : ((new assign settings).absorbRows (l.snapshot now).identities.toList).rows.get? key = some row) :
    ∃ old, l.rows.get? key = some old ∧ row = Row.empty.absorb old.stored := by
  obtain ⟨-, hcopies⟩ := absorbRows_new assign settings _ (l.snapshot now).identities.keys_nodup
  obtain ⟨stored, hstored, rfl⟩ := hcopies key row hrow
  have hget := (l.snapshot now).identities.get?_of_mem key stored hstored
  rw [l.get?_snapshot h now key] at hget
  obtain ⟨old, hold, rfl⟩ := Option.map_eq_some_iff.mp hget
  exact ⟨old, hold, rfl⟩

theorem restart_tracks_all_iff (assign : String → Nat) (settings : LedgerSettings α) (l : Ledger α)
    (h : l.rows.Sound) (now : Timestamp) :
    let fresh := new assign settings
    (∀ key ∈ l.identities, ((fresh.absorbRows (l.snapshot now).identities.toList).rows.get? key).isSome) ↔
      ∀ i, (l.identities.countP fun key => fresh.rows.index key = i) ≤ fresh.rows.perShard := by
  intro fresh
  have hfresh : fresh.rows.Sound := Shards.new_sound _ _ _
  have hnodup : l.identities.Nodup := Dict.keys_nodup _
  constructor
  · intro hall i
    obtain ⟨hroom, -⟩ := absorbRows_new assign settings _ (l.snapshot now).identities.keys_nodup
    have hcount := hroom.countP_le (fresh.absorbRows_sound _ hfresh) l.identities hnodup hall i
    simpa only [index_absorbRows, perShard_absorbRows] using hcount
  · intro hfit key hkey
    have hroomy : fresh.Roomy (l.snapshot now).identities.toList := by
      refine fresh.roomy_of_fit l.identities _ hfresh ?_ ?_ hfit
      · intro key hkey
        rw [new_get?] at hkey
        cases hkey
      · intro entry hentry
        have hget := (l.snapshot now).identities.get?_of_mem entry.1 entry.2 hentry
        rw [l.get?_snapshot h now] at hget
        obtain ⟨row, hrow, -⟩ := Option.map_eq_some_iff.mp hget
        exact (l.mem_identities h entry.1).mpr (by rw [hrow]; rfl)
    rw [get?_absorbRows_new key assign settings _ hroomy, l.get?_snapshot h now, Option.isSome_map,
      Option.isSome_map]
    exact (l.mem_identities h key).mp hkey

/-! ## The restart -/

/-- A new ledger that takes in the snapshot of another shows the same spent amounts for everybody, and for
every caller that it tracks. It tracks all the callers of the other exactly if no shard gets more of their
keys than it has room for. -/
theorem restart_keeps_spend (assign : String → Nat) (settings : LedgerSettings Double) (l : Ledger Double)
    (hl : Reachable assign settings l) (assign' : String → Nat) (shards : Nat) (now : Timestamp) :
    let fresh := new assign' { settings with shards }
    ∃ l', fresh.merge (l.snapshot now) = .ok l' ∧
      (∀ t, (l'.globalUsage t).spent = (l.globalUsage t).spent) ∧
      (∀ who caps t, who.key ∈ l'.identities →
        who.key ∈ l.identities ∧ (l'.usage who caps t).1.spent = (l.usage who caps t).1.spent) ∧
      (l.identities ⊆ l'.identities ↔
        ∀ i, (l.identities.countP fun key => fresh.rows.index key = i) ≤ fresh.rows.perShard) := by
  intro fresh
  obtain ⟨steps, hfollow⟩ := hl.exists_steps
  have hsettings : l.settings = settings := by
    rw [hfollow, follow_settings]
    rfl
  have hsane : l.Sane False := by
    rw [hfollow]
    exact (Sane.new False assign settings).follow steps fun _ _ hf => hf.elim
  have hhour : (l.snapshot now).resetHour = fresh.settings.resetHour := by
    rw [snapshot, hsettings]
    rfl
  set copied := fresh.absorbRows (l.snapshot now).identities.toList with hcopied
  have hsound : copied.rows.Sound := fresh.absorbRows_sound _ (Shards.new_sound _ _ _)
  have hcopiedSettings : copied.settings = { settings with shards } := fresh.absorbRows_settings _
  have hcopiedGlobal : copied.global = .empty := by
    rw [hcopied, absorbRows_eq]
    rfl
  have hnow : ∀ t, (copied.absorbGlobal l.global.stored).periodsAt t = l.periodsAt t := by
    intro t
    show Periods.ofTimestamp t copied.settings.resetHour = _
    rw [hcopiedSettings, periodsAt, hsettings]
  refine ⟨copied.absorbGlobal l.global.stored, fresh.merge_eq _ hhour, ?_, ?_, ?_⟩
  · intro t
    unfold globalUsage
    rw [hnow]
    show (report "global" (copied.global.absorb l.global.stored) _ copied.settings.globalDaily
      copied.settings.globalMonthly).spent = _
    rw [hcopiedGlobal, hcopiedSettings, hsettings]
    exact report_absorb "global" l.global hsane.global _ _ _
  · intro who caps t htracked
    obtain ⟨row', hrow'⟩ := Option.isSome_iff_exists.mp ((copied.mem_identities hsound _).mp htracked)
    obtain ⟨row, hrow, rfl⟩ := get?_restarted assign' _ l hsane.sound now who.key row' hrow'
    refine ⟨(l.mem_identities hsane.sound _).mpr (by rw [hrow]; rfl), ?_⟩
    have hshown : (copied.absorbGlobal l.global.stored).row who.key = Row.empty.absorb row.stored :=
      congrArg (·.getD .empty) hrow'
    have hbefore : l.row who.key = row := congrArg (·.getD .empty) hrow
    rw [usage_eq, usage_eq, hnow, hshown, hbefore]
    exact report_absorb who.key row (hsane.rows who.key row hrow) _ _ _
  · have htracks := restart_tracks_all_iff assign' { settings with shards } l hsane.sound now
    refine Iff.trans (forall₂_congr fun key _ => ?_) htracks
    exact copied.mem_identities hsound key

theorem restart_keeps_spend_crowded :
    ∃ l', (new (fun _ => 7) { oneRow with shards := 4 }).merge (crowded.snapshot someDay) = .ok l' ∧
      (l'.usage alice (.builtin .standard) someDay).1.spent =
        (crowded.usage alice (.builtin .standard) someDay).1.spent ∧
      (crowded.usage alice (.builtin .standard) someDay).1.daily.spent.bits = (0.5 : Double).bits := by
  have hreachable : Reachable (fun _ => 0) oneRow crowded := .call _ _ (.call _ _ .new)
  obtain ⟨l', hmerge, -, hshown, htracks⟩ :=
    restart_keeps_spend (fun _ => 0) oneRow crowded hreachable (fun _ => 7) 4 someDay
  have hall : crowded.identities ⊆ l'.identities := by
    refine htracks.mpr fun i => List.countP_le_length.trans ?_
    decide +kernel
  have halice : alice.key ∈ crowded.identities := by decide +kernel
  exact ⟨l', hmerge, (hshown alice _ someDay (hall halice)).2, by decide +kernel⟩

def onlyBob : Snapshot Double where
  savedAt := none
  resetHour := 0
  global := ⟨0, 0, 0, 0⟩
  identities := .ofList [(bob.key, ⟨0.25, 0.25, 20522, 24314⟩)]

def overfull : Ledger Double :=
  (((new (fun _ => 0) oneRow).step (.call (.reserve ⟨1⟩ alice (.builtin .standard) 0.5 none someDay))).step
    (.merge onlyBob)).step (.call (.reconcile ⟨1⟩ 0.5 someDay))

/-- A caller is lost in a restart where the new ledger has no room for all. -/
theorem restart_loses_spend :
    ¬ ∀ (assign assign' : String → Nat) (settings : LedgerSettings Double) (shards : Nat)
      (l : Ledger Double) (now : Timestamp), Reachable assign settings l →
      ∃ l', (new assign' { settings with shards }).merge (l.snapshot now) = .ok l' ∧
        (∀ who caps t, who.key ∈ l.identities →
          (l'.usage who caps t).1.spent = (l.usage who caps t).1.spent) ∧
        ∀ t, (l'.globalUsage t).spent = (l.globalUsage t).spent := by
  intro h
  have hreachable : Reachable (fun _ => 0) oneRow overfull :=
    reachable_step _ _ _ (reachable_step _ _ _ (reachable_step _ _ _ .new _) _) _
  obtain ⟨l', hmerge, hshown, -⟩ := h (fun _ => 0) (fun _ => 0) oneRow 1 overfull someDay hreachable
  have hlost : ((new (fun _ => 0) { oneRow with shards := 1 }).merge (overfull.snapshot someDay)).toOption.all
      (fun l' => (l'.usage alice (.builtin .standard) someDay).1.daily.spent.bits ≠
        (overfull.usage alice (.builtin .standard) someDay).1.daily.spent.bits) = true := by decide +kernel
  rw [hmerge] at hlost
  have halice : alice.key ∈ overfull.identities := by decide +kernel
  have hsame := congrArg Prod.fst (hshown alice (.builtin .standard) someDay halice)
  simp only [Except.toOption, Option.all_some, decide_eq_true_eq] at hlost
  exact hlost (congrArg Double.bits hsame)

end Ledger

end Admission
