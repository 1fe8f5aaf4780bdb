import Mathlib
import Admission.Ledger.Store
import Admission.Proofs.Ledger.Quiet
import Admission.Proofs.Ledger.Restart
import Admission.Sandbox

/-!
# Nothing unsaved, nothing understated

While there are no unsaved changes, the snapshot that was last saved or loaded says of every caller, and of
everybody, at least what the ledger shows. Rows that are brought up to date, started or displaced need no
save, because none of that makes an amount larger.
-/

namespace Admission

/-! ## Amounts and their periods -/

/-- What an amount of the period `marker` counts for in the period `now`. -/
def spentIn (marker : Int) (spent : Double) (now : Int) : Double := if now ≤ marker then spent else 0

theorem spentIn_zero (marker now : Int) : spentIn marker 0 now = 0 := ite_self 0

theorem spentIn_nonneg (marker now : Int) (spent : Double) (h : 0 ≤ spent) :
    0 ≤ spentIn marker spent now := by
  unfold spentIn
  split
  · exact h
  · exact Double.zero_le_zero

theorem Meter.spent_view (m : Meter Double) (now : Int) (limit : Double) :
    (m.view now limit).spent = spentIn m.marker m.spent now := by
  unfold view spentIn
  split <;> rfl

theorem Meter.spentIn_absorb_le (marker now : Int) (spent : Double) (h : 0 ≤ spent) :
    spentIn ((Meter.zero : Meter Double).absorb marker spent).marker
      ((Meter.zero : Meter Double).absorb marker spent).spent now ≤ spentIn marker spent now := by
  have hself : spentIn marker spent now ≤ spentIn marker spent now :=
    (Double.defined_of_le _ _ (spentIn_nonneg marker now spent h)).2
  unfold absorb
  split
  · next hzero =>
    have hlarger : Amount.larger (Meter.zero : Meter Double).spent spent = spent := if_pos h
    rw [hlarger]
    exact hzero ▸ hself
  split
  · exact hself
  · rw [show (Meter.zero : Meter Double).spent = 0 from rfl, spentIn_zero]
    exact spentIn_nonneg marker now spent h

theorem Meter.spentIn_roll_le (m : Meter Double) (h : 0 ≤ m.spent) (now period : Int) :
    spentIn (m.roll now).marker (m.roll now).spent period ≤ spentIn m.marker m.spent period := by
  have hshown := spentIn_nonneg m.marker period m.spent h
  unfold roll
  split
  · rw [spentIn_zero]
    exact hshown
  · exact (Double.defined_of_le _ _ hshown).2

namespace StoredRow

def spends (row : StoredRow Double) : Double × Double := (row.dailySpent, row.monthlySpent)

def spentAt (row : StoredRow Double) (now : Periods) : Double × Double :=
  (spentIn row.day row.dailySpent now.day, spentIn row.month row.monthlySpent now.month)

theorem spentAt_nonneg (row : StoredRow Double) (h : 0 ≤ row.spends) (now : Periods) : 0 ≤ row.spentAt now :=
  ⟨spentIn_nonneg _ _ _ h.1, spentIn_nonneg _ _ _ h.2⟩

end StoredRow

namespace Row

def spentAt (row : Row Double) (now : Periods) : Double × Double := row.stored.spentAt now

theorem spent_report (key : String) (row : Row Double) (now : Periods) (daily monthly : Double) :
    (Ledger.report key row now daily monthly).spent = row.spentAt now :=
  Prod.ext (row.day.spent_view now.day daily) (row.month.spent_view now.month monthly)

theorem spentAt_empty (now : Periods) : (Row.empty : Row Double).spentAt now = 0 :=
  Prod.ext (spentIn_zero 0 now.day) (spentIn_zero 0 now.month)

theorem Nonneg.spentAt {row : Row Double} (h : row.Nonneg) (now : Periods) : 0 ≤ row.spentAt now :=
  row.stored.spentAt_nonneg ⟨h.day.spent, h.month.spent⟩ now

theorem Nonneg.spentAt_le_self {row : Row Double} (h : row.Nonneg) (now : Periods) :
    row.spentAt now ≤ row.spentAt now :=
  ⟨(Double.defined_of_le _ _ (h.spentAt now).1).2, (Double.defined_of_le _ _ (h.spentAt now).2).2⟩

theorem Nonneg.spentAt_roll_le {row : Row Double} (h : row.Nonneg) (now other : Periods) :
    (row.roll now).spentAt other ≤ row.spentAt other :=
  ⟨row.day.spentIn_roll_le h.day.spent now.day other.day, row.month.spentIn_roll_le h.month.spent now.month other.month⟩

theorem spentAt_absorb_le (stored : StoredRow Double) (h : 0 ≤ stored.spends) (now : Periods) :
    (Row.empty.absorb stored).spentAt now ≤ stored.spentAt now :=
  ⟨Meter.spentIn_absorb_le stored.day now.day _ h.1, Meter.spentIn_absorb_le stored.month now.month _ h.2⟩

end Row

/-! ## Snapshots -/

namespace Snapshot

structure AllNonneg (s : Snapshot Double) : Prop where
  global : 0 ≤ s.global.spends
  identities : ∀ entry ∈ s.identities.toList, 0 ≤ entry.2.spends

instance (s : Snapshot Double) : Decidable s.AllNonneg :=
  decidable_of_iff (0 ≤ s.global.spends ∧ ∀ entry ∈ s.identities.toList, 0 ≤ entry.2.spends)
    ⟨fun h => ⟨h.1, h.2⟩, fun h => ⟨h.global, h.identities⟩⟩

theorem AllNonneg.nonneg {s : Snapshot Double} (h : s.AllNonneg) : s.Nonneg where
  global := ⟨fun _ => h.global.1, fun _ => h.global.2⟩
  identities entry hentry := ⟨fun _ => (h.identities entry hentry).1, fun _ => (h.identities entry hentry).2⟩

/-- What a snapshot says was spent under a key; without a row it is nothing. -/
def spentUnder (s : Snapshot Double) (key : String) (t : Timestamp) : Double × Double :=
  ((s.identities.get? key).map fun row => row.spentAt (.ofTimestamp t s.resetHour)).getD 0

def spentByAll (s : Snapshot Double) (t : Timestamp) : Double × Double :=
  s.global.spentAt (.ofTimestamp t s.resetHour)

theorem AllNonneg.spentUnder {s : Snapshot Double} (h : s.AllNonneg) (key : String) (t : Timestamp) :
    0 ≤ s.spentUnder key t := by
  unfold Snapshot.spentUnder
  cases hrow : s.identities.get? key with
  | none => exact ⟨Double.zero_le_zero, Double.zero_le_zero⟩
  | some row => exact row.spentAt_nonneg (h.identities (key, row) (s.identities.mem_of_get? key row hrow)) _

theorem AllNonneg.spentByAll {s : Snapshot Double} (h : s.AllNonneg) (t : Timestamp) : 0 ≤ s.spentByAll t :=
  s.global.spentAt_nonneg h.global _

end Snapshot

namespace Ledger

theorem snapshot_spentUnder (l : Ledger Double) (h : l.rows.Sound) (now t : Timestamp) (key : String) :
    (l.snapshot now).spentUnder key t = (l.row key).spentAt (l.periodsAt t) := by
  unfold Snapshot.spentUnder row
  rw [l.get?_snapshot h]
  cases l.rows.get? key with
  | none => exact (Row.spentAt_empty _).symm
  | some row => rfl

theorem Sane.snapshot_allNonneg {l : Ledger Double} (h : l.Sane True) (now : Timestamp) :
    (l.snapshot now).AllNonneg where
  global := ⟨h.global.nonneg.day.spent, h.global.nonneg.month.spent⟩
  identities entry hentry := by
    have hget := (l.snapshot now).identities.get?_of_mem entry.1 entry.2 hentry
    rw [l.get?_snapshot h.sound] at hget
    obtain ⟨row, hrow, hstored⟩ := Option.map_eq_some_iff.mp hget
    have hnonneg := (h.rows entry.1 row hrow).nonneg
    rw [← hstored]
    exact ⟨hnonneg.day.spent, hnonneg.month.spent⟩

theorem row_absorbRows_new_le (assign : String → Nat) (settings : LedgerSettings Double) (s : Snapshot Double)
    (h : s.AllNonneg) (key : String) (now : Periods) :
    (((new assign settings).absorbRows s.identities.toList).row key).spentAt now ≤
      ((s.identities.get? key).map fun row => row.spentAt now).getD 0 := by
  obtain ⟨-, hcopies⟩ := absorbRows_new assign settings _ s.identities.keys_nodup
  unfold row
  cases hrow : ((new assign settings).absorbRows s.identities.toList).rows.get? key with
  | none =>
    rw [Option.getD_none, Row.spentAt_empty]
    cases hstored : s.identities.get? key with
    | none => exact ⟨Double.zero_le_zero, Double.zero_le_zero⟩
    | some stored =>
      have hmem := s.identities.mem_of_get? key stored hstored
      exact stored.spentAt_nonneg (h.identities _ hmem) now
  | some row =>
    obtain ⟨stored, hmem, rfl⟩ := hcopies key row hrow
    rw [s.identities.get?_of_mem key stored hmem]
    exact Row.spentAt_absorb_le stored (h.identities _ hmem) now

end Ledger

/-! ## A ledger and its store -/

/-- A store that notes the snapshot that was last saved, or else loaded. -/
def Store.noting {m : Type → Type} [Monad m] (store : Store m) :
    Store (StateT (Option (Snapshot Double)) m) where
  load := do
    let loaded ← StateT.lift store.load
    if let .ok (some s) := loaded then set (some s)
    return loaded
  save s := do
    let done ← StateT.lift (store.save s)
    if let .ok () := done then set (some s)
    return done

/-- A ledger in use, with the snapshot that was last saved or loaded. -/
structure Session where
  ledger : Ledger Double
  saved : Option (Snapshot Double)

/-- A call, or an attempt to save on a machine in whatever state it is by then. -/
inductive Event (σ : Type) where
  | call (c : Ledger.Call Double)
  | flush (machine : σ)

namespace Session

open Ledger (alice bob poor oneOpen someDay)

variable {σ : Type} (store : Store (StateM σ))

def restored (assign : String → Nat) (settings : LedgerSettings Double) (machine : σ) : Session :=
  let (((_, ledger), saved), _) :=
    Id.run ((((Ledger.new assign settings).restore store.noting).run none).run machine)
  ⟨ledger, saved⟩

def flush [Machine (StateM σ)] (session : Session) (machine : σ) : Session :=
  let (((_, ledger), saved), _) :=
    Id.run (((session.ledger.flush store.noting).run session.saved).run machine)
  ⟨ledger, saved⟩

def step [Machine (StateM σ)] (session : Session) : Event σ → Session
  | .call c => { session with ledger := session.ledger.call c }
  | .flush machine => session.flush store machine

def after [Machine (StateM σ)] (session : Session) (events : List (Event σ)) : Session :=
  events.foldl (step store) session

/-- A ledger starts empty, or with stored amounts of which none is negative. -/
inductive Start : Session → Prop
  | empty (assign : String → Nat) (settings : LedgerSettings Double) : Start ⟨.new assign settings, none⟩
  | restored (assign : String → Nat) (settings : LedgerSettings Double) (machine : σ)
    (h : ∀ s, (store.load.run machine).1 = .ok (some s) → s.AllNonneg) :
    Start (Session.restored store assign settings machine)

/-- What is saved under a key; nothing where nothing is saved. -/
def savedUnder (session : Session) (key : String) (t : Timestamp) : Double × Double :=
  (session.saved.map fun s => s.spentUnder key t).getD 0

def savedByAll (session : Session) (t : Timestamp) : Double × Double :=
  (session.saved.map fun s => s.spentByAll t).getD 0

/-! ## Saving and loading -/

section

variable {m : Type → Type} [Monad m] [LawfulMonad m] (store : Store m) (saved : Option (Snapshot Double))

theorem noting_load_run : (store.noting.load).run saved =
    (fun loaded => (loaded, loaded.toOption.join.or saved)) <$> store.load := by
  simp only [Store.noting, StateT.run_bind, StateT.run_lift, map_eq_pure_bind, bind_assoc, pure_bind]
  congr 1
  funext loaded
  rcases loaded with _ | _ | s <;> simp [Except.toOption]

theorem noting_save_run (s : Snapshot Double) : (store.noting.save s).run saved =
    (fun done => (done, (done.toOption.map fun _ => s).or saved)) <$> store.save s := by
  simp only [Store.noting, StateT.run_bind, StateT.run_lift, map_eq_pure_bind, bind_assoc, pure_bind]
  congr 1
  funext done
  rcases done with _ | _ <;> simp [Except.toOption]

end

theorem flush_cases [Machine (StateM σ)] (session : Session) (machine : σ) :
    session.flush store machine = session ∨ ∃ now, session.flush store machine =
      ⟨{ session.ledger with dirty := false }, some (session.ledger.snapshot now)⟩ := by
  obtain ⟨⟨settings, rows, global, pending, clock, dirty⟩, saved⟩ := session
  cases dirty with
  | false => exact Or.inl rfl
  | true =>
    have hclock : (Machine.now : StateT (Option (Snapshot Double)) (StateM σ) Timestamp).run saved =
      (fun now => (now, saved)) <$> Machine.now := rfl
    obtain ⟨now, machine', hnow⟩ :
        ∃ now machine', (Machine.now : StateM σ Timestamp).run machine = pure (now, machine') := ⟨_, _, rfl⟩
    obtain ⟨done, machine'', hsave⟩ : ∃ done machine'',
        (store.save (Ledger.snapshot ⟨settings, rows, global, pending, clock, false⟩ now)).run machine' =
          pure (done, machine'') := ⟨_, _, rfl⟩
    unfold Session.flush Ledger.flush
    cases done with
    | error e =>
      left
      simp [Ledger.takeDirty, Ledger.markDirty, noting_save_run, hclock, hnow, hsave, Except.toOption]
    | ok =>
      refine Or.inr ⟨now, ?_⟩
      simp [Ledger.takeDirty, noting_save_run, hclock, hnow, hsave, Except.toOption]
      rfl

theorem restored_cases (assign : String → Nat) (settings : LedgerSettings Double) (machine : σ) :
    (∃ saved, restored store assign settings machine = ⟨.new assign settings, saved⟩ ∧
      ∀ s, saved = some s → (store.load.run machine).1 = .ok (some s)) ∨
    ∃ s, restored store assign settings machine =
        ⟨((Ledger.new assign settings).absorbRows s.identities.toList).absorbGlobal s.global, some s⟩ ∧
      s.resetHour = settings.resetHour ∧ (store.load.run machine).1 = .ok (some s) := by
  obtain ⟨loaded, machine', hload⟩ :
      ∃ loaded machine', store.load.run machine = pure (loaded, machine') := ⟨_, _, rfl⟩
  unfold restored Ledger.restore
  simp only [StateT.run_bind, noting_load_run, StateT.run_map, hload, Id.run_bind, Id.run_map, Id.run_pure]
  rcases loaded with e | _ | s
  · exact Or.inl ⟨none, rfl, by simp⟩
  · exact Or.inl ⟨none, rfl, by simp⟩
  · by_cases hhour : s.resetHour = settings.resetHour
    · refine Or.inr ⟨s, ?_, hhour, rfl⟩
      simp only [(Ledger.new assign settings).merge_eq s hhour]
      rfl
    · refine Or.inl ⟨some s, ?_, fun s' hs' => by cases hs'; rfl⟩
      have hmerge : (Ledger.new assign settings).merge s =
          .error (.resetHour s.resetHour settings.resetHour) := if_neg hhour
      simp only [hmerge]
      rfl

/-! ## The session -/

/-- All that is needed of a session so that what is saved says enough about a moment. -/
structure Covered (t : Timestamp) (session : Session) : Prop where
  sane : session.ledger.Sane True
  nonneg : ∀ s, session.saved = some s → s.AllNonneg
  callers : session.ledger.dirty = false → ∀ key,
    (session.ledger.row key).spentAt (session.ledger.periodsAt t) ≤ session.savedUnder key t
  everybody : session.ledger.dirty = false →
    session.ledger.global.spentAt (session.ledger.periodsAt t) ≤ session.savedByAll t

namespace Covered

variable {t : Timestamp} {session : Session}

theorem savedUnder_nonneg (h : session.Covered t) (key : String) : 0 ≤ session.savedUnder key t := by
  unfold savedUnder
  cases hsaved : session.saved with
  | none => exact ⟨Double.zero_le_zero, Double.zero_le_zero⟩
  | some s => exact (h.nonneg s hsaved).spentUnder key t

theorem call (h : session.Covered t) (c : Ledger.Call Double) :
    Covered t { session with ledger := session.ledger.call c } := by
  -- While nothing is booked, rows show what they showed before, or nothing.
  have hsane : (session.ledger.call c).Sane True := h.sane.step (.call c) (by simp)
  have htrans : ∀ {x y z : Double × Double}, x ≤ y → y ≤ z → x ≤ z := fun hxy hyz =>
    ⟨Double.le_trans _ _ _ hxy.1 hyz.1, Double.le_trans _ _ _ hxy.2 hyz.2⟩
  have hquiet := session.ledger.call_quiet h.sane.sound c
  have hnow : (session.ledger.call c).periodsAt t = session.ledger.periodsAt t := by
    rw [Ledger.periodsAt, Ledger.periodsAt, Ledger.call_settings]
  refine ⟨hsane, h.nonneg, fun hclean key => ?_, fun hclean => ?_⟩
  · obtain ⟨hdirty, hrows⟩ := hquiet hclean
    show ((session.ledger.call c).row key).spentAt ((session.ledger.call c).periodsAt t) ≤ _
    rw [hnow]
    rcases hrows.rows key with hrow | hrow | hrow
    · rw [hrow]
      exact h.callers hdirty key
    · rw [hrow]
      exact htrans ((h.sane.row key).nonneg.spentAt_roll_le _ _) (h.callers hdirty key)
    · rw [hrow, Row.spentAt_empty]
      exact h.savedUnder_nonneg key
  · obtain ⟨hdirty, hrows⟩ := hquiet hclean
    show (session.ledger.call c).global.spentAt ((session.ledger.call c).periodsAt t) ≤ _
    rw [hnow]
    rcases hrows.global with hglobal | hglobal
    · rw [hglobal]
      exact h.everybody hdirty
    · rw [hglobal]
      exact htrans (h.sane.global.nonneg.spentAt_roll_le _ _) (h.everybody hdirty)

theorem saved {l : Ledger Double} (hsane : l.Sane True) (now : Timestamp) :
    Covered t ⟨{ l with dirty := false }, some (l.snapshot now)⟩ where
  sane := ⟨hsane.sound, hsane.rows, hsane.global, hsane.amounts⟩
  nonneg s hs := by
    cases hs
    exact hsane.snapshot_allNonneg now
  callers _ key := by
    show (l.row key).spentAt (l.periodsAt t) ≤ (l.snapshot now).spentUnder key t
    rw [l.snapshot_spentUnder hsane.sound]
    exact (hsane.row key).nonneg.spentAt_le_self _
  everybody _ := hsane.global.nonneg.spentAt_le_self _

theorem step [Machine (StateM σ)] (h : session.Covered t) (event : Event σ) :
    (session.step store event).Covered t := by
  cases event with
  | call c => exact h.call c
  | flush machine =>
    rcases session.flush_cases store machine with hsame | ⟨now, hsaved⟩
    · show (session.flush store machine).Covered t
      rw [hsame]
      exact h
    · show (session.flush store machine).Covered t
      rw [hsaved]
      exact saved h.sane now

theorem new (assign : String → Nat) (settings : LedgerSettings Double) (saved : Option (Snapshot Double))
    (h : ∀ s, saved = some s → s.AllNonneg) : Covered t ⟨.new assign settings, saved⟩ := by
  have hzero : (0 : Double × Double) ≤ 0 := ⟨Double.zero_le_zero, Double.zero_le_zero⟩
  refine ⟨.new True assign settings, h, fun _ key => ?_, fun _ => ?_⟩
  · have hrow : (Ledger.new assign settings).row key = .empty := by
      rw [Ledger.row, Ledger.new_get?, Option.getD_none]
    rw [hrow, Row.spentAt_empty]
    cases saved with
    | none => exact hzero
    | some s => exact (h s rfl).spentUnder key t
  · show Row.empty.spentAt _ ≤ _
    rw [Row.spentAt_empty]
    cases saved with
    | none => exact hzero
    | some s => exact (h s rfl).spentByAll t

theorem start (h : Start store session) : session.Covered t := by
  cases h with
  | empty assign settings => exact .new assign settings none (by simp)
  | restored assign settings machine hloaded =>
    rcases restored_cases store assign settings machine with ⟨saved, heq, hsaved⟩ | ⟨s, heq, hhour, hs⟩
    · rw [heq]
      exact .new assign settings saved fun s hs => hloaded s (hsaved s hs)
    · have hnonneg := hloaded s hs
      have hsane := (Ledger.Sane.new True assign settings).absorbRows s.identities.toList
        fun _ => hnonneg.nonneg.identities
      set l := (Ledger.new assign settings).absorbRows s.identities.toList with hl
      have hglobal : l.global = .empty := by
        rw [hl, Ledger.absorbRows_eq]
        rfl
      have hnow : (l.absorbGlobal s.global).periodsAt t = .ofTimestamp t s.resetHour := by
        show Periods.ofTimestamp t l.settings.resetHour = _
        rw [hhour, hl, Ledger.absorbRows_settings]
        rfl
      rw [heq]
      refine ⟨⟨hsane.sound, hsane.rows, hsane.global.absorb s.global fun _ => hnonneg.nonneg.global,
        hsane.amounts⟩, fun s' hs' => by cases hs'; exact hnonneg, fun _ key => ?_, fun _ => ?_⟩
      · rw [hnow]
        exact Ledger.row_absorbRows_new_le assign settings s hnonneg key _
      · rw [hnow]
        show (l.global.absorb s.global).spentAt _ ≤ _
        rw [hglobal]
        exact Row.spentAt_absorb_le s.global hnonneg.global _

end Covered

/-- Whenever there are no unsaved changes, what was last saved or loaded says of every caller and of
everybody at least what the ledger shows, at whatever moment one asks. -/
theorem spent_le_saved [Machine (StateM σ)] (start : Session) (hstart : Start store start)
    (events : List (Event σ)) (t : Timestamp) (hclean : (start.after store events).ledger.dirty = false) :
    let session := start.after store events
    (∀ who caps, (session.ledger.usage who caps t).1.spent ≤ session.savedUnder who.key t) ∧
      (session.ledger.globalUsage t).spent ≤ session.savedByAll t := by
  have hcovered : (start.after store events).Covered t := by
    clear hclean
    induction events using List.reverseRecOn with
    | nil => exact .start store hstart
    | append_singleton before event ih =>
      have hafter : start.after store (before ++ [event]) = (start.after store before).step store event := by
        simp [after]
      rw [hafter]
      exact ih.step store event
  intro session
  constructor
  · intro who caps
    rw [Ledger.usage_eq, Row.spent_report]
    exact hcovered.callers hclean who.key
  · rw [Ledger.globalUsage, Row.spent_report]
    exact hcovered.everybody hclean

def usageFile : Store SandboxM := .file "usage.json"

def spentBefore : Sandbox := ({} : Sandbox).put "usage.json" (.file
  "\x7b\"saved_at\": null, \"reset_hour_utc\": 0, \"global\": \x7b\"daily_spent\": 0.25,
    \"monthly_spent\": 0.25, \"day\": 20522, \"month\": 24314\x7d, \"identities\": \x7b\x7d\x7d" false)

def savedAtLast : List (Event Sandbox) :=
  [.call (.reserve ⟨1⟩ alice (.builtin .standard) 0.5 none someDay),
    .flush { spentBefore with failing := [.write "usage.json.tmp"] }, .call (.reconcile ⟨1⟩ 0.25 someDay),
    .flush spentBefore, .call (.reserve ⟨2⟩ bob poor 0.5 none someDay)]

theorem spent_le_saved_atLast :
    let start := restored usageFile (fun _ => 0) oneOpen spentBefore
    let session := start.after usageFile savedAtLast
    Start usageFile start ∧ session.ledger.dirty = false ∧
      (session.savedUnder alice.key someDay).1.bits = (0.25 : Double).bits ∧
      (session.ledger.globalUsage someDay).daily.spent.bits = (0.5 : Double).bits ∧
      (∀ who caps, (session.ledger.usage who caps someDay).1.spent ≤ session.savedUnder who.key someDay) ∧
      (session.ledger.globalUsage someDay).spent ≤ session.savedByAll someDay := by
  have hloaded : ∀ loaded, (usageFile.load.run spentBefore).1 = loaded → (match loaded with
      | .ok (some s) => decide s.AllNonneg
      | _ => false) = true := by
    rintro _ rfl
    decide +kernel
  have hstart : Start usageFile (restored usageFile (fun _ => 0) oneOpen spentBefore) :=
    .restored _ _ _ fun s hs => of_decide_eq_true (hloaded _ hs)
  have hclean : ((restored usageFile (fun _ => 0) oneOpen spentBefore).after usageFile
      savedAtLast).ledger.dirty = false := by decide +kernel
  exact ⟨hstart, hclean, by decide +kernel, by decide +kernel,
    spent_le_saved usageFile _ hstart savedAtLast someDay hclean⟩

end Session

end Admission
