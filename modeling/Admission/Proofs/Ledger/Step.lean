import Admission.Proofs.Ledger.Invariant
import Admission.Proofs.Ledger.OneDay
import Admission.Proofs.Ledger.Rejection
import Admission.Proofs.Ledger.Settling

/-!
# Steps of a ledger

Between the calls a ledger takes in stored spending, shows its rows and is saved. What every single
booking keeps, and stored spending with it, holds after all steps with fresh ids.
-/

namespace Admission.Ledger

variable {α : Type} [Amount α]

/-- Whatever can happen to a ledger. -/
inductive Step (α : Type) where
  | call (c : Call α)
  | merge (s : Snapshot α)
  | usage (key : String) (daily monthly : α) (t : Timestamp)
  | takeDirty
  | markDirty

def Step.newId? : Step α → Option ReservationId
  | call c => c.newId?
  | merge _ | usage .. | takeDirty | markDirty => none

def step (l : Ledger α) : Step α → Ledger α
  | .call c => l.call c
  | .merge s => match l.merge s with
    | .ok l' => l'
    | .error _ => l
  | .usage key daily monthly t => (l.usageOfKey key daily monthly t).2
  | .takeDirty => l.takeDirty.2
  | .markDirty => l.markDirty

def follow (l : Ledger α) (steps : List (Step α)) : Ledger α := steps.foldl step l

theorem follow_append_singleton (l : Ledger α) (steps : List (Step α)) (s : Step α) :
    l.follow (steps ++ [s]) = (l.follow steps).step s := by
  simp [follow]

theorem reachable_step (assign : String → Nat) (settings : LedgerSettings α) (l : Ledger α)
    (h : Reachable assign settings l) (s : Step α) : Reachable assign settings (l.step s) := by
  cases s with
  | call c => exact .call l c h
  | merge s =>
    cases hs : l.merge s with
    | ok l' =>
      have hstep : l.step (.merge s) = l' := by simp only [step, hs]
      rw [hstep]
      exact .merge l l' s h hs
    | error _ =>
      have hstep : l.step (.merge s) = l := by simp only [step, hs]
      rw [hstep]
      exact h
  | usage key daily monthly t => exact .usage l key daily monthly t h
  | takeDirty => exact .takeDirty l h
  | markDirty => exact .markDirty l h

theorem Reachable.exists_steps (assign : String → Nat) (settings : LedgerSettings α) (l : Ledger α)
    (h : Reachable assign settings l) : ∃ steps, l = (Ledger.new assign settings).follow steps := by
  have hstep : ∀ (before : List (Step α)) (s : Step α), ∃ steps,
      ((Ledger.new assign settings).follow before).step s = (Ledger.new assign settings).follow steps :=
    fun before s => ⟨before ++ [s], (follow_append_singleton _ _ _).symm⟩
  induction h with
  | new => exact ⟨[], rfl⟩
  | call l c _ ih =>
    obtain ⟨before, rfl⟩ := ih
    exact hstep before (.call c)
  | merge l l' s _ hs ih =>
    obtain ⟨before, rfl⟩ := ih
    obtain ⟨steps, hsteps⟩ := hstep before (.merge s)
    refine ⟨steps, ?_⟩
    rw [← hsteps, step, hs]
  | usage l key daily monthly t _ ih =>
    obtain ⟨before, rfl⟩ := ih
    exact hstep before (.usage key daily monthly t)
  | takeDirty l _ ih =>
    obtain ⟨before, rfl⟩ := ih
    exact hstep before .takeDirty
  | markDirty l _ ih =>
    obtain ⟨before, rfl⟩ := ih
    exact hstep before .markDirty

/-! ## Single steps -/

def absorbGlobal (l : Ledger α) (stored : StoredRow α) : Ledger α :=
  { l with global := l.global.absorb stored }

def absorbRows (l : Ledger α) (rows : List (String × StoredRow α)) : Ledger α :=
  rows.foldl (fun l entry => l.absorbRow entry.1 entry.2) l

theorem step_merge (l : Ledger α) (s : Snapshot α) :
    l.step (.merge s) = l ∨ l.step (.merge s) = (l.absorbRows s.identities.toList).absorbGlobal s.global := by
  by_cases hhour : s.resetHour = l.settings.resetHour
  · right
    simp only [step, merge, hhour, if_true]
    rfl
  · left
    simp only [step, merge, hhour, if_false]

theorem absorbRow_eq_put (l : Ledger α) (key : String) (stored : StoredRow α) :
    l.absorbRow key stored = l.put key ((l.row key).absorb stored) l.global := by
  have hrows := l.rows.upsert_snd_congr (Row.evictionRank l.clock) key .empty
    (fun row => ((), row.absorb stored)) ((l.row key).absorb stored)
    (fun _ => ((), (l.row key).absorb stored)) rfl
  rw [absorbRow_eq, hrows]
  rfl

theorem step_usage (l : Ledger α) (key : String) (daily monthly : α) (t : Timestamp) :
    l.step (.usage key daily monthly t) = l.look key := by
  show (l.usageOfKey key daily monthly t).2 = _
  rw [usageOfKey_eq]
  rfl

/-! ## What steps keep -/

/-- Something said of the rows of a ledger and of the reservations that hold them, which bookings,
stored spending and looks keep. -/
structure Preserved (Q : Ledger α → List (Reservation α) → Prop) : Prop where
  booking : Invariant (fun _ _ => True) (fun _ _ => True) fun l held _ => Q l held
  absorbRow : ∀ l held key stored, Q l held → Q (l.absorbRow key stored) held
  absorbGlobal : ∀ l held stored, Q l held → Q (l.absorbGlobal stored) held
  look : ∀ l held key, Q l held → Q (l.look key) held

theorem absorbRows_pending (l : Ledger α) (rows : List (String × StoredRow α)) :
    (l.absorbRows rows).pending = l.pending := by
  unfold absorbRows
  induction rows generalizing l with
  | nil => rfl
  | cons entry rows ih => exact ih (l.absorbRow entry.1 entry.2)

theorem absorbRows_settings (l : Ledger α) (rows : List (String × StoredRow α)) :
    (l.absorbRows rows).settings = l.settings := by
  unfold absorbRows
  induction rows generalizing l with
  | nil => rfl
  | cons entry rows ih => exact ih (l.absorbRow entry.1 entry.2)

theorem step_pending (l : Ledger α) (s : Step α) (h : ∀ c, s ≠ .call c) :
    (l.step s).pending = l.pending := by
  cases s with
  | call c => exact absurd rfl (h c)
  | merge s =>
    rcases l.step_merge s with hs | hs
    · rw [hs]
    · rw [hs]
      exact l.absorbRows_pending s.identities.toList
  | usage key daily monthly t =>
    rw [step_usage]
    rfl
  | takeDirty | markDirty => rfl

theorem step_settings (l : Ledger α) (s : Step α) : (l.step s).settings = l.settings := by
  cases s with
  | call c => exact l.call_settings c
  | merge s =>
    rcases l.step_merge s with hs | hs
    · rw [hs]
    · rw [hs]
      exact l.absorbRows_settings s.identities.toList
  | usage key daily monthly t =>
    rw [step_usage]
    rfl
  | takeDirty | markDirty => rfl

theorem follow_settings (l : Ledger α) (steps : List (Step α)) :
    (l.follow steps).settings = l.settings := by
  induction steps using List.reverseRecOn with
  | nil => rfl
  | append_singleton steps s ih => rw [follow_append_singleton, step_settings, ih]

namespace Preserved

variable {Q : Ledger α → List (Reservation α) → Prop}

theorem absorbRows (hQ : Preserved Q) (l : Ledger α) (held : List (Reservation α))
    (rows : List (String × StoredRow α)) (h : Q l held) : Q (l.absorbRows rows) held := by
  unfold Ledger.absorbRows
  induction rows generalizing l with
  | nil => exact h
  | cons entry rows ih => exact ih _ (hQ.absorbRow l held entry.1 entry.2 h)

theorem exists_outcome (hQ : Preserved Q) (l : Ledger α) (c : Call α)
    (hids : (l.pending.map (·.id)).Nodup) (h : Q l l.pending) :
    ∃ done kept made, Outcome l c done kept made ∧ Q (l.call c) (kept ++ made) := by
  cases c with
  | reserve id who caps estimate basis t =>
    exact hQ.booking.reserve l .empty id who caps estimate basis t hids trivial h
  | reconcile id actual t =>
    obtain ⟨done, hperm, hnext⟩ := hQ.booking.reconcile l .empty id actual t hids
      (fun _ _ _ => trivial) h
    exact ⟨done, _, [], ⟨hperm, by simp [Ledger.call], by simp, by simp⟩,
      by rw [List.append_nil]; exact hnext⟩
  | release id t =>
    obtain ⟨done, hperm, hnext⟩ := hQ.booking.reconcile l .empty id 0 t hids (fun _ _ _ => trivial) h
    exact ⟨done, _, [], ⟨hperm, by simp [Ledger.call, release], by simp, by simp⟩,
      by rw [List.append_nil]; exact hnext⟩
  | sweep t =>
    obtain ⟨done, hperm, hnext⟩ := hQ.booking.sweep l .empty t h
    exact ⟨done, _, [], ⟨hperm, by simp [Ledger.call], by simp, by simp⟩,
      by rw [List.append_nil]; exact hnext⟩

theorem step (hQ : Preserved Q) (l : Ledger α) (s : Step α) (hids : (l.pending.map (·.id)).Nodup)
    (hnew : ∀ id, s.newId? = some id → ∀ r ∈ l.pending, r.id ≠ id) (h : Q l l.pending) :
    Q (l.step s) (l.step s).pending ∧ ((l.step s).pending.map (·.id)).Nodup ∧
      ∀ r ∈ (l.step s).pending, r ∈ l.pending ∨ s.newId? = some r.id := by
  have hquiet : ∀ l', l'.rows = l.rows → l'.global = l.global → l'.settings = l.settings →
      Q l' l.pending := fun l' hrows hglobal hsettings =>
    hQ.booking.quiet l l' _ _ .empty .empty hrows hglobal hsettings (.refl _) (.rfl _) h
  have hkept : (∀ c, s ≠ .call c) → Q (l.step s) l.pending →
      Q (l.step s) (l.step s).pending ∧ ((l.step s).pending.map (·.id)).Nodup ∧
        ∀ r ∈ (l.step s).pending, r ∈ l.pending ∨ s.newId? = some r.id := by
    intro hs hstep
    rw [l.step_pending s hs]
    exact ⟨hstep, hids, fun r hr => Or.inl hr⟩
  cases s with
  | call c =>
    obtain ⟨done, kept, made, ho, hcall⟩ := hQ.exists_outcome l c hids h
    rw [← ho.pending] at hcall
    refine ⟨hcall, ho.ids_nodup hids hnew, ?_⟩
    intro r hr
    change r ∈ (l.call c).pending at hr
    rw [ho.pending] at hr
    rcases List.mem_append.mp hr with hr | hr
    · exact Or.inl (ho.perm.mem_iff.mp (List.mem_append_right _ hr))
    · right
      show c.newId? = some r.id
      simpa using ho.ids.subset (List.mem_map_of_mem hr)
  | merge s =>
    refine hkept (by simp) ?_
    rcases l.step_merge s with hs | hs
    · rw [hs]
      exact h
    · rw [hs]
      exact hQ.absorbGlobal _ _ s.global (hQ.absorbRows l _ s.identities.toList h)
  | usage key daily monthly t =>
    refine hkept (by simp) ?_
    rw [step_usage]
    exact hQ.look l _ key h
  | takeDirty => exact hkept (by simp) (hquiet _ rfl rfl rfl)
  | markDirty => exact hkept (by simp) (hquiet _ rfl rfl rfl)

/-- What holds of an empty ledger and is preserved holds after all steps with fresh ids. -/
theorem follow (hQ : Preserved Q) (assign : String → Nat) (settings : LedgerSettings α)
    (hstart : Q (new assign settings) []) (steps : List (Step α))
    (hfresh : (steps.filterMap Step.newId?).Nodup) :
    let l := (new assign settings).follow steps
    Q l l.pending ∧ (l.pending.map (·.id)).Nodup ∧
      ∀ r ∈ l.pending, r.id ∈ steps.filterMap Step.newId? := by
  intro l
  induction steps using List.reverseRecOn with
  | nil => exact ⟨hstart, List.nodup_nil, by simp [l, Ledger.follow, new]⟩
  | append_singleton before s ih =>
    rw [List.filterMap_append] at hfresh
    obtain ⟨hbefore, hids, hsource⟩ := ih hfresh.of_append_left
    rw [List.nodup_append] at hfresh
    have hl : l = ((new assign settings).follow before).step s := follow_append_singleton _ _ _
    have hnew : ∀ id, s.newId? = some id →
        ∀ r ∈ ((new assign settings).follow before).pending, r.id ≠ id := by
      intro id hid r hr
      exact hfresh.2.2 r.id (hsource r hr) id (by simp [hid])
    obtain ⟨hstep, hids', hmem⟩ := hQ.step _ s hids hnew hbefore
    rw [hl]
    refine ⟨hstep, hids', ?_⟩
    intro r hr
    rw [List.filterMap_append, List.mem_append]
    rcases hmem r hr with hr | hr
    · exact Or.inl (hsource r hr)
    · exact Or.inr (by simp [hr])

end Preserved

end Admission.Ledger
