import Mathlib
import Admission.Proofs.Ledger.Restart

/-!
# Merging is a join

Of all that is stored about a period of a caller the highest amount of the latest period counts. As long as
no row is displaced, it does not matter in which order snapshots are taken in, and how often.
-/

namespace Admission

namespace Double

/-- Equal numbers, whatever the sign of a zero, or both undefined. -/
def Same (x y : Double) : Prop := x ≤ y ∧ y ≤ x ∨ ¬ x.Defined ∧ ¬ y.Defined

def AtMost (x y : Double) : Prop := x ≤ y ∨ ¬ x.Defined

theorem AtMost.refl (x : Double) : x.AtMost x := Classical.em (x ≤ x)

theorem AtMost.trans {x y z : Double} (hxy : x.AtMost y) (hyz : y.AtMost z) : x.AtMost z := by
  rcases hxy with hxy | hx
  · rcases hyz with hyz | hy
    · exact Or.inl (Double.le_trans x y z hxy hyz)
    · exact absurd (defined_of_le x y hxy).2 hy
  · exact Or.inr hx

theorem AtMost.antisymm {x y : Double} (hxy : x.AtMost y) (hyx : y.AtMost x) : x.Same y := by
  rcases hxy with hxy | hx
  · rcases hyx with hyx | hy
    · exact Or.inl ⟨hxy, hyx⟩
    · exact absurd (defined_of_le x y hxy).2 hy
  · rcases hyx with hyx | hy
    · exact absurd (defined_of_le y x hyx).2 hx
    · exact Or.inr ⟨hx, hy⟩

theorem larger_spec (x y : Double) :
    (Amount.larger x y = x ∨ Amount.larger x y = y) ∧
      x.AtMost (Amount.larger x y) ∧ y.AtMost (Amount.larger x y) := by
  unfold Amount.larger
  split
  · next hxy => exact ⟨Or.inr rfl, Or.inl hxy, .refl y⟩
  split
  · next hxy hx =>
    refine ⟨Or.inl rfl, .refl x, ?_⟩
    by_cases hy : y.Defined
    · exact Or.inl (Double.le_of_not_le x y hx hy hxy)
    · exact Or.inr hy
  · next hx => exact ⟨Or.inr rfl, Or.inr hx, .refl y⟩

end Double

/-! ## One meter -/

namespace Meter

def account (m : Meter Double) : Int × Double := (m.marker, m.spent)

/-- One amount is not above another: it is of an earlier period, or of the same and not higher. -/
def NotAbove (a b : Int × Double) : Prop := a.1 < b.1 ∨ a.1 = b.1 ∧ a.2.AtMost b.2

/-- The meter keeps the greatest of some amounts: one of them, such that none is above it. -/
structure Keeps (m : Meter Double) (accounts : List (Int × Double)) : Prop where
  mem : m.account ∈ accounts
  greatest : ∀ a ∈ accounts, NotAbove a m.account

theorem NotAbove.refl (a : Int × Double) : NotAbove a a := Or.inr ⟨rfl, .refl a.2⟩

theorem NotAbove.trans {a b c : Int × Double} (hab : NotAbove a b) (hbc : NotAbove b c) : NotAbove a c := by
  rcases hab with hab | ⟨hab, hle⟩ <;> rcases hbc with hbc | ⟨hbc, hle'⟩
  · exact Or.inl (hab.trans hbc)
  · exact Or.inl (hbc ▸ hab)
  · exact Or.inl (hab ▸ hbc)
  · exact Or.inr ⟨hab.trans hbc, hle.trans hle'⟩

theorem absorb_spec (m : Meter Double) (marker : Int) (spent : Double) :
    ((m.absorb marker spent).account = m.account ∨ (m.absorb marker spent).account = (marker, spent)) ∧
      NotAbove m.account (m.absorb marker spent).account ∧
      NotAbove (marker, spent) (m.absorb marker spent).account := by
  unfold absorb
  split
  · next hsame =>
    obtain ⟨hone, hleft, hright⟩ := Double.larger_spec m.spent spent
    refine ⟨?_, Or.inr ⟨rfl, hleft⟩, Or.inr ⟨hsame, hright⟩⟩
    rcases hone with hone | hone
    · exact Or.inl (Prod.ext rfl hone)
    · exact Or.inr (Prod.ext hsame.symm hone)
  split
  · next hlater => exact ⟨Or.inr rfl, Or.inl hlater, .refl _⟩
  · next hne hlater =>
    have hearlier : marker < m.marker := by omega
    exact ⟨Or.inl rfl, .refl _, Or.inl hearlier⟩

theorem Keeps.absorb {m : Meter Double} {accounts : List (Int × Double)} (h : m.Keeps accounts)
    (marker : Int) (spent : Double) : (m.absorb marker spent).Keeps (accounts ++ [(marker, spent)]) := by
  obtain ⟨hone, hold, hnew⟩ := m.absorb_spec marker spent
  constructor
  · rcases hone with hone | hone
    · rw [hone]
      exact List.mem_append_left _ h.mem
    · rw [hone]
      exact List.mem_append_right _ (List.mem_singleton.mpr rfl)
  · intro a ha
    rcases List.mem_append.mp ha with ha | ha
    · exact (h.greatest a ha).trans hold
    · rw [List.mem_singleton.mp ha]
      exact hnew

structure Agrees (m m' : Meter Double) : Prop where
  marker : m.marker = m'.marker
  spent : m.spent.Same m'.spent

theorem Keeps.agrees {m m' : Meter Double} {accounts accounts' : List (Int × Double)}
    (h : m.Keeps accounts) (h' : m'.Keeps accounts') (hsame : ∀ a, a ∈ accounts ↔ a ∈ accounts') :
    m.Agrees m' := by
  have hle := h'.greatest _ ((hsame _).mp h.mem)
  have hge := h.greatest _ ((hsame _).mpr h'.mem)
  rcases hle with hlt | ⟨heq, hle⟩
  · rcases hge with hgt | ⟨heq, -⟩
    · exact absurd hgt hlt.le.not_gt
    · exact absurd heq hlt.ne'
  · rcases hge with hgt | ⟨-, hge⟩
    · exact absurd heq hgt.ne'
    · exact ⟨heq, hle.antisymm hge⟩

end Meter

/-! ## One row -/

namespace Row

/-- In both its meters a row is the join of an old one and of stored rows. -/
structure Joins (row old : Row Double) (stored : List (StoredRow Double)) : Prop where
  day : row.day.Keeps (old.day.account :: stored.map fun s => (s.day, s.dailySpent))
  month : row.month.Keeps (old.month.account :: stored.map fun s => (s.month, s.monthlySpent))

structure Agrees (row row' : Row Double) : Prop where
  day : row.day.Agrees row'.day
  month : row.month.Agrees row'.month

theorem foldl_absorb_joins (old : Row Double) (stored : List (StoredRow Double)) :
    (stored.foldl absorb old).Joins old stored := by
  induction stored using List.reverseRecOn with
  | nil =>
    constructor
    · exact ⟨List.mem_singleton.mpr rfl, fun a ha => by rw [List.mem_singleton.mp ha]; exact .refl _⟩
    · exact ⟨List.mem_singleton.mpr rfl, fun a ha => by rw [List.mem_singleton.mp ha]; exact .refl _⟩
  | append_singleton before s ih =>
    rw [List.foldl_append, List.foldl_cons, List.foldl_nil]
    constructor
    · rw [List.map_append, ← List.cons_append]
      exact ih.day.absorb s.day s.dailySpent
    · rw [List.map_append, ← List.cons_append]
      exact ih.month.absorb s.month s.monthlySpent

theorem Joins.agrees {row row' old : Row Double} {stored stored' : List (StoredRow Double)}
    (h : row.Joins old stored) (h' : row'.Joins old stored') (hsame : ∀ s, s ∈ stored ↔ s ∈ stored') :
    row.Agrees row' := by
  constructor
  · refine h.day.agrees h'.day fun a => ?_
    simp only [List.mem_cons, List.mem_map, hsame]
  · refine h.month.agrees h'.month fun a => ?_
    simp only [List.mem_cons, List.mem_map, hsame]

end Row

/-! ## Snapshots -/

namespace Ledger

variable {α : Type} [Amount α]

theorem absorbRows_withGlobal (l : Ledger α) (global : Row α) (entries : List (String × StoredRow α)) :
    ({ l with global }).absorbRows entries = { l.absorbRows entries with global } := by
  unfold absorbRows
  induction entries generalizing l with
  | nil => rfl
  | cons entry rest ih => exact ih (l.absorbRow entry.1 entry.2)

def entries (ss : List (Snapshot α)) : List (String × StoredRow α) := ss.flatMap (·.identities.toList)

omit [Amount α] in
theorem storedUnder_entries (key : String) (ss : List (Snapshot α)) :
    storedUnder key (entries ss) = ss.filterMap (·.identities.get? key) := by
  induction ss with
  | nil => rfl
  | cons s rest ih =>
    have happend : storedUnder key (entries (s :: rest)) =
        storedUnder key s.identities.toList ++ storedUnder key (entries rest) := by
      simp [storedUnder, entries]
    rw [happend, ih, storedUnder_toList]
    cases hget : s.identities.get? key <;> simp [hget]

theorem foldlM_merge (l : Ledger α) (ss : List (Snapshot α))
    (hhour : ∀ s ∈ ss, s.resetHour = l.settings.resetHour) :
    ss.foldlM merge l =
      .ok { l.absorbRows (entries ss) with global := (ss.map (·.global)).foldl Row.absorb l.global } := by
  induction ss generalizing l with
  | nil => rfl
  | cons s rest ih =>
    have hsettings : ((l.absorbRows s.identities.toList).absorbGlobal s.global).settings = l.settings :=
      l.absorbRows_settings _
    have hrest : ∀ s' ∈ rest, s'.resetHour =
        ((l.absorbRows s.identities.toList).absorbGlobal s.global).settings.resetHour := by
      intro s' hs'
      rw [hsettings]
      exact hhour s' (List.mem_cons_of_mem _ hs')
    rw [List.foldlM_cons, l.merge_eq s (hhour s List.mem_cons_self)]
    refine (ih _ hrest).trans (congrArg Except.ok ?_)
    have hrows : (l.absorbRows s.identities.toList).absorbRows (entries rest) =
        l.absorbRows (entries (s :: rest)) := by
      simp [absorbRows, entries]
    have hglobal : (l.absorbRows s.identities.toList).global = l.global := by rw [absorbRows_eq]
    rw [absorbGlobal, absorbRows_withGlobal, hrows, hglobal]
    rfl

/-- What is left where some snapshots are taken in without displacing a row. -/
structure Merged (l l' : Ledger Double) (ss : List (Snapshot Double)) : Prop where
  merges : ss.foldlM merge l = .ok l'
  rows : ∀ key, (l'.row key).Joins (l.row key) (ss.filterMap (·.identities.get? key))
  global : l'.global.Joins l.global (ss.map (·.global))
  tracked : ∀ key, key ∈ l'.identities ↔ key ∈ l.identities ∨ ∃ s ∈ ss, key ∈ s.identities.keys

theorem exists_merged (l : Ledger Double) (h : l.rows.Sound) (ss : List (Snapshot Double))
    (hhour : ∀ s ∈ ss, s.resetHour = l.settings.resetHour) (hroom : l.Roomy (entries ss)) :
    ∃ l', Merged l l' ss := by
  have hsound : (l.absorbRows (entries ss)).rows.Sound := l.absorbRows_sound _ h
  refine ⟨_, l.foldlM_merge ss hhour, fun key => ?_, ?_, fun key => ?_⟩
  · have hrow := l.row_absorbRows key (entries ss) h hroom
    rw [storedUnder_entries] at hrow
    show ((l.absorbRows (entries ss)).row key).Joins _ _
    rw [hrow]
    exact Row.foldl_absorb_joins _ _
  · exact Row.foldl_absorb_joins _ _
  · have hget := l.get?_absorbRows key (entries ss) h hroom
    rw [storedUnder_entries] at hget
    refine ((l.absorbRows (entries ss)).mem_identities hsound key).trans ?_
    rw [l.mem_identities h key, hget]
    simp only [Dict.mem_keys]
    split
    · next hnil =>
      simp only [List.filterMap_eq_nil_iff] at hnil
      constructor
      · exact Or.inl
      · rintro (hsome | ⟨s, hs, hsome⟩)
        · exact hsome
        · rw [hnil s hs] at hsome
          cases hsome
    · next hne =>
      obtain ⟨stored, hstored⟩ := List.exists_mem_of_ne_nil _ hne
      obtain ⟨s, hs, hget⟩ := List.mem_filterMap.mp hstored
      exact iff_of_true rfl (Or.inr ⟨s, hs, by rw [hget]; rfl⟩)

/-- Snapshots that are taken in without displacing a row leave in every row the greatest amount of the
latest period that was there or is stored under its key. The outcome is the same for any other list of the
same snapshots, in whatever order and however often. -/
theorem merge_joins (assign : String → Nat) (settings : LedgerSettings Double) (l : Ledger Double)
    (hl : Reachable assign settings l) (ss : List (Snapshot Double))
    (hhour : ∀ s ∈ ss, s.resetHour = l.settings.resetHour) (hroom : l.Roomy (entries ss)) :
    ∃ l', Merged l l' ss ∧ ∀ ss', (∀ s, s ∈ ss' ↔ s ∈ ss) →
      ∃ l'', Merged l l'' ss' ∧ (∀ key, key ∈ l''.identities ↔ key ∈ l'.identities) ∧
        (∀ key, (l''.row key).Agrees (l'.row key)) ∧ l''.global.Agrees l'.global := by
  obtain ⟨l', hmerged⟩ := l.exists_merged hl.sound ss hhour hroom
  refine ⟨l', hmerged, fun ss' hsame => ?_⟩
  have hsub : entries ss' ⊆ entries ss := by
    intro entry hentry
    obtain ⟨s, hs, hmem⟩ := List.mem_flatMap.mp hentry
    exact List.mem_flatMap.mpr ⟨s, (hsame s).mp hs, hmem⟩
  obtain ⟨l'', hmerged'⟩ :=
    l.exists_merged hl.sound ss' (fun s hs => hhour s ((hsame s).mp hs)) (hroom.of_subset hl.sound hsub)
  refine ⟨l'', hmerged', fun key => ?_, fun key => ?_, ?_⟩
  · rw [hmerged'.tracked, hmerged.tracked]
    simp only [hsame]
  · refine (hmerged'.rows key).agrees (hmerged.rows key) fun stored => ?_
    simp only [List.mem_filterMap, hsame]
  · refine hmerged'.global.agrees hmerged.global fun stored => ?_
    simp only [List.mem_map, hsame]

def aliceToday : Snapshot Double where
  savedAt := none
  resetHour := 0
  global := ⟨0.75, 0.75, 20522, 24313⟩
  identities := .ofList [(alice.key, ⟨0.75, 0.75, 20522, 24313⟩)]

theorem merge_joins_full :
    ∃ l', Merged full l' [onlyBob, aliceToday] ∧ ∃ l'', Merged full l'' [aliceToday, onlyBob, aliceToday] ∧
      (l''.row alice.key).Agrees (l'.row alice.key) ∧ l''.global.Agrees l'.global := by
  have hreachable : Reachable (fun _ => 0) oneOpen full := .call _ _ .new
  obtain ⟨l', hmerged, hagain⟩ := merge_joins (fun _ => 0) oneOpen full hreachable [onlyBob, aliceToday]
    (by decide +kernel) (by decide +kernel)
  have hsame : ∀ s, s ∈ [aliceToday, onlyBob, aliceToday] ↔ s ∈ [onlyBob, aliceToday] := by
    intro s
    simp only [List.mem_cons, List.not_mem_nil, or_false]
    tauto
  obtain ⟨l'', hmerged', -, hrows, hglobal⟩ := hagain _ hsame
  exact ⟨l', hmerged, l'', hmerged', hrows alice.key, hglobal⟩

end Ledger

end Admission
