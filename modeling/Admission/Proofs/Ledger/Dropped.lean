import Mathlib
import Admission.Proofs.Ledger.Pinning
import Admission.Proofs.Shards.Victim

/-!
# Rows that a ledger drops

A ledger makes room by the rank of its rows. No row that holds a reservation goes, and no row with
spending of a running period as long as its shard has one without.
-/

namespace Admission

/-! ## Ranks of rows -/

namespace Row

variable {α : Type} [Amount α]

/-- The row holds spending of a period that still runs. -/
def HasLiveSpend (now : Periods) (row : Row α) : Prop :=
  (now.month ≤ row.month.marker ∧ 0 < row.month.spent) ∨ (now.day ≤ row.day.marker ∧ 0 < row.day.spent)

theorem evictionRank_eq_some {now : Periods} {row : Row α} {r : Nat}
    (h : row.evictionRank now = some r) : row.pending = 0 ∧ (r = 0 ↔ ¬row.HasLiveSpend now) := by
  unfold evictionRank at h
  split_ifs at h with hpending
  obtain rfl := Option.some.inj h
  refine ⟨by omega, ?_⟩
  simp only [HasLiveSpend, Nat.add_eq_zero_iff, Bool.toNat_eq_zero, Bool.and_eq_false_iff,
    decide_eq_false_iff_not]
  tauto

theorem evictionRank_isSome (now : Periods) (row : Row α) (h : row.pending = 0) :
    ∃ r, row.evictionRank now = some r := by
  simp [evictionRank, h]

end Row

namespace Ledger

variable {α : Type} [Amount α]

/-- What is gone from a ledger held no reservation; and if it held live spending, so did every row of its
shard that held no reservation. -/
def Spares (l l' : Ledger α) : Prop :=
  ∀ key row, l.rows.get? key = some row → l'.rows.get? key = none →
    row.pending = 0 ∧ (row.HasLiveSpend l.clock → ∀ beside row',
      l.rows.index beside = l.rows.index key → l.rows.get? beside = some row' → row'.pending = 0 →
        row'.HasLiveSpend l.clock)

theorem put_spares (l : Ledger α) (key : String) (row global : Row α) (h : l.rows.Reached) :
    l.Spares (l.put key row global) := by
  obtain ⟨hsound, used, hinOrder⟩ := h.exists_inOrder
  intro other old hget hgone
  have hne : other ≠ key := by
    rintro rfl
    rw [l.get?_put_self other row global hsound] at hgone
    cases hgone
  have hway : l.rows.GivesWay (Row.evictionRank l.clock) used key other := by
    rw [l.get?_put_of_ne key other row global hsound hne] at hgone
    split_ifs at hgone with hdisplaced
    · exact (Shards.displaced?_key_eq_some_iff hsound hinOrder key other).mp hdisplaced
    · rw [hget] at hgone
      cases hgone
  obtain ⟨first, hfirst, hleast⟩ := hway.least
  obtain ⟨v, r, hv, hr, rfl⟩ := Shards.standing_eq_some_iff.mp hfirst
  rw [hget] at hv
  cases hv
  obtain ⟨hpending, hlive⟩ := Row.evictionRank_eq_some hr
  refine ⟨hpending, fun hspend beside row' hindex hget' hpending' => ?_⟩
  by_cases heq : beside = other
  · subst heq
    rw [hget] at hget'
    cases hget'
    exact hspend
  obtain ⟨q, hq⟩ := row'.evictionRank_isSome l.clock hpending'
  have hlt := hleast beside heq (hindex.trans hway.beside) _
    (Shards.standing_eq_some_iff.mpr ⟨row', q, hget', hq, rfl⟩)
  -- A row without live spending has rank 0, and no rank is below that.
  by_contra hnone
  have hzero : q = 0 := (Row.evictionRank_eq_some hq).2.mpr hnone
  have hpos : r ≠ 0 := fun hr0 => hlive.mp hr0 hspend
  rw [hzero, Prod.Lex.toLex_lt_toLex] at hlt
  omega

theorem updateRow_spares {ρ : Type} (l : Ledger α) (key : String)
    (f : Row α → Row α → ρ × Row α × Row α) (h : l.rows.Reached) : l.Spares (l.updateRow key f).2 := by
  rw [updateRow_eq]
  exact l.put_spares key _ _ h

theorem absorbRow_spares (l : Ledger α) (key : String) (stored : StoredRow α) (h : l.rows.Reached) :
    l.Spares (l.absorbRow key stored) := by
  rw [absorbRow_eq_put]
  exact l.put_spares key _ _ h

/-! ## Rows of a ledger are a reached map -/

theorem put_reached (l : Ledger α) (key : String) (row global : Row α) (h : l.rows.Reached) :
    (l.put key row global).rows.Reached :=
  h.apply (Row.evictionRank l.clock) (.upsert key row fun _ => ((), row))

theorem reached_invariant :
    Invariant (fun _ _ => True) (fun _ _ => True)
      fun (l : Ledger α) _ _ => l.rows.Reached where
  allowed_amount _ := trivial
  quiet l l' held held' _ _ hrows _ _ _ _ h := hrows ▸ h
  close _ _ _ h := h
  charge l r held _ cost now _ h := by
    rw [charge_eq]
    exact l.put_reached r.key _ l.global h
  reject l held _ key now global _ h := l.put_reached key _ global h
  accept l held _ r _ _ now _ _ _ _ _ h := l.put_reached r.key _ _ h

theorem reached_preserved : Preserved fun (l : Ledger α) _ => l.rows.Reached where
  booking := reached_invariant
  absorbRow l _ key stored h := by
    rw [absorbRow_eq_put]
    exact l.put_reached key _ _ h
  absorbGlobal _ _ _ h := h
  look l _ key h := by
    have hlook : (l.look key).rows = (l.rows.modify key fun row => ((), row)).2 :=
      l.rows.modify_snd_congr key (fun row => (row, row)) (fun row => ((), row)) fun _ => rfl
    rw [hlook]
    exact h.apply (Row.evictionRank l.clock) (.modify key fun row => ((), row))

theorem new_reached (assign : String → Nat) (settings : LedgerSettings α) :
    (new assign settings).rows.Reached :=
  ⟨assign, settings.maxTracked, settings.shards, [], rfl⟩

end Ledger

/-! ## One victim -/

/-- An operation that adds a key takes out the one entry that gives way to it, if there is one, and
leaves all others as they are. Stamps of a shard differ, and which entry is the victim does not depend
on the order of the slots. A ledger spares the rows that hold reservations, and live spending as far as
it can. -/
theorem eviction_picks_one {κ ν ρ α : Type} [DecidableEq κ] [Amount α] :
    (∀ (assign : κ → Nat) (capacity count : Nat) (ops : List ((ν → Option Nat) × MapOp κ ν ρ)),
      let m := (Shards.new assign capacity count).after ops
      let used := lastUse (ops.map (·.2))
      (∀ s ∈ m.shards, (s.slots.map (·.lastUsed)).Nodup ∧ ∀ (rank : ν → Option Nat) slots,
        slots.Perm s.slots → Shard.victim? rank ⟨slots, s.tick⟩ = s.victim? rank) ∧
      ∀ (rank : ν → Option Nat) (op : MapOp κ ν ρ) (key : κ), op.adds? = some key →
        (∀ other, other ≠ key →
          (m.GivesWay rank used key other → (m.apply rank op).2.get? other = none) ∧
          (¬m.GivesWay rank used key other → (m.apply rank op).2.get? other = m.get? other)) ∧
        (∀ one other, m.GivesWay rank used key one → m.GivesWay rank used key other → one = other) ∧
        ∀ other v, m.get? key = none → m.perShard ≤ (m.keysBeside key).length →
          m.index other = m.index key → m.get? other = some v → (rank v).isSome →
            ∃ victim, m.GivesWay rank used key victim) ∧
    (∀ l : Ledger α, l.rows.Reached →
      (∀ (σ : Type) (key : String) (f : Row α → Row α → σ × Row α × Row α),
        l.Spares (l.updateRow key f).2) ∧
      ∀ key stored, l.Spares (l.absorbRow key stored)) ∧
    ∀ (assign : String → Nat) (settings : LedgerSettings α) (steps : List (Ledger.Step α)),
      (steps.filterMap Ledger.Step.newId?).Nodup →
        let l := (Ledger.new assign settings).follow steps
        l.rows.Reached ∧ ∀ r ∈ l.pending, (l.rows.get? r.key).isSome := by
  refine ⟨?_, ?_, ?_⟩
  · intro assign capacity count ops m used
    have hsound : m.Sound := Shards.after_sound _ (Shards.new_sound assign capacity count) ops
    have hinOrder : m.InOrder used := Shards.after_inOrder assign capacity count ops
    refine ⟨?_, ?_⟩
    · intro s hs
      obtain ⟨i, hi⟩ := List.mem_iff_getElem?.mp hs
      have hshard := hinOrder i s hi
      have hkeys := hsound.keys s hs
      exact ⟨hshard.nodup hkeys, fun rank slots hperm => Shard.victim?_perm hshard hkeys hperm rank⟩
    · intro rank op key hadds
      refine ⟨?_, fun _ _ => Shards.GivesWay.unique, Shards.exists_givesWay hsound hinOrder key⟩
      intro other hne
      classical
      rw [Shards.get?_apply_of_ne hsound hinOrder op key other hadds hne]
      exact ⟨fun hway => if_pos hway, fun hstays => if_neg hstays⟩
  · intro l hreached
    exact ⟨fun σ key f => l.updateRow_spares key f hreached,
      fun key stored => l.absorbRow_spares key stored hreached⟩
  · intro assign settings steps hfresh l
    obtain ⟨hpinned, -, -⟩ := Ledger.pinned_preserved.follow assign settings
      (Ledger.new_pinned assign settings) steps hfresh
    obtain ⟨hreached, -, -⟩ := Ledger.reached_preserved.follow assign settings
      (Ledger.new_reached assign settings) steps hfresh
    exact ⟨hreached, hpinned.present⟩

def zeroPinned (v : Nat) : Option Nat := if v = 0 then none else some 1

def usedAgain : List ((Nat → Option Nat) × MapOp Nat Nat Unit) :=
  [(zeroPinned, .insert 1 5), (zeroPinned, .insert 2 5), (zeroPinned, .insert 3 0),
    (zeroPinned, .modify 1 fun v => ((), v))]

def threeTracked : LedgerSettings Rat :=
  { resetHour := 0, globalDaily := 0, globalMonthly := 0, maxTracked := 3, maxPending := 3, shards := 1 }

def threeRows : List (Ledger.Step Rat) :=
  let reserve (id : Nat) (caller : String) : Ledger.Step Rat :=
    .call (.reserve ⟨id⟩ ⟨caller, "web", true⟩ (.builtin .standard) (1 / 8) none ⟨1773144000, 0⟩)
  [.merge ⟨none, 0, ⟨1, 1, 20522, 674⟩, .ofList [("web:dora", ⟨1, 1, 20522, 674⟩)]⟩,
    reserve 1 "alice", reserve 2 "bob", .call (.release ⟨2⟩ ⟨1773144000, 0⟩)]

theorem eviction_picks_one_threeEntries :
    let m : Shards Nat Nat := (Shards.new (fun _ => 0) 3 1).after usedAgain
    let l := (Ledger.new (fun _ => 0) threeTracked).follow threeRows
    let l' := (l.updateRow "web:carol" fun row global => ((), row, global)).2
    m.GivesWay zeroPinned (lastUse (usedAgain.map (·.2))) 4 2 ∧
      (m.insert zeroPinned 4 9).2.toList = [(1, 5), (3, 0), (4, 9)] ∧
      l.pending.map (·.key) = ["web:alice"] ∧ l.Spares l' ∧
      l'.identities = ["web:alice", "web:carol", "web:dora"] := by
  intro m l l'
  obtain ⟨hmap, hledger, hsteps⟩ := @eviction_picks_one Nat Nat Unit Rat _ _
  obtain ⟨hreached, -⟩ := hsteps (fun _ => 0) threeTracked threeRows (by decide)
  have hspares : l.Spares l' := (hledger l hreached).1 Unit "web:carol" fun row global => ((), row, global)
  obtain ⟨-, hadd⟩ := hmap (fun _ => 0) 3 1 usedAgain
  obtain ⟨hothers, -, -⟩ := hadd zeroPinned (.insert 4 9) 4 rfl
  refine ⟨?_, by decide +kernel, by decide +kernel, hspares, by decide +kernel⟩
  -- The second entry is gone, and only the one that gives way is.
  by_contra hstays
  have hkept := (hothers 2 (by decide)).2 hstays
  revert hkept
  decide +kernel

end Admission
