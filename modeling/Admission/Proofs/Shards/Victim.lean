import Mathlib
import Admission.Proofs.Shards.LastUse

/-!
# The entry that gives way

A new key in a full shard displaces one entry: of those that are not pinned the one of lowest rank, and
of equals the one used longest ago. No two entries of a shard stand alike, so it is the same one in
whatever order the slots are looked through.
-/

namespace Admission

variable {κ ν ρ : Type}

namespace Shard

theorem goesBefore_iff (a b : Nat × Slot κ ν) :
    goesBefore a b = true ↔ toLex (a.1, a.2.lastUsed) < toLex (b.1, b.2.lastUsed) := by
  simp [goesBefore, Prod.Lex.toLex_lt_toLex]

theorem goesBefore_asymm (a b : Nat × Slot κ ν) (h : goesBefore a b = true) :
    goesBefore b a = false := by
  rw [← Bool.not_eq_true, goesBefore_iff]
  exact ((goesBefore_iff a b).mp h).not_gt

theorem goesBefore_trans_false (a b c : Nat × Slot κ ν) (hab : goesBefore a b = false)
    (hbc : goesBefore b c = false) : goesBefore a c = false := by
  rw [← Bool.not_eq_true, goesBefore_iff, not_lt] at hab hbc ⊢
  exact hbc.trans hab

/-- A slot of the shard that is not pinned and stands before every other one that is not. -/
def IsLeast (rank : ν → Option Nat) (s : Shard κ ν) (slot : Slot κ ν) : Prop :=
  slot ∈ s.slots ∧ ∃ r, rank slot.value = some r ∧ ∀ other ∈ s.slots, other.key ≠ slot.key →
    ∀ q, rank other.value = some q → toLex (r, slot.lastUsed) < toLex (q, other.lastUsed)

theorem mem_ranked (rank : ν → Option Nat) (s : Shard κ ν) (r : Nat) (slot : Slot κ ν) :
    (r, slot) ∈ s.slots.filterMap (ranked rank) ↔ slot ∈ s.slots ∧ rank slot.value = some r := by
  simp only [ranked, List.mem_filterMap, Option.map_eq_some_iff, Prod.mk.injEq]
  constructor
  · rintro ⟨slot', hmem, r', hr, rfl, rfl⟩
    exact ⟨hmem, hr⟩
  · rintro ⟨hmem, hr⟩
    exact ⟨slot, hmem, r, hr, rfl, rfl⟩

theorem isLeast_of_victim? {s : Shard κ ν} {used : κ → Nat} (h : s.InOrder used)
    (rank : ν → Option Nat) (slot : Slot κ ν) (hv : s.victim? rank = some slot) :
    s.IsLeast rank slot := by
  obtain ⟨⟨r, slot'⟩, hleast, rfl⟩ := Option.map_eq_some_iff.mp hv
  obtain ⟨hmem, hr⟩ := (s.mem_ranked rank r slot').mp (firstLeast?_mem hleast)
  refine ⟨hmem, r, hr, ?_⟩
  intro other hother hne q hq
  have hnot := firstLeast?_least goesBefore goesBefore_asymm goesBefore_trans_false _ _ hleast
    (q, other) ((s.mem_ranked rank q other).mpr ⟨hother, hq⟩)
  rw [← Bool.not_eq_true, goesBefore_iff, not_lt] at hnot
  refine lt_of_le_of_ne hnot fun heq => hne ?_
  have hstamp : slot'.lastUsed = other.lastUsed := congrArg (fun p => (ofLex p).2) heq
  exact h.distinct other hother slot' hmem hstamp.symm

theorem victim?_eq_some_iff {s : Shard κ ν} {used : κ → Nat} (h : s.InOrder used)
    (hkeys : (s.slots.map (·.key)).Nodup) (rank : ν → Option Nat) (slot : Slot κ ν) :
    s.victim? rank = some slot ↔ s.IsLeast rank slot := by
  refine ⟨isLeast_of_victim? h rank slot, ?_⟩
  rintro ⟨hmem, r, hr, hleast⟩
  cases hv : s.victim? rank with
  | none =>
    rw [Shards.victim?_eq_none] at hv
    rw [hv slot hmem] at hr
    cases hr
  | some other =>
    obtain ⟨hother, q, hq, hbefore⟩ := isLeast_of_victim? h rank other hv
    by_cases hkey : other.key = slot.key
    · rw [List.inj_on_of_nodup_map hkeys hother hmem hkey]
    · have hlt := hleast other hother hkey q hq
      exact absurd (hbefore slot hmem (Ne.symm hkey) r hr) hlt.not_gt

theorem victim?_perm {s : Shard κ ν} {used : κ → Nat} (h : s.InOrder used)
    (hkeys : (s.slots.map (·.key)).Nodup) {slots : List (Slot κ ν)} (hperm : slots.Perm s.slots)
    (rank : ν → Option Nat) : victim? rank ⟨slots, s.tick⟩ = s.victim? rank := by
  have hmem : ∀ slot, slot ∈ slots ↔ slot ∈ s.slots := fun slot => hperm.mem_iff
  have h' : InOrder ⟨slots, s.tick⟩ used := ⟨by simpa only [hmem] using h.bounded,
    by simpa only [hmem] using h.distinct, by simpa only [hmem] using h.order⟩
  apply Option.ext
  intro slot
  rw [victim?_eq_some_iff h' ((hperm.map _).nodup_iff.mpr hkeys), victim?_eq_some_iff h hkeys]
  simp only [IsLeast, hmem]

end Shard

namespace Shards

variable [DecidableEq κ] (m : Shards κ ν) (rank : ν → Option Nat) (used : κ → Nat)

/-- Where an entry stands among those that may be displaced: by rank, and then by last use. One that is
pinned stands nowhere. -/
def standing (key : κ) : Option (Nat ×ₗ Nat) :=
  ((m.get? key).bind rank).map fun r => toLex (r, used key)

/-- One entry gives way to a key: the key is new, its shard is full, and of the entries of that shard
that are not pinned this one is the least. -/
structure GivesWay (key other : κ) : Prop where
  new : m.get? key = none
  full : m.perShard ≤ (m.keysBeside key).length
  beside : m.index other = m.index key
  least : ∃ first, m.standing rank used other = some first ∧
    ∀ third, third ≠ other → m.index third = m.index key →
      ∀ later, m.standing rank used third = some later → first < later

variable {m rank used}

theorem GivesWay.unique {key one other : κ} (h : m.GivesWay rank used key one)
    (h' : m.GivesWay rank used key other) : one = other := by
  obtain ⟨first, hfirst, hleast⟩ := h.least
  obtain ⟨first', hfirst', hleast'⟩ := h'.least
  by_contra hne
  have hlt := hleast other (Ne.symm hne) h'.beside first' hfirst'
  exact absurd (hleast' one hne h.beside first hfirst) hlt.not_gt

theorem standing_eq_some_iff {key : κ} {place : Nat ×ₗ Nat} :
    m.standing rank used key = some place ↔
      ∃ v r, m.get? key = some v ∧ rank v = some r ∧ place = toLex (r, used key) := by
  simp only [standing, Option.map_eq_some_iff, Option.bind_eq_some_iff]
  grind

/-! ## Keys instead of slots -/

theorem exists_slot {key other : κ} {v : ν} (hget : m.get? other = some v)
    (hindex : m.index other = m.index key) :
    ∃ slot ∈ (m.shard key).slots, slot.key = other ∧ slot.value = v := by
  have hshard : m.shard other = m.shard key := by simp only [shard, hindex]
  obtain ⟨slot, hslot, rfl⟩ := Option.map_eq_some_iff.mp hget
  rw [hshard] at hslot
  obtain ⟨hmem, rfl⟩ := (m.shard key).find?_key other slot hslot
  exact ⟨slot, hmem, rfl, rfl⟩

variable (h : m.Sound) (hinOrder : m.InOrder used)

include h hinOrder

omit [DecidableEq κ] in
theorem standing_lt_iff {key : κ} {a b : Slot κ ν} (ha : a ∈ (m.shard key).slots)
    (hb : b ∈ (m.shard key).slots) (r q : Nat) :
    toLex (r, a.lastUsed) < toLex (q, b.lastUsed) ↔ toLex (r, used a.key) < toLex (q, used b.key) := by
  have hshard := hinOrder _ _ (m.getElem?_index key (m.index_lt key h))
  rw [Prod.Lex.toLex_lt_toLex, Prod.Lex.toLex_lt_toLex, hshard.order a ha b hb]

theorem isLeast_iff {key : κ} {slot : Slot κ ν} (hslot : slot ∈ (m.shard key).slots) :
    (m.shard key).IsLeast rank slot ↔ ∃ first, m.standing rank used slot.key = some first ∧
      ∀ third, third ≠ slot.key → m.index third = m.index key →
        ∀ later, m.standing rank used third = some later → first < later := by
  have hget : ∀ slot ∈ (m.shard key).slots, m.get? slot.key = some slot.value := fun slot hs =>
    (m.get?_of_mem_shard h key slot hs).2
  constructor
  · rintro ⟨-, r, hr, hleast⟩
    refine ⟨toLex (r, used slot.key), standing_eq_some_iff.mpr ⟨_, r, hget slot hslot, hr, rfl⟩, ?_⟩
    intro third hne hindex later hlater
    obtain ⟨v, q, hv, hq, rfl⟩ := standing_eq_some_iff.mp hlater
    obtain ⟨other, hother, rfl, rfl⟩ := exists_slot hv hindex
    exact (standing_lt_iff h hinOrder hslot hother r q).mp (hleast other hother hne q hq)
  · rintro ⟨first, hfirst, hleast⟩
    obtain ⟨v, r, hv, hr, rfl⟩ := standing_eq_some_iff.mp hfirst
    rw [hget slot hslot] at hv
    cases hv
    refine ⟨hslot, r, hr, fun other hother hne q hq => ?_⟩
    refine (standing_lt_iff h hinOrder hslot hother r q).mpr ?_
    exact hleast other.key hne (m.get?_of_mem_shard h key other hother).1 _
      (standing_eq_some_iff.mpr ⟨_, q, hget other hother, hq, rfl⟩)

theorem displaced?_key_eq_some_iff (key other : κ) :
    (m.displaced? rank key).map (·.1) = some other ↔ m.GivesWay rank used key other := by
  have hshard := hinOrder _ _ (m.getElem?_index key (m.index_lt key h))
  have hvictim := fun slot => Shard.victim?_eq_some_iff hshard (h.keys _ (m.shard_mem key h)) rank slot
  have hfound : ((m.shard key).find? key).isSome = (m.get? key).isSome := by simp [get?]
  have hlength : (m.keysBeside key).length = (m.shard key).slots.length := List.length_map _
  constructor
  · intro hdisplaced
    obtain ⟨entry, hentry, rfl⟩ := Option.map_eq_some_iff.mp hdisplaced
    obtain ⟨slot, hslot, rfl⟩ := Option.map_eq_some_iff.mp hentry
    unfold Shard.displaced? at hslot
    split_ifs at hslot with hroom
    rw [hfound, not_or, Option.not_isSome_iff_eq_none, not_lt, ← hlength] at hroom
    have hleast := (hvictim slot).mp hslot
    exact ⟨hroom.1, hroom.2, m.shard_placed key h slot hleast.1,
      (isLeast_iff h hinOrder hleast.1).mp hleast⟩
  · rintro ⟨hnew, hfull, hindex, first, hfirst, hleast⟩
    obtain ⟨v, r, hv, -, -⟩ := standing_eq_some_iff.mp hfirst
    obtain ⟨slot, hslot, rfl, rfl⟩ := exists_slot hv hindex
    have hvictim := (hvictim slot).mpr ((isLeast_iff h hinOrder hslot).mpr ⟨first, hfirst, hleast⟩)
    have hroom : ¬(((m.shard key).find? key).isSome ∨ (m.shard key).slots.length < m.perShard) := by
      rw [hfound, hnew, ← hlength]
      simpa using hfull
    simp [displaced?, Shard.displaced?, if_neg hroom, hvictim]

theorem exists_givesWay (key other : κ) (v : ν) (hnew : m.get? key = none)
    (hfull : m.perShard ≤ (m.keysBeside key).length) (hindex : m.index other = m.index key)
    (hget : m.get? other = some v) (hrank : (rank v).isSome) : ∃ victim, m.GivesWay rank used key victim := by
  cases hdisplaced : m.displaced? rank key with
  | none =>
    rcases (m.displaced?_eq_none_iff rank h key).mp hdisplaced with hsome | hlt | hpinned
    · rw [hnew] at hsome
      cases hsome
    · exact absurd hlt hfull.not_gt
    · rw [hpinned other v hindex hget] at hrank
      cases hrank
  | some entry =>
    refine ⟨entry.1, (displaced?_key_eq_some_iff h hinOrder key entry.1).mp ?_⟩
    rw [hdisplaced]
    rfl

theorem get?_apply_of_ne (op : MapOp κ ν ρ) (key other : κ) (hadds : op.adds? = some key)
    (hne : other ≠ key) [Decidable (m.GivesWay rank used key other)] :
    (m.apply rank op).2.get? other =
      if m.GivesWay rank used key other then none else m.get? other := by
  have hupsert : ∀ (σ : Type) init (f : ν → σ × ν), (m.upsert rank key init f).2.get? other =
      if m.GivesWay rank used key other then none else m.get? other := by
    intro σ init f
    rw [m.get?_upsert_of_ne rank key init f h other hne]
    simp only [displaced?_key_eq_some_iff h hinOrder key other]
  cases op with
  | upsert k init f =>
    cases hadds
    exact hupsert ρ init f
  | insert k value =>
    cases hadds
    exact hupsert Unit value fun _ => ((), value)
  | modify | remove | contains | removeLeast | removeWhere | size | isEmpty | entries => cases hadds

end Shards

end Admission
