import Admission.Shards

/-!
# Looking up in a bounded map

A changed key is found with its new value. Every other key is found as before, except for the one
that was given up to make room, and that one was not pinned.
-/

namespace Admission

variable {κ ν ρ : Type}

/-! ## One shard -/

namespace Shard

theorem victim?_spec (s : Shard κ ν) (rank : ν → Option Nat) (slot : Slot κ ν)
    (h : s.victim? rank = some slot) : slot ∈ s.slots ∧ (rank slot.value).isSome := by
  unfold victim? at h
  rw [Option.map_eq_some_iff] at h
  obtain ⟨⟨r, slot'⟩, hleast, rfl⟩ := h
  obtain ⟨x, hx, hr⟩ := List.mem_filterMap.mp (firstLeast?_mem hleast)
  unfold ranked at hr
  rw [Option.map_eq_some_iff] at hr
  obtain ⟨r', hr', he⟩ := hr
  cases he
  exact ⟨hx, by simp [hr']⟩

variable [DecidableEq κ]

theorem find?_key (s : Shard κ ν) (key : κ) (slot : Slot κ ν) (h : s.find? key = some slot) :
    slot ∈ s.slots ∧ slot.key = key :=
  ⟨List.mem_of_find?_eq_some h, by simpa using List.find?_some h⟩

theorem find?_eq_none (s : Shard κ ν) (key : κ) :
    s.find? key = none ↔ ∀ slot ∈ s.slots, slot.key ≠ key := by
  simp [find?, List.find?_eq_none]

theorem find?_of_mem (s : Shard κ ν) (h : (s.slots.map (·.key)).Nodup) (slot : Slot κ ν)
    (hm : slot ∈ s.slots) : s.find? slot.key = some slot := by
  unfold find?
  generalize s.slots = slots at h hm
  induction slots with
  | nil => cases hm
  | cons first rest ih =>
    simp only [List.map_cons, List.nodup_cons, List.mem_map, not_exists, not_and] at h
    rcases List.mem_cons.mp hm with rfl | hm
    · simp
    · rw [List.find?_cons_of_neg (by simpa using fun he => h.1 slot hm he.symm)]
      exact ih h.2 hm

/-- The slot with a new value and a new time of use where it has the key. -/
def touched (key : κ) (value : ν) (tick : Nat) (other : Slot κ ν) : Slot κ ν :=
  if other.key = key then ⟨key, value, tick⟩ else other

theorem touched_key (key : κ) (value : ν) (tick : Nat) (other : Slot κ ν) :
    (touched key value tick other).key = other.key := by
  unfold touched
  split <;> simp_all

theorem find?_map_touched (slots : List (Slot κ ν)) (key other : κ) (value : ν) (tick : Nat) :
    (slots.map (touched key value tick)).find? (fun slot => slot.key == other) =
      (slots.find? fun slot => slot.key == other).map (touched key value tick) := by
  rw [List.find?_map]
  congr 2
  funext slot
  simp [touched_key]

theorem mem_vacate (s : Shard κ ν) (capacity : Nat) (rank : ν → Option Nat) (slot : Slot κ ν)
    (h : slot ∈ s.vacate capacity rank) : slot ∈ s.slots := by
  unfold vacate at h
  split at h
  · exact h
  · split at h
    · exact (List.mem_filter.mp h).1
    · exact h

/-- What a full shard gives up for a new key. -/
def displaced? (s : Shard κ ν) (capacity : Nat) (rank : ν → Option Nat) (key : κ) :
    Option (Slot κ ν) :=
  if (s.find? key).isSome ∨ s.slots.length < capacity then none else s.victim? rank

theorem vacate_eq (s : Shard κ ν) (capacity : Nat) (rank : ν → Option Nat) (key : κ)
    (h : s.find? key = none) :
    s.vacate capacity rank =
      s.slots.filter fun slot => (s.displaced? capacity rank key).map (·.key) ≠ some slot.key := by
  simp only [vacate, displaced?, h, Option.isSome_none, Bool.false_eq_true, false_or]
  split
  · exact (List.filter_eq_self.mpr (by simp)).symm
  · cases s.victim? rank with
    | none => exact (List.filter_eq_self.mpr (by simp)).symm
    | some v => exact List.filter_congr fun slot _ => by grind

variable (s : Shard κ ν) (capacity : Nat) (rank : ν → Option Nat) (key : κ) (init : ν) (f : ν → ρ × ν)

theorem upsert_of_some (slot : Slot κ ν) (h : s.find? key = some slot) :
    s.upsert capacity rank key init f =
      ((f slot.value).1, ⟨s.slots.map (touched key (f slot.value).2 (s.tick + 1)), s.tick + 1⟩) := by
  unfold upsert
  rw [h]
  rfl

theorem upsert_of_none (h : s.find? key = none) :
    s.upsert capacity rank key init f =
      ((f init).1, ⟨s.vacate capacity rank ++ [⟨key, (f init).2, s.tick + 1⟩], s.tick + 1⟩) := by
  unfold upsert
  rw [h]

theorem modify_of_some (slot : Slot κ ν) (h : s.find? key = some slot) :
    s.modify key f =
      (some (f slot.value).1, ⟨s.slots.map (touched key (f slot.value).2 (s.tick + 1)), s.tick + 1⟩) := by
  unfold modify
  rw [h]
  rfl

theorem modify_of_none (h : s.find? key = none) :
    s.modify key f = (none, { s with tick := s.tick + 1 }) := by
  unfold modify
  rw [h]

def current (s : Shard κ ν) (key : κ) (init : ν) : ν := ((s.find? key).map (·.value)).getD init

theorem upsert_fst : (s.upsert capacity rank key init f).1 = (f (s.current key init)).1 := by
  cases h : s.find? key with
  | some slot => simp [upsert_of_some _ _ _ _ _ _ slot h, current, h]
  | none => simp [upsert_of_none _ _ _ _ _ _ h, current, h]

theorem upsert_snd_congr {σ : Type} (start : ν) (g : ν → σ × ν)
    (h : (f (s.current key init)).2 = (g (s.current key start)).2) :
    (s.upsert capacity rank key init f).2 = (s.upsert capacity rank key start g).2 := by
  cases hf : s.find? key with
  | some slot =>
    simp only [current, hf, Option.map_some, Option.getD_some] at h
    rw [upsert_of_some _ _ _ _ _ _ slot hf, upsert_of_some _ _ _ _ _ _ slot hf, h]
  | none =>
    simp only [current, hf, Option.map_none, Option.getD_none] at h
    rw [upsert_of_none _ _ _ _ _ _ hf, upsert_of_none _ _ _ _ _ _ hf, h]

theorem find?_upsert_self :
    (s.upsert capacity rank key init f).2.find? key =
      some ⟨key, (f (s.current key init)).2, s.tick + 1⟩ := by
  cases h : s.find? key with
  | some slot =>
    rw [upsert_of_some _ _ _ _ _ _ slot h]
    refine (find?_map_touched s.slots key key _ _).trans ?_
    rw [show s.slots.find? (fun other => other.key == key) = some slot from h]
    simp [touched, current, h, (find?_key s key slot h).2]
  | none =>
    rw [upsert_of_none _ _ _ _ _ _ h]
    have hv : (s.vacate capacity rank).find? (fun slot => slot.key == key) = none := by
      rw [List.find?_eq_none]
      intro slot hs
      simpa using (s.find?_eq_none key).mp h slot (mem_vacate s capacity rank slot hs)
    simp [find?, hv, current, show s.slots.find? (fun other => other.key == key) = none from h]

theorem find?_upsert_of_ne (other : κ) (hne : other ≠ key) :
    (s.upsert capacity rank key init f).2.find? other =
      if (s.displaced? capacity rank key).map (·.key) = some other then none else s.find? other := by
  cases h : s.find? key with
  | some slot =>
    have hd : s.displaced? capacity rank key = none := by simp [displaced?, h]
    rw [upsert_of_some _ _ _ _ _ _ slot h, hd]
    refine (find?_map_touched s.slots key other _ _).trans ?_
    cases ho : s.find? other with
    | none => simp [show s.slots.find? (fun slot => slot.key == other) = none from ho]
    | some found =>
      have hk : found.key = other := (find?_key s other found ho).2
      simp [show s.slots.find? (fun slot => slot.key == other) = some found from ho, touched, hk, hne]
  | none =>
    have hnew : ((⟨key, (f init).2, s.tick + 1⟩ : Slot κ ν).key == other) = false := by
      simpa using hne.symm
    rw [upsert_of_none _ _ _ _ _ _ h, vacate_eq s capacity rank key h]
    simp only [find?, List.find?_append, List.find?_cons, hnew, List.find?_nil, Option.or_none,
      List.find?_filter]
    split
    · next hd =>
      rw [List.find?_eq_none]
      intro slot _
      simp only [hd]
      grind
    · next hd =>
      congr 1
      funext slot
      by_cases he : slot.key = other
      · subst he
        simp [hd]
      · simp [he]

theorem find?_modify (other : κ) :
    ((s.modify key f).2.find? other).map (·.value) =
      if other = key then (s.find? key).map fun slot => (f slot.value).2
      else (s.find? other).map (·.value) := by
  cases h : s.find? key with
  | some slot =>
    have hm : (s.modify key f).2.find? other =
        (s.find? other).map (touched key (f slot.value).2 (s.tick + 1)) := by
      rw [modify_of_some _ _ _ slot h]
      exact find?_map_touched s.slots key other _ _
    rw [hm]
    split
    · next he =>
      subst he
      simp [h, touched, (find?_key s other slot h).2]
    · next he =>
      cases ho : s.find? other with
      | none => rfl
      | some found => simp [touched, (find?_key s other found ho).2, he]
  | none =>
    have hm : (s.modify key f).2.find? other = s.find? other := by
      rw [modify_of_none _ _ _ h]
      rfl
    rw [hm]
    split
    · next he =>
      subst he
      simp [h]
    · rfl

/-! ### Keys stay unique -/

theorem map_key_touched (slots : List (Slot κ ν)) (value : ν) (tick : Nat) :
    (slots.map (touched key value tick)).map (·.key) = slots.map (·.key) := by
  rw [List.map_map]
  exact List.map_congr_left fun slot _ => touched_key key value tick slot

theorem upsert_keys_nodup (h : (s.slots.map (·.key)).Nodup) :
    ((s.upsert capacity rank key init f).2.slots.map (·.key)).Nodup := by
  cases hf : s.find? key with
  | some slot =>
    rw [upsert_of_some _ _ _ _ _ _ slot hf]
    exact (map_key_touched key s.slots _ _).symm ▸ h
  | none =>
    rw [upsert_of_none _ _ _ _ _ _ hf]
    have hsub : ((s.vacate capacity rank).map (·.key)).Nodup := by
      rw [vacate_eq s capacity rank key hf]
      exact h.sublist (List.filter_sublist.map _)
    rw [List.map_append]
    refine List.nodup_append.mpr ⟨hsub, by simp, ?_⟩
    intro a ha b hb
    obtain ⟨slot, hs, rfl⟩ := List.mem_map.mp ha
    simp only [List.map_cons, List.map_nil, List.mem_singleton] at hb
    rw [hb]
    exact (s.find?_eq_none key).mp hf slot (mem_vacate s capacity rank slot hs)

theorem mem_upsert (slot : Slot κ ν) (h : slot ∈ (s.upsert capacity rank key init f).2.slots) :
    slot.key = key ∨ ∃ old ∈ s.slots, old.key = slot.key := by
  cases hf : s.find? key with
  | some found =>
    rw [upsert_of_some _ _ _ _ _ _ found hf] at h
    obtain ⟨old, ho, rfl⟩ := List.mem_map.mp h
    exact Or.inr ⟨old, ho, (touched_key key _ _ old).symm⟩
  | none =>
    rw [upsert_of_none _ _ _ _ _ _ hf] at h
    rcases List.mem_append.mp h with h | h
    · exact Or.inr ⟨slot, mem_vacate s capacity rank slot h, rfl⟩
    · rw [List.mem_singleton.mp h]
      exact Or.inl rfl

theorem modify_keys :
    (s.modify key f).2.slots.map (·.key) = s.slots.map (·.key) := by
  cases h : s.find? key with
  | some slot =>
    rw [modify_of_some _ _ _ slot h]
    exact map_key_touched key s.slots _ _
  | none =>
    rw [modify_of_none _ _ _ h]

/-! ### Room -/

theorem upsert_length_of_some (slot : Slot κ ν) (h : s.find? key = some slot) :
    (s.upsert capacity rank key init f).2.slots.length = s.slots.length := by
  rw [upsert_of_some _ _ _ _ _ _ slot h, List.length_map]

theorem upsert_length_le (h : s.slots.length ≤ capacity)
    (hfree : s.slots.length = capacity → ∃ slot ∈ s.slots, (rank slot.value).isSome) :
    (s.upsert capacity rank key init f).2.slots.length ≤ capacity := by
  cases hf : s.find? key with
  | some slot =>
    rw [upsert_length_of_some _ _ _ _ _ _ slot hf]
    exact h
  | none =>
    rw [upsert_of_none _ _ _ _ _ _ hf]
    simp only [List.length_append, List.length_singleton]
    unfold vacate
    split
    · omega
    · obtain ⟨free, hmem, hrank⟩ := hfree (by omega)
      obtain ⟨r, hr⟩ := Option.isSome_iff_exists.mp hrank
      have hsome : (s.victim? rank).isSome := by
        unfold victim?
        rw [Option.isSome_map]
        apply firstLeast?_isSome
        have hranked : ranked rank free = some (r, free) := by
          unfold ranked
          rw [hr]
          rfl
        exact List.ne_nil_of_mem (List.mem_filterMap.mpr ⟨free, hmem, hranked⟩)
      obtain ⟨victim, hvictim⟩ := Option.isSome_iff_exists.mp hsome
      have hmem' := (s.victim?_spec rank victim hvictim).1
      rw [hvictim]
      have hlt : (s.without victim.key).length < s.slots.length :=
        List.length_filter_lt_length_iff_exists.mpr ⟨victim, hmem', by simp⟩
      dsimp only
      omega

end Shard

/-! ## The whole map -/

namespace Shards

/-- There are shards, no key is in one twice, and every key is in its own. -/
structure Sound (m : Shards κ ν) : Prop where
  nonempty : 0 < m.count
  keys : ∀ s ∈ m.shards, (s.slots.map (·.key)).Nodup
  placed : ∀ i s, m.shards[i]? = some s → ∀ slot ∈ s.slots, m.index slot.key = i

theorem new_sound (assign : κ → Nat) (capacity count : Nat) :
    (Shards.new assign capacity count : Shards κ ν).Sound := by
  refine ⟨?_, ?_, ?_⟩
  · simp only [Shards.count, Shards.new, List.length_replicate]
    omega
  · intro s hs
    rw [List.eq_of_mem_replicate hs]
    exact List.nodup_nil
  · intro i s hs slot hslot
    rw [List.eq_of_mem_replicate (List.mem_of_getElem? hs)] at hslot
    cases hslot

variable (m : Shards κ ν) (rank : ν → Option Nat) (key : κ) (init : ν) (f : ν → ρ × ν)

theorem index_lt (h : m.Sound) : m.index key < m.shards.length := Nat.mod_lt _ h.nonempty

theorem setShard_sound (h : m.Sound) (s : Shard κ ν) (hk : (s.slots.map (·.key)).Nodup)
    (hp : ∀ slot ∈ s.slots, m.index slot.key = m.index key) : (m.setShard key s).Sound := by
  have hc : (m.setShard key s).count = m.count := by simp [count, setShard]
  have hi : ∀ other, (m.setShard key s).index other = m.index other := by
    intro other
    simp [index, count, setShard]
  refine ⟨hc ▸ h.nonempty, ?_, ?_⟩
  · intro s' hs'
    rcases List.mem_or_eq_of_mem_set hs' with hs' | rfl
    · exact h.keys s' hs'
    · exact hk
  · intro i s' hs' slot hslot
    rw [hi]
    simp only [setShard, List.getElem?_set] at hs'
    split at hs'
    · next he =>
      split at hs'
      · cases hs'
        rw [hp slot hslot, he]
      · cases hs'
    · exact h.placed i s' hs' slot hslot

theorem shard_mem (h : m.Sound) : m.shard key ∈ m.shards := by
  simp [shard, List.getElem?_eq_getElem (m.index_lt key h)]

theorem shard_placed (h : m.Sound) (slot : Slot κ ν) (hs : slot ∈ (m.shard key).slots) :
    m.index slot.key = m.index key := by
  refine h.placed (m.index key) (m.shard key) ?_ slot hs
  simp [shard, List.getElem?_eq_getElem (m.index_lt key h)]

theorem shard_setShard (h : m.Sound) (other : κ) (s : Shard κ ν) :
    (m.setShard key s).shard other = if m.index other = m.index key then s else m.shard other := by
  have hi : (m.setShard key s).index other = m.index other := by
    simp [index, count, setShard]
  have hlt := m.index_lt key h
  unfold shard
  rw [hi]
  simp only [setShard, List.getElem?_set]
  split
  · next he => rw [if_pos he.symm, Option.getD_some]
  · next he => rw [if_neg (Ne.symm he)]

variable [DecidableEq κ]

theorem upsert_sound (h : m.Sound) : (m.upsert rank key init f).2.Sound := by
  refine m.setShard_sound key h _ ?_ ?_
  · exact (m.shard key).upsert_keys_nodup _ _ _ _ _ (h.keys _ (m.shard_mem key h))
  · intro slot hs
    rcases (m.shard key).mem_upsert _ _ _ _ _ slot hs with he | ⟨old, ho, he⟩
    · rw [he]
    · rw [← he]
      exact m.shard_placed key h old ho

theorem modify_sound (h : m.Sound) : (m.modify key f).2.Sound := by
  have hk := (m.shard key).modify_keys key f
  refine m.setShard_sound key h _ (hk.symm ▸ h.keys _ (m.shard_mem key h)) ?_
  intro slot hs
  have hm : slot.key ∈ (m.shard key).slots.map (·.key) := hk ▸ List.mem_map_of_mem hs
  obtain ⟨old, ho, he⟩ := List.mem_map.mp hm
  rw [← he]
  exact m.shard_placed key h old ho

theorem get?_new (assign : κ → Nat) (capacity count : Nat) (key : κ) :
    (Shards.new assign capacity count : Shards κ ν).get? key = none := by
  have hshard : (Shards.new assign capacity count : Shards κ ν).shard key = {} := by
    unfold shard
    cases hs : (Shards.new assign capacity count : Shards κ ν).shards[
        (Shards.new assign capacity count : Shards κ ν).index key]? with
    | none => rfl
    | some s => exact List.eq_of_mem_replicate (List.mem_of_getElem? hs)
  simp [get?, hshard, Shard.find?]

/-- The entry that a new key displaces. -/
def displaced? : Option (κ × ν) :=
  ((m.shard key).displaced? m.perShard rank key).map fun slot => (slot.key, slot.value)

theorem displaced?_of_get? (v : ν) (h : m.get? key = some v) : m.displaced? rank key = none := by
  have hf : ((m.shard key).find? key).isSome := by
    unfold get? at h
    cases hs : (m.shard key).find? key <;> simp_all
  simp [displaced?, Shard.displaced?, hf]

theorem displaced?_spec (h : m.Sound) (entry : κ × ν) (hd : m.displaced? rank key = some entry) :
    m.get? entry.1 = some entry.2 ∧ (rank entry.2).isSome ∧ m.get? key = none := by
  obtain ⟨slot, hs, rfl⟩ := Option.map_eq_some_iff.mp hd
  have hnone : ¬ ((m.shard key).find? key).isSome := fun hsome => by
    simp [Shard.displaced?, hsome] at hs
  have hv : (m.shard key).victim? rank = some slot := by
    unfold Shard.displaced? at hs
    split at hs
    · cases hs
    · exact hs
  obtain ⟨hm, hr⟩ := (m.shard key).victim?_spec rank slot hv
  have hi := m.shard_placed key h slot hm
  have hsh : m.shard slot.key = m.shard key := by simp only [shard, hi]
  refine ⟨?_, hr, by simpa [get?] using hnone⟩
  simp [get?, hsh, (m.shard key).find?_of_mem (h.keys _ (m.shard_mem key h)) slot hm]

theorem upsert_fst : (m.upsert rank key init f).1 = (f ((m.get? key).getD init)).1 :=
  (m.shard key).upsert_fst _ _ _ _ _

theorem upsert_snd_congr {σ : Type} (start : ν) (g : ν → σ × ν)
    (h : (f ((m.get? key).getD init)).2 = (g ((m.get? key).getD start)).2) :
    (m.upsert rank key init f).2 = (m.upsert rank key start g).2 :=
  congrArg (m.setShard key) ((m.shard key).upsert_snd_congr _ _ _ _ _ start g h)

theorem get?_upsert_self (h : m.Sound) :
    (m.upsert rank key init f).2.get? key = some (f ((m.get? key).getD init)).2 := by
  simp only [upsert, get?, shard_setShard _ _ h, if_true]
  rw [(m.shard key).find?_upsert_self]
  rfl

theorem get?_upsert_of_ne (h : m.Sound) (other : κ) (hne : other ≠ key) :
    (m.upsert rank key init f).2.get? other =
      if (m.displaced? rank key).map (·.1) = some other then none else m.get? other := by
  have hd : (m.displaced? rank key).map (·.1) =
      ((m.shard key).displaced? m.perShard rank key).map (·.key) := by
    simp [displaced?, Function.comp_def]
  by_cases hi : m.index other = m.index key
  · have hsh : m.shard other = m.shard key := by simp only [shard, hi]
    simp only [upsert, get?, shard_setShard _ _ h, hi, if_true]
    rw [(m.shard key).find?_upsert_of_ne _ _ _ _ _ other hne, ← hd, hsh]
    split <;> rfl
  · have hnot : (m.displaced? rank key).map (·.1) ≠ some other := by
      intro he
      obtain ⟨entry, hentry, rfl⟩ := Option.map_eq_some_iff.mp he
      obtain ⟨slot, hs, rfl⟩ := Option.map_eq_some_iff.mp hentry
      unfold Shard.displaced? at hs
      split at hs
      · cases hs
      · exact hi (m.shard_placed key h slot ((m.shard key).victim?_spec rank slot hs).1)
    simp only [upsert, get?, shard_setShard _ _ h, hi, if_false, hnot]

theorem modify_fst : (m.modify key f).1 = (m.get? key).map fun v => (f v).1 := by
  unfold modify get?
  cases hf : (m.shard key).find? key with
  | some slot => simp [(m.shard key).modify_of_some key f slot hf]
  | none => simp [(m.shard key).modify_of_none key f hf]

theorem get?_modify (h : m.Sound) (other : κ) :
    (m.modify key f).2.get? other =
      if other = key then (m.get? key).map fun v => (f v).2 else m.get? other := by
  by_cases hi : m.index other = m.index key
  · have hsh : m.shard other = m.shard key := by simp only [shard, hi]
    simp only [modify, get?, shard_setShard _ _ h, hi, if_true]
    rw [(m.shard key).find?_modify, hsh, Option.map_map]
    rfl
  · have hne : other ≠ key := fun he => hi (he ▸ rfl)
    simp only [modify, get?, shard_setShard _ _ h, hi, if_false, hne]

/-! ### One shard alone -/

omit [DecidableEq κ] in
theorem shards_eq_of_one (h : m.count = 1) : m.shards = [m.shard key] := by
  obtain ⟨s, hs⟩ := List.length_eq_one_iff.mp h
  have hindex : m.index key = 0 := by
    unfold index
    rw [h, Nat.mod_one]
  unfold shard
  rw [hindex, hs]
  rfl

omit [DecidableEq κ] in
theorem size_of_one (h : m.count = 1) : m.size = (m.shard key).slots.length := by
  unfold size
  rw [m.shards_eq_of_one key h]
  simp

omit [DecidableEq κ] in
theorem count_setShard (s : Shard κ ν) : (m.setShard key s).count = m.count := by
  simp [count, setShard]

omit [DecidableEq κ] in
theorem size_setShard_of_one (h : m.Sound) (h1 : m.count = 1) (s : Shard κ ν) :
    (m.setShard key s).size = s.slots.length := by
  rw [size_of_one _ key ((m.count_setShard key s).trans h1), m.shard_setShard key h, if_pos rfl]

theorem size_upsert_of_get? (h : m.Sound) (h1 : m.count = 1) (hp : (m.get? key).isSome) :
    (m.upsert rank key init f).2.size = m.size := by
  unfold get? at hp
  rw [Option.isSome_map] at hp
  obtain ⟨slot, hslot⟩ := Option.isSome_iff_exists.mp hp
  have hupsert := (m.shard key).upsert_length_of_some m.perShard rank key init f slot hslot
  rw [m.size_of_one key h1, ← hupsert]
  exact m.size_setShard_of_one key h h1 _

theorem size_upsert_le (h : m.Sound) (h1 : m.count = 1) (hsize : m.size ≤ m.perShard)
    (hfree : m.size = m.perShard → ∃ other v, m.get? other = some v ∧ (rank v).isSome) :
    (m.upsert rank key init f).2.size ≤ m.perShard := by
  rw [m.size_of_one key h1] at hsize hfree
  rw [show (m.upsert rank key init f).2.size = _ from m.size_setShard_of_one key h h1 _]
  apply Shard.upsert_length_le _ _ _ _ _ _ hsize
  intro hfull
  obtain ⟨other, v, hget, hrank⟩ := hfree hfull
  obtain ⟨slot, hslot, rfl⟩ := Option.map_eq_some_iff.mp hget
  have hmem := ((m.shard other).find?_key other slot hslot).1
  have hsame : m.shard other = m.shard key := by
    have hone := m.shards_eq_of_one other h1
    rw [m.shards_eq_of_one key h1] at hone
    exact (List.singleton_inj.mp hone).symm
  exact ⟨slot, hsame ▸ hmem, hrank⟩

theorem size_modify (h : m.Sound) (h1 : m.count = 1) : (m.modify key f).2.size = m.size := by
  have hkeys := congrArg List.length ((m.shard key).modify_keys key f)
  rw [List.length_map, List.length_map] at hkeys
  rw [m.size_of_one key h1, ← hkeys]
  exact m.size_setShard_of_one key h h1 _

end Shards

end Admission
