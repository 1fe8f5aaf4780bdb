import Mathlib
import Admission.Proofs.Ledger.Absorbing

/-!
# Room for stored rows

Whether rows can be taken in without displacing any depends on their keys alone: not on the order in which
they come, and not on how often one comes.
-/

namespace Admission

/-! ## Sets of keys -/

namespace Keys

variable {κ : Type} [DecidableEq κ]

def beside (index : κ → Nat) (keys : Finset κ) (key : κ) : Finset κ :=
  keys.filter fun other => index other = index key

omit [DecidableEq κ] in
theorem mem_beside (index : κ → Nat) (keys : Finset κ) (key other : κ) :
    other ∈ beside index keys key ↔ other ∈ keys ∧ index other = index key := by
  rw [beside, Finset.mem_filter]

theorem beside_insert_of_ne (index : κ → Nat) (keys : Finset κ) (key new : κ)
    (hne : index new ≠ index key) : beside index (insert new keys) key = beside index keys key := by
  rw [beside, Finset.filter_insert, if_neg hne, beside]

variable (index : κ → Nat) (room : Nat) (pinned : Finset κ)

/-- A key is there, or its shard is not full, or nothing can be displaced in it. -/
def FindsRoom (tracked : Finset κ) (key : κ) : Prop :=
  key ∈ tracked ∨ (beside index tracked key).card < room ∨ beside index tracked key ⊆ pinned

/-- Each key finds room when its turn comes. -/
def AllFindRoom (tracked : Finset κ) : List κ → Prop
  | [] => True
  | key :: rest => FindsRoom index room pinned tracked key ∧ AllFindRoom (insert key tracked) rest

/-- A key is there, or its shard has room for all that are to be there, or it is the only new one in a
shard in which nothing can be displaced. -/
def FitsAmong (tracked all : Finset κ) (key : κ) : Prop :=
  key ∈ tracked ∨ (beside index all key).card ≤ room ∨
    beside index tracked key ⊆ pinned ∧ beside index all key = insert key (beside index tracked key)

variable {index room pinned} {tracked all all' : Finset κ} {key new : κ}

theorem FitsAmong.mono (h : FitsAmong index room pinned tracked all key) (htracked : tracked ⊆ all')
    (hall : all' ⊆ all) (hkey : key ∈ all') : FitsAmong index room pinned tracked all' key := by
  have hsub : beside index all' key ⊆ beside index all key := Finset.filter_subset_filter _ hall
  rcases h with h | h | ⟨hpinned, heq⟩
  · exact Or.inl h
  · exact Or.inr (Or.inl ((Finset.card_le_card hsub).trans h))
  · refine Or.inr (Or.inr ⟨hpinned, (heq ▸ hsub).antisymm ?_⟩)
    rw [Finset.insert_subset_iff]
    exact ⟨(mem_beside _ _ _ _).mpr ⟨hkey, rfl⟩, Finset.filter_subset_filter _ htracked⟩

theorem FitsAmong.grow (h : FitsAmong index room pinned tracked all key) (hnew : new ∈ all) :
    FitsAmong index room pinned (insert new tracked) all key := by
  rcases h with h | h | ⟨hpinned, heq⟩
  · exact Or.inl (Finset.mem_insert_of_mem h)
  · exact Or.inr (Or.inl h)
  · by_cases hindex : index new = index key
    · -- A new key beside the only new one is that one.
      have hmem : new ∈ insert key (beside index tracked key) :=
        heq ▸ (mem_beside _ _ _ _).mpr ⟨hnew, hindex⟩
      rcases Finset.mem_insert.mp hmem with rfl | hmem
      · exact Or.inl (Finset.mem_insert_self _ _)
      · rw [Finset.insert_eq_of_mem ((mem_beside _ _ _ _).mp hmem).1]
        exact Or.inr (Or.inr ⟨hpinned, heq⟩)
    · rw [FitsAmong, beside_insert_of_ne index tracked key new hindex]
      exact Or.inr (Or.inr ⟨hpinned, heq⟩)

theorem FitsAmong.of_grow (h : FitsAmong index room pinned (insert new tracked) all key)
    (hnew : new ∉ pinned) (hne : key ≠ new) :
    FitsAmong index room pinned tracked all key ∧
      (index new = index key → key ∉ tracked → (beside index all key).card ≤ room) := by
  rcases h with h | h | ⟨hpinned, heq⟩
  · have hkey := Finset.mem_of_mem_insert_of_ne h hne
    exact ⟨Or.inl hkey, fun _ hnot => absurd hkey hnot⟩
  · exact ⟨Or.inr (Or.inl h), fun _ _ => h⟩
  · have hindex : index new ≠ index key := fun hindex =>
      hnew (hpinned ((mem_beside _ _ _ _).mpr ⟨Finset.mem_insert_self _ _, hindex⟩))
    rw [beside_insert_of_ne index tracked key new hindex] at hpinned heq
    exact ⟨Or.inr (Or.inr ⟨hpinned, heq⟩), fun he => absurd he hindex⟩

theorem FitsAmong.findsRoom (h : FitsAmong index room pinned tracked all key) (htracked : tracked ⊆ all)
    (hkey : key ∈ all) : FindsRoom index room pinned tracked key := by
  by_cases hthere : key ∈ tracked
  · exact Or.inl hthere
  have hsub : insert key (beside index tracked key) ⊆ beside index all key := by
    rw [Finset.insert_subset_iff, mem_beside]
    exact ⟨⟨hkey, rfl⟩, Finset.filter_subset_filter _ htracked⟩
  have hcard := Finset.card_le_card hsub
  rw [Finset.card_insert_of_notMem fun h => hthere ((mem_beside _ _ _ _).mp h).1] at hcard
  rcases h with h | h | ⟨h, -⟩
  · exact Or.inl h
  · exact Or.inr (Or.inl (hcard.trans h))
  · exact Or.inr (Or.inr h)

theorem FindsRoom.fitsAmong (h : FindsRoom index room pinned tracked key) (htracked : tracked ⊆ all)
    (hkey : key ∈ all) (hothers : ∀ other ∈ all, other ∈ tracked ∨ other = key ∨
      (index other = index key → (beside index all key).card ≤ room)) :
    FitsAmong index room pinned tracked all key := by
  by_cases hcard : (beside index all key).card ≤ room
  · exact Or.inr (Or.inl hcard)
  have honly : beside index all key = insert key (beside index tracked key) := by
    ext other
    rw [mem_beside, Finset.mem_insert, mem_beside]
    constructor
    · rintro ⟨hmem, hindex⟩
      rcases hothers other hmem with hthere | heq | hroom
      · exact Or.inr ⟨hthere, hindex⟩
      · exact Or.inl heq
      · exact absurd (hroom hindex) hcard
    · rintro (rfl | ⟨hthere, hindex⟩)
      · exact ⟨hkey, rfl⟩
      · exact ⟨htracked hthere, hindex⟩
  rcases h with h | h | h
  · exact Or.inl h
  · rw [honly] at hcard
    exact absurd ((Finset.card_insert_le _ _).trans h) hcard
  · exact Or.inr (Or.inr ⟨h, honly⟩)

/-- The order of keys that find room one after the other does not matter. -/
theorem allFindRoom_iff (keys : List κ) (hpinned : pinned ⊆ tracked) :
    AllFindRoom index room pinned tracked keys ↔
      ∀ key ∈ keys, FitsAmong index room pinned tracked (tracked ∪ keys.toFinset) key := by
  induction keys generalizing tracked with
  | nil => simp [AllFindRoom]
  | cons first rest ih =>
    have hall : insert first tracked ∪ rest.toFinset = tracked ∪ (first :: rest).toFinset := by
      rw [List.toFinset_cons, Finset.union_insert, Finset.insert_union]
    have hmem : ∀ other, other ∈ tracked ∪ (first :: rest).toFinset ↔
        other ∈ tracked ∨ other = first ∨ other ∈ rest := by
      intro other
      rw [Finset.mem_union, List.mem_toFinset, List.mem_cons]
    have htracked : tracked ⊆ tracked ∪ (first :: rest).toFinset := Finset.subset_union_left
    have hrest := ih (hpinned.trans (Finset.subset_insert first tracked))
    rw [hall] at hrest
    rw [AllFindRoom, hrest]
    generalize tracked ∪ (first :: rest).toFinset = all at hmem htracked
    have hfirst : first ∈ all := (hmem first).mpr (Or.inr (Or.inl rfl))
    constructor
    · rintro ⟨hfinds, hfit⟩
      by_cases hthere : first ∈ tracked
      · rw [Finset.insert_eq_of_mem hthere] at hfit
        exact List.forall_mem_cons.mpr ⟨Or.inl hthere, hfit⟩
      have hnew : first ∉ pinned := fun h => hthere (hpinned h)
      -- `first` is not pinned once it is there, so a new key that later finds room beside it finds a shard
      -- with room for all.
      have hself : FitsAmong index room pinned tracked all first := by
        refine hfinds.fitsAmong htracked hfirst fun other hother => ?_
        by_cases hold : other ∈ tracked ∨ other = first
        · exact hold.imp id Or.inl
        · obtain ⟨hnot, hne⟩ := not_or.mp hold
          have hlater := (((hmem other).mp hother).resolve_left hnot).resolve_left hne
          have hcard := ((hfit other hlater).of_grow hnew hne).2
          refine Or.inr (Or.inr fun hindex => ?_)
          have hsame : beside index all first = beside index all other := by simp only [beside, hindex]
          rw [hsame]
          exact hcard hindex.symm hnot
      intro key hkey
      by_cases hne : key = first
      · exact hne ▸ hself
      · exact ((hfit key ((List.mem_cons.mp hkey).resolve_left hne)).of_grow hnew hne).1
    · intro hfit
      exact ⟨(hfit first List.mem_cons_self).findsRoom htracked hfirst,
        fun key hkey => (hfit key (List.mem_cons_of_mem _ hkey)).grow hfirst⟩

theorem AllFindRoom.of_subset {keys keys' : List κ} (h : AllFindRoom index room pinned tracked keys)
    (hpinned : pinned ⊆ tracked) (hsub : keys' ⊆ keys) : AllFindRoom index room pinned tracked keys' := by
  rw [allFindRoom_iff keys hpinned] at h
  rw [allFindRoom_iff keys' hpinned]
  intro key hkey
  refine (h key (hsub hkey)).mono Finset.subset_union_left ?_ ?_
  · exact Finset.union_subset_union_right fun other hother =>
      List.mem_toFinset.mpr (hsub (List.mem_toFinset.mp hother))
  · exact Finset.mem_union_right _ (List.mem_toFinset.mpr hkey)

end Keys

/-! ## The ledger -/

namespace Ledger

section

variable {α : Type}

theorem get?_ofList_rows {β : Type} (l : Ledger α) (h : l.rows.Sound) (f : Row α → β) (key : String) :
    (Dict.ofList (l.rows.toList.map fun entry => (entry.1, f entry.2))).get? key =
      (l.rows.get? key).map f := by
  refine Dict.get?_ofList_eq _ key _ fun value => ?_
  rw [List.mem_map, Option.map_eq_some_iff]
  constructor
  · rintro ⟨entry, hentry, heq⟩
    cases heq
    exact ⟨entry.2, (l.rows.mem_toList h entry.1 entry.2).mp hentry, rfl⟩
  · rintro ⟨row, hrow, rfl⟩
    exact ⟨(key, row), (l.rows.mem_toList h key row).mpr hrow, rfl⟩

theorem mem_identities (l : Ledger α) (h : l.rows.Sound) (key : String) :
    key ∈ l.identities ↔ (l.rows.get? key).isSome := by
  show key ∈ (Dict.ofList (l.rows.toList.map fun entry => (entry.1, ()))).keys ↔ _
  rw [Dict.mem_keys, l.get?_ofList_rows h (fun _ => ()) key, Option.isSome_map]

end

variable {α : Type} [Amount α] (l : Ledger α)

def tracked (l : Ledger α) : Finset String := l.identities.toFinset

/-- The keys whose rows cannot be displaced. -/
def pinnedKeys (l : Ledger α) : Finset String := l.tracked.filter fun key => 0 < (l.row key).pending

omit [Amount α] in
theorem mem_tracked (h : l.rows.Sound) (key : String) :
    key ∈ l.tracked ↔ (l.rows.get? key).isSome := by
  rw [tracked, List.mem_toFinset, l.mem_identities h]

theorem evictionRank_eq_none (clock : Periods) (row : Row α) :
    row.evictionRank clock = none ↔ 0 < row.pending := by
  unfold Row.evictionRank
  split
  · next hpos => exact iff_of_true rfl hpos
  · next hzero => exact iff_of_false (by simp) hzero

theorem displaced?_eq_none_iff (h : l.rows.Sound) (key : String) :
    l.displaced? key = none ↔
      Keys.FindsRoom l.rows.index l.rows.perShard l.pinnedKeys l.tracked key := by
  have hbeside : (l.rows.keysBeside key).toFinset = Keys.beside l.rows.index l.tracked key := by
    ext other
    rw [List.mem_toFinset, Shards.mem_keysBeside _ h, Keys.mem_beside, l.mem_tracked h, and_comm]
  have hlength : (l.rows.keysBeside key).length = (Keys.beside l.rows.index l.tracked key).card := by
    rw [← hbeside, List.toFinset_card_of_nodup (l.rows.keysBeside_nodup h key)]
  have hpinned : (∀ other row, l.rows.index other = l.rows.index key → l.rows.get? other = some row →
      row.evictionRank l.clock = none) ↔ Keys.beside l.rows.index l.tracked key ⊆ l.pinnedKeys := by
    constructor
    · intro hrows other hother
      obtain ⟨htracked, hindex⟩ := (Keys.mem_beside _ _ _ _).mp hother
      obtain ⟨row, hrow⟩ := Option.isSome_iff_exists.mp ((l.mem_tracked h other).mp htracked)
      have hpos := (evictionRank_eq_none l.clock row).mp (hrows other row hindex hrow)
      rw [pinnedKeys, Finset.mem_filter, Ledger.row, hrow]
      exact ⟨htracked, hpos⟩
    · intro hsub other row hindex hrow
      have htracked : other ∈ l.tracked := (l.mem_tracked h other).mpr (by rw [hrow]; rfl)
      have hpos := (Finset.mem_filter.mp (hsub ((Keys.mem_beside _ _ _ _).mpr ⟨htracked, hindex⟩))).2
      rw [Ledger.row, hrow] at hpos
      exact (evictionRank_eq_none l.clock row).mpr hpos
  rw [displaced?, Shards.displaced?_eq_none_iff _ _ h, hlength, hpinned, Keys.FindsRoom, l.mem_tracked h]

variable (key : String) (stored : StoredRow α)

theorem tracked_absorbRow (h : l.rows.Sound) (hroom : l.displaced? key = none) :
    (l.absorbRow key stored).tracked = insert key l.tracked := by
  ext other
  rw [mem_tracked _ (l.absorbRow_sound key stored h), Finset.mem_insert, l.mem_tracked h]
  by_cases hne : other = key
  · subst hne
    rw [l.get?_absorbRow_self other stored h]
    simp
  · rw [l.get?_absorbRow_of_room key stored h hroom other hne, or_iff_right hne]

theorem pinnedKeys_absorbRow (h : l.rows.Sound) (hroom : l.displaced? key = none) :
    (l.absorbRow key stored).pinnedKeys = l.pinnedKeys := by
  ext other
  rw [pinnedKeys, Finset.mem_filter, pinnedKeys, Finset.mem_filter, l.tracked_absorbRow key stored h hroom,
    Finset.mem_insert]
  by_cases hne : other = key
  · subst hne
    have hrow : (l.absorbRow other stored).row other = (l.row other).absorb stored := by
      rw [Ledger.row, l.get?_absorbRow_self other stored h, Option.getD_some]
    have hpending : ((l.row other).absorb stored).pending = (l.row other).pending := rfl
    rw [hrow, hpending]
    refine ⟨fun hpos => ⟨?_, hpos.2⟩, fun hpos => ⟨Or.inl rfl, hpos.2⟩⟩
    -- A key without a row has no open reservation.
    rw [l.mem_tracked h]
    by_contra hnone
    have hempty : l.row other = .empty := by
      rw [Ledger.row, Option.not_isSome_iff_eq_none.mp hnone, Option.getD_none]
    rw [hempty] at hpos
    exact absurd hpos.2 (lt_irrefl 0)
  · have hrow : (l.absorbRow key stored).row other = l.row other :=
      congrArg (·.getD .empty) (l.get?_absorbRow_of_room key stored h hroom other hne)
    rw [hrow, or_iff_right hne]

theorem roomy_iff (entries : List (String × StoredRow α)) (h : l.rows.Sound) :
    l.Roomy entries ↔ Keys.AllFindRoom l.rows.index l.rows.perShard l.pinnedKeys l.tracked
      (entries.map (·.1)) := by
  induction entries generalizing l with
  | nil => exact Iff.rfl
  | cons entry rest ih =>
    rw [Roomy, List.map_cons, Keys.AllFindRoom, ← l.displaced?_eq_none_iff h]
    refine and_congr_right fun hroom => ?_
    have hindex : (l.absorbRow entry.1 entry.2).rows.index = l.rows.index :=
      funext (l.index_absorbRow entry.1 entry.2)
    rw [ih _ (l.absorbRow_sound entry.1 entry.2 h), hindex, perShard_absorbRow,
      l.pinnedKeys_absorbRow entry.1 entry.2 h hroom, l.tracked_absorbRow entry.1 entry.2 h hroom]

theorem Roomy.of_subset {l : Ledger α} {entries entries' : List (String × StoredRow α)}
    (h : l.rows.Sound) (hroom : l.Roomy entries) (hsub : entries' ⊆ entries) : l.Roomy entries' := by
  rw [l.roomy_iff entries h] at hroom
  rw [l.roomy_iff entries' h]
  exact hroom.of_subset (Finset.filter_subset _ _) (List.map_subset _ hsub)

theorem roomy_of_fit (keys : List String) (entries : List (String × StoredRow α)) (h : l.rows.Sound)
    (htracked : ∀ key, (l.rows.get? key).isSome → key ∈ keys) (hentries : ∀ entry ∈ entries, entry.1 ∈ keys)
    (hfit : ∀ i, (keys.countP fun key => l.rows.index key = i) ≤ l.rows.perShard) : l.Roomy entries := by
  have hpinned : l.pinnedKeys ⊆ l.tracked := Finset.filter_subset _ _
  rw [l.roomy_iff entries h, Keys.allFindRoom_iff _ hpinned]
  intro key _
  refine Or.inr (Or.inl (le_trans ?_ (hfit (l.rows.index key))))
  rw [List.countP_eq_length_filter]
  refine (Finset.card_le_card fun other hother => ?_).trans (List.toFinset_card_le _)
  obtain ⟨hmem, hindex⟩ := (Keys.mem_beside _ _ _ _).mp hother
  rw [List.mem_toFinset, List.mem_filter, decide_eq_true_eq]
  refine ⟨?_, hindex⟩
  rcases Finset.mem_union.mp hmem with hmem | hmem
  · exact htracked other ((l.mem_tracked h other).mp hmem)
  · obtain ⟨entry, hentry, rfl⟩ := List.mem_map.mp (List.mem_toFinset.mp hmem)
    exact hentries entry hentry

end Ledger

end Admission
