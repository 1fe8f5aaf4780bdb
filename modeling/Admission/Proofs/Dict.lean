import Mathlib
import Admission.Dict

/-!
# Looking up in a dictionary

An insertion changes what is found under its key and nothing else, so the last one under a key counts.
-/

namespace Admission.Dict

variable {α : Type}

theorem find?_place_of_ne (key other : String) (value : α) (entries : List (String × α))
    (hne : other ≠ key) :
    (place key value entries).find? (fun entry => entry.1 == other) =
      entries.find? fun entry => entry.1 == other := by
  have hnew : (key == other) = false := by simpa using hne.symm
  fun_induction place key value entries with
  | case1 => simp only [List.find?_cons, hnew]
  | case2 => simp only [List.find?_cons, hnew]
  | case3 entry rest _ _ ih => simp only [List.find?_cons, ih]
  | case4 entry rest nlt ngt =>
    have hkey : entry.1 = key := String.le_antisymm (String.not_lt.1 nlt) (String.not_lt.1 ngt)
    simp only [List.find?_cons, hkey, hnew]

theorem get?_insert_of_ne (d : Dict α) (key other : String) (value : α) (hne : other ≠ key) :
    (d.insert key value).get? other = d.get? other := by
  unfold get? insert
  rw [find?_place_of_ne key other value d.toList hne]

theorem find?_place_self (key : String) (value : α) (entries : List (String × α)) :
    (place key value entries).find? (fun entry => entry.1 == key) = some (key, value) := by
  fun_induction place key value entries with
  | case1 => simp
  | case2 => simp
  | case3 entry rest nlt gt ih =>
    have hne : (entry.1 == key) = false := beq_eq_false_iff_ne.mpr (String.ne_of_lt gt)
    rw [List.find?_cons, hne]
    exact ih
  | case4 => simp

theorem get?_insert_self (d : Dict α) (key : String) (value : α) :
    (d.insert key value).get? key = some value := by
  unfold get? insert
  rw [find?_place_self key value d.toList]
  rfl

theorem contains_eq_isSome (d : Dict α) (key : String) : d.contains key = (d.get? key).isSome := by
  rw [Bool.eq_iff_iff, contains, List.any_eq_true, get?, Option.isSome_map, List.find?_isSome]

theorem mem_of_get? (d : Dict α) (key : String) (value : α) (h : d.get? key = some value) :
    (key, value) ∈ d.toList := by
  obtain ⟨entry, hfind, rfl⟩ := Option.map_eq_some_iff.mp h
  have hkey : entry.1 = key := by simpa using List.find?_some hfind
  rw [← hkey]
  exact List.mem_of_find?_eq_some hfind

/-- Of several entries with one key the last is found, and what was there only where there is none. -/
theorem get?_foldl_insert (entries : List (String × α)) (d : Dict α) (key : String) :
    (entries.foldl (fun d new => d.insert new.1 new.2) d).get? key =
      (((entries.filter fun entry => entry.1 == key).getLast?).map (·.2)).or (d.get? key) := by
  induction entries generalizing d with
  | nil => simp
  | cons entry rest ih =>
    rw [List.foldl_cons, ih]
    by_cases hkey : entry.1 = key
    · subst hkey
      have hfilter : ((entry :: rest).filter fun e => e.1 == entry.1) =
          entry :: rest.filter fun e => e.1 == entry.1 := List.filter_cons_of_pos (by simp)
      rw [get?_insert_self, hfilter, List.getLast?_cons]
      cases (rest.filter fun e => e.1 == entry.1).getLast? <;> rfl
    · rw [get?_insert_of_ne d entry.1 key entry.2 (Ne.symm hkey),
        List.filter_cons_of_neg (by simpa using hkey)]

theorem get?_ofList (entries : List (String × α)) (key : String) :
    (ofList entries).get? key = ((entries.filter fun entry => entry.1 == key).getLast?).map (·.2) := by
  have hempty : (empty : Dict α).get? key = none := rfl
  refine (get?_foldl_insert entries empty key).trans ?_
  rw [hempty, Option.or_none]

theorem keys_nodup (d : Dict α) : d.keys.Nodup := by
  unfold keys List.Nodup
  rw [List.pairwise_map]
  exact d.sorted.imp fun hlt => String.ne_of_lt hlt

theorem get?_of_mem (d : Dict α) (key : String) (value : α) (h : (key, value) ∈ d.toList) :
    d.get? key = some value := by
  have hsome : (d.toList.find? fun entry => entry.1 == key).isSome :=
    List.find?_isSome.mpr ⟨(key, value), h, by simp⟩
  obtain ⟨entry, hentry⟩ := Option.isSome_iff_exists.mp hsome
  have hkey : entry.1 = key := by simpa using List.find?_some hentry
  have hsame : entry = (key, value) :=
    List.inj_on_of_nodup_map d.keys_nodup (List.mem_of_find?_eq_some hentry) h hkey
  rw [get?, hentry, hsame]
  rfl

theorem mem_keys (d : Dict α) (key : String) : key ∈ d.keys ↔ (d.get? key).isSome := by
  constructor
  · intro hkey
    obtain ⟨entry, hentry, rfl⟩ := List.mem_map.mp hkey
    rw [d.get?_of_mem entry.1 entry.2 hentry]
    rfl
  · intro hsome
    obtain ⟨value, hvalue⟩ := Option.isSome_iff_exists.mp hsome
    exact List.mem_map_of_mem (d.mem_of_get? key value hvalue)

theorem get?_ofList_eq (entries : List (String × α)) (key : String) (found : Option α)
    (h : ∀ value, (key, value) ∈ entries ↔ found = some value) : (ofList entries).get? key = found := by
  rw [get?_ofList]
  have hmem : ∀ entry ∈ entries.filter fun entry => entry.1 == key, found = some entry.2 := by
    intro entry hentry
    obtain ⟨hin, hkey⟩ := List.mem_filter.mp hentry
    obtain rfl : entry.1 = key := by simpa using hkey
    exact (h entry.2).mp hin
  cases hlast : (entries.filter fun entry => entry.1 == key).getLast? with
  | some entry => rw [Option.map_some, hmem entry (List.mem_of_getLast? hlast)]
  | none =>
    rw [List.getLast?_eq_none_iff, List.filter_eq_nil_iff] at hlast
    cases found with
    | none => rfl
    | some value => exact absurd (by simp) (hlast (key, value) ((h value).mpr rfl))

theorem place_append (key : String) (value : α) (entries : List (String × α)) (h : ∀ e ∈ entries, e.1 < key) :
    place key value entries = entries ++ [(key, value)] := by
  induction entries with
  | nil => rfl
  | cons entry rest ih =>
    obtain ⟨hentry, hrest⟩ := List.forall_mem_cons.mp h
    unfold place
    rw [if_neg fun hlt => String.lt_irrefl _ (String.lt_trans hlt hentry), if_pos hentry, ih hrest, List.cons_append]

theorem ofList_toList (d : Dict α) : ofList d.toList = d := by
  have hfold : ∀ (entries : List (String × α)) (d : Dict α),
      (d.toList ++ entries).Pairwise (fun a b => a.1 < b.1) →
        (entries.foldl (fun d new => d.insert new.1 new.2) d).toList = d.toList ++ entries := by
    intro entries
    induction entries with
    | nil => exact fun d _ => (List.append_nil _).symm
    | cons entry rest ih =>
      intro d hsorted
      have hbehind : ∀ e ∈ d.toList, e.1 < entry.1 := fun e he =>
        (List.pairwise_append.mp hsorted).2.2 e he entry List.mem_cons_self
      have hinsert : (d.insert entry.1 entry.2).toList = d.toList ++ [entry] :=
        place_append entry.1 entry.2 d.toList hbehind
      have happend : (d.insert entry.1 entry.2).toList ++ rest = d.toList ++ entry :: rest := by
        rw [hinsert, List.append_assoc, List.singleton_append]
      rw [List.foldl_cons, ih _ (happend ▸ hsorted), happend]
  have hlist : (ofList d.toList).toList = d.toList := hfold d.toList empty d.sorted
  generalize ofList d.toList = made at hlist
  obtain ⟨entries, _⟩ := made
  obtain ⟨_, _⟩ := d
  cases hlist
  rfl

theorem get?_overlay (old new : Dict α) (key : String) :
    (old.overlay new).get? key = (new.get? key).or (old.get? key) := by
  have hnew : (ofList new.toList).get? key = new.get? key :=
    get?_ofList_eq new.toList key (new.get? key) fun value =>
      ⟨new.get?_of_mem key value, new.mem_of_get? key value⟩
  rw [get?_ofList] at hnew
  refine (get?_foldl_insert new.toList old key).trans ?_
  rw [hnew]

theorem mem_overlay (old new : Dict α) (entry : String × α) (h : entry ∈ (old.overlay new).toList) :
    entry ∈ old.toList ∨ entry ∈ new.toList := by
  have hfold : ∀ (entries : List (String × α)) (d : Dict α),
      entry ∈ (entries.foldl (fun d new => d.insert new.1 new.2) d).toList →
        entry ∈ d.toList ∨ entry ∈ entries := by
    intro entries
    induction entries with
    | nil => exact fun d h => Or.inl h
    | cons first rest ih =>
      intro d h
      rcases ih _ h with hd | hrest
      · rcases mem_place hd with rfl | hd
        · exact Or.inr List.mem_cons_self
        · exact Or.inl hd
      · exact Or.inr (List.mem_cons_of_mem first hrest)
  exact hfold new.toList old h

end Admission.Dict
