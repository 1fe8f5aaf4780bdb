/-!
# Least and greatest elements

Of several equally small elements the first is taken, of several equally great ones the last.
-/

namespace Admission

variable {β : Type}

/-- The first element that none is strictly before. -/
def firstLeast? (before : β → β → Bool) : List β → Option β
  | [] => none
  | x :: rest =>
    match firstLeast? before rest with
    | none => some x
    | some y => if before y x then some y else some x

/-- The last element that is strictly before none. -/
def lastGreatest? (before : β → β → Bool) : List β → Option β
  | [] => none
  | x :: rest =>
    match lastGreatest? before rest with
    | none => some x
    | some y => if before y x then some x else some y

theorem firstLeast?_mem {before : β → β → Bool} {xs : List β} {x : β}
    (h : firstLeast? before xs = some x) : x ∈ xs := by
  fun_induction firstLeast? before xs <;> grind

theorem firstLeast?_isSome (before : β → β → Bool) (xs : List β) (h : xs ≠ []) :
    (firstLeast? before xs).isSome := by
  cases xs with
  | nil => exact absurd rfl h
  | cons x rest =>
    unfold firstLeast?
    split
    · rfl
    · split <;> rfl

/-- No element is before the one that is chosen, if not being before is transitive. -/
theorem firstLeast?_least (before : β → β → Bool)
    (hasymm : ∀ a b, before a b = true → before b a = false)
    (htrans : ∀ a b c, before a b = false → before b c = false → before a c = false)
    (xs : List β) (x : β) (h : firstLeast? before xs = some x) : ∀ y ∈ xs, before y x = false := by
  have hirrefl : ∀ a, before a a = false := by
    intro a
    cases ha : before a a with
    | false => rfl
    | true => exact ha.symm.trans (hasymm a a ha)
  fun_induction firstLeast? before xs generalizing x with
  | case1 => cases h
  | case2 first rest hrest =>
    cases h
    intro y hy
    have hnil : rest = [] := by
      apply Classical.byContradiction
      intro hne
      have hsome := firstLeast?_isSome before rest hne
      rw [hrest] at hsome
      cases hsome
    rw [hnil] at hy
    rw [List.mem_singleton.mp hy]
    exact hirrefl _
  | case3 first rest least hleast hbefore ih =>
    cases h
    intro y hy
    rcases List.mem_cons.mp hy with rfl | hy
    · exact hasymm _ _ hbefore
    · exact ih _ hleast y hy
  | case4 first rest least hleast hbefore ih =>
    cases h
    intro y hy
    rcases List.mem_cons.mp hy with rfl | hy
    · exact hirrefl y
    · exact htrans _ _ _ (ih _ hleast y hy) (by simpa using hbefore)

theorem lastGreatest?_mem {before : β → β → Bool} {xs : List β} {x : β}
    (h : lastGreatest? before xs = some x) : x ∈ xs := by
  fun_induction lastGreatest? before xs <;> grind

example : firstLeast? (fun a b => a.1 < b.1) [(2, 'a'), (1, 'b'), (1, 'c')] = some (1, 'b') := by
  decide

end Admission
