import Admission.Proofs.Json.Decoded

/-!
# Values of any shape

A value that nothing is known about is kept with its names in order. One whose names stand in order already is read as
it is, nulls and empty containers included, and if its numbers are read as what they are written as, so is its text.
-/

namespace Admission

namespace Json

/-- A value as it is kept: no name of an object stands before a smaller or an equal one, whole numbers are of at most 64
bits, and the other numbers are such as `number` says. -/
inductive Tidy (number : Double → Prop) : Json → Prop
  | null : Tidy number .null
  | bool (value : Bool) : Tidy number (.bool value)
  | int (n : Int) (h : fitsWord n = true) : Tidy number (.int n)
  | float (x : Double) (h : number x) : Tidy number (.float x)
  | str (s : String) : Tidy number (.str s)
  | arr (items : List Json) (h : ∀ item ∈ items, Tidy number item) : Tidy number (.arr items)
  | obj (members : List (String × Json)) (sorted : members.Pairwise fun m n => m.1 < n.1)
    (h : ∀ m ∈ members, Tidy number m.2) : Tidy number (.obj members)

theorem writableItems_eq_map (items : List Json) : writableItems items = items.map writable := by
  induction items with
  | nil => rfl
  | cons item rest ih => rw [writableItems, ih, List.map_cons]

theorem writableMembers_eq_map (members : List (String × Json)) :
    writableMembers members = members.map fun m => (m.1, writable m.2) := by
  induction members with
  | nil => rfl
  | cons m rest ih => rw [writableMembers, ih, List.map_cons]

theorem sortItems_eq_map (items : List Json) : sortItems items = items.map sortKeys := by
  induction items with
  | nil => rfl
  | cons item rest ih => rw [sortItems, ih, List.map_cons]

theorem sortMembers_eq_map (members : List (String × Json)) :
    sortMembers members = members.map fun m => (m.1, sortKeys m.2) := by
  induction members with
  | nil => rfl
  | cons m rest ih => rw [sortMembers, ih, List.map_cons]

theorem map_eq_self {β : Type} {f : β → β} {l : List β} (h : ∀ x ∈ l, f x = x) : l.map f = l :=
  (List.map_congr_left h).trans (List.map_id' l)

namespace Tidy

variable {number : Double → Prop} {j : Json}

theorem isUsable (hnumber : ∀ x, number x → x.isFinite = true) (h : j.Tidy number) : j.isUsable = true := by
  induction h with
  | null | bool | int | str => rfl
  | float x h => exact hnumber x h
  | arr items _ ih => exact (areUsable_iff items).mpr ih
  | obj members _ _ ih => exact (haveUsable_iff members).mpr ih

theorem writable_eq (hnumber : ∀ x, number x → x.isFinite = true) (h : j.Tidy number) : j.writable = j := by
  induction h with
  | null | bool | int | str => rfl
  | float x h => rw [writable, if_pos (hnumber x h)]
  | arr items _ ih => rw [writable, writableItems_eq_map, map_eq_self ih]
  | obj members _ _ ih => rw [writable, writableMembers_eq_map, map_eq_self fun m hm => congrArg (Prod.mk m.1) (ih m hm)]

theorem sortKeys_eq (h : j.Tidy number) : j.sortKeys = j := by
  induction h with
  | null | bool | int | str | float => rfl
  | arr items _ ih => rw [sortKeys, sortItems_eq_map, map_eq_self ih]
  | obj members sorted _ ih =>
    rw [sortKeys, sortMembers_eq_map, map_eq_self fun m hm => congrArg (Prod.mk m.1) (ih m hm)]
    exact congrArg (fun d : Dict Json => Json.obj d.toList) (Dict.ofList_toList ⟨members, sorted⟩)

theorem anything_eq_ok (hnumber : ∀ x, number x → x.isFinite = true) (h : j.Tidy number) :
    Decode.anything .json j = .ok j := by
  unfold Decode.anything
  rw [h.isUsable hnumber, h.writable_eq hnumber, h.sortKeys_eq]
  rfl

theorem legible (hnumber : ∀ x, number x → x.Kept) (h : j.Tidy number) : j.Legible := by
  induction h with
  | null => exact .null
  | bool value => exact .bool value
  | int n h => exact .int n h
  | float x h => exact .float x (hnumber x h).exact
  | str s => exact .str s
  | arr items _ ih => exact .arr items ih
  | obj members _ _ ih => exact .obj members ih

end Tidy

end Json

end Admission
