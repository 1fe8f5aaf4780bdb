/-!
# Dictionaries

A finite map from text to values. The entries are kept in the order of their keys, code point by
code point, so two dictionaries with the same contents are equal and are listed alike.
-/

namespace Admission

/-- Entries of a dictionary: keys strictly ascending. -/
structure Dict (α : Type) where
  toList : List (String × α)
  sorted : toList.Pairwise fun a b => a.1 < b.1

namespace Dict

variable {α β : Type}

def empty : Dict α := ⟨[], .nil⟩

instance : EmptyCollection (Dict α) := ⟨empty⟩
instance : Inhabited (Dict α) := ⟨empty⟩

/-- Put `value` at its place among sorted entries, over an entry with the same key. -/
def place (key : String) (value : α) : List (String × α) → List (String × α)
  | [] => [(key, value)]
  | entry :: rest =>
    if key < entry.1 then (key, value) :: entry :: rest
    else if entry.1 < key then entry :: place key value rest
    else (key, value) :: rest

theorem mem_place {key : String} {value : α} {entry : String × α} {entries : List (String × α)}
    (h : entry ∈ place key value entries) : entry = (key, value) ∨ entry ∈ entries := by
  fun_induction place key value entries <;> grind

theorem place_sorted (key : String) (value : α) {entries : List (String × α)}
    (h : entries.Pairwise fun a b => a.1 < b.1) :
    (place key value entries).Pairwise fun a b => a.1 < b.1 := by
  fun_induction place key value entries with
  | case1 => simp
  | case2 e rest lt =>
    refine List.pairwise_cons.2 ⟨fun b hb => ?_, h⟩
    rcases List.mem_cons.1 hb with rfl | hb
    · exact lt
    · exact String.lt_trans lt (List.rel_of_pairwise_cons h hb)
  | case3 e rest _ gt ih =>
    refine List.pairwise_cons.2 ⟨fun b hb => ?_, ih h.of_cons⟩
    rcases mem_place hb with rfl | hb
    · exact gt
    · exact List.rel_of_pairwise_cons h hb
  | case4 e rest nlt ngt =>
    have same : e.1 = key := String.le_antisymm (String.not_lt.1 nlt) (String.not_lt.1 ngt)
    exact List.pairwise_cons.2 ⟨fun b hb => same ▸ List.rel_of_pairwise_cons h hb, h.of_cons⟩

/-- The dictionary with `value` at `key`, whether or not the key was there. -/
def insert (d : Dict α) (key : String) (value : α) : Dict α :=
  ⟨place key value d.toList, place_sorted key value d.sorted⟩

/-- Later entries win over earlier ones with the same key. -/
def ofList (entries : List (String × α)) : Dict α :=
  entries.foldl (fun d (key, value) => d.insert key value) empty

def get? (d : Dict α) (key : String) : Option α :=
  (d.toList.find? fun entry => entry.1 == key).map (·.2)

def contains (d : Dict α) (key : String) : Bool := d.toList.any fun entry => entry.1 == key

def keys (d : Dict α) : List String := d.toList.map (·.1)

def size (d : Dict α) : Nat := d.toList.length

def isEmpty (d : Dict α) : Bool := d.toList.isEmpty

def map (f : α → β) (d : Dict α) : Dict β :=
  ⟨d.toList.map fun (key, value) => (key, f value), List.pairwise_map.2 d.sorted⟩

/-- The entries of `new` over those of `old`. -/
def overlay (old new : Dict α) : Dict α :=
  new.toList.foldl (fun d (key, value) => d.insert key value) old

end Dict

end Admission
