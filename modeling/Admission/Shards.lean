import Admission.Extremum

/-!
# Bounded maps in shards

A map that holds a bounded number of entries. Every key belongs to one shard. A new key in a full
shard displaces the entry of lowest rank, among equals the one used longest ago. An entry without a
rank is pinned: a shard full of pinned entries grows.
-/

namespace Admission

structure Slot (κ ν : Type) where
  key : κ
  value : ν
  /-- The tick of the last use, unlike that of any other slot of the shard. -/
  lastUsed : Nat

structure Shard (κ ν : Type) where
  slots : List (Slot κ ν) := []
  /-- Uses so far. -/
  tick : Nat := 0

namespace Shard

variable {κ ν ρ : Type} [DecidableEq κ]

def find? (s : Shard κ ν) (key : κ) : Option (Slot κ ν) := s.slots.find? fun slot => slot.key == key

def without (s : Shard κ ν) (key : κ) : List (Slot κ ν) := s.slots.filter fun slot => slot.key != key

/-- A slot with the rank of its value. -/
def ranked (rank : ν → Option Nat) (slot : Slot κ ν) : Option (Nat × Slot κ ν) :=
  (rank slot.value).map fun r => (r, slot)

/-- Lower rank first, then the older use. -/
def goesBefore (a b : Nat × Slot κ ν) : Bool :=
  a.1 < b.1 || (a.1 == b.1 && a.2.lastUsed < b.2.lastUsed)

def victim? (rank : ν → Option Nat) (s : Shard κ ν) : Option (Slot κ ν) :=
  (firstLeast? goesBefore (s.slots.filterMap (ranked rank))).map (·.2)

/-- The slots after room is made for a new key. -/
def vacate (capacity : Nat) (rank : ν → Option Nat) (s : Shard κ ν) : List (Slot κ ν) :=
  if s.slots.length < capacity then s.slots
  else match s.victim? rank with
    | some slot => s.without slot.key
    | none => s.slots

/-- Change the value at a key, which is `init` where the key is new. -/
def upsert (capacity : Nat) (rank : ν → Option Nat) (key : κ) (init : ν) (f : ν → ρ × ν)
    (s : Shard κ ν) : ρ × Shard κ ν :=
  let tick := s.tick + 1
  match s.find? key with
  | some slot =>
    let (r, value) := f slot.value
    let change (other : Slot κ ν) : Slot κ ν :=
      if other.key = key then ⟨key, value, tick⟩ else other
    (r, ⟨s.slots.map change, tick⟩)
  | none =>
    let (r, value) := f init
    (r, ⟨s.vacate capacity rank ++ [⟨key, value, tick⟩], tick⟩)

/-- Change the value at a key that is there. The try counts as a use of the shard either way. -/
def modify (key : κ) (f : ν → ρ × ν) (s : Shard κ ν) : Option ρ × Shard κ ν :=
  let tick := s.tick + 1
  match s.find? key with
  | some slot =>
    let (r, value) := f slot.value
    let change (other : Slot κ ν) : Slot κ ν :=
      if other.key = key then ⟨key, value, tick⟩ else other
    (some r, ⟨s.slots.map change, tick⟩)
  | none => (none, { s with tick })

end Shard

/-- `assign` says which shard a key belongs to, counted around the shards. -/
structure Shards (κ ν : Type) where
  assign : κ → Nat
  /-- Entries that a shard holds before it displaces one. -/
  perShard : Nat
  shards : List (Shard κ ν)

namespace Shards

variable {κ ν ρ : Type} [DecidableEq κ]

/-- Room for about `capacity` entries in `count` shards. -/
def new (assign : κ → Nat) (capacity count : Nat) : Shards κ ν :=
  let count := max count 1
  { assign, perShard := max ((capacity + count - 1) / count) 1, shards := List.replicate count {} }

def count (m : Shards κ ν) : Nat := m.shards.length

def index (m : Shards κ ν) (key : κ) : Nat := m.assign key % m.count

def shard (m : Shards κ ν) (key : κ) : Shard κ ν := (m.shards[m.index key]?).getD {}

def setShard (m : Shards κ ν) (key : κ) (s : Shard κ ν) : Shards κ ν :=
  { m with shards := m.shards.set (m.index key) s }

def get? (m : Shards κ ν) (key : κ) : Option ν := ((m.shard key).find? key).map (·.value)

def contains (m : Shards κ ν) (key : κ) : Bool := ((m.shard key).find? key).isSome

/-- Change the value at a key, which is `init` where the key is new. -/
def upsert (m : Shards κ ν) (rank : ν → Option Nat) (key : κ) (init : ν) (f : ν → ρ × ν) :
    ρ × Shards κ ν :=
  let (r, s) := (m.shard key).upsert m.perShard rank key init f
  (r, m.setShard key s)

def modify (m : Shards κ ν) (key : κ) (f : ν → ρ × ν) : Option ρ × Shards κ ν :=
  let (r, s) := (m.shard key).modify key f
  (r, m.setShard key s)

/-- Put a value at a key; the answer is the value it replaces. -/
def insert (m : Shards κ ν) (rank : ν → Option Nat) (key : κ) (value : ν) :
    Option ν × Shards κ ν :=
  let before := m.get? key
  let (_, m) := m.upsert rank key value fun _ => ((), value)
  (before, m)

def remove (m : Shards κ ν) (key : κ) : Option ν × Shards κ ν :=
  let s := m.shard key
  (m.get? key, m.setShard key { s with slots := s.without key })

def toList (m : Shards κ ν) : List (κ × ν) :=
  m.shards.flatMap fun s => s.slots.map fun slot => (slot.key, slot.value)

def size (m : Shards κ ν) : Nat := m.shards.foldl (fun n s => n + s.slots.length) 0

def isEmpty (m : Shards κ ν) : Bool := m.size == 0

/-- Entries that fit before any is displaced. -/
def capacity (m : Shards κ ν) : Nat := m.perShard * m.count

/-- Take out the entry with the least value. -/
def removeLeast (m : Shards κ ν) (before : ν → ν → Bool) : Option (κ × ν) × Shards κ ν :=
  match firstLeast? (fun a b => before a.2 b.2) m.toList with
  | some (key, value) => (some (key, value), (m.remove key).2)
  | none => (none, m)

/-- Take out every entry whose value is meant. -/
def removeWhere (m : Shards κ ν) (meant : ν → Bool) : List (κ × ν) × Shards κ ν :=
  let keep (s : Shard κ ν) : Shard κ ν :=
    { s with slots := s.slots.filter fun slot => !meant slot.value }
  (m.toList.filter fun entry => meant entry.2, { m with shards := m.shards.map keep })

def display (m : Shards κ ν) : String :=
  "ShardedLru \x7b shards: " ++ toString m.count ++ ", per_shard_capacity: " ++
    toString m.perShard ++ ", entries: " ++ toString m.size ++ " \x7d"

end Shards

end Admission
