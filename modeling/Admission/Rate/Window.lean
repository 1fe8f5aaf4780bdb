import Admission.Amount

/-!
# Windows of requests

How many requests of one caller fall into a window that moves along with time. A window keeps the
times of its requests, or, where they are many, counts them in buckets as long as the window and
weighs the last full bucket by the part of it that the window still covers.

Times are nanoseconds. A time before another one counts as no time after it.
-/

namespace Admission

inductive Window where
  /-- The times of the requests, the oldest one first. -/
  | exact (stamps : List Nat)
  | counter (start current previous : Nat)
  deriving DecidableEq, Repr

structure RateCheck where
  allowed : Bool
  /-- Requests left in the window; nothing where there is no limit. -/
  remaining : Option Nat
  /-- Nanoseconds until there is room again, for a request that is refused. -/
  retryAfter : Option Nat
  deriving DecidableEq, Repr

namespace RateCheck

def unlimited : RateCheck := ⟨true, none, none⟩

def accepted (remaining : Nat) : RateCheck := ⟨true, some remaining, none⟩

def refused (retryAfter : Nat) : RateCheck := ⟨false, some 0, some retryAfter⟩

/-- Whole seconds to wait, rounded up. Who is refused waits for at least one. -/
def retryAfterSeconds (c : RateCheck) : Nat :=
  match c.retryAfter with
  | some nanos => max ((nanos + 999999999) / 1000000000) 1
  | none => 0

end RateCheck

namespace Window

def seconds (α : Type) [Amount α] (nanos : Nat) : α :=
  ((nanos / 1000000000 : Nat) : α) + ((nanos % 1000000000 : Nat) : α) / 1000000000.0

/-- The requests that the window still holds. -/
def live (window now : Nat) (stamps : List Nat) : List Nat :=
  stamps.filter fun t => now - t < window

/-- A full bucket at a time, made current: at most the last one counts. -/
structure Bucket where
  start : Nat
  current : Nat
  previous : Nat

/-- Move the buckets on to `now`. The number of buckets that went by is a word of 32 bits. -/
def rotate (window now : Nat) (b : Bucket) : Bucket :=
  let gone := (now - b.start) / max window 1 % Nat.pow 2 32
  if gone = 0 then b
  else if gone = 1 then ⟨b.start + window, 0, b.current⟩
  else ⟨b.start + window * gone, 0, 0⟩

/-- The part of the previous bucket that the window covers. -/
def overlap (α : Type) [Amount α] (window now : Nat) (b : Bucket) : α :=
  Amount.clamp 0 1.0 (1.0 - seconds α (now - b.start) / seconds α window)

/-- The weighted number of requests in the window. -/
def weighted (α : Type) [Amount α] (window now : Nat) (b : Bucket) : α :=
  (b.previous : α) * overlap α window now b + (b.current : α)

/-- One more request against the times of the earlier ones. Times that left the window are dropped
from the front. -/
def checkExact (limit window now : Nat) (stamps : List Nat) : RateCheck × List Nat :=
  let stamps := stamps.dropWhile fun t => window ≤ now - t
  let count := stamps.length
  if count < limit then (.accepted (limit - count - 1), stamps ++ [now])
  else (.refused (window - (now - (stamps.head?.getD now))), stamps)

/-- One more request against the weighted count. -/
def checkCounter (α : Type) [Amount α] (limit window now : Nat) (b : Bucket) : RateCheck × Bucket :=
  let b := rotate window now b
  let estimate := weighted α window now b
  if estimate + 1.0 ≤ (limit : α) then
    (.accepted (Amount.floor ((limit : α) - estimate - 1.0)), { b with current := b.current + 1 })
  else (.refused (window - (now - b.start)), b)

/-- A window without requests in the form that the limit calls for. -/
def empty (exactly : Bool) (now : Nat) : Window := if exactly then .exact [] else .counter now 0 0

/-- The window in the form that the limit calls for. Counted requests become requests of `now`, and
the times of requests become a count from `now` on, so none is lost. -/
def reshape (α : Type) [Amount α] (exactly : Bool) (window now : Nat) : Window → Window
  | .counter start current previous =>
    if exactly then
      let b := rotate window now ⟨start, current, previous⟩
      .exact (List.replicate (Amount.ceil (weighted α window now b)) now)
    else .counter start current previous
  | .exact stamps =>
    if exactly then .exact stamps else .counter now (live window now stamps).length 0

def check (α : Type) [Amount α] (exactly : Bool) (limit window now : Nat) (w : Window) :
    RateCheck × Window :=
  match w.reshape α exactly window now with
  | .exact stamps =>
    let (c, stamps) := checkExact limit window now stamps
    (c, .exact stamps)
  | .counter start current previous =>
    let (c, b) := checkCounter α limit window now ⟨start, current, previous⟩
    (c, .counter b.start b.current b.previous)

/-- The number of requests in the window, and the window with its buckets moved on. -/
def inWindow (α : Type) [Amount α] (window now : Nat) : Window → α × Window
  | .exact stamps => (((live window now stamps).length : α), .exact stamps)
  | .counter start current previous =>
    let b := rotate window now ⟨start, current, previous⟩
    (weighted α window now b, .counter b.start b.current b.previous)

end Window

end Admission
