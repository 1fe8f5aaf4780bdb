import Admission.Capability
import Admission.Period
import Admission.Refusal

/-!
# Ledger rows

What one caller, or everybody together, has spent and reserved. A row has one meter for the day and
one for the month. A meter that meets a later period starts again from nothing, and never goes back.
-/

namespace Admission

/-- Amounts of the period that `marker` names. -/
structure Meter (α : Type) where
  marker : Int
  spent : α
  reserved : α
  deriving DecidableEq, Repr

/-- Spending in a period against its limit, of which 0 is none. -/
structure Usage (α : Type) where
  spent : α
  reserved : α
  limit : α
  deriving DecidableEq, Repr

/-- A row as it is stored: without reservations. -/
structure StoredRow (α : Type) where
  dailySpent : α
  monthlySpent : α
  day : Int
  month : Int
  deriving DecidableEq, Repr

variable {α : Type} [Amount α]

namespace Usage

/-- What may still be reserved; nothing where there is no limit. -/
def remaining (u : Usage α) : Option α :=
  if 0 < u.limit then some (Amount.larger (u.limit - u.spent - u.reserved) 0) else none

end Usage

namespace Meter

def zero : Meter α := ⟨0, 0, 0⟩

def roll (m : Meter α) (now : Int) : Meter α := if m.marker < now then ⟨now, 0, 0⟩ else m

def committed (m : Meter α) : α := m.spent + m.reserved

def crosses (m : Meter α) (estimate cap : α) : Bool := 0 < cap && cap < m.committed + estimate

def reserve (m : Meter α) (amount : α) : Meter α := { m with reserved := m.reserved + amount }

/-- Turn a reservation that was made in a period into spending; in another period it is forgotten. -/
def settle (m : Meter α) (amount actual : α) (madeIn : Int) : Meter α :=
  if m.marker = madeIn then
    { m with reserved := Amount.larger (m.reserved - amount) 0, spent := m.spent + actual }
  else m

/-- Take in stored spending: the higher one of the same period, or that of a later period. -/
def absorb (m : Meter α) (marker : Int) (spent : α) : Meter α :=
  if marker = m.marker then { m with spent := Amount.larger m.spent spent }
  else if m.marker < marker then ⟨marker, spent, 0⟩
  else m

/-- The amounts of the period `now`, which are none where the meter is behind. -/
def view (m : Meter α) (now : Int) (limit : α) : Usage α :=
  if now ≤ m.marker then ⟨m.spent, m.reserved, limit⟩ else ⟨0, 0, limit⟩

end Meter

structure Row (α : Type) where
  day : Meter α
  month : Meter α
  /-- Reservations that are not settled. -/
  pending : Nat

namespace Row

def empty : Row α := ⟨.zero, .zero, 0⟩

def periods (row : Row α) : Periods := ⟨row.day.marker, row.month.marker⟩

def roll (row : Row α) (now : Periods) : Row α :=
  { row with day := row.day.roll now.day, month := row.month.roll now.month }

/-- The day's cap is looked at before the month's. -/
def check (row : Row α) (estimate dailyCap monthlyCap : α) (daily monthly : BudgetLimit) :
    Option (Rejection α) :=
  if row.day.crosses estimate dailyCap then some ⟨daily, row.day.committed, dailyCap⟩
  else if row.month.crosses estimate monthlyCap then some ⟨monthly, row.month.committed, monthlyCap⟩
  else none

def reserve (row : Row α) (amount : α) : Row α :=
  ⟨row.day.reserve amount, row.month.reserve amount, row.pending + 1⟩

def settle (row : Row α) (amount actual : α) (madeIn : Periods) : Row α :=
  ⟨row.day.settle amount actual madeIn.day, row.month.settle amount actual madeIn.month,
    row.pending - 1⟩

def absorb (row : Row α) (stored : StoredRow α) : Row α :=
  { row with
    day := row.day.absorb stored.day stored.dailySpent
    month := row.month.absorb stored.month stored.monthlySpent }

def stored (row : Row α) : StoredRow α :=
  ⟨row.day.spent, row.month.spent, row.day.marker, row.month.marker⟩

/-- Rows with open reservations are kept. Of the others, those go first that hold no spending of a
period that still runs. -/
def evictionRank (now : Periods) (row : Row α) : Option Nat :=
  if row.pending > 0 then none
  else
    let liveMonth := now.month ≤ row.month.marker && 0 < row.month.spent
    let liveDay := now.day ≤ row.day.marker && 0 < row.day.spent
    some (liveMonth.toNat + liveDay.toNat)

end Row

end Admission
