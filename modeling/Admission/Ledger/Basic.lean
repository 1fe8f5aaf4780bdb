import Admission.Config.Basic
import Admission.Ledger.Row
import Admission.Shards

/-!
# The ledger

Every admitted request reserves its estimated cost before it runs and settles the actual cost
afterwards. A reservation is checked against two limits of the caller and two of everybody.

The number of open reservations is bounded. Where the bound is reached the oldest reservation is
settled at its estimate, and those of closed months are swept when a new month opens.
-/

namespace Admission

structure LedgerSettings (α : Type) where
  resetHour : Nat
  globalDaily : α
  globalMonthly : α
  maxTracked : Nat
  maxPending : Nat
  shards : Nat := 16

def LedgerSettings.ofBudgets {α : Type} (b : Budgets α) : LedgerSettings α where
  resetHour := b.resetHour
  globalDaily := b.globalDaily
  globalMonthly := b.globalMonthly
  maxTracked := b.maxTracked
  maxPending := b.maxPending

/-- How an admitted request is priced once its usage is known. -/
structure PriceBasis (α : Type) where
  model : String
  /-- The rate of the tier, for a model without a price. -/
  tierCostPer1k : α
  deriving DecidableEq, Repr

/-- A debit that awaits the actual cost. -/
structure Reservation (α : Type) where
  id : ReservationId
  key : String
  amount : α
  /-- The periods of the caller's row and of the global row in which it was made. -/
  madeIn : Periods
  globalMadeIn : Periods
  chargedAt : Timestamp
  basis : Option (PriceBasis α)

/-- Spending of one caller, or of everybody, in the running periods. -/
structure UsageReport (α : Type) where
  key : String
  daily : Usage α
  monthly : Usage α

structure Ledger (α : Type) where
  settings : LedgerSettings α
  rows : Shards String (Row α)
  global : Row α
  /-- Open reservations in the order in which they were made. The order counts only between those with one time. -/
  pending : List (Reservation α)
  /-- The latest periods that any operation has seen. -/
  clock : Periods
  /-- Something changed since the last save. -/
  dirty : Bool

namespace Ledger

variable {α : Type} [Amount α]

/-- An empty ledger; `assign` spreads the keys over the shards. -/
def new (assign : String → Nat) (settings : LedgerSettings α) : Ledger α where
  settings := settings
  rows := .new assign settings.maxTracked settings.shards
  global := .empty
  pending := []
  clock := {}
  dirty := false

def periodsAt (l : Ledger α) (t : Timestamp) : Periods := .ofTimestamp t l.settings.resetHour

/-- Move the clock on, never back. -/
def advance (l : Ledger α) (now : Periods) : Ledger α := { l with clock := l.clock.join now }

/-- Change the row of a key, which is empty where the key is new, together with the global row. -/
def updateRow {ρ : Type} (l : Ledger α) (key : String)
    (f : Row α → Row α → ρ × Row α × Row α) : ρ × Ledger α :=
  let ((r, global), rows) :=
    l.rows.upsert (Row.evictionRank l.clock) key .empty fun row =>
      let (r, row, global) := f row l.global
      ((r, global), row)
  (r, { l with rows, global })

/-- Book the actual cost of a reservation in both rows. -/
def charge (l : Ledger α) (r : Reservation α) (actual : α) (now : Periods) : Ledger α :=
  let (_, l) := l.updateRow r.key fun row global =>
    ((), (row.roll now).settle r.amount actual r.madeIn,
      (global.roll now).settle r.amount actual r.globalMadeIn)
  { l with dirty := true }

def expired (l : Ledger α) (now : Periods) : List (Reservation α) :=
  l.pending.filter fun r => r.madeIn.month < now.month

/-- Settle the reservations of closed months at their estimates. -/
def sweepPeriods (l : Ledger α) (now : Periods) : Ledger α :=
  (l.expired now).foldl (fun l r => (l.advance now).charge r r.amount now)
    { l with pending := l.pending.filter fun r => !(r.madeIn.month < now.month) }

/-- Settle the reservations of closed months; the answer is their number. -/
def sweep (l : Ledger α) (t : Timestamp) : Nat × Ledger α :=
  let now := l.periodsAt t
  ((l.expired now).length, l.sweepPeriods now)

/-- Move the clock on, and sweep where that opens a month. -/
def observe (l : Ledger α) (now : Periods) : Ledger α :=
  if l.clock.month < now.month then (l.advance now).sweepPeriods now else l.advance now

/-- Book a reservation that has already left the open ones. -/
def settle (l : Ledger α) (r : Reservation α) (actual : α) (t : Timestamp) : Ledger α :=
  let now := l.periodsAt t
  (l.observe now).charge r actual now

/-- Open reservations at most; each one keeps a row in memory. -/
def pendingLimit (l : Ledger α) : Nat := max 1 (min l.settings.maxPending l.settings.maxTracked)

def older (a b : Reservation α) : Bool :=
  a.chargedAt.seconds < b.chargedAt.seconds ||
    (a.chargedAt.seconds == b.chargedAt.seconds && a.chargedAt.nanos < b.chargedAt.nanos)

def take (l : Ledger α) (id : ReservationId) : Option (Reservation α × Ledger α) :=
  (l.pending.find? fun r => r.id == id).map fun r =>
    (r, { l with pending := l.pending.filter fun other => other.id != id })

/-- Settle the oldest reservations at their estimates until there is room for one more. Each step
takes one away, so `steps` need not be more than there are. Which of several with one time goes first is
fixed here and could be otherwise: it is the one that was made first. -/
def makeRoom (t : Timestamp) : (steps : Nat) → Ledger α → Ledger α
  | 0, l => l
  | steps + 1, l =>
    if l.pending.length < l.pendingLimit then l
    else match (firstLeast? older l.pending).bind fun r => l.take r.id with
      | some (r, l) => makeRoom t steps (l.settle r r.amount t)
      | none => l

/-- Check the four limits and reserve in both rows, or leave both as they are in this period. -/
def bookRows (settings : LedgerSettings α) (caps : Capabilities α) (estimate : α) (now : Periods)
    (row global : Row α) : Except (Rejection α) (Periods × Periods) × Row α × Row α :=
  let row := row.roll now
  match row.check estimate caps.dailyBudget caps.monthlyBudget .identityDaily .identityMonthly with
  | some rejection => (.error rejection, row, global)
  | none =>
    let global := global.roll now
    match global.check estimate settings.globalDaily settings.globalMonthly .globalDaily
        .globalMonthly with
    | some rejection => (.error rejection, row, global)
    | none => (.ok (row.periods, global.periods), row.reserve estimate, global.reserve estimate)

/-- Reserve the estimate under a fresh id, if no limit stands against it. -/
def reserve (l : Ledger α) (id : ReservationId) (who : Identity) (caps : Capabilities α)
    (estimate : α) (basis : Option (PriceBasis α)) (t : Timestamp) :
    Except (Rejection α) Unit × Ledger α :=
  let estimate := Amount.sanitize estimate
  let now := l.periodsAt t
  let l := l.observe now
  let l := makeRoom t l.pending.length l
  let key := who.key
  match l.updateRow key (bookRows l.settings caps estimate now) with
  | (.error rejection, l) => (.error rejection, l)
  | (.ok (madeIn, globalMadeIn), l) =>
    let r : Reservation α :=
      { id, key, amount := estimate, madeIn, globalMadeIn, chargedAt := t, basis }
    (.ok (), { l with pending := l.pending ++ [r], dirty := true })

/-- Settle a reservation at its actual cost. The answer is the cost that was booked; an id that is
not open changes nothing. -/
def reconcile (l : Ledger α) (id : ReservationId) (actual : α) (t : Timestamp) :
    Option α × Ledger α :=
  match l.take id with
  | some (r, l) =>
    let actual := Amount.sanitize actual
    (some actual, l.settle r actual t)
  | none => (none, l)

def release (l : Ledger α) (id : ReservationId) (t : Timestamp) : Bool × Ledger α :=
  let (booked, l) := l.reconcile id 0 t
  (booked.isSome, l)

def priceBasis? (l : Ledger α) (id : ReservationId) : Option (PriceBasis α) :=
  (l.pending.find? fun r => r.id == id).bind (·.basis)

def report (key : String) (row : Row α) (now : Periods) (daily monthly : α) : UsageReport α :=
  ⟨key, row.day.view now.day daily, row.month.view now.month monthly⟩

/-- Spending under a key. Looking at a row counts as a use of it. -/
def usageOfKey (l : Ledger α) (key : String) (daily monthly : α) (t : Timestamp) :
    UsageReport α × Ledger α :=
  let (row, rows) := l.rows.modify key fun row => (row, row)
  (report key (row.getD .empty) (l.periodsAt t) daily monthly, { l with rows })

/-- Spending of a caller against the caller's budgets. -/
def usage (l : Ledger α) (who : Identity) (caps : Capabilities α) (t : Timestamp) :
    UsageReport α × Ledger α :=
  l.usageOfKey who.key caps.dailyBudget caps.monthlyBudget t

def globalUsage (l : Ledger α) (t : Timestamp) : UsageReport α :=
  report "global" l.global (l.periodsAt t) l.settings.globalDaily l.settings.globalMonthly

def identities (l : Ledger α) : List String :=
  (Dict.ofList (l.rows.toList.map fun (key, _) => (key, ()))).keys

end Ledger

end Admission
