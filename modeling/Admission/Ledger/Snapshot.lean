import Admission.Ledger.Basic

/-!
# Snapshots of the ledger

The spending of a ledger without its reservations, to be kept and taken in again.
-/

namespace Admission

structure Snapshot (α : Type) where
  savedAt : Option Timestamp
  resetHour : Nat
  global : StoredRow α
  identities : Dict (StoredRow α)

/-- Why stored spending cannot be saved or taken in. -/
inductive LedgerError where
  | io (reason : String)
  /-- The stored text is no snapshot. -/
  | serialization
  /-- The days of the snapshot begin at another hour. -/
  | resetHour (written configured : Nat)
  | incompatible (reason : String)
  deriving DecidableEq, Repr

def LedgerError.message : LedgerError → String
  | io reason => "ledger I/O error: " ++ reason
  | serialization => "serialization error"
  | resetHour written configured =>
    "incompatible ledger: ledger was written with reset hour " ++ toString written ++
      ", configured " ++ toString configured
  | incompatible reason => "incompatible ledger: " ++ reason

namespace Ledger

variable {α : Type} [Amount α]

def snapshot (l : Ledger α) (now : Timestamp) : Snapshot α where
  savedAt := some now
  resetHour := l.settings.resetHour
  global := l.global.stored
  identities := .ofList (l.rows.toList.map fun (key, row) => (key, row.stored))

def absorbRow (l : Ledger α) (key : String) (stored : StoredRow α) : Ledger α :=
  let (_, rows) := l.rows.upsert (Row.evictionRank l.clock) key .empty fun row =>
    ((), row.absorb stored)
  { l with rows }

/-- Take in the spending of a snapshot. For every period the higher amount counts. -/
def merge (l : Ledger α) (s : Snapshot α) : Except LedgerError (Ledger α) :=
  if s.resetHour = l.settings.resetHour then
    let l := s.identities.toList.foldl (fun l (key, stored) => l.absorbRow key stored) l
    .ok { l with global := l.global.absorb s.global }
  else .error (.resetHour s.resetHour l.settings.resetHour)

/-- The flag of unsaved changes, which is cleared. -/
def takeDirty (l : Ledger α) : Bool × Ledger α := (l.dirty, { l with dirty := false })

def markDirty (l : Ledger α) : Ledger α := { l with dirty := true }

end Ledger

namespace StoredRow

def toJson (row : StoredRow Double) : Json :=
  .obj [("daily_spent", .float row.dailySpent), ("monthly_spent", .float row.monthlySpent),
    ("day", .int row.day), ("month", .int row.month)]

def ofJson : Decode (StoredRow Double) :=
  .openStructure ["daily_spent", "monthly_spent", "day", "month"] <|
    StoredRow.mk
      <$> .required "daily_spent" .float
      <*> .required "monthly_spent" .float
      <*> .required "day" (.intWithin (-Nat.pow 2 63) (Nat.pow 2 63))
      <*> .required "month" (.intWithin (-Nat.pow 2 31) (Nat.pow 2 31))

end StoredRow

namespace Snapshot

def toJson (s : Snapshot Double) : Json :=
  .obj [("saved_at", .nullable Timestamp.toJson s.savedAt), ("reset_hour_utc", .nat s.resetHour),
    ("global", s.global.toJson), ("identities", .ofDict (s.identities.map StoredRow.toJson))]

def ofJson : Decode (Snapshot Double) :=
  .openStructure ["saved_at", "reset_hour_utc", "global", "identities"] <|
    Snapshot.mk
      <$> .optional "saved_at" Timestamp.ofJson
      <*> .required "reset_hour_utc" (.nat 8)
      <*> .required "global" StoredRow.ofJson
      <*> .required "identities" (.dictOf StoredRow.ofJson)

end Snapshot

end Admission
