import Admission.Config.Basic
import Admission.Rate.Window
import Admission.Shards

/-!
# The rate limiter

A window of requests for every caller. A caller who was never seen, or whose window was displaced,
has made no requests.
-/

namespace Admission

structure RateSettings where
  /-- The length of the window in nanoseconds. -/
  window : Nat
  maxTracked : Nat
  /-- Limits above this one are watched by counters. -/
  maxExact : Nat
  shards : Nat := 16
  deriving DecidableEq, Repr

def RateSettings.ofConfig (r : RateLimits) : RateSettings where
  window := r.windowSeconds * 1000000000
  maxTracked := r.maxTracked
  maxExact := r.maxExact

/-- Counts are weighed in the numbers `α`. -/
structure Limiter (α : Type) where
  settings : RateSettings
  windows : Shards String Window

namespace Limiter

variable {α : Type} [Amount α]

def new (assign : String → Nat) (settings : RateSettings) : Limiter α where
  settings := settings
  windows := .new assign settings.maxTracked settings.shards

/-- All windows may be displaced alike. -/
def rank (_ : Window) : Option Nat := some 0

/-- The limit is small enough to keep the time of every request. -/
def isExact (l : Limiter α) (limit : Nat) : Bool := limit ≤ l.settings.maxExact

/-- One more request of a caller, which is recorded if it is allowed. A limit of 0 is none. -/
def check (l : Limiter α) (who : Identity) (limit now : Nat) : RateCheck × Limiter α :=
  if limit = 0 then (.unlimited, l)
  else
    let exactly := l.isExact limit
    let (c, windows) := l.windows.upsert rank who.key (.empty exactly now)
      (Window.check α exactly limit l.settings.window now)
    (c, { l with windows })

/-- What a request would find, without making it. -/
def peek (l : Limiter α) (who : Identity) (limit now : Nat) : RateCheck × Limiter α :=
  if limit = 0 then (.unlimited, l)
  else
    let (used, windows) := l.windows.modify who.key (Window.inWindow α l.settings.window now)
    let remaining := Amount.floor (Amount.larger ((limit : α) - used.getD 0) 0)
    (⟨remaining > 0, some remaining, none⟩, { l with windows })

end Limiter

end Admission
