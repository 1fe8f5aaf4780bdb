import Admission.Proofs.Rate.Limiter

/-!
# What a check records

A check first brings the window of the caller up to date. Then it records one request if that is allowed,
and none if it is not.
-/

namespace Admission

/-! ## One window -/

namespace Window

variable (α : Type) [Amount α]

def upToDate (exactly : Bool) (window now : Nat) (w : Window) : Window :=
  match w.reshape α exactly window now with
  | .exact stamps => .exact (stamps.dropWhile fun t => window ≤ now - t)
  | .counter start current previous =>
    let b := rotate window now ⟨start, current, previous⟩
    .counter b.start b.current b.previous

def record (now : Nat) : Window → Window
  | .exact stamps => .exact (stamps ++ [now])
  | .counter start current previous => .counter start (current + 1) previous

theorem check_snd (exactly : Bool) (limit window now : Nat) (w : Window) :
    (w.check α exactly limit window now).2 =
      if (w.check α exactly limit window now).1.allowed then
        (w.upToDate α exactly window now).record now
      else w.upToDate α exactly window now := by
  unfold check upToDate
  cases w.reshape α exactly window now with
  | exact stamps =>
    simp only [checkExact]
    split
    · rfl
    · rfl
  | counter start current previous =>
    simp only [checkCounter]
    split
    · rfl
    · rfl

end Window

/-! ## The windows of a limiter -/

namespace Limiter

variable {α : Type} [Amount α] (l : Limiter α)

/-- The window of a key, as a request with this limit finds it. -/
def found (key : String) (limit now : Nat) : Window :=
  (l.startsFrom key limit now).upToDate α (l.isExact limit) l.settings.window now

/-- Only the window of one key was looked at. At most one request was recorded in it, and another window
may have been displaced by it. -/
structure Looked (key : String) (limit now : Nat) (recorded : Bool) (l l' : Limiter α) : Prop where
  settings : l'.settings = l.settings
  own : l'.windows.get? key =
    some (if recorded then (l.found key limit now).record now else l.found key limit now)
  others : ∀ other, other ≠ key →
    l'.windows.get? other = l.windows.get? other ∨ l'.windows.get? other = none

theorem check_looked (who : Identity) (limit now : Nat) (h : l.windows.Sound) (hlimit : limit ≠ 0) :
    Looked who.key limit now (l.check who limit now).1.allowed l (l.check who limit now).2 where
  settings := l.call_settings (.check who limit now)
  own := by
    have hown := l.get?_call_check who limit now h hlimit
    rw [verdict, Window.check_snd] at hown
    rw [l.check_fst who limit now hlimit]
    exact hown
  others other hne := l.get?_call_of_ne (.check who limit now) other h hne

/-- What a check does: where there is no limit nothing, and else it looks at the window. -/
structure Checked (who : Identity) (limit now : Nat) (recorded : Bool) (l l' : Limiter α) : Prop where
  unlimited : limit = 0 → l' = l
  looked : limit ≠ 0 → Looked who.key limit now recorded l l'

theorem check_checked (who : Identity) (limit now : Nat) (h : l.windows.Sound) :
    Checked who limit now (l.check who limit now).1.allowed l (l.check who limit now).2 where
  unlimited hzero := l.call_of_zero (.check who limit now) hzero
  looked hlimit := l.check_looked who limit now h hlimit

theorem limit_ne_zero_of_refused (who : Identity) (limit now : Nat)
    (h : (l.check who limit now).1.allowed = false) : limit ≠ 0 := by
  rintro rfl
  cases h

end Limiter

end Admission
