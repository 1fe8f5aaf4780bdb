import Mathlib
import Admission.Rate.Limiter
import Admission.Proofs.Shards

/-!
# Calls on a limiter

A call looks at the window of one key. Every other window stays as it is, unless it is displaced.
-/

namespace Admission.Limiter

variable {α : Type} [Amount α]

inductive Call where
  | check (who : Identity) (limit now : Nat)
  | peek (who : Identity) (limit now : Nat)

namespace Call

def who : Call → Identity
  | check who .. | peek who .. => who

def limit : Call → Nat
  | check _ limit _ | peek _ limit _ => limit

end Call

def call (l : Limiter α) : Call → Limiter α
  | .check who limit now => (l.check who limit now).2
  | .peek who limit now => (l.peek who limit now).2

def run (l : Limiter α) (calls : List Call) : Limiter α := calls.foldl call l

theorem run_append_singleton (l : Limiter α) (calls : List Call) (c : Call) :
    l.run (calls ++ [c]) = (l.run calls).call c := by
  simp [run]

/-- A window is not displaced between two limiters. -/
def Undisturbed (key : String) (l l' : Limiter α) : Prop :=
  (l.windows.get? key).isSome → (l'.windows.get? key).isSome

/-! ## One call -/

def fresh (l : Limiter α) (limit now : Nat) : Window := .empty (l.isExact limit) now

def startsFrom (l : Limiter α) (key : String) (limit now : Nat) : Window :=
  (l.windows.get? key).getD (l.fresh limit now)

def verdict (l : Limiter α) (limit now : Nat) (w : Window) : RateCheck × Window :=
  Window.check α (l.isExact limit) limit l.settings.window now w

theorem check_fst (l : Limiter α) (who : Identity) (limit now : Nat) (h : limit ≠ 0) :
    (l.check who limit now).1 = (l.verdict limit now (l.startsFrom who.key limit now)).1 := by
  have hcheck : (l.check who limit now).1 =
      (l.windows.upsert rank who.key (l.fresh limit now) (l.verdict limit now)).1 := by
    unfold check
    rw [if_neg h]
    rfl
  rw [hcheck]
  exact l.windows.upsert_fst rank who.key (l.fresh limit now) (l.verdict limit now)

theorem check_congr (l l' : Limiter α) (who : Identity) (limit now : Nat)
    (hsettings : l'.settings = l.settings)
    (hwindow : l'.windows.get? who.key = l.windows.get? who.key) :
    (l'.check who limit now).1 = (l.check who limit now).1 := by
  by_cases h : limit = 0
  · subst h
    rfl
  · rw [l'.check_fst who limit now h, l.check_fst who limit now h]
    simp only [startsFrom, fresh, verdict, isExact, hsettings, hwindow]

theorem call_of_zero (l : Limiter α) (c : Call) (h : c.limit = 0) : l.call c = l := by
  cases c with
  | check who limit now =>
    change limit = 0 at h
    subst h
    rfl
  | peek who limit now =>
    change limit = 0 at h
    subst h
    rfl

theorem call_check (l : Limiter α) (who : Identity) (limit now : Nat) (h : limit ≠ 0) :
    l.call (.check who limit now) =
      { l with windows :=
          (l.windows.upsert rank who.key (l.fresh limit now) (l.verdict limit now)).2 } := by
  show (l.check who limit now).2 = _
  unfold check
  rw [if_neg h]
  rfl

theorem call_peek (l : Limiter α) (who : Identity) (limit now : Nat) (h : limit ≠ 0) :
    l.call (.peek who limit now) =
      { l with windows := (l.windows.modify who.key (Window.inWindow α l.settings.window now)).2 } := by
  show (l.peek who limit now).2 = _
  unfold peek
  rw [if_neg h]

@[simp] theorem call_settings (l : Limiter α) (c : Call) : (l.call c).settings = l.settings := by
  by_cases h : c.limit = 0
  · rw [l.call_of_zero c h]
  · cases c with
    | check who limit now => rw [l.call_check who limit now h]
    | peek who limit now => rw [l.call_peek who limit now h]

@[simp] theorem run_settings (l : Limiter α) (calls : List Call) :
    (l.run calls).settings = l.settings := by
  induction calls using List.reverseRecOn with
  | nil => rfl
  | append_singleton calls c ih => rw [run_append_singleton, call_settings, ih]

theorem call_sound (l : Limiter α) (c : Call) (h : l.windows.Sound) : (l.call c).windows.Sound := by
  by_cases hlimit : c.limit = 0
  · rw [l.call_of_zero c hlimit]
    exact h
  · cases c with
    | check who limit now =>
      rw [l.call_check who limit now hlimit]
      exact l.windows.upsert_sound rank who.key (l.fresh limit now) (l.verdict limit now) h
    | peek who limit now =>
      rw [l.call_peek who limit now hlimit]
      exact l.windows.modify_sound who.key (Window.inWindow α l.settings.window now) h

theorem run_sound (l : Limiter α) (calls : List Call) (h : l.windows.Sound) :
    (l.run calls).windows.Sound := by
  induction calls using List.reverseRecOn with
  | nil => exact h
  | append_singleton calls c ih =>
    rw [run_append_singleton]
    exact call_sound _ c ih

theorem get?_call_check (l : Limiter α) (who : Identity) (limit now : Nat) (h : l.windows.Sound)
    (hlimit : limit ≠ 0) :
    (l.call (.check who limit now)).windows.get? who.key =
      some (l.verdict limit now (l.startsFrom who.key limit now)).2 := by
  rw [l.call_check who limit now hlimit]
  exact l.windows.get?_upsert_self rank who.key (l.fresh limit now) (l.verdict limit now) h

theorem get?_call_peek (l : Limiter α) (who : Identity) (limit now : Nat) (h : l.windows.Sound)
    (hlimit : limit ≠ 0) :
    (l.call (.peek who limit now)).windows.get? who.key =
      (l.windows.get? who.key).map fun w => (w.inWindow α l.settings.window now).2 := by
  rw [l.call_peek who limit now hlimit]
  have hget := l.windows.get?_modify who.key (Window.inWindow α l.settings.window now) h who.key
  exact hget.trans (if_pos rfl)

theorem get?_call_of_ne (l : Limiter α) (c : Call) (key : String) (h : l.windows.Sound)
    (hne : key ≠ c.who.key) :
    (l.call c).windows.get? key = l.windows.get? key ∨ (l.call c).windows.get? key = none := by
  by_cases hlimit : c.limit = 0
  · rw [l.call_of_zero c hlimit]
    exact Or.inl rfl
  · cases c with
    | check who limit now =>
      have hget := l.windows.get?_upsert_of_ne rank who.key (l.fresh limit now)
        (l.verdict limit now) h key hne
      rw [l.call_check who limit now hlimit]
      split at hget
      · exact Or.inr hget
      · exact Or.inl hget
    | peek who limit now =>
      have hget := l.windows.get?_modify who.key (Window.inWindow α l.settings.window now) h key
      rw [l.call_peek who limit now hlimit]
      exact Or.inl (hget.trans (if_neg hne))

end Admission.Limiter
