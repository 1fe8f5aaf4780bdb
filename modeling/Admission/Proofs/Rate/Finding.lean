import Admission.Proofs.Rate.Counter
import Admission.Proofs.Rate.Peek
import Admission.Proofs.Rate.Recorded

/-!
# What a call finds

Before a call decides anything, times that left the window are dropped, and its buckets are moved on. In how
many steps that was done makes no difference to what it finds, as long as the number of buckets that went by
is not cut short.
-/

namespace Admission

/-! ## One window -/

namespace Window

variable {window now later first last limit : Nat} {exactly : Bool} {w full thin : Window}

def upTo (window now : Nat) : Window → Window
  | .exact stamps => .exact (live window now stamps)
  | .counter start current previous => (rotate window now ⟨start, current, previous⟩).window

/-- Not so many buckets went by until `later` that their number is cut short. -/
def Sees (window later : Nat) : Window → Prop
  | .exact _ => True
  | .counter start _ _ => later < start + Nat.pow 2 32 * window

def HasForm (exactly : Bool) : Window → Prop
  | .exact _ => exactly = true
  | .counter .. => exactly = false

def Aligned (window first last : Nat) : Window → Prop
  | .exact _ => True
  | .counter start _ _ => start = first + window * place window first last

/-! ### Moving on in steps -/

theorem live_live (stamps : List Nat) (hle : now ≤ later) :
    live window later (live window now stamps) = live window later stamps := by
  unfold live
  rw [List.filter_filter]
  apply List.filter_congr
  intro s _
  rw [← Bool.decide_and, decide_eq_decide]
  omega

theorem rotate_start_le (hwindow : 0 < window) (b : Bucket) : b.start ≤ (rotate window now b).start := by
  rw [rotate_eq window now b hwindow]
  exact Nat.le_add_right _ _

theorem gone_lt {start : Nat} (hwindow : 0 < window) (h : later < start + Nat.pow 2 32 * window) :
    (later - start) / window < Nat.pow 2 32 := by
  have hword : 0 < Nat.pow 2 32 * window := Nat.mul_pos (Nat.pow_pos (by decide)) hwindow
  rw [Nat.div_lt_iff_lt_mul hwindow]
  generalize Nat.pow 2 32 * window = word at h hword ⊢
  omega

theorem rotate_of_rotate (b : Bucket) (hle : now ≤ later)
    (hsees : later < b.start + Nat.pow 2 32 * window) :
    rotate window later (rotate window now b) = rotate window later b := by
  rcases window.eq_zero_or_pos with rfl | hwindow
  · -- A window without length sees only times before its start.
    have hnone : rotate 0 now b = b := by
      unfold rotate
      rw [Nat.sub_eq_zero_of_le (by omega)]
      rfl
    rw [hnone]
  · have hless := gone_lt hwindow hsees
    obtain ⟨more, hmore⟩ : ∃ more, (later - b.start) / window = (now - b.start) / window + more :=
      Nat.exists_eq_add_of_le (Nat.div_le_div_right (Nat.sub_le_sub_right hle _))
    rw [rotate_eq window later _ hwindow, rotate_eq window later b hwindow, rotate_eq window now b hwindow]
    dsimp only
    rw [← Nat.sub_sub, Nat.sub_mul_div]
    generalize (now - b.start) / window = gone at hmore
    rw [hmore] at hless ⊢
    rw [Nat.mod_eq_of_lt (show gone < _ by omega), Nat.add_sub_cancel_left,
      Nat.mod_eq_of_lt (show more < _ by omega), Nat.mod_eq_of_lt hless, Bucket.mk.injEq]
    refine ⟨by ring, ?_, ?_⟩
    · by_cases hnone : more = 0 <;> simp [hnone]
    · by_cases hnone : more = 0
      · simp [hnone]
      · by_cases hgone : gone = 0
        · simp [hgone]
        · simp [hgone, hnone]
          omega

theorem Sees.upTo (h : w.Sees window later) : (w.upTo window now).Sees window later := by
  cases w with
  | exact stamps => trivial
  | counter start current previous =>
    rcases window.eq_zero_or_pos with rfl | hwindow
    · change later < start + Nat.pow 2 32 * 0 at h
      show later < (rotate 0 now ⟨start, current, previous⟩).start + Nat.pow 2 32 * 0
      unfold rotate
      dsimp only
      split_ifs <;> simpa using h
    · exact lt_of_lt_of_le h (Nat.add_le_add_right (rotate_start_le hwindow ⟨start, current, previous⟩) _)

theorem upTo_upTo (hle : now ≤ later) (h : w.Sees window later) :
    (w.upTo window now).upTo window later = w.upTo window later := by
  cases w with
  | exact stamps => exact congrArg exact (live_live stamps hle)
  | counter start current previous =>
    exact congrArg Bucket.window (rotate_of_rotate ⟨start, current, previous⟩ hle h)

theorem Aligned.sees (hwindow : exactly = false → 0 < window) (hform : w.HasForm exactly)
    (h : w.Aligned window first last) (hnear : Near window first last later) : w.Sees window later := by
  cases w with
  | exact stamps => trivial
  | counter start current previous =>
    have hplace := Nat.lt_mul_div_succ (later - first) (hwindow hform)
    have hbound : window * (place window first later + 1) ≤
        window * (place window first last + Nat.pow 2 32) := Nat.mul_le_mul_left _ hnear
    change later < start + Nat.pow 2 32 * window
    rw [h]
    unfold place at hbound ⊢
    rw [Nat.mul_add window _ (Nat.pow 2 32), mul_comm window (Nat.pow 2 32)] at hbound
    omega

/-! ### What a call finds -/

section

variable (α : Type) [Amount α]

theorem upToDate_eq (hform : w.HasForm exactly) (horder : w.InOrder now) :
    w.upToDate α exactly window now = w.upTo window now := by
  cases w with
  | exact stamps =>
    obtain rfl : exactly = true := hform
    exact congrArg exact (dropWhile_eq_live window now stamps horder.1)
  | counter start current previous =>
    obtain rfl : exactly = false := hform
    rfl

theorem InOrder.upTo (h : w.InOrder now) : (w.upTo window now).InOrder now := by
  cases w with
  | exact stamps =>
    exact ⟨h.1.sublist List.filter_sublist, fun s hs => h.2 s (List.mem_of_mem_filter hs)⟩
  | counter start current previous => trivial

theorem InOrder.record (h : w.InOrder now) : (w.record now).InOrder now := by
  cases w with
  | exact stamps =>
    refine ⟨List.pairwise_append.mpr ⟨h.1, List.pairwise_singleton _ _, ?_⟩, ?_⟩
    · intro s hs t ht
      rw [List.mem_singleton.mp ht]
      exact h.2 s hs
    · intro s hs
      rcases List.mem_append.mp hs with hs | hs
      · exact h.2 s hs
      · exact (List.mem_singleton.mp hs).le
  | counter start current previous => trivial

theorem HasForm.upTo (h : w.HasForm exactly) : (w.upTo window now).HasForm exactly := by
  cases w with
  | exact stamps => exact h
  | counter start current previous => exact h

theorem HasForm.record (h : w.HasForm exactly) : (w.record now).HasForm exactly := by
  cases w with
  | exact stamps => exact h
  | counter start current previous => exact h

theorem Aligned.record (h : w.Aligned window first last) : (w.record now).Aligned window first last := by
  cases w with
  | exact stamps => trivial
  | counter start current previous => exact h

theorem Aligned.upTo (hwindow : exactly = false → 0 < window) (hform : w.HasForm exactly)
    (h : w.Aligned window first last) (hle : last ≤ now) (hnear : Near window first last now) :
    (w.upTo window now).Aligned window first now := by
  cases w with
  | exact stamps => trivial
  | counter start current previous =>
    have hstart : start = first + window * place window first last := h
    obtain ⟨gone, hgone⟩ := Nat.exists_eq_add_of_le (place_mono window first hle)
    unfold Near at hnear
    show (rotate window now ⟨start, current, previous⟩).start = _
    rw [rotate_eq window now _ (hwindow hform)]
    dsimp only
    rw [gone_aligned (b := ⟨start, current, previous⟩) hstart, hgone, Nat.add_sub_cancel_left,
      Nat.mod_eq_of_lt (by omega), hstart]
    ring

theorem check_upTo (hwindow : exactly = false → 0 < window) (hform : w.HasForm exactly)
    (horder : w.InOrder now) :
    (w.upTo window now).check α exactly limit window now = w.check α exactly limit window now := by
  cases w with
  | exact stamps =>
    obtain rfl : exactly = true := hform
    have hsame : checkExact limit window now (live window now stamps) =
        checkExact limit window now stamps := by
      unfold checkExact
      rw [dropWhile_eq_live window now stamps horder.1,
        dropWhile_eq_live window now (live window now stamps) (horder.1.sublist List.filter_sublist),
        live_live stamps le_rfl]
    show ((checkExact limit window now (live window now stamps)).1,
      exact (checkExact limit window now (live window now stamps)).2) = _
    rw [hsame]
    rfl
  | counter start current previous =>
    obtain rfl : exactly = false := hform
    have hsame : checkCounter α limit window now (rotate window now ⟨start, current, previous⟩) =
        checkCounter α limit window now ⟨start, current, previous⟩ := by
      unfold checkCounter
      rw [rotate_rotate window now _ (hwindow rfl)]
    show ((checkCounter α limit window now (rotate window now ⟨start, current, previous⟩)).1,
      (checkCounter α limit window now (rotate window now ⟨start, current, previous⟩)).2.window) = _
    rw [hsame]
    rfl

theorem inWindow_upTo (hwindow : exactly = false → 0 < window) (hform : w.HasForm exactly) :
    ((w.upTo window now).inWindow α window now).1 = (w.inWindow α window now).1 := by
  cases w with
  | exact stamps =>
    show ((live window now (live window now stamps)).length : α) = ((live window now stamps).length : α)
    rw [live_live stamps le_rfl]
  | counter start current previous =>
    show weighted α window now (rotate window now (rotate window now ⟨start, current, previous⟩)) = _
    rw [rotate_rotate window now _ (hwindow hform)]
    rfl

theorem inWindow_snd (hform : w.HasForm exactly) :
    (w.inWindow α window now).2 = if exactly then w else w.upTo window now := by
  cases w with
  | exact stamps =>
    obtain rfl : exactly = true := hform
    rfl
  | counter start current previous =>
    obtain rfl : exactly = false := hform
    rfl

end

/-! ### Two windows that nobody tells apart -/

/-- From `now` on, a call that sees the whole of the thin window finds the same in the full one. -/
def Alike (window now : Nat) (full thin : Window) : Prop :=
  ∀ later, now ≤ later → thin.Sees window later →
    full.Sees window later ∧ full.upTo window later = thin.upTo window later

namespace Alike

theorem refl (w : Window) : w.Alike window now w := fun _ _ hsees => ⟨hsees, rfl⟩

theorem mono (h : full.Alike window now thin) (hle : now ≤ later) : full.Alike window later thin :=
  fun t ht => h t (hle.trans ht)

theorem rel_mono {full thin : Option Window} (h : Option.Rel (Alike window now) full thin)
    (hle : now ≤ later) : Option.Rel (Alike window later) full thin := by
  cases h with
  | none => exact .none
  | some h => exact .some (h.mono hle)

theorem upTo (h : full.Alike window now thin) : (full.upTo window now).Alike window now thin := by
  intro later hle hsees
  obtain ⟨hfull, hsame⟩ := h later hle hsees
  exact ⟨hfull.upTo, (upTo_upTo hle hfull).trans hsame⟩

variable (α : Type) [Amount α]

theorem look (h : full.Alike window now thin) (hfull : full.HasForm exactly) :
    (full.inWindow α window now).2.Alike window now thin := by
  rw [inWindow_snd α hfull]
  split_ifs
  · exact h
  · exact h.upTo

theorem inWindow (h : full.Alike window now thin) (hwindow : exactly = false → 0 < window)
    (hfull : full.HasForm exactly) (hthin : thin.HasForm exactly) (hsees : thin.Sees window now) :
    (full.inWindow α window now).1 = (thin.inWindow α window now).1 ∧
      (full.inWindow α window now).2.Alike window now (thin.inWindow α window now).2 := by
  have hsame := (h now le_rfl hsees).2
  rw [inWindow_snd α hfull, inWindow_snd α hthin, ← inWindow_upTo α hwindow hfull, hsame,
    inWindow_upTo α hwindow hthin]
  refine ⟨rfl, ?_⟩
  split_ifs
  · exact h
  · exact .refl _

theorem check (h : full.Alike window now thin) (hwindow : exactly = false → 0 < window)
    (hfull : full.HasForm exactly) (hthin : thin.HasForm exactly) (hforder : full.InOrder now)
    (htorder : thin.InOrder now) (hsees : thin.Sees window now) (limit : Nat) :
    full.check α exactly limit window now = thin.check α exactly limit window now := by
  rw [← check_upTo α hwindow hfull hforder, (h now le_rfl hsees).2, check_upTo α hwindow hthin htorder]

end Alike

end Window

end Admission
