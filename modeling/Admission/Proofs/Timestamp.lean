import Admission.Proofs.Calendar
import Admission.Proofs.Decimal
import Admission.Timestamp

/-!
# The text of a timestamp

A moment whose text is written down is read back from it, a leap second at the end of a minute included.
-/

namespace Admission.Timestamp

/-- A moment of the years that are kept. Only the last second of a minute can be a leap second. -/
structure Kept (t : Timestamp) : Prop where
  first : firstSecond ≤ t.seconds
  last : t.seconds ≤ lastSecond
  nanos : t.nanos < 1000000000 ∨ t.seconds % 60 = 59 ∧ t.nanos < 2000000000

/-! ## Parts of the text -/

theorem isBlank_of_isDigit {c : Char} (h : c.isDigit = true) : Text.isBlank c = false := by
  simp only [Char.isDigit, Bool.and_eq_true, decide_eq_true_eq] at h
  have hlow : 48 ≤ c.toNat := h.1
  have hhigh : c.toNat ≤ 57 := h.2
  simp only [Text.isBlank, Bool.or_eq_false_iff, Bool.and_eq_false_iff, decide_eq_false_iff_not, beq_eq_false_iff_ne]
  omega

theorem trimStart_digits {ds : List Char} (hds : ds ≠ []) (hdigits : ∀ c ∈ ds, c.isDigit = true) (cs : List Char) :
    Text.trimStart (ds ++ cs) = ds ++ cs := by
  cases ds with
  | nil => exact absurd rfl hds
  | cons c rest =>
    unfold Text.trimStart
    rw [List.cons_append, List.dropWhile_cons, isBlank_of_isDigit (hdigits c List.mem_cons_self)]
    rfl

theorem number?_append (width : Nat) {ds : List Char} (cs : List Char) (hds : ds ≠ [])
    (hdigits : ∀ c ∈ ds, c.isDigit = true) (hwidth : ds.length ≤ width) (hend : (cs.take (width - ds.length)).takeWhile Char.isDigit = []) :
    number? width (ds ++ cs) = some (Decimal.ofDigits ds, cs) := by
  have hread : ((ds ++ cs).take width).takeWhile Char.isDigit = ds := by
    rw [List.take_append, List.take_of_length_le hwidth, List.takeWhile_append_of_pos hdigits, hend, List.append_nil]
  unfold number?
  simp only [hread, List.isEmpty_eq_false_iff.mpr hds, Bool.false_eq_true, if_false, List.drop_left]

theorem number?_padded (width : Nat) {n : Nat} (hwidth : 0 < width) (h : n < 10 ^ width) (cs : List Char) :
    number? width (Decimal.padded width n ++ cs) = some (n, cs) := by
  have hlength := Decimal.length_padded hwidth h
  have hread := number?_append width cs (Decimal.padded_ne_nil width n)
    (fun _ hc => Decimal.isDigit_of_mem_padded hc) (Nat.le_of_eq hlength) (by rw [hlength, Nat.sub_self]; rfl)
  rwa [Decimal.ofDigits_padded] at hread

theorem field?_twoDigits {n : Nat} (h : n < 100) (cs : List Char) : field? (twoDigits n ++ cs) = some (n, cs) := by
  unfold field? twoDigits
  rw [trimStart_digits (Decimal.padded_ne_nil 2 n) fun _ hc => Decimal.isDigit_of_mem_padded hc]
  exact number?_padded 2 (by decide) h cs

theorem year?_yearChars (year : Int) (cs : List Char) :
    year? (yearChars year ++ '-' :: cs) = some (year, '-' :: cs) := by
  have hsigned : ∀ n, number? (Decimal.padded 4 n ++ '-' :: cs).length (Decimal.padded 4 n ++ '-' :: cs) =
      some (n, '-' :: cs) := by
    intro n
    have hread := number?_append (Decimal.padded 4 n ++ '-' :: cs).length ('-' :: cs)
      (Decimal.padded_ne_nil 4 n) (fun _ hc => Decimal.isDigit_of_mem_padded hc) (by simp) (by simp)
    rwa [Decimal.ofDigits_padded] at hread
  have hplain : ∀ n < 10000, year? (Decimal.padded 4 n ++ '-' :: cs) = some ((n : Int), '-' :: cs) := by
    intro n hn
    have hread := number?_padded 4 (by decide) hn ('-' :: cs)
    have hdigit : ∀ c ∈ Decimal.padded 4 n, c.isDigit = true := fun _ hc => Decimal.isDigit_of_mem_padded hc
    have htrim := trimStart_digits (Decimal.padded_ne_nil 4 n) hdigit ('-' :: cs)
    cases hpadded : Decimal.padded 4 n with
    | nil => exact absurd hpadded (Decimal.padded_ne_nil 4 n)
    | cons c rest =>
      rw [hpadded] at hread hdigit htrim
      have hc := hdigit c List.mem_cons_self
      unfold year?
      rw [htrim]
      split
      · next heq =>
        cases heq
        cases hc
      · next heq =>
        cases heq
        cases hc
      · rw [hread]
        rfl
  unfold yearChars
  split_ifs with hfour hminus
  · rw [hplain _ (by omega), Int.toNat_of_nonneg hfour.1]
  · refine (congrArg (Option.map _) (hsigned year.natAbs)).trans ?_
    show some (-(year.natAbs : Int), '-' :: cs) = _
    rw [Int.ofNat_natAbs_of_nonpos (Int.le_of_lt hminus), Int.neg_neg]
  · refine (congrArg (Option.map _) (hsigned year.natAbs)).trans ?_
    show some ((year.natAbs : Int), '-' :: cs) = _
    rw [Int.natAbs_of_nonneg (Int.not_lt.mp hminus)]

theorem fraction?_padded {width n : Nat} (hwidth : 0 < width) (hnine : width ≤ 9) (h : n < 10 ^ width)
    (cs : List Char) :
    fraction? ('.' :: (Decimal.padded width n ++ 'Z' :: cs)) = some (n * 10 ^ (9 - width), 'Z' :: cs) := by
  have hlength := Decimal.length_padded hwidth h
  have hdigits : ∀ c ∈ Decimal.padded width n, c.isDigit = true := fun _ hc => Decimal.isDigit_of_mem_padded hc
  have hread : (Decimal.padded width n ++ 'Z' :: cs).takeWhile Char.isDigit = Decimal.padded width n := by
    rw [List.takeWhile_append_of_pos hdigits]
    exact List.append_nil _
  have hrest : (Decimal.padded width n ++ 'Z' :: cs).dropWhile Char.isDigit = 'Z' :: cs := by
    rw [List.dropWhile_append_of_pos hdigits]
    rfl
  have hkept : (Decimal.padded width n).take 9 = Decimal.padded width n :=
    List.take_of_length_le (by omega)
  unfold fraction?
  simp only [hread, hrest, hkept, hlength, List.isEmpty_eq_false_iff.mpr (Decimal.padded_ne_nil width n),
    Bool.false_eq_true, if_false, Decimal.ofDigits_padded]
  rfl

theorem fraction?_fractionChars {n : Nat} (h : n < 1000000000) (cs : List Char) :
    fraction? (fractionChars n ++ 'Z' :: cs) = some (n, 'Z' :: cs) := by
  unfold fractionChars
  split_ifs with hzero hmilli hmicro
  · rw [eq_of_beq hzero]
    rfl
  · have hwhole : n / 1000000 * 10 ^ (9 - 3) = n := Nat.div_mul_cancel (Nat.dvd_of_mod_eq_zero (eq_of_beq hmilli))
    rw [List.cons_append, fraction?_padded (by decide) (by decide) (by omega), hwhole]
  · have hwhole : n / 1000 * 10 ^ (9 - 6) = n := Nat.div_mul_cancel (Nat.dvd_of_mod_eq_zero (eq_of_beq hmicro))
    rw [List.cons_append, fraction?_padded (by decide) (by decide) (by omega), hwhole]
  · rw [List.cons_append, fraction?_padded (by decide) (by decide) (by omega)]
    exact congrArg (fun n => some (n, 'Z' :: cs)) (Nat.mul_one n)

/-! ## The whole text -/

theorem daysInMonth_le (year : Int) (month : Nat) : Date.daysInMonth year month ≤ 31 := by
  unfold Date.daysInMonth
  split_ifs <;> omega

theorem ofText?_fields {date : Date} {hour minute second nanos : Nat} (hdate : date.isValid = true) (hhour : hour ≤ 23)
    (hminute : minute ≤ 59) (hsecond : second ≤ 60) (hnanos : nanos < 1000000000) :
    ofText? (String.ofList (yearChars date.year ++ '-' :: twoDigits date.month ++ '-' :: twoDigits date.day ++ 'T' ::
      twoDigits hour ++ ':' :: twoDigits minute ++ ':' :: twoDigits second ++ fractionChars nanos ++ ['Z'])) =
      (ofSeconds? (date.toDay * 86400 +
        (hour * 3600 + minute * 60 + ((if second == 60 then 59 else second : Nat) : Int)))).bind fun here =>
          (ofSeconds? (here.seconds - 0)).bind fun t =>
            some { t with nanos := if second == 60 then nanos + 1000000000 else nanos } := by
  have hdash : ∀ cs, mark? '-' ('-' :: cs) = some cs := fun _ => rfl
  have hcolon : ∀ cs, mark? ':' (':' :: cs) = some cs := fun _ => rfl
  have hoffset : offset? (Text.trimStart ['Z']) = some (0, []) := rfl
  have hnext : ∀ {β γ : Type} (x : β) (f : β → Option γ), (some x >>= f) = f x := fun _ _ => rfl
  have hparts := hdate
  simp only [Date.isValid, Bool.and_eq_true, decide_eq_true_eq] at hparts
  have hmonth : date.month < 100 := by omega
  have hday : date.day < 100 := by
    have := daysInMonth_le date.year date.month
    omega
  have hinRange : (!true || !date.isValid || decide (hour > 23) || decide (minute > 59) || decide (second > 60)) =
      false := by
    simp [hdate, hhour, hminute, hsecond]
  unfold ofText?
  rw [String.toList_ofList]
  simp only [List.append_assoc, List.cons_append]
  rw [year?_yearChars, hnext, hdash, hnext, field?_twoDigits hmonth, hnext, hdash, hnext, field?_twoDigits hday, hnext]
  show (some _ >>= _) = _
  rw [hnext, field?_twoDigits (by omega), hnext, hcolon, hnext, field?_twoDigits (by omega), hnext, hcolon, hnext,
    field?_twoDigits (by omega), hnext, fraction?_fractionChars hnanos, hnext, hoffset, hnext]
  exact if_neg (Bool.eq_false_iff.mp hinRange)

theorem ofText?_text {t : Timestamp} (h : t.Kept) : ofText? t.text = some t := by
  obtain ⟨hfirst, hlast, hnanos⟩ := h
  have hkept : ofSeconds? t.seconds = some ⟨t.seconds, 0⟩ := if_pos ⟨hfirst, hlast⟩
  have hfdiv : t.seconds.fdiv 86400 = t.seconds / 86400 := Int.fdiv_eq_ediv_of_nonneg _ (by decide)
  have hfmod : t.seconds.fmod 86400 = t.seconds % 86400 := Int.fmod_eq_emod_of_nonneg _ (by decide)
  have hday := Date.toDay_ofDay (t.seconds.fdiv 86400)
  unfold text
  dsimp only
  rw [ofText?_fields (Date.ofDay_isValid _) (by omega) (by omega) (by omega) (by omega), hday]
  -- The seconds that are read are those of the timestamp, and a sixtieth is the leap second.
  have hsecond : (((t.seconds.fmod 86400).toNat % 60 + t.nanos / 1000000000 == 60) = true) ↔ 1000000000 ≤ t.nanos := by
    rw [beq_iff_eq]
    omega
  have hclock : t.seconds.fdiv 86400 * 86400 + (((t.seconds.fmod 86400).toNat / 3600 : Nat) * 3600 +
      ((t.seconds.fmod 86400).toNat / 60 % 60 : Nat) * 60 +
      ((if 1000000000 ≤ t.nanos then 59
        else (t.seconds.fmod 86400).toNat % 60 + t.nanos / 1000000000 : Nat) : Int)) = t.seconds := by
    rw [hfdiv, hfmod]
    split_ifs <;> omega
  have hnanos' : (if 1000000000 ≤ t.nanos then t.nanos % 1000000000 + 1000000000 else t.nanos % 1000000000) =
      t.nanos := by
    split_ifs <;> omega
  simp only [hsecond, hclock, hkept, Option.bind_some, Int.sub_zero, hnanos']

end Admission.Timestamp
