import Admission.Ledger.Store
import Admission.Proofs.Json.Decoded
import Admission.Proofs.Timestamp

/-!
# Snapshots as text

A snapshot is read back from its text as it was, whatever its callers are called. Of its amounts it is asked that they
are finite and that a number is read as what it was written for.
-/

namespace Admission

variable {α : Type}

theorem Decode.nullable_eq_ok {write : α → Json} {decode : Decode α} {a : Option α} (hwrite : ∀ x, write x ≠ .null)
    (h : ∀ x ∈ a, decode .json (write x) = .ok x) : nullable decode .json (.nullable write a) = .ok a := by
  cases a with
  | none => rfl
  | some x => exact Faithful.nullable ⟨h x rfl, hwrite x⟩

/-! ## What is kept -/

structure StoredRow.Kept (row : StoredRow Double) : Prop where
  dailySpent : row.dailySpent.Kept
  monthlySpent : row.monthlySpent.Kept
  day : -2 ^ 63 ≤ row.day ∧ row.day < 2 ^ 63
  month : -2 ^ 31 ≤ row.month ∧ row.month < 2 ^ 31

/-- Every number of a snapshot is within the range that is kept for it. -/
structure Snapshot.Kept (s : Snapshot Double) : Prop where
  savedAt : ∀ t ∈ s.savedAt, t.Kept
  resetHour : s.resetHour < 2 ^ 8
  global : s.global.Kept
  identities : ∀ entry ∈ s.identities.toList, entry.2.Kept

/-! ## What is read -/

theorem StoredRow.ofJson_toJson {row : StoredRow Double} (h : row.Kept) : ofJson .json row.toJson = .ok row := by
  have hnames : ["daily_spent", "monthly_spent", "day", "month"].Nodup := by decide
  refine Decode.openStructure_eq_ok _ _ _ _ (by exact hnames) fun parts hformat hvalue => ?_
  simp only [List.forall_mem_cons] at hvalue
  obtain ⟨hdaily, hmonthly, hday, hmonth, -⟩ := hvalue
  have hgives := (Fields.Gives.required hformat hdaily (.float h.dailySpent.finite)).map StoredRow.mk
    |>.seq (.required hformat hmonthly (.float h.monthlySpent.finite))
    |>.seq (.part hformat none hday (Decode.intWithin_eq_ok h.day))
    |>.seq (.part hformat none hmonth (Decode.intWithin_eq_ok h.month))
  exact hgives

theorem StoredRow.toJson_legible {row : StoredRow Double} (h : row.Kept) : row.toJson.Legible := by
  refine .obj _ fun m hm => ?_
  simp only [List.mem_cons, List.not_mem_nil, or_false] at hm
  rcases hm with rfl | rfl | rfl | rfl
  · exact .float _ h.dailySpent.exact
  · exact .float _ h.monthlySpent.exact
  · exact .int _ (Json.fitsWord_of_lt h.day)
  · have := h.month
    exact .int _ (Json.fitsWord_of_lt (by omega))

theorem Timestamp.ofJson_toJson {t : Timestamp} (h : t.Kept) : ofJson .json t.toJson = .ok t := by
  unfold ofJson toJson
  simp only [ofText?_text h]

namespace Snapshot

theorem ofJson_toJson {s : Snapshot Double} (h : s.Kept) : ofJson .json s.toJson = .ok s := by
  have hnames : ["saved_at", "reset_hour_utc", "global", "identities"].Nodup := by decide
  refine Decode.openStructure_eq_ok _ _ _ _ (by exact hnames) fun parts hformat hvalue => ?_
  simp only [List.forall_mem_cons] at hvalue
  obtain ⟨hsaved, hhour, hglobal, hidentities, -⟩ := hvalue
  have hreadTime := Decode.nullable_eq_ok (fun _ hnull => by cases hnull) fun t ht => Timestamp.ofJson_toJson (h.savedAt t ht)
  have hreadRows := Decode.dictOf_map _ _ _ fun entry hentry => StoredRow.ofJson_toJson (h.identities entry hentry)
  have hgives := (Fields.Gives.part hformat (some none) hsaved hreadTime).map Snapshot.mk
    |>.seq (.required hformat hhour (.nat h.resetHour))
    |>.seq (.part hformat none hglobal (StoredRow.ofJson_toJson h.global))
    |>.seq (.part hformat none hidentities hreadRows)
  exact hgives

theorem toJson_legible {s : Snapshot Double} (h : s.Kept) : s.toJson.Legible := by
  refine .obj _ fun m hm => ?_
  simp only [List.mem_cons, List.not_mem_nil, or_false] at hm
  rcases hm with rfl | rfl | rfl | rfl
  · dsimp only
    cases s.savedAt with
    | none => exact .null
    | some t => exact .str _
  · have := h.resetHour
    exact .int _ (Json.fitsWord_of_lt (by omega))
  · exact StoredRow.toJson_legible h.global
  · refine .obj _ fun m hm => ?_
    obtain ⟨entry, hentry, rfl⟩ := List.mem_map.mp hm
    exact StoredRow.toJson_legible (h.identities entry hentry)

theorem ofText?_text {s : Snapshot Double} (h : s.Kept) : ofText? s.text = some s := by
  unfold ofText? text
  rw [Json.read?_pretty (toJson_legible h), Option.bind_some, ofJson_toJson h]
  rfl

end Snapshot

end Admission
