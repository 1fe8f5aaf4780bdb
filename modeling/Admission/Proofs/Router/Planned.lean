import Admission.Proofs.Config
import Admission.Proofs.Router.Plan

/-!
# The tiers that a plan tries, in their order

Where no ordinal stands twice, a complexity and a ceiling determine the tier that is tried first. After it
come all tiers within the ceiling that are lower, from the highest to the lowest.
-/

namespace Admission

/-! ## Ordinals -/

namespace TierSet

variable {α : Type}

theorem place_perm (tier : Tier α) (tiers : List (Tier α)) : (place tier tiers).Perm (tier :: tiers) := by
  fun_induction place tier tiers with
  | case1 => exact .refl _
  | case2 other rest hle => exact .refl _
  | case3 other rest hlt ih => exact (ih.cons other).trans (.swap tier other rest)

theorem ofList_perm (tiers : List (Tier α)) : (ofList tiers).toList.Perm tiers := by
  induction tiers with
  | nil => exact .refl _
  | cons tier rest ih => exact (place_perm tier _).trans (ih.cons tier)

end TierSet

theorem Config.Valid.ordinals_nodup {α : Type} [Amount α] {c : Config α} (h : c.Valid) :
    (c.routing.tierSet.toList.map (·.ordinal)).Nodup := by
  refine (((TierSet.ofList_perm c.listedTiers).map (·.ordinal)).nodup_iff).mpr ?_
  exact List.pairwise_map.mpr (h.tiers_distinct.imp fun hdistinct => hdistinct.2)

namespace Plan

section

variable {α : Type} [Amount α] (tiers : TierSet α) (settings : RouterSettings α) (ceiling : Nat)
  (caps : Capabilities α) (complexity : α)

/-- The tier that is tried first, and whether it is one to escalate to. -/
inductive Planned : Tier α → Bool → Prop
  /-- The highest tier within the ceiling that covers the complexity. -/
  | covering (tier : Tier α) (hmem : tier ∈ tiers.upTo ceiling)
      (hcovers : tier.range.contains complexity = true)
      (hhighest : ∀ t ∈ tiers.upTo ceiling, t.range.contains complexity = true →
        t.ordinal ≤ tier.ordinal) : Planned tier false
  /-- Else the lowest tier above the ceiling to which the request may escalate. -/
  | escalated (tier : Tier α) (hmem : tier ∈ tiers.toList)
      (hescalates : Escalates tiers settings ceiling caps complexity tier)
      (hlowest : ∀ t ∈ tiers.toList, Escalates tiers settings ceiling caps complexity t →
        tier.ordinal ≤ t.ordinal) : Planned tier true
  /-- Else the tier within the ceiling that is nearest, and the highest of several. -/
  | nearest (tier : Tier α) (hmem : tier ∈ tiers.upTo ceiling)
      (huncovered : ∀ t ∈ tiers.upTo ceiling, t.range.contains complexity = false)
      (hnone : ∀ t ∈ tiers.toList, ¬ Escalates tiers settings ceiling caps complexity t)
      (hnearest : ∀ t ∈ tiers.upTo ceiling,
        Amount.precedes (t.range.distance complexity) (tier.range.distance complexity) = false)
      (hhighest : ∀ t ∈ tiers.upTo ceiling,
        Amount.precedes (tier.range.distance complexity) (t.range.distance complexity) = false →
        t.ordinal ≤ tier.ordinal) : Planned tier false

structure Below (first : Tier α) (lower : List (Tier α)) : Prop where
  mem_iff : ∀ t, t ∈ lower ↔ t ∈ tiers.upTo ceiling ∧ t.ordinal < first.ordinal
  descending : lower.Pairwise fun a b => b.ordinal < a.ordinal

variable {tiers settings ceiling caps complexity}

/-! ## They are determined -/

omit [Amount α] in
theorem eq_of_ordinal (hordinals : (tiers.toList.map (·.ordinal)).Nodup) {a b : Tier α}
    (ha : a ∈ tiers.toList) (hb : b ∈ tiers.toList) (h : a.ordinal = b.ordinal) : a = b :=
  List.inj_on_of_nodup_map hordinals ha hb h

theorem Planned.unique (hordinals : (tiers.toList.map (·.ordinal)).Nodup) {tier tier' : Tier α}
    {escalated escalated' : Bool} (h : Planned tiers settings ceiling caps complexity tier escalated)
    (h' : Planned tiers settings ceiling caps complexity tier' escalated') :
    tier = tier' ∧ escalated = escalated' := by
  have hlisted : ∀ t, t ∈ tiers.upTo ceiling → t ∈ tiers.toList :=
    fun t ht => ((tiers.mem_upTo ceiling t).mp ht).1
  -- Two kinds exclude each other, and two tiers of one kind are bounds for each other.
  cases h with
  | covering hmem hcovers hhighest =>
    cases h' with
    | covering hmem' hcovers' hhighest' =>
      have hordinal := le_antisymm (hhighest' tier hmem hcovers) (hhighest tier' hmem' hcovers')
      exact ⟨eq_of_ordinal hordinals (hlisted _ hmem) (hlisted _ hmem') hordinal, rfl⟩
    | escalated _ hescalates' _ =>
      rw [hescalates'.uncovered tier hmem] at hcovers
      cases hcovers
    | nearest _ huncovered' _ _ _ =>
      rw [huncovered' tier hmem] at hcovers
      cases hcovers
  | escalated hmem hescalates hlowest =>
    cases h' with
    | covering hmem' hcovers' _ =>
      rw [hescalates.uncovered tier' hmem'] at hcovers'
      cases hcovers'
    | escalated hmem' hescalates' hlowest' =>
      have hordinal := le_antisymm (hlowest tier' hmem' hescalates') (hlowest' tier hmem hescalates)
      exact ⟨eq_of_ordinal hordinals hmem hmem' hordinal, rfl⟩
    | nearest _ _ hnone' _ _ => exact absurd hescalates (hnone' tier hmem)
  | nearest hmem huncovered hnone hnearest hhighest =>
    cases h' with
    | covering hmem' hcovers' _ =>
      rw [huncovered tier' hmem'] at hcovers'
      cases hcovers'
    | escalated hmem' hescalates' _ => exact absurd hescalates' (hnone tier' hmem')
    | nearest hmem' _ _ hnearest' hhighest' =>
      have hordinal := le_antisymm (hhighest' tier hmem (hnearest tier' hmem'))
        (hhighest tier' hmem' (hnearest' tier hmem))
      exact ⟨eq_of_ordinal hordinals (hlisted _ hmem) (hlisted _ hmem') hordinal, rfl⟩

omit [Amount α] in
theorem Below.unique {first : Tier α} {lower lower' : List (Tier α)} (h : Below tiers ceiling first lower)
    (h' : Below tiers ceiling first lower') : lower = lower' := by
  have hnodup : ∀ {l : List (Tier α)}, (l.Pairwise fun a b => b.ordinal < a.ordinal) → l.Nodup :=
    fun hl => hl.imp fun hlt heq => absurd (heq ▸ hlt) (lt_irrefl _)
  have hperm : lower.Perm lower' := (List.perm_ext_iff_of_nodup (hnodup h.descending)
    (hnodup h'.descending)).mpr fun t => (h.mem_iff t).trans (h'.mem_iff t).symm
  -- The order is strict, so it leaves only one arrangement of the members.
  refine hperm.eq_of_pairwise (fun a b _ _ hab hba => ?_) h.descending h'.descending
  exact absurd hab (lt_asymm hba)

/-! ## They are what a plan tries -/

omit [Amount α] in
theorem upTo_pairwise (hordinals : (tiers.toList.map (·.ordinal)).Nodup) :
    (tiers.upTo ceiling).Pairwise fun a b => a.ordinal < b.ordinal := by
  have hne : tiers.toList.Pairwise fun a b => a.ordinal ≠ b.ordinal := List.pairwise_map.mp hordinals
  have hlt : tiers.toList.Pairwise fun a b => a.ordinal < b.ordinal :=
    (tiers.sorted.and hne).imp fun h => lt_of_le_of_ne h.1 h.2
  exact hlt.sublist List.filter_sublist

omit [Amount α] in
theorem below_filter (hordinals : (tiers.toList.map (·.ordinal)).Nodup) (first : Tier α) :
    Below tiers ceiling first
      ((tiers.upTo ceiling).reverse.filter fun t => t.ordinal < first.ordinal) where
  mem_iff t := by simp
  descending := (List.pairwise_reverse.mpr (upTo_pairwise hordinals)).sublist List.filter_sublist

omit [Amount α] in
theorem below_of_above (hordinals : (tiers.toList.map (·.ordinal)).Nodup) (first : Tier α)
    (h : ceiling < first.ordinal) : Below tiers ceiling first (tiers.upTo ceiling).reverse := by
  refine ⟨fun t => ?_, List.pairwise_reverse.mpr (upTo_pairwise hordinals)⟩
  rw [List.mem_reverse]
  refine ⟨fun ht => ⟨ht, ?_⟩, fun ht => ht.1⟩
  exact ((tiers.mem_upTo ceiling t).mp ht).2.trans_lt h

theorem find?_least {β : Type} {before : β → β → Prop} {p : β → Bool} {xs : List β} {x : β}
    (hsorted : xs.Pairwise before) (h : xs.find? p = some x) :
    ∀ y ∈ xs, p y = true → y = x ∨ before x y := by
  obtain ⟨-, front, back, rfl, hfront⟩ := List.find?_eq_some_iff_append.mp h
  intro y hy hp
  rcases List.mem_append.mp hy with hy | hy
  · simpa [hp] using hfront y hy
  · rcases List.mem_cons.mp hy with rfl | hy
    · exact Or.inl rfl
    · exact Or.inr (List.rel_of_pairwise_cons (List.pairwise_append.mp hsorted).2.1 hy)

theorem covering?_spec (hordinals : (tiers.toList.map (·.ordinal)).Nodup) (tier : Tier α)
    (h : covering? (tiers.upTo ceiling) complexity = some tier) :
    Planned tiers settings ceiling caps complexity tier false := by
  unfold covering? at h
  have hcovers := List.find?_some h
  refine .covering tier (List.mem_reverse.mp (List.mem_of_find?_eq_some h)) hcovers ?_
  intro t ht hcovers
  have hsorted : (tiers.upTo ceiling).reverse.Pairwise fun a b => b.ordinal < a.ordinal :=
    List.pairwise_reverse.mpr (upTo_pairwise hordinals)
  rcases find?_least hsorted h t (List.mem_reverse.mpr ht) hcovers with rfl | hlt
  · exact le_rfl
  · exact hlt.le

theorem mem_filter_of_escalates {tier : Tier α} (hmem : tier ∈ tiers.toList)
    (h : Escalates tiers settings ceiling caps complexity tier) :
    mayEscalate settings caps complexity = true ∧
      tier ∈ tiers.toList.filter fun t => ceiling < t.ordinal && t.ordinal ≤ reach settings ceiling := by
  refine ⟨?_, List.mem_filter.mpr ⟨hmem, ?_⟩⟩
  · simp only [mayEscalate, Bool.and_eq_true, decide_eq_true_eq]
    exact ⟨⟨h.enabled, h.allowed⟩, h.threshold⟩
  · simp only [Bool.and_eq_true, decide_eq_true_eq]
    exact ⟨h.above, h.reach⟩

theorem escalation?_lowest (tier : Tier α)
    (hnone : covering? (tiers.upTo ceiling) complexity = none)
    (h : escalation? tiers settings ceiling caps complexity = some tier) :
    Planned tiers settings ceiling caps complexity tier true := by
  obtain ⟨hmem, hescalates⟩ := escalation?_spec tiers settings ceiling caps complexity tier h hnone
  refine .escalated tier hmem hescalates fun t ht htescalates => ?_
  obtain ⟨hmay, hfiltered⟩ := mem_filter_of_escalates ht htescalates
  rw [escalation?, if_pos hmay] at h
  have hsorted : (tiers.toList.filter fun t => ceiling < t.ordinal &&
      t.ordinal ≤ reach settings ceiling).Pairwise fun a b => a.ordinal ≤ b.ordinal :=
    tiers.sorted.sublist List.filter_sublist
  rcases find?_least hsorted h t hfiltered htescalates.covers with rfl | hle
  · exact le_rfl
  · exact hle

theorem escalation?_eq_none (h : escalation? tiers settings ceiling caps complexity = none) :
    ∀ t ∈ tiers.toList, ¬ Escalates tiers settings ceiling caps complexity t := by
  intro t ht hescalates
  obtain ⟨hmay, hfiltered⟩ := mem_filter_of_escalates ht hescalates
  rw [escalation?, if_pos hmay, List.find?_eq_none] at h
  exact h t hfiltered hescalates.covers

end

/-! ## Nearest -/

variable {tiers : TierSet Double} {settings : RouterSettings Double} {ceiling : Nat}
  {caps : Capabilities Double} {complexity : Double}

theorem nearer_eq_false_iff (complexity : Double) (a b : Tier Double) :
    nearer complexity a b = false ↔
      (b.range.distance complexity).rank ≤ (a.range.distance complexity).rank ∧
        ((a.range.distance complexity).rank = (b.range.distance complexity).rank →
          a.ordinal ≤ b.ordinal) := by
  simp only [nearer, Amount.precedes, Bool.or_eq_false_iff, Bool.and_eq_false_iff, Bool.not_eq_false',
    decide_eq_false_iff_not, decide_eq_true_eq]
  omega

theorem nearest_spec (tier : Tier Double)
    (huncovered : ∀ t ∈ tiers.upTo ceiling, t.range.contains complexity = false)
    (hnone : ∀ t ∈ tiers.toList, ¬ Escalates tiers settings ceiling caps complexity t)
    (h : firstLeast? (nearer complexity) (tiers.upTo ceiling) = some tier) :
    Planned tiers settings ceiling caps complexity tier false := by
  have hleast := firstLeast?_least (nearer complexity)
    (fun a b hab => by
      rw [← Bool.not_eq_false] at hab
      rw [nearer_eq_false_iff] at hab ⊢
      omega)
    (fun a b c hab hbc => by
      rw [nearer_eq_false_iff] at hab hbc ⊢
      omega) _ tier h
  refine .nearest tier (firstLeast?_mem h) huncovered hnone (fun t ht => ?_) fun t ht htie => ?_
  · have ht := (nearer_eq_false_iff complexity t tier).mp (hleast t ht)
    exact decide_eq_false (not_lt.mpr ht.1)
  · have ht := (nearer_eq_false_iff complexity t tier).mp (hleast t ht)
    exact ht.2 (le_antisymm (not_lt.mp (of_decide_eq_false htie)) ht.1)

/-- A plan tries the tier that is planned and then all that are lower. -/
theorem make_planned (hordinals : (tiers.toList.map (·.ordinal)).Nodup) (plan : Plan Double)
    (h : make tiers settings ceiling caps complexity = some plan) :
    Planned tiers settings ceiling caps complexity plan.chosen plan.escalated ∧
      ∃ lower, plan.attempts = plan.chosen :: lower ∧ Below tiers ceiling plan.chosen lower := by
  simp only [make] at h
  split at h
  · next tier hcovering =>
    cases h
    exact ⟨covering?_spec hordinals tier hcovering, _, rfl, below_filter hordinals tier⟩
  · next hnone =>
    split at h
    · cases h
    · next nearest tier _ hescalation =>
      cases h
      have hplanned := escalation?_lowest tier hnone hescalation
      have habove := (escalation?_spec tiers settings ceiling caps complexity tier hescalation hnone).2.above
      exact ⟨hplanned, _, rfl, below_of_above hordinals tier habove⟩
    · next tier hnearest hescalation =>
      cases h
      have huncovered := (covering?_eq_none complexity (tiers.upTo ceiling)).mp hnone
      exact ⟨nearest_spec tier huncovered (escalation?_eq_none hescalation) hnearest, _, rfl,
        below_filter hordinals tier⟩

theorem make_isSome (h : tiers.upTo ceiling ≠ []) :
    (make tiers settings ceiling caps complexity).isSome := by
  obtain ⟨tier, hnearest⟩ := Option.isSome_iff_exists.mp
    (firstLeast?_isSome (nearer complexity) (tiers.upTo ceiling) h)
  simp only [make, hnearest]
  split
  · rfl
  · split
    · next hnone => cases hnone
    · rfl
    · rfl

end Plan

end Admission
