import Mathlib
import Admission.Selection
import Admission.Proofs.Dict

/-!
# Taking turns

Where models are picked in turn, the picks of a tier depend on nothing but the calls that pass models to that tier: the
call that comes after `n` of them picks the place `n` modulo the length of its list. Over calls in a row that pass the
same models all places are therefore picked equally often, but for one pick.
-/

namespace Admission

namespace Selector

variable {α : Type}

structure Call (α : Type) where
  table : PriceTable α
  dice : Nat
  tier : Tier α
  models : List String

/-- A call for the tier that has something to pick from. -/
def Call.counts (tier : String) (c : Call α) : Bool := c.tier.name == tier && !c.models.isEmpty

/-- What a call picks: a place in its list, and the model that it is answered with. -/
structure Pick (α : Type) where
  call : Call α
  place : Nat
  model : Option String

def Pick.inTurn (turn : Call α × Nat) : Pick α where
  call := turn.1
  place := turn.2 % turn.1.models.length
  model := turn.1.models[turn.2 % turn.1.models.length]?

/-- The place in the list that is next in turn. -/
def place (s : Selector) (c : Call α) : Nat := (s.turn c.tier.name).1 % c.models.length

theorem counts_eq_true {tier : String} {c : Call α} :
    c.counts tier = true ↔ c.tier.name = tier ∧ c.models ≠ [] := by
  simp [Call.counts]

/-! ## Cursors -/

theorem place_eq (s : Selector) (c : Call α) :
    s.place c = (s.cursors.get? c.tier.name).getD 0 % c.models.length := by
  unfold place turn
  cases s.cursors.get? c.tier.name <;> rfl

@[simp] theorem turn_snd_strategy (s : Selector) (tier : String) : (s.turn tier).2.strategy = s.strategy := by
  unfold turn
  cases s.cursors.get? tier <;> rfl

theorem get?_turn (s : Selector) (tier name : String) :
    (s.turn tier).2.cursors.get? name = (s.cursors.get? name).map fun n => if tier = name then n + 1 else n := by
  unfold turn
  cases hcursor : s.cursors.get? tier with
  | none =>
    by_cases hname : tier = name
    · rw [← hname, hcursor]
      rfl
    · simp only [if_neg hname, Option.map_id_fun', id]
  | some n =>
    by_cases hname : tier = name
    · subst hname
      rw [Dict.get?_insert_self, hcursor, Option.map_some, if_pos rfl]
    · rw [Dict.get?_insert_of_ne _ _ _ _ (Ne.symm hname)]
      simp only [if_neg hname, Option.map_id_fun', id]

theorem get?_new (strategy : Strategy) (tiers : TierSet α) (name : String) :
    (new strategy tiers).cursors.get? name = if name ∈ tiers.toList.map (·.name) then some 0 else none := by
  refine Dict.get?_ofList_eq _ _ _ fun n => ?_
  split_ifs with hname
  · obtain ⟨tier, htier, rfl⟩ := List.mem_map.mp hname
    simp only [List.mem_map, Prod.mk.injEq, Option.some.injEq]
    exact ⟨fun ⟨_, _, _, hn⟩ => hn, fun hn => ⟨tier, htier, rfl, hn⟩⟩
  · refine ⟨fun hmem => absurd ?_ hname, nofun⟩
    obtain ⟨tier, htier, heq⟩ := List.mem_map.mp hmem
    exact List.mem_map.mpr ⟨tier, htier, congrArg Prod.fst heq⟩

theorem counts_iff {tiers : TierSet α} (hnames : (tiers.toList.map (·.name)).Nodup) {tier : Tier α}
    (htier : tier ∈ tiers.toList) {c : Call α} (hc : c.tier ∈ tiers.toList) :
    c.counts tier.name = true ↔ c.tier = tier ∧ c.models ≠ [] := by
  have hsame : c.tier.name = tier.name ↔ c.tier = tier :=
    ⟨fun h => List.inj_on_of_nodup_map hnames hc htier h, congrArg _⟩
  rw [counts_eq_true, hsame]

/-! ## Counting -/

theorem count_mod {n i : Nat} (hi : i < n) (bound : Nat) :
    Nat.count (· % n = i) bound = bound / n + if i < bound % n then 1 else 0 := by
  have hcount := Nat.count_modEq_card bound (Nat.zero_lt_of_lt hi) i
  simp only [Nat.ModEq, Nat.mod_eq_of_lt hi] at hcount
  exact hcount

theorem countP_range'_mod (n i start k : Nat) :
    Nat.count (· % n = i) start + (List.range' start k).countP (· % n == i) = Nat.count (· % n = i) (start + k) := by
  induction k with
  | zero => rfl
  | succ k ih =>
    rw [List.range'_1_concat, List.countP_append, ← Nat.add_assoc, ih, ← Nat.add_assoc, Nat.count_succ,
      List.countP_singleton]
    simp only [beq_iff_eq]

theorem ceilDiv_eq {n : Nat} (hn : 0 < n) (k : Nat) : k ⌈/⌉ n = k / n + if k % n = 0 then 0 else 1 := by
  have hless : n - 1 < n := Nat.sub_one_lt_of_lt hn
  rw [Nat.ceilDiv_eq_add_pred_div, Nat.add_sub_assoc hn, Nat.add_div hn, Nat.div_eq_of_lt hless, Nat.mod_eq_of_lt hless]
  split_ifs <;> omega

theorem countP_range'_fair {n i : Nat} (hi : i < n) (start k : Nat) :
    (List.range' start k).countP (· % n == i) = k / n ∨ (List.range' start k).countP (· % n == i) = k ⌈/⌉ n := by
  have hn : 0 < n := Nat.zero_lt_of_lt hi
  have hcount := countP_range'_mod n i start k
  rw [count_mod hi, count_mod hi, Nat.add_div hn, Nat.add_mod_eq_ite] at hcount
  have hstart : start % n < n := Nat.mod_lt _ hn
  have hk : k % n < n := Nat.mod_lt _ hn
  rw [ceilDiv_eq hn]
  split_ifs at hcount ⊢ <;> omega

theorem infix_zipIdx {own : List (Call α)} {n : Nat} {turns : List (Call α × Nat)} (h : turns <:+: own.zipIdx n) :
    ∃ (calls : List (Call α)) (start : Nat), turns = calls.zipIdx start := by
  obtain ⟨before, after, happend⟩ := h
  obtain ⟨upTo, -, -, hupTo, -⟩ := List.zipIdx_eq_append_iff.mp happend.symm
  obtain ⟨first, calls, -, -, hturns⟩ := List.zipIdx_eq_append_iff.mp hupTo.symm
  exact ⟨calls, _, hturns⟩

theorem countP_inTurn_fair (calls : List (Call α)) (start : Nat) (models : List String)
    (h : ∀ p ∈ (calls.zipIdx start).map Pick.inTurn, p.call.models = models) {i : Nat} (hi : i < models.length) :
    ((calls.zipIdx start).map Pick.inTurn).countP (·.place == i) = calls.length / models.length ∨
      ((calls.zipIdx start).map Pick.inTurn).countP (·.place == i) = calls.length ⌈/⌉ models.length := by
  have hcount : ((calls.zipIdx start).map Pick.inTurn).countP (·.place == i) =
      (List.range' start calls.length).countP (· % models.length == i) := by
    rw [← List.zipIdx_map_snd start calls, List.countP_map, List.countP_map]
    refine List.countP_congr fun turn hturn => ?_
    have hmodels : turn.1.models = models := h _ (List.mem_map_of_mem hturn)
    simp only [Function.comp_apply, Pick.inTurn, hmodels]
  rw [hcount]
  exact countP_range'_fair hi start calls.length

/-! ## One call -/

variable [Amount α]

def answer (s : Selector) (c : Call α) : Option String × Selector := s.select c.table c.dice c.tier c.models

section RoundRobin

variable {s s' : Selector} (hs : s.strategy = .roundRobin) (c : Call α)
include hs

theorem answer_of_models (h : c.models ≠ []) :
    s.answer c = (c.models[s.place c]?, (s.turn c.tier.name).2) := by
  unfold answer select
  rw [if_neg (by simpa using h), hs]
  rfl

theorem answer_model : (s.answer c).1 = c.models[s.place c]? := by
  by_cases h : c.models = []
  · simp [answer, select, h]
  · rw [answer_of_models hs c h]

theorem answer_strategy : (s.answer c).2.strategy = .roundRobin := by
  by_cases h : c.models = []
  · simpa [answer, select, h] using hs
  · rw [answer_of_models hs c h, turn_snd_strategy, hs]

theorem get?_answer (name : String) :
    (s.answer c).2.cursors.get? name = (s.cursors.get? name).map fun n => if c.counts name then n + 1 else n := by
  by_cases h : c.models = []
  · simp [answer, select, Call.counts, h]
  · rw [answer_of_models hs c h, get?_turn]
    simp [Call.counts, h]

end RoundRobin

/-! ## Runs -/

def run (s : Selector) (calls : List (Call α)) : Selector := calls.foldl (fun s c => (s.answer c).2) s

def picks (s : Selector) : List (Call α) → List (Pick α)
  | [] => []
  | c :: rest => ⟨c, s.place c, (s.answer c).1⟩ :: (s.answer c).2.picks rest

section RoundRobin

variable {s s' : Selector} (hs : s.strategy = .roundRobin)
include hs

theorem filter_picks (hs' : s'.strategy = .roundRobin) (tier : String)
    (hcursor : s.cursors.get? tier = s'.cursors.get? tier) (calls : List (Call α)) :
    (s.picks calls).filter (·.call.counts tier) = s'.picks (calls.filter fun c => c.counts tier) := by
  induction calls generalizing s s' with
  | nil => rfl
  | cons c rest ih =>
    have hnext := get?_answer hs c tier
    by_cases hcounts : c.counts tier = true
    · have hplace : s.place c = s'.place c := by
        rw [place_eq, place_eq, (counts_eq_true.mp hcounts).1, hcursor]
      have hrest := ih (answer_strategy hs c) (answer_strategy hs' c)
        (by rw [hnext, get?_answer hs' c tier, hcursor])
      rw [picks, List.filter_cons_of_pos (by exact hcounts), List.filter_cons_of_pos hcounts, hrest, picks,
        answer_model hs, answer_model hs', hplace]
    · rw [picks, List.filter_cons_of_neg (by exact hcounts), List.filter_cons_of_neg hcounts]
      refine ih (answer_strategy hs c) hs' ?_
      rw [hnext, ← hcursor]
      simp [hcounts]

theorem picks_of_counts {tier : String} {n : Nat} (hcursor : s.cursors.get? tier = some n) (calls : List (Call α))
    (h : ∀ c ∈ calls, c.counts tier = true) : s.picks calls = (calls.zipIdx n).map Pick.inTurn := by
  induction calls generalizing s n with
  | nil => rfl
  | cons c rest ih =>
    obtain ⟨hcounts, hrest⟩ := List.forall_mem_cons.mp h
    have hplace : s.place c = n % c.models.length := by
      rw [place_eq, (counts_eq_true.mp hcounts).1, hcursor, Option.getD_some]
    have hnext : (s.answer c).2.cursors.get? tier = some (n + 1) := by
      rw [get?_answer hs, hcursor, Option.map_some, if_pos hcounts]
    rw [picks, ih (answer_strategy hs c) hnext hrest, answer_model hs, hplace]
    rfl

theorem cursor_run_le (calls : List (Call α)) (name : String) (n : Nat)
    (h : (s.run calls).cursors.get? name = some n) :
    ∃ start, s.cursors.get? name = some start ∧ n ≤ start + calls.length := by
  induction calls generalizing s with
  | nil => exact ⟨n, h, le_rfl⟩
  | cons c rest ih =>
    obtain ⟨next, hnext, hle⟩ := ih (answer_strategy hs c) h
    rw [get?_answer hs] at hnext
    obtain ⟨start, hstart, rfl⟩ := Option.map_eq_some_iff.mp hnext
    refine ⟨start, hstart, ?_⟩
    rw [List.length_cons]
    split_ifs at hle <;> omega

end RoundRobin

/-! ## Fairness -/

theorem picks_new {tiers : TierSet α} {tier : Tier α} (htier : tier ∈ tiers.toList) (calls : List (Call α)) :
    ((new .roundRobin tiers).picks calls).filter (·.call.counts tier.name) =
      ((calls.filter fun c => c.counts tier.name).zipIdx.map Pick.inTurn) := by
  have hcursor : (new .roundRobin tiers).cursors.get? tier.name = some 0 := by
    rw [get?_new, if_pos (List.mem_map_of_mem htier)]
  rw [filter_picks rfl rfl tier.name rfl]
  exact picks_of_counts rfl hcursor _ fun c hc => (List.mem_filter.mp hc).2

theorem model_of_mem_picks {tiers : TierSet α} {tier : Tier α} (htier : tier ∈ tiers.toList) {calls : List (Call α)}
    {p : Pick α} (h : p ∈ ((new .roundRobin tiers).picks calls).filter (·.call.counts tier.name)) :
    p.place < p.call.models.length ∧ p.model = p.call.models[p.place]? := by
  have hmodels : p.call.models ≠ [] := (counts_eq_true.mp (List.mem_filter.mp h).2).2
  rw [picks_new htier] at h
  obtain ⟨turn, -, rfl⟩ := List.mem_map.mp h
  exact ⟨Nat.mod_lt _ (List.length_pos_iff.mpr hmodels), rfl⟩

/-- Where no two tiers have one name, in any sequence of calls on them, calls in a row for one tier that pass the same
models pick every place of their list equally often, but for one. What the tier picks are the models at these places,
and they are the same if the other calls and those without models are left out. No cursor gets beyond 64 bits. -/
theorem roundRobin_fair (tiers : TierSet α) (hnames : (tiers.toList.map (·.name)).Nodup) (calls : List (Call α))
    (hcalls : ∀ c ∈ calls, c.tier ∈ tiers.toList) (hlength : calls.length < 2 ^ 64) (tier : Tier α)
    (htier : tier ∈ tiers.toList) (block : List (Pick α)) (models : List String)
    (hblock : block <:+: ((new .roundRobin tiers).picks calls).filter (·.call.counts tier.name))
    (hmodels : ∀ p ∈ block, p.call.models = models) :
    (∀ i < models.length, block.countP (·.place == i) = block.length / models.length ∨
        block.countP (·.place == i) = block.length ⌈/⌉ models.length) ∧
      (∀ p ∈ block, p.place < models.length ∧ p.model = models[p.place]?) ∧
      ((new .roundRobin tiers).picks calls).filter (·.call.counts tier.name) =
        (new .roundRobin tiers).picks (calls.filter fun c => c.counts tier.name) ∧
      (∀ c ∈ calls, c.counts tier.name = true ↔ c.tier = tier ∧ c.models ≠ []) ∧
      ∀ name n, ((new .roundRobin tiers).run calls).cursors.get? name = some n → n < 2 ^ 64 := by
  have hpicks := picks_new htier calls
  refine ⟨fun i hi => ?_, fun p hp => ?_, filter_picks rfl rfl tier.name rfl calls,
    fun c hc => counts_iff hnames htier (hcalls c hc), fun name n hcursor => ?_⟩
  · obtain ⟨turns, hturns, rfl⟩ := List.infix_map_iff.mp (hpicks ▸ hblock)
    obtain ⟨own, start, rfl⟩ := infix_zipIdx hturns
    rw [List.length_map, List.length_zipIdx]
    exact countP_inTurn_fair own start models hmodels hi
  · rw [← hmodels p hp]
    exact model_of_mem_picks htier (hblock.subset hp)
  · obtain ⟨start, hstart, hle⟩ := cursor_run_le rfl calls name n hcursor
    rw [get?_new] at hstart
    split_ifs at hstart
    cases hstart
    omega

def freeTier : Tier Rat := ⟨"free", 0, ["x/small"], ⟨0, 1⟩, 0, 4096⟩

def premiumTier : Tier Rat := ⟨"premium", 1, ["a/one", "b/two", "c/three"], ⟨0, 1⟩, 0, 4096⟩

def twoTiers : TierSet Rat := .ofList [premiumTier, freeTier]

def mixedCalls : List (Call Rat) :=
  let call (tier : Tier Rat) (models : List String) : Call Rat := ⟨.empty, 0, tier, models⟩
  [call premiumTier ["b/two", "c/three"], call freeTier freeTier.models, call premiumTier premiumTier.models,
    call premiumTier [], call premiumTier premiumTier.models, call freeTier freeTier.models,
    call premiumTier premiumTier.models, call freeTier [], call premiumTier premiumTier.models]

def lastFour : List (Pick Rat) :=
  (((new .roundRobin twoTiers).picks mixedCalls).filter (·.call.counts "premium")).drop 1

theorem roundRobin_fair_lastFour :
    lastFour <:+: ((new .roundRobin twoTiers).picks mixedCalls).filter (·.call.counts premiumTier.name) ∧
      (∀ p ∈ lastFour, p.call.models = premiumTier.models) ∧
      lastFour.map (·.model) = [some "b/two", some "c/three", some "a/one", some "b/two"] ∧
      ∀ i < 3, lastFour.countP (·.place == i) = 4 / 3 ∨ lastFour.countP (·.place == i) = 4 ⌈/⌉ 3 := by
  have hblock : lastFour <:+: ((new .roundRobin twoTiers).picks mixedCalls).filter (·.call.counts premiumTier.name) :=
    (List.drop_suffix 1 _).isInfix
  have hmodels : ∀ p ∈ lastFour, p.call.models = premiumTier.models := by decide +kernel
  have hnames : (twoTiers.toList.map (·.name)).Nodup := by decide +kernel
  have hcalls : ∀ c ∈ mixedCalls, c.tier ∈ twoTiers.toList := by simp [mixedCalls, twoTiers]
  have hfour : lastFour.length = 4 := by decide +kernel
  have hfair := roundRobin_fair twoTiers hnames mixedCalls hcalls (by decide) premiumTier (by simp [twoTiers]) lastFour
    premiumTier.models hblock hmodels
  exact ⟨hblock, hmodels, by decide +kernel, fun i hi => hfour ▸ hfair.1 i hi⟩

end Selector

end Admission
