import Admission.Proofs.Ledger.Bystander
import Admission.Proofs.Rate.Limiter

/-!
# Callers apart

Spending and requests are kept under the name of a caller, which is the channel and the caller with a
colon between them. Callers with different names cannot notice each other. Two callers can bear the same
name, though, if a colon stands in a channel, and these share all that is kept.
-/

namespace Admission

/-! ## Names -/

theorem append_colon_inj (xs ys rest rest' : List Char) (hx : ':' ∉ xs) (hy : ':' ∉ ys)
    (h : xs ++ ':' :: rest = ys ++ ':' :: rest') : xs = ys ∧ rest = rest' := by
  rcases List.append_eq_append_iff.mp h with ⟨more, rfl, hmore⟩ | ⟨more, rfl, hmore⟩
  · cases more with
    | nil => simpa using hmore
    | cons c more =>
      obtain ⟨rfl, -⟩ := List.cons.inj hmore
      simp at hy
  · cases more with
    | nil => simpa using hmore.symm
    | cons c more =>
      obtain ⟨rfl, -⟩ := List.cons.inj hmore
      simp at hx

theorem Identity.key_inj (a b : Identity) (ha : ':' ∉ a.channel.toList) (hb : ':' ∉ b.channel.toList)
    (h : a.key = b.key) : a.channel = b.channel ∧ a.caller = b.caller := by
  have hchars : ∀ who : Identity,
      who.key.toList = who.channel.toList ++ ':' :: who.caller.toList := by
    intro who
    simp [key]
  have hlists := congrArg String.toList h
  rw [hchars, hchars] at hlists
  obtain ⟨hchannel, hcaller⟩ := append_colon_inj _ _ _ _ ha hb hlists
  exact ⟨String.toList_inj.mp hchannel, String.toList_inj.mp hcaller⟩

/-! ## Windows -/

namespace Limiter

variable {α : Type} [Amount α]

theorem get?_run_of_ne (key : String) (l : Limiter α) (calls : List Call) (h : l.windows.Sound)
    (hne : ∀ c ∈ calls, key ≠ c.who.key)
    (hkept : ∀ before c, before ++ [c] <+: calls →
      Undisturbed key (l.run before) (l.run (before ++ [c]))) :
    (l.run calls).windows.get? key = l.windows.get? key := by
  induction calls using List.reverseRecOn with
  | nil => rfl
  | append_singleton before c ih =>
    have hbefore := ih (fun c' hc => hne c' (List.mem_append_left _ hc)) fun earlier c' hpre =>
      hkept earlier c' (hpre.trans (List.prefix_append _ _))
    have hlast := hkept before c (List.prefix_refl _)
    unfold Undisturbed at hlast
    rw [run_append_singleton] at hlast ⊢
    rw [← hbefore]
    rcases (l.run before).get?_call_of_ne c key (l.run_sound before h) (hne c (by simp)) with hget | hget
    · exact hget
    · rw [hget] at hlast ⊢
      cases hold : (l.run before).windows.get? key with
      | none => rfl
      | some old =>
        rw [hold] at hlast
        cases hlast rfl

end Limiter

/-! ## Isolation -/

/-- Whatever is done for one caller, another one is shown the same spending, is admitted alike by the next
reserve, and is let in alike by the next check: in every reachable ledger without limits for everybody and
in every limiter, as long as nothing of the other one is taken away. -/
structure Isolated (α : Type) [Amount α] (a b : Identity) : Prop where
  ledger : ∀ (assign : String → Nat) (settings : LedgerSettings α) (past steps : List (Ledger.Step α)),
    ¬ 0 < settings.globalDaily → ¬ 0 < settings.globalMonthly →
    ((past ++ steps).filterMap Ledger.Step.newId?).Nodup → (∀ s ∈ steps, s.MadeFor a) →
    (∀ before s, before ++ [s] <+: steps →
      Ledger.Undisturbed b.key ((Ledger.new assign settings).follow (past ++ before))
        ((Ledger.new assign settings).follow (past ++ before ++ [s]))) →
    let l := (Ledger.new assign settings).follow past
    let l' := (Ledger.new assign settings).follow (past ++ steps)
    (∀ caps t, (l'.usage b caps t).1 = (l.usage b caps t).1) ∧
    ∀ id caps estimate basis t, l.pending.length < l.pendingLimit → l'.pending.length < l'.pendingLimit →
      (l'.reserve id b caps estimate basis t).1 = (l.reserve id b caps estimate basis t).1
  limiter : ∀ (assign : String → Nat) (settings : RateSettings) (past calls : List Limiter.Call),
    let l : Limiter α := Limiter.new assign settings
    (∀ c ∈ calls, c.who = a) →
    (∀ before c, before ++ [c] <+: calls →
      Limiter.Undisturbed b.key (l.run (past ++ before)) (l.run (past ++ before ++ [c]))) →
    ∀ limit now, ((l.run (past ++ calls)).check b limit now).1 = ((l.run past).check b limit now).1

variable {α : Type} [Amount α]

theorem isolated_of_key_ne (a b : Identity) (hne : a.key ≠ b.key) : Isolated α a b where
  ledger assign settings past steps hdaily hmonthly hfresh hsteps hundisturbed := by
    intro l l'
    have halike : Ledger.Alike b.key l l' :=
      Ledger.follow_alike assign settings past steps hfresh a hne.symm hsteps hundisturbed
    have hpast : (past.filterMap Ledger.Step.newId?).Nodup := by
      rw [List.filterMap_append] at hfresh
      exact hfresh.of_append_left
    obtain ⟨hpinned, -, -⟩ := Ledger.pinned_preserved.follow assign settings
      (Ledger.new_pinned assign settings) past hpast
    obtain ⟨hpinned', -, -⟩ := Ledger.pinned_preserved.follow assign settings
      (Ledger.new_pinned assign settings) (past ++ steps) hfresh
    have hsettings : l.settings = settings := Ledger.follow_settings _ past
    refine ⟨halike.usage b, ?_⟩
    intro id caps estimate basis t hroom hroom'
    exact halike.reserve b hpinned hpinned' (hsettings ▸ hdaily) (hsettings ▸ hmonthly) hroom hroom' id
      caps estimate basis t
  limiter assign settings past calls := by
    intro l hcalls hkept limit now
    have hrun : ∀ more, l.run (past ++ more) = (l.run past).run more := by
      intro more
      simp [Limiter.run]
    rw [hrun]
    apply Limiter.check_congr
    · rw [Limiter.run_settings]
    · apply Limiter.get?_run_of_ne b.key _ calls (Limiter.run_sound _ past (Shards.new_sound _ _ _))
      · intro c hc
        rw [hcalls c hc]
        exact hne.symm
      · intro before c hpre
        rw [← hrun, ← hrun, ← List.append_assoc]
        exact hkept before c hpre

theorem isolated_of_no_colon (a b : Identity) (ha : ':' ∉ a.channel.toList)
    (hb : ':' ∉ b.channel.toList) (hne : a.channel ≠ b.channel ∨ a.caller ≠ b.caller) :
    Isolated α a b := by
  apply isolated_of_key_ne
  intro hkey
  obtain ⟨hchannel, hcaller⟩ := a.key_inj b ha hb hkey
  rcases hne with hne | hne
  · exact hne hchannel
  · exact hne hcaller

def oneAtATime : RateSettings := { window := 1, maxTracked := 1, maxExact := 1, shards := 1 }

namespace Limiter

def unused (α : Type) : Limiter α := new (fun _ => 0) oneAtATime

omit [Amount α] in
theorem unused_sound : (unused α).windows.Sound := Shards.new_sound _ _ _

omit [Amount α] in
theorem unused_get? (key : String) : (unused α).windows.get? key = none :=
  Shards.get?_new (fun _ => 0) oneAtATime.maxTracked oneAtATime.shards key

theorem unused_check (who : Identity) : ((unused α).check who 1 0).1.allowed = true := by
  rw [check_fst _ who 1 0 one_ne_zero, startsFrom, unused_get?]
  rfl

theorem unused_check_twice (a b : Identity) (h : a.key = b.key) :
    (((unused α).call (.check a 1 0)).check b 1 0).1.allowed = false := by
  have hwindow := (unused α).get?_call_check a 1 0 unused_sound one_ne_zero
  rw [startsFrom, unused_get?, h] at hwindow
  rw [check_fst _ b 1 0 one_ne_zero, startsFrom, hwindow]
  rfl

end Limiter

theorem not_isolated_of_key_eq (a b : Identity) (h : a.key = b.key) : ¬ Isolated α a b := by
  intro hisolated
  have hsame := hisolated.limiter (fun _ => 0) oneAtATime [] [.check a 1 0] ?_ ?_ 1 0
  · have hrefused := Limiter.unused_check_twice (α := α) a b h
    have hallowed := Limiter.unused_check (α := α) b
    change (((Limiter.unused α).call (.check a 1 0)).check b 1 0).1 =
      ((Limiter.unused α).check b 1 0).1 at hsame
    rw [hsame, hallowed] at hrefused
    cases hrefused
  · intro c hc
    rw [List.mem_singleton.mp hc]
    rfl
  · intro before c hpre hkept
    have hnil : before = [] := by
      have hlength := hpre.length_le
      simp only [List.length_append, List.length_singleton] at hlength
      exact List.eq_nil_of_length_eq_zero (by omega)
    rw [hnil] at hkept
    have hnone := Limiter.unused_get? (α := α) b.key
    change ((Limiter.unused α).windows.get? b.key).isSome at hkept
    rw [hnone] at hkept
    cases hkept

/-- A caller is isolated from another one exactly if they have different names. -/
theorem isolated_iff (a b : Identity) : Isolated α a b ↔ a.key ≠ b.key :=
  ⟨fun h he => not_isolated_of_key_eq a b he h, isolated_of_key_ne a b⟩

/-- Callers can be different and have one name. -/
theorem not_isolated_of_colon :
    ¬ ∀ a b : Identity, a.channel ≠ b.channel ∨ a.caller ≠ b.caller → Isolated Double a b := by
  intro h
  exact not_isolated_of_key_eq ⟨"c", "a:b", false⟩ ⟨"b:c", "a", false⟩ (by decide)
    (h _ _ (Or.inl (by decide)))

end Admission
