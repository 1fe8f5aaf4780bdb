import Admission.Proofs.Resolve.Overlay

/-!
# Callers whom nobody authenticated

They all have one record. It comes from the layers of the lowest level alone, and it has no tools, no
escalation and no choice of model.
-/

namespace Admission.Resolver

variable (r r' : Resolver Double) (who who' : Identity)

theorem resolve_hardened (h : who.trusted = false) :
    (r.resolve who).toolAllow = [] ∧ (r.resolve who).escalationAllowed = false ∧
      (r.resolve who).canOverrideModel = false := by
  rw [resolve_eq_harden]
  unfold harden
  rw [h]
  exact ⟨rfl, rfl, rfl⟩

theorem level_untrusted (h : who.trusted = false) : r.level who = .zeroTrust := by
  unfold level
  rw [h]
  rfl

theorem entries_untrusted (h : who.trusted = false) (level : Level) (p : Permissions Double) :
    entries who level p = [(level.name, p.ofLevel level)] := by
  unfold entries
  rw [h]
  rfl

theorem resolve_untrusted_congr (h : who.trusted = false) (h' : who'.trusted = false)
    (htiers : r.tiers = r'.tiers) (hglobal : r.global.zeroTrust = r'.global.zeroTrust)
    (hworkspace : r.workspace.map (·.zeroTrust) = r'.workspace.map (·.zeroTrust)) :
    r.resolve who = r'.resolve who' := by
  have hcaps : ∀ (r : Resolver Double) (who : Identity), who.trusted = false →
      r.globalCaps who .zeroTrust = (Capabilities.builtin .zeroTrust).apply r.global.zeroTrust := by
    intro r who h
    unfold globalCaps
    rw [entries_untrusted who h]
    rfl
  have hlimits : ∀ (r : Resolver Double) (who : Identity), who.trusted = false →
      r.limits who .zeroTrust =
        ((r.workspace.map (·.zeroTrust)).map fun o => [(Level.zeroTrust.name, o)]).getD [] := by
    intro r who h
    unfold limits
    cases r.workspace with
    | none => rfl
    | some p => exact entries_untrusted who h .zeroTrust p
  have hharden : ∀ caps : Capabilities Double, harden who caps = harden who' caps := by
    intro caps
    unfold harden
    rw [h, h']
  rw [resolve_eq_harden, resolve_eq_harden, level_untrusted r who h, level_untrusted r' who' h',
    hcaps r who h, hcaps r' who' h', hlimits r who h, hlimits r' who' h', htiers, hglobal, hworkspace,
    hharden]

end Admission.Resolver
