import Admission.CommandLine.Basic
import Admission.Proofs.Config
import Admission.Sandbox

/-!
# The environment over the configuration

A configuration stands in the file that is named on the command line or by the environment, or else in the default
one. The environment can set the reset hour and the place of the ledger over what the file says. It does so where no
file is named; where one is, it has no say.
-/

namespace Admission

namespace Config

/-! ## Setting the reset hour and the ledger -/

structure Overrides.Applied {α : Type} (o : Overrides) (c c' : Config α) : Prop where
  resetHour : o.resetHour.elim (some c.budgets.resetHour) (Decimal.natOfText? 8) = some c'.budgets.resetHour
  ledgerPath : o.ledgerPath.or c.budgets.ledgerPath = c'.budgets.ledgerPath
  others : c' = { c with budgets := { c.budgets with
    resetHour := c'.budgets.resetHour, ledgerPath := c'.budgets.ledgerPath } }

theorem Overrides.apply_eq_ok {α : Type} (o : Overrides) (c c' : Config α) :
    o.apply c = .ok c' ↔ o.Applied c c' := by
  have happly : ∀ hour, o.resetHour.elim (some c.budgets.resetHour) (Decimal.natOfText? 8) = some hour →
      o.apply c = .ok { c with budgets := { c.budgets with
        resetHour := hour, ledgerPath := o.ledgerPath.or c.budgets.ledgerPath } } := by
    intro hour hhour
    unfold apply
    cases htext : o.resetHour with
    | none =>
      rw [htext] at hhour
      cases hhour
      rfl
    | some text =>
      rw [htext] at hhour
      simp only [Option.elim_some] at hhour
      simp only [hhour]
      rfl
  constructor
  · intro h
    cases hhour : o.resetHour.elim (some c.budgets.resetHour) (Decimal.natOfText? 8) with
    | none =>
      cases htext : o.resetHour with
      | none =>
        rw [htext] at hhour
        cases hhour
      | some text =>
        rw [htext, Option.elim_some] at hhour
        unfold apply at h
        simp only [htext, hhour] at h
        cases h
    | some hour =>
      rw [happly hour hhour] at h
      cases h
      exact ⟨hhour, rfl, rfl⟩
  · rintro ⟨hhour, hledger, hothers⟩
    rw [happly _ hhour, hledger, ← hothers]

theorem checked_eq_ok {α : Type} [Amount α] (c c' : Config α) : c.checked = .ok c' ↔ c = c' ∧ c'.Valid := by
  unfold checked
  rw [← validate_eq_ok]
  cases hc : c.validate with
  | error fault =>
    constructor
    · intro h
      cases h
    · rintro ⟨rfl, h⟩
      rw [hc] at h
      cases h
  | ok _ =>
    constructor
    · intro h
      cases h
      exact ⟨rfl, hc⟩
    · rintro ⟨rfl, -⟩
      rfl

theorem default_checked : (Config.default : Config Double).checked = .ok .default := by
  have hvalid : (Config.default : Config Double).validate = .ok () := by decide +kernel
  unfold checked
  rw [hvalid]
  rfl

end Config

/-! ## What is loaded -/

theorem Except.mapError_eq_ok {ε δ β : Type} (x : Except ε β) (f : ε → δ) (a : β) :
    x.mapError f = .ok a ↔ x = .ok a := by
  cases x <;> simp [Except.mapError]

theorem SandboxM.bind_run {β γ : Type} (x : SandboxM β) (f : β → SandboxM γ) (s : Sandbox) :
    (x >>= f) s = f (x s).1 (x s).2 := rfl

theorem SandboxM.pure_run {β : Type} (x : β) (s : Sandbox) : (pure x : SandboxM β) s = (x, s) := rfl

namespace Sandbox

open SandboxM (bind_run pure_run)

variable (s : Sandbox)

def written (path : String) : Except ConfigError (Config Double) :=
  ((Config.readFile Config.ofJson path : SandboxM _) s).1.map (·.getD .default)

def overrides : Config.Overrides := ((Config.overrides : SandboxM _) s).1

def defaultPath : String := ((Config.defaultPath : SandboxM _) s).1

theorem readFile_state {β : Type} (decode : Decode β) (path : String) :
    ((Config.readFile decode path : SandboxM _) s).2 = s := by
  have hhas : (Machine.hasPath path : SandboxM _) s = (s.hasPath path, s) := rfl
  have htext : (Machine.readText path : SandboxM _) s = (s.readText path, s) := rfl
  unfold Config.readFile
  rw [bind_run, hhas]
  cases s.hasPath path with
  | false => rfl
  | true =>
    simp only [if_true]
    rw [bind_run, htext]
    cases s.readText path with
    | error fault => rfl
    | ok text =>
      cases hvalue : (Toml.read? text).bind fun j => (decode .toml j).toOption with
      | none =>
        simp only [hvalue]
        rfl
      | some value =>
        simp only [hvalue]
        rfl

theorem loadFrom_run (path : String) :
    (Config.loadFrom path : SandboxM _) s = ((s.written path).bind Config.checked, s) := by
  have hstate := s.readFile_state Config.ofJson path
  unfold Config.loadFrom written
  rw [bind_run, hstate]
  cases ((Config.readFile Config.ofJson path : SandboxM _) s).1 with
  | error fault => rfl
  | ok found =>
    cases found with
    | none => exact congrArg (·, s) Config.default_checked.symm
    | some c => rfl

theorem load_run (h : s.env.get? "TOLLGATE_CONFIG" = none) :
    (Config.load : SandboxM _) s =
      (((s.written s.defaultPath).bind Config.checked).bind fun c =>
        ((s.overrides.apply c).mapError .invalid).bind Config.checked, s) := by
  have henv : (Machine.env? "TOLLGATE_CONFIG" : SandboxM _) s = (none, s) := congrArg (·, s) h
  have hpath : (Config.defaultPath : SandboxM _) s = (s.defaultPath, s) := rfl
  have hover : (Config.overrides : SandboxM _) s = (s.overrides, s) := rfl
  unfold Config.load
  rw [bind_run, henv]
  dsimp only
  rw [bind_run, hpath, bind_run, loadFrom_run]
  cases (s.written s.defaultPath).bind Config.checked with
  | error fault => rfl
  | ok c =>
    dsimp only
    rw [bind_run, hover, pure_run]
    rfl

/-- The configuration of a path under the environment: what its file says with what is set over it, valid then. -/
def Governs (path : String) (c' : Config Double) : Prop :=
  ∃ c, s.written path = .ok c ∧ s.overrides.Applied c c' ∧ c'.Valid

theorem loadFrom_eq_ok (path : String) (c' : Config Double) :
    ((Config.loadFrom path : SandboxM _) s).1 = .ok c' ↔ s.written path = .ok c' ∧ c'.Valid := by
  rw [loadFrom_run, Except.bind_eq_ok]
  constructor
  · rintro ⟨c, hc, hchecked⟩
    obtain ⟨rfl, hvalid⟩ := (Config.checked_eq_ok c c').mp hchecked
    exact ⟨hc, hvalid⟩
  · rintro ⟨hc, hvalid⟩
    exact ⟨c', hc, (Config.checked_eq_ok c' c').mpr ⟨rfl, hvalid⟩⟩

theorem load_eq_ok (h : s.env.get? "TOLLGATE_CONFIG" = none) (c' : Config Double) :
    ((Config.load : SandboxM _) s).1 = .ok c' ↔
      ∃ c, s.written s.defaultPath = .ok c ∧ c.Valid ∧ s.overrides.Applied c c' ∧ c'.Valid := by
  rw [s.load_run h, Except.bind_eq_ok]
  simp only [Except.bind_eq_ok, Except.mapError_eq_ok, Config.Overrides.apply_eq_ok, Config.checked_eq_ok]
  constructor
  · rintro ⟨_, ⟨c, hc, rfl, hvalid⟩, _, happlied, rfl, hvalid'⟩
    exact ⟨c, hc, hvalid, happlied, hvalid'⟩
  · rintro ⟨c, hc, hvalid, happlied, hvalid'⟩
    exact ⟨c, ⟨c, hc, rfl, hvalid⟩, c', happlied, rfl, hvalid'⟩

end Sandbox

namespace CommandLine

theorem read_config {env : Option String} {words : List String} {p : Places} {command : Command}
    (h : read env words = .ok (p, command)) : ∃ given : Option String, p.config = given.or env := by
  obtain ⟨levels, -, h⟩ := (Except.bind_eq_ok _ _ _).mp h
  obtain ⟨config, hconfig, h⟩ := (Except.bind_eq_ok _ _ _).mp h
  refine ⟨globalValue? levels "config", ?_⟩
  have hp : p.config = config := by
    cases hcommand : levels.head?.bind Given.command? with
    | none =>
      simp only [hcommand] at h
      cases h
    | some command =>
      simp only [hcommand] at h
      cases h
      rfl
  rw [hp]
  unfold configOf at hconfig
  cases env with
  | none =>
    cases hconfig
    exact Option.or_none.symm
  | some path =>
    dsimp only at hconfig
    split_ifs at hconfig
    cases hconfig
    rfl

end CommandLine

/-! ## Where the environment has its say -/

namespace Config.Overrides.Applied

variable {α : Type} {o : Overrides} {c c' : Config α}

theorem valid_iff [Amount α] (h : o.Applied c c') (hvalid : c'.Valid) : c.Valid ↔ c.budgets.resetHour ≤ 23 := by
  rw [h.others] at hvalid
  exact ⟨fun hc => hc.resetHour, fun hhour => { hvalid with resetHour := hhour }⟩

theorem unique {c'' : Config α} (h : o.Applied c c') (h' : o.Applied c c'') : c' = c'' :=
  Except.ok.inj (((o.apply_eq_ok c c').mpr h).symm.trans ((o.apply_eq_ok c c'').mpr h'))

end Config.Overrides.Applied

namespace Sandbox

variable (s : Sandbox)

theorem named_governed_iff (path : String) :
    (∀ c', ((Config.loadFrom path : SandboxM _) s).1 = .ok c' ↔ s.Governs path c') ↔
      ∀ c, s.written path = .ok c →
        (∀ c', s.overrides.Applied c c' → c'.Valid → c.budgets.resetHour ≤ 23) ∧
          (c.Valid → s.overrides.Applied c c) := by
  simp only [loadFrom_eq_ok]
  constructor
  · intro h c hc
    refine ⟨fun c' happlied hvalid => ?_, fun hvalid => ?_⟩
    · obtain ⟨hc', -⟩ := (h c').mpr ⟨c, hc, happlied, hvalid⟩
      cases hc.symm.trans hc'
      exact hvalid.resetHour
    · obtain ⟨c₀, hc₀, happlied, -⟩ := (h c).mp ⟨hc, hvalid⟩
      cases hc.symm.trans hc₀
      exact happlied
  · intro h c'
    constructor
    · rintro ⟨hc', hvalid⟩
      exact ⟨c', hc', (h c' hc').2 hvalid, hvalid⟩
    · rintro ⟨c, hc, happlied, hvalid⟩
      have hhour := (h c hc).1 c' happlied hvalid
      have hsame := (h c hc).2 ((happlied.valid_iff hvalid).mpr hhour)
      cases hsame.unique happlied
      exact ⟨hc, hvalid⟩

theorem unnamed_governed_iff (henv : s.env.get? "TOLLGATE_CONFIG" = none) :
    (∀ c', ((Config.load : SandboxM _) s).1 = .ok c' ↔ s.Governs s.defaultPath c') ↔
      ∀ c, s.written s.defaultPath = .ok c →
        ∀ c', s.overrides.Applied c c' → c'.Valid → c.budgets.resetHour ≤ 23 := by
  simp only [s.load_eq_ok henv]
  constructor
  · intro h c hc c' happlied hvalid
    obtain ⟨c₀, hc₀, hvalid₀, -⟩ := (h c').mpr ⟨c, hc, happlied, hvalid⟩
    cases hc.symm.trans hc₀
    exact hvalid₀.resetHour
  · intro h c'
    constructor
    · rintro ⟨c, hc, -, happlied, hvalid⟩
      exact ⟨c, hc, happlied, hvalid⟩
    · rintro ⟨c, hc, happlied, hvalid⟩
      have hhour := h c hc c' happlied hvalid
      exact ⟨c, hc, (happlied.valid_iff hvalid).mpr hhour, happlied, hvalid⟩

/-- The environment has its say over the configuration that is loaded exactly where the chosen file has an hour that
is one and, if the file was named, the environment sets nothing but what the file says. -/
theorem load_governed_iff (words : List String) (p : Places) (command : Command)
    (hread : CommandLine.read (s.env.get? CommandLine.configVariable) words = .ok (p, command)) :
    (∀ c', ((p.load : SandboxM _) s).1 = .ok c' ↔ s.Governs (p.config.getD s.defaultPath) c') ↔
      ∀ c, s.written (p.config.getD s.defaultPath) = .ok c →
        (∀ c', s.overrides.Applied c c' → c'.Valid → c.budgets.resetHour ≤ 23) ∧
          (p.config.isSome → c.Valid → s.overrides.Applied c c) := by
  unfold Places.load
  cases hconfig : p.config with
  | some path =>
    refine (s.named_governed_iff path).trans ?_
    simp only [Option.getD_some, Option.isSome_some, true_imp_iff]
  | none =>
    obtain ⟨given, hgiven⟩ := CommandLine.read_config hread
    have henv : s.env.get? "TOLLGATE_CONFIG" = none :=
      (Option.or_eq_none_iff.mp (hgiven.symm.trans hconfig)).2
    refine (s.unnamed_governed_iff henv).trans ?_
    simp only [Option.getD_none, Option.isSome_none, Bool.false_eq_true, false_imp_iff, and_true]

def sevenSet : Sandbox := { env := .ofList [("TOLLGATE_RESET_HOUR", "7")] }

def sevenNamed : Sandbox := { env := .ofList [("TOLLGATE_CONFIG", "c.toml"), ("TOLLGATE_RESET_HOUR", "7")] }

theorem load_governed_iff_sevenSet :
    let p : Places := {}
    CommandLine.read (sevenSet.env.get? CommandLine.configVariable) ["config", "show"] = .ok (p, .show) ∧
      ∀ c', ((p.load : SandboxM _) sevenSet).1 = .ok c' ↔ sevenSet.Governs sevenSet.defaultPath c' := by
  have hread : CommandLine.read (sevenSet.env.get? CommandLine.configVariable) ["config", "show"] =
      .ok ({}, .show) := by rfl
  refine ⟨hread, (sevenSet.load_governed_iff _ _ _ hread).mpr fun c hc => ⟨fun c' _ _ => ?_, fun h => ?_⟩⟩
  · have hdefault : sevenSet.written sevenSet.defaultPath = .ok .default := by rfl
    cases hc.symm.trans hdefault
    decide
  · cases h

/-- A file that is named and not there stands for the defaults, and the hour that is set is not looked at. -/
theorem load_sevenNamed :
    let p : Places := { config := some "c.toml" }
    let seven : Config Double := { Config.default with budgets := { Config.default.budgets with resetHour := 7 } }
    CommandLine.read (sevenNamed.env.get? CommandLine.configVariable) ["config", "show"] = .ok (p, .show) ∧
      sevenNamed.Governs "c.toml" seven ∧ ((p.load : SandboxM _) sevenNamed).1 = .ok .default ∧
      seven ≠ Config.default := by
  refine ⟨by rfl, ⟨.default, by rfl, ⟨by rfl, by rfl, by rfl⟩, ?_⟩, by rfl, ?_⟩
  · exact (Config.validate_eq_ok _).mp (by decide +kernel)
  · intro h
    exact absurd (congrArg (·.budgets.resetHour) h) (by decide)

end Sandbox

end Admission
