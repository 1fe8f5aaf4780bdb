import Admission.Proofs.Config
import Admission.Proofs.Dict
import Admission.Proofs.Path
import Admission.Sandbox

/-!
# Files in the sandbox

What is found at a path is said by the nodes at the places along it. The actions on files change these nodes at few
places: directories are made where nothing was, a file is put at the place of its name.
-/

namespace Admission

namespace Sandbox

open Admission.Path (normal prefixes steps walk)

variable (s : Sandbox)

/-! ## Nodes by their places -/

theorem node?_eq (path : String) :
    s.node? path = if (walk (steps path)).all (· == "..") then some .directory else s.nodes.get? (normal path) := by
  unfold node?
  dsimp only
  rw [Path.parts_normal]

theorem node?_congr {path other : String} (h : normal path = normal other) : s.node? path = s.node? other := by
  rw [node?_eq, node?_eq, h, (Path.normal_eq_iff.mp h).2]

theorem not_all_of_node? {path : String} (h : s.node? path ≠ some .directory) :
    ¬ ((walk (steps path)).all (· == "..")) = true := by
  intro hall
  rw [node?_eq, if_pos hall] at h
  exact h rfl

theorem node?_put_of_ne {path other : String} (node : Node) (h : normal other ≠ normal path) :
    (s.put path node).node? other = s.node? other := by
  rw [node?_eq, node?_eq]
  unfold put
  rw [Dict.get?_insert_of_ne _ _ _ _ h]

theorem node?_put_self {path : String} (node : Node) (h : ¬ ((walk (steps path)).all (· == "..")) = true) :
    (s.put path node).node? path = some node := by
  rw [node?_eq, if_neg h]
  exact Dict.get?_insert_self _ _ _

theorem nodes_remove_get? (path key : String) :
    (s.remove path).nodes.get? key = if key = normal path then none else s.nodes.get? key := by
  refine Dict.get?_ofList_eq _ _ _ fun node => ⟨fun hmem => ?_, fun hget => ?_⟩
  · obtain ⟨hmem, hne⟩ := List.mem_filter.mp hmem
    rw [if_neg (bne_iff_ne.mp hne)]
    exact s.nodes.get?_of_mem _ _ hmem
  · split_ifs at hget with hpath
    exact List.mem_filter.mpr ⟨s.nodes.mem_of_get? _ _ hget, bne_iff_ne.mpr hpath⟩

theorem node?_remove_of_ne {path other : String} (h : normal other ≠ normal path) :
    (s.remove path).node? other = s.node? other := by
  rw [node?_eq, node?_eq, nodes_remove_get?, if_neg h]

theorem directory_put_iff {path other : String} {node : Node} (hnode : node ≠ .directory)
    (h : s.node? path ≠ some .directory) :
    (s.put path node).node? other = some .directory ↔ s.node? other = some .directory := by
  by_cases heq : normal other = normal path
  · rw [node?_congr _ heq, s.node?_congr heq, s.node?_put_self node (s.not_all_of_node? h), Option.some_inj]
    exact iff_of_false hnode h
  · rw [s.node?_put_of_ne node heq]

theorem directory_remove_iff {path other : String} (h : s.node? path ≠ some .directory) :
    (s.remove path).node? other = some .directory ↔ s.node? other = some .directory := by
  by_cases heq : normal other = normal path
  · rw [node?_congr _ heq, s.node?_congr heq, node?_eq, if_neg (s.not_all_of_node? h), nodes_remove_get?, if_pos rfl]
    exact iff_of_false nofun h
  · rw [s.node?_remove_of_ne heq]

/-! ## What is found -/

/-- What a look at the path finds, be it that nothing is there or that there is no way. -/
def found (path : String) : Option Node :=
  match s.look path with
  | .ok node => node
  | .error _ => none

def ShortName (path : String) : Prop :=
  ((steps path).getLast?.any fun name => longestName < name.utf8ByteSize) = false

structure Sane (path : String) : Prop where
  spelling : spellingFault? path = none
  above : ∀ above ∈ (prefixes path).dropLast, ShortName above
  name : ShortName path

theorem entry?_eq_ok (path : String) (node : Option Node) :
    s.entry? path = .ok node ↔ ShortName path ∧ s.node? path = node := by
  unfold entry? ShortName
  split_ifs with hlong <;> simp [hlong]

theorem enter_eq_ok (path : String) :
    s.enter path = .ok () ↔ ShortName path ∧ s.node? path = some .directory := by
  rw [← entry?_eq_ok]
  unfold enter
  cases s.entry? path with
  | error fault => simp [bind, Except.bind]
  | ok node =>
    rcases node with _ | _ | _ | _ <;> simp [bind, Except.bind, throw, throwThe, MonadExceptOf.throw, pure, Except.pure]

theorem approach_eq_ok (path : String) :
    s.approach path = .ok () ↔ spellingFault? path = none ∧
      ∀ above ∈ (prefixes path).dropLast, ShortName above ∧ s.node? above = some .directory := by
  unfold approach
  cases hspelling : spellingFault? path with
  | some fault => simp
  | none =>
    dsimp only
    rw [forM_eq_ok]
    simp only [enter_eq_ok, true_and]

theorem look_eq_ok_some (path : String) (node : Node) :
    s.look path = .ok (some node) ↔ s.approach path = .ok () ∧ s.entry? path = .ok (some node) ∧
      (Path.endsInSlash path = true → node = .directory) := by
  unfold look
  cases s.approach path with
  | error fault => simp [bind, Except.bind]
  | ok _ =>
    cases s.entry? path with
    | error fault => simp [bind, Except.bind]
    | ok found =>
      cases hslash : Path.endsInSlash path <;> rcases found with _ | _ | _ | _ <;>
        simp [bind, Except.bind, throw, throwThe, MonadExceptOf.throw, pure, Except.pure, eq_comm]
      all_goals
        rintro rfl hdirectory
        cases hdirectory

theorem found_eq_some (path : String) (node : Node) :
    s.found path = some node ↔ Sane path ∧
      (∀ above ∈ (prefixes path).dropLast, s.node? above = some .directory) ∧ s.node? path = some node ∧
        (Path.endsInSlash path = true → node = .directory) := by
  have hlook : s.found path = some node ↔ s.look path = .ok (some node) := by
    unfold found
    cases s.look path <;> simp
  rw [hlook, look_eq_ok_some, approach_eq_ok, entry?_eq_ok]
  constructor
  · rintro ⟨⟨hspelling, habove⟩, ⟨hname, hnode⟩, hslash⟩
    exact ⟨⟨hspelling, fun above h => (habove above h).1, hname⟩, fun above h => (habove above h).2, hnode, hslash⟩
  · rintro ⟨⟨hspelling, hshort, hname⟩, habove, hnode, hslash⟩
    exact ⟨⟨hspelling, fun above h => ⟨hshort above h, habove above h⟩⟩, ⟨hname, hnode⟩, hslash⟩

/-! ## Making directories -/

/-- Nothing is changed but that directories are made at some of the paths, where nothing was. -/
def Grown (paths : List String) (s s' : Sandbox) : Prop :=
  ∀ path, s'.node? path = s.node? path ∨
    s.node? path = none ∧ s'.node? path = some .directory ∧ ∃ made ∈ paths, normal path = normal made

namespace Grown

variable {paths : List String} {s s' s'' : Sandbox}

theorem refl : Grown paths s s := fun _ => .inl rfl

theorem trans (h : Grown paths s s') (h' : Grown paths s' s'') : Grown paths s s'' := by
  intro path
  rcases h path with hsame | ⟨hnone, hmade, hpath⟩
  · rcases h' path with hsame' | ⟨hnone', hmade', hpath'⟩
    · exact .inl (hsame'.trans hsame)
    · exact .inr ⟨hsame ▸ hnone', hmade', hpath'⟩
  · rcases h' path with hsame' | ⟨hnone', -, -⟩
    · exact .inr ⟨hnone, hsame'.trans hmade, hpath⟩
    · rw [hmade] at hnone'
      cases hnone'

theorem mono {others : List String} (h : Grown paths s s') (hsub : paths ⊆ others) : Grown others s s' :=
  fun path => (h path).imp_right fun ⟨hnone, hmade, made, hmem, heq⟩ => ⟨hnone, hmade, made, hsub hmem, heq⟩

theorem put {path : String} (h : s.node? path = none) : Grown [path] s (s.put path .directory) := by
  intro other
  by_cases heq : normal other = normal path
  · rw [s.node?_congr heq, Sandbox.node?_congr _ heq, s.node?_put_self .directory (s.not_all_of_node? (by simp [h]))]
    exact .inr ⟨h, rfl, path, List.mem_singleton_self path, heq⟩
  · exact .inl (s.node?_put_of_ne .directory heq)

theorem keeps_directory (h : Grown paths s s') {path : String} (hpath : s.node? path = some .directory) :
    s'.node? path = some .directory := by
  rcases h path with hsame | ⟨hnone, -, -⟩
  · exact hsame.trans hpath
  · rw [hpath] at hnone
    cases hnone

end Grown

theorem makeAll_grown (made : Bool) (paths : List String) : Grown paths s (s.makeAll made paths).2 := by
  induction paths generalizing s made with
  | nil => exact Grown.refl
  | cons first rest ih =>
    unfold makeAll
    cases hentry : s.entry? first with
    | error fault => exact Grown.refl
    | ok node =>
      have hnode := ((s.entry?_eq_ok first node).mp hentry).2
      rcases node with _ | _ | _ | _
      · have hfirst : Grown (first :: rest) s (s.put first .directory) := (Grown.put hnode).mono (by simp)
        exact hfirst.trans ((ih (s.put first .directory) true).mono (List.subset_cons_self first rest))
      · exact (ih s made).mono (List.subset_cons_self first rest)
      · exact Grown.refl
      · exact Grown.refl

theorem createDirs_grown (path : String) : Grown (prefixes path) s (s.createDirs path).2 := by
  unfold createDirs
  split
  · exact Grown.refl
  · exact s.makeAll_grown false (prefixes path)

/-! ## Writing and renaming -/

theorem write_eq_ok {s' : Sandbox} {path content : String} {isPrivate : Bool}
    (h : s.write path content isPrivate = .ok s') :
    (∀ above ∈ (prefixes path).dropLast, s.node? above = some .directory) ∧ s.node? path ≠ some .directory ∧
      ∃ isPrivate, s' = s.put path (.file content isPrivate) := by
  obtain ⟨_, happroach, h⟩ := (Except.bind_eq_ok _ _ _).mp h
  have habove := ((s.approach_eq_ok path).mp happroach).2
  dsimp only at h
  split_ifs at h
  · cases h
  obtain ⟨node, hentry, h⟩ := (Except.bind_eq_ok _ _ _).mp h
  have hnode := ((s.entry?_eq_ok path node).mp hentry).2
  refine ⟨fun above hmem => (habove above hmem).2, ?_⟩
  rcases node with _ | _ | _ | _ <;> cases h <;> exact ⟨by simp [hnode], _, rfl⟩

theorem rename_eq_ok {s' : Sandbox} {path target : String} (h : s.rename path target = .ok s') :
    ∃ node, s.node? path = some node ∧ node ≠ .directory ∧ s.node? target ≠ some .directory ∧ Sane target ∧
      (∀ above ∈ (prefixes target).dropLast, s.node? above = some .directory) ∧
        Path.endsInSlash target = false ∧ s' = (s.remove path).put target node := by
  obtain ⟨found, hlook, h⟩ := (Except.bind_eq_ok _ _ _).mp h
  rcases found with _ | _ | _ | _
  · cases h
  · cases h
  all_goals
    have hnode := ((s.entry?_eq_ok path _).mp ((s.look_eq_ok_some path _).mp hlook).2.1).2
    obtain ⟨_, happroach, h⟩ := (Except.bind_eq_ok _ _ _).mp h
    dsimp only at h
    split at h
    · cases h
    split at h
    · cases h
    rename_i hslash
    obtain ⟨there, hentry, h⟩ := (Except.bind_eq_ok _ _ _).mp h
    obtain ⟨hspelling, habove⟩ := (s.approach_eq_ok target).mp happroach
    obtain ⟨hname, hthere⟩ := (s.entry?_eq_ok target there).mp hentry
    rcases there with _ | _ | _ | _ <;> cases h <;>
      exact ⟨_, hnode, by simp, by simp [hthere], ⟨hspelling, fun above h => (habove above h).1, hname⟩,
        fun above h => (habove above h).2, Bool.eq_false_iff.mpr hslash, rfl⟩

theorem found_rename {s' : Sandbox} {path target : String} (h : s.rename path target = .ok s') :
    s'.found target = s.node? path := by
  obtain ⟨node, hnode, hfile, htarget, hsane, habove, hslash, rfl⟩ := s.rename_eq_ok h
  have hpath : s.node? path ≠ some .directory := by
    rw [hnode, Ne, Option.some_inj]
    exact hfile
  have hother : ∀ {above}, s.node? above = some .directory →
      ((s.remove path).put target node).node? above = some .directory := fun {above} habove =>
    (directory_put_iff _ hfile ((s.directory_remove_iff hpath).not.mpr htarget)).mpr
      ((s.directory_remove_iff hpath).mpr habove)
  have hput : ((s.remove path).put target node).node? target = some node :=
    node?_put_self _ node (s.not_all_of_node? htarget)
  rw [hnode]
  refine (found_eq_some _ target node).mpr ⟨hsane, fun above h => hother (habove above h), hput, fun h => ?_⟩
  rw [hslash] at h
  cases h

theorem found_put_of_ne {path other : String} {node : Node} (hne : normal path ≠ normal other)
    (hnode : node ≠ .directory) (hother : s.node? other ≠ some .directory) :
    (s.put other node).found path = s.found path := by
  refine Option.ext fun found => ?_
  rw [found_eq_some, found_eq_some, s.node?_put_of_ne node hne]
  simp only [s.directory_put_iff hnode hother]

end Sandbox

/-- Done as a whole, or not at all. -/
theorem SandboxM.attempt_whole (action : FileAction) (f : Sandbox → Except FileFault Sandbox) (s : Sandbox) :
    (∃ fault, attempt action (whole f) s = (.error fault, s)) ∨
      ∃ s', f s = .ok s' ∧ attempt action (whole f) s = (.ok (), s') := by
  unfold attempt whole
  split_ifs
  · exact .inl ⟨_, rfl⟩
  · cases f s with
    | error fault => exact .inl ⟨fault, rfl⟩
    | ok s' => exact .inr ⟨s', rfl, rfl⟩

end Admission
