import Admission.Proofs.Sandbox

/-!
# The sandbox as a tree

Whatever is there lies in directories that are there, and so it stays whatever is done to files. Making directories
therefore changes what is found at a path only if the path goes back out of one that was missing.
-/

namespace Admission.Sandbox

open Admission.Path (normal prefixes steps walk)

/-! ## Trees -/

/-- Whatever is there lies in directories that are there. -/
def IsTree (s : Sandbox) : Prop :=
  ∀ entry ∈ s.nodes.toList, ∀ above ∈ (prefixes entry.1).dropLast, s.node? above = some .directory

instance (s : Sandbox) : Decidable s.IsTree :=
  inferInstanceAs (Decidable (∀ entry ∈ s.nodes.toList, ∀ above ∈ (prefixes entry.1).dropLast, _))

variable {s : Sandbox} {absolute : Bool}

theorem IsTree.missing_below (hs : s.IsTree) {ps : List String} {name : String} (hclean : Path.Clean (ps ++ [name]))
    (hdot : name ≠ ".") (hback : name ≠ "..") (h : s.node? (Path.ofParts absolute ps) = none) :
    s.node? (Path.ofParts absolute (ps ++ [name])) = none := by
  have hps : Path.Clean ps := hclean.of_subset fun p hp => List.mem_append_left _ hp
  by_contra hthere
  obtain ⟨node, hnode⟩ := Option.ne_none_iff_exists'.mp hthere
  have hdeep : ¬ ((walk ps ++ [name]).all (· == "..")) = true := by
    simp [hback]
  rw [node?_eq, Path.steps_ofParts hclean, Path.walk_append_of_ne ps hdot hback, if_neg hdeep,
    Path.normal_ofParts hclean, Path.walk_append_of_ne ps hdot hback] at hnode
  have hplace : walk ps ≠ [] := by
    intro hnil
    rw [node?_eq, Path.steps_ofParts hps, hnil] at h
    cases h
  have hplaceClean : Path.Clean (walk ps ++ [name]) := fun p hp => hclean p (by
    rcases List.mem_append.mp hp with hp | hp
    · exact List.mem_append_left _ (Path.mem_walk hp).1
    · exact List.mem_append_right _ hp)
  have habove : Path.ofParts absolute (walk ps) ∈ (prefixes (Path.ofParts absolute (walk ps ++ [name]))).dropLast := by
    refine Path.mem_prefixes_dropLast.mpr ⟨walk ps, hplace, ?_, ?_⟩
    · rw [Path.steps_ofParts hplaceClean, List.dropLast_concat]
    · rw [Path.isAbsolute_ofParts hplaceClean]
  have hdirectory := hs _ (s.nodes.mem_of_get? _ _ hnode) _ habove
  have hsame : normal (Path.ofParts absolute (walk ps)) = normal (Path.ofParts absolute ps) := by
    rw [Path.normal_ofParts hps.walk, Path.normal_ofParts hps, Path.walk_walk]
  rw [s.node?_congr hsame, h] at hdirectory
  cases hdirectory

theorem IsTree.missing_on (hs : s.IsTree) {before after : List String} (hclean : Path.Clean (before ++ after))
    (hdots : ∀ p ∈ after, p ≠ ".") (h : s.node? (Path.ofParts absolute before) = none)
    (hback : ∀ above, above ++ [".."] <+: before ++ after → s.node? (Path.ofParts absolute above) ≠ none) :
    s.node? (Path.ofParts absolute (before ++ after)) = none ∧ walk (before ++ after) = walk before ++ after := by
  -- each step is looked for in a directory that the step before has shown to be missing
  induction after generalizing before with
  | nil =>
    rw [List.append_nil]
    exact ⟨h, (List.append_nil _).symm⟩
  | cons name rest ih =>
    have hstep : before ++ name :: rest = (before ++ [name]) ++ rest := by
      rw [List.append_assoc, List.singleton_append]
    obtain ⟨hdot, hdots⟩ := List.forall_mem_cons.mp hdots
    have hname : name ≠ ".." := by
      rintro rfl
      exact hback before ⟨rest, hstep.symm⟩ h
    rw [hstep] at hclean hback ⊢
    have hbelow : s.node? (Path.ofParts absolute (before ++ [name])) = none :=
      hs.missing_below (hclean.of_subset fun p hp => List.mem_append_left _ hp) hdot hname h
    obtain ⟨hmissing, hwalk⟩ := ih hclean hdots hbelow hback
    refine ⟨hmissing, ?_⟩
    rw [hwalk, Path.walk_append_of_ne before hdot hname, List.append_assoc, List.singleton_append]

/-! ## A tree stays one -/

namespace IsTree

theorem directory_of_prefix (hs : s.IsTree) {ps above : List String} (hclean : Path.Clean ps)
    (h : s.node? (Path.ofParts absolute ps) = some .directory) (hne : above ≠ []) (habove : above <+: walk ps) :
    s.node? (Path.ofParts absolute above) = some .directory := by
  have haboveClean : Path.Clean above := hclean.walk.of_subset fun _ hp => habove.subset hp
  have hplace : normal (Path.ofParts absolute ps) = Path.ofParts absolute (walk ps) := Path.normal_ofParts hclean
  have hself : s.node? (Path.ofParts absolute (walk ps)) = some .directory := by
    rw [← h]
    exact s.node?_congr (by rw [Path.normal_ofParts hclean.walk, Path.walk_walk, hplace])
  rw [node?_eq, Path.steps_ofParts hclean, hplace] at h
  split_ifs at h with hall
  · rw [node?_eq, Path.steps_ofParts haboveClean, if_pos]
    exact List.all_eq_true.mpr fun p hp => List.all_eq_true.mp hall p (habove.subset (Path.mem_walk hp).1)
  · have hplaceNe : walk ps ≠ [] := fun hnil => hne (List.prefix_nil.mp (hnil ▸ habove))
    rw [← List.dropLast_append_getLast hplaceNe, List.prefix_concat_iff, List.dropLast_append_getLast] at habove
    rcases habove with rfl | hproper
    · exact hself
    · refine hs _ (s.nodes.mem_of_get? _ _ h) _ (Path.mem_prefixes_dropLast.mpr ⟨above, hne, ?_, ?_⟩)
      · rwa [Path.steps_ofParts hclean.walk]
      · rw [Path.isAbsolute_ofParts hclean.walk]

theorem directory_above_normal (hs : s.IsTree) {path : String}
    (h : ∀ above ∈ (prefixes path).dropLast, s.node? above = some .directory) :
    ∀ above ∈ (prefixes (normal path)).dropLast, s.node? above = some .directory := by
  intro above habove
  have hclean := Path.clean_steps path
  obtain ⟨ps, hne, hps, rfl⟩ := Path.mem_prefixes_dropLast.mp habove
  rw [Path.normal_eq, Path.isAbsolute_ofParts hclean.walk]
  rw [Path.normal_eq, Path.steps_ofParts hclean.walk] at hps
  rcases List.eq_nil_or_concat (steps path) with hnil | ⟨front, last, hsteps⟩
  · rw [hnil] at hps
    exact absurd (List.prefix_nil.mp hps) hne
  rw [List.concat_eq_append] at hsteps
  rw [hsteps] at hps hclean
  have hfront := hps.trans (Path.dropLast_walk_append front last)
  refine hs.directory_of_prefix (hclean.of_subset fun _ => List.mem_append_left _) (h _ ?_) hne hfront
  refine Path.mem_prefixes_dropLast.mpr ⟨front, ?_, ?_, rfl⟩
  · rintro rfl
    exact absurd (List.prefix_nil.mp hfront) hne
  · rw [hsteps, List.dropLast_concat]

theorem put (hs : s.IsTree) {path : String} {node : Node}
    (habove : ∀ above ∈ (prefixes path).dropLast, s.node? above = some .directory)
    (hkeep : ∀ {other}, s.node? other = some .directory → (s.put path node).node? other = some .directory) :
    (s.put path node).IsTree := by
  intro entry hentry above hmem
  by_cases hpath : entry.1 = normal path
  · rw [hpath] at hmem
    exact hkeep (hs.directory_above_normal habove above hmem)
  · have hget := (s.put path node).nodes.get?_of_mem _ _ hentry
    unfold Sandbox.put at hget
    rw [Dict.get?_insert_of_ne _ _ _ _ hpath] at hget
    exact hkeep (hs _ (s.nodes.mem_of_get? _ _ hget) above hmem)

theorem remove (hs : s.IsTree) {path : String} (h : s.node? path ≠ some .directory) : (s.remove path).IsTree := by
  intro entry hentry above hmem
  have hget := (s.remove path).nodes.get?_of_mem _ _ hentry
  rw [nodes_remove_get?] at hget
  split_ifs at hget
  exact (s.directory_remove_iff h).mpr (hs _ (s.nodes.mem_of_get? _ _ hget) above hmem)

theorem makeAll (hs : s.IsTree) (made : Bool) {paths done : List String}
    (hdone : ∀ above ∈ done, s.node? above = some .directory)
    (h : ∀ before path after, paths = before ++ path :: after →
      ∀ above ∈ (prefixes path).dropLast, above ∈ done ++ before) : (s.makeAll made paths).2.IsTree := by
  -- `done` are the directories that were passed, be they there before or made
  induction paths generalizing s made done with
  | nil => exact hs
  | cons first rest ih =>
    have hfirst : ∀ above ∈ (prefixes first).dropLast, s.node? above = some .directory :=
      fun above habove => hdone above (by simpa using h [] first rest rfl above habove)
    have hrest : ∀ before path after, rest = before ++ path :: after →
        ∀ above ∈ (prefixes path).dropLast, above ∈ (done ++ [first]) ++ before := by
      rintro before path after rfl above habove
      simpa using h (first :: before) path after rfl above habove
    unfold Sandbox.makeAll
    cases hentry : s.entry? first with
    | error fault => exact hs
    | ok node =>
      have hnode := ((s.entry?_eq_ok first node).mp hentry).2
      rcases node with _ | _ | _ | _
      · have hgrown := Grown.put hnode
        have hself : (s.put first .directory).node? first = some .directory :=
          s.node?_put_self .directory (s.not_all_of_node? (by simp [hnode]))
        refine ih (hs.put hfirst hgrown.keeps_directory) true (fun above habove => ?_) hrest
        rcases List.mem_append.mp habove with habove | habove
        · exact hgrown.keeps_directory (hdone above habove)
        · rw [List.mem_singleton.mp habove, hself]
      · refine ih hs made (fun above habove => ?_) hrest
        rcases List.mem_append.mp habove with habove | habove
        · exact hdone above habove
        · rw [List.mem_singleton.mp habove, hnode]
      · exact hs
      · exact hs

theorem makeAll_take (hs : s.IsTree) (path : String) (count : Nat) :
    (s.makeAll false ((prefixes path).take count)).2.IsTree := by
  have hnone : ∀ above ∈ ([] : List String), s.node? above = some .directory := nofun
  refine hs.makeAll false hnone fun before p after h above habove => ?_
  have hall : prefixes path = before ++ p :: (after ++ (prefixes path).drop count) := by
    rw [← List.cons_append, ← List.append_assoc, ← h, List.take_append_drop]
  exact Path.above_mem_of_prefixes hall habove

theorem createDirs (hs : s.IsTree) (path : String) : (s.createDirs path).2.IsTree := by
  unfold Sandbox.createDirs
  split
  · exact hs
  · have hall := hs.makeAll_take path (prefixes path).length
    rwa [List.take_length] at hall

theorem rename (hs : s.IsTree) {s' : Sandbox} {path target : String} (h : s.rename path target = .ok s') :
    s'.IsTree := by
  obtain ⟨node, hnode, hfile, htarget, -, habove, -, rfl⟩ := s.rename_eq_ok h
  have hpath : s.node? path ≠ some .directory := by
    rw [hnode, Ne, Option.some_inj]
    exact hfile
  have hfree : (s.remove path).node? target ≠ some .directory := (s.directory_remove_iff hpath).not.mpr htarget
  refine (hs.remove hpath).put (fun above hmem => ?_) (directory_put_iff _ hfile hfree).mpr
  exact (s.directory_remove_iff hpath).mpr (habove above hmem)

end IsTree

/-! ## Ways that lead back -/

/-- No step back of the path leads out of a directory that is missing. -/
def KnowsWayBack (s : Sandbox) (path : String) : Prop :=
  ∀ above, above ++ [".."] <+: Path.parts path → s.node? (Path.ofParts (Path.isAbsolute path) above) ≠ none

instance (s : Sandbox) (path : String) : Decidable (s.KnowsWayBack path) :=
  decidable_of_iff (∀ above ∈ (Path.parts path).inits, above ++ [".."] <+: Path.parts path →
      s.node? (Path.ofParts (Path.isAbsolute path) above) ≠ none)
    ⟨fun h above hback => h above ((List.mem_inits _ _).mpr ((List.prefix_append above _).trans hback)) hback,
      fun h above _ => h above⟩

theorem KnowsWayBack.missing {path above : String} (hs : s.IsTree) (h : s.KnowsWayBack path)
    (habove : above ∈ (prefixes path).dropLast) (hnone : s.node? above = none) : s.node? path = none := by
  obtain ⟨ps, -, hps, rfl⟩ := Path.mem_prefixes_dropLast.mp habove
  obtain ⟨rest, hsteps⟩ := hps.trans (List.dropLast_prefix _)
  have hclean : Path.Clean ps := (Path.clean_steps path).of_subset fun _ hp => hsteps ▸ List.mem_append_left _ hp
  have hparts : Path.parts path = ps.filter (· != ".") ++ rest.filter (· != ".") := by
    rw [← List.filter_append, hsteps]
    rfl
  have hpath := Path.clean_parts path
  rw [← s.node?_congr (Path.normal_ofParts_filter hclean)] at hnone
  rw [← s.node?_congr (Path.normal_ofParts_parts path), hparts]
  unfold KnowsWayBack at h
  rw [hparts] at h hpath
  exact (hs.missing_on hpath (fun p hp => bne_iff_ne.mp (List.mem_filter.mp hp).2) hnone h).1

theorem KnowsWayBack.ne_above {path name above : String} (hs : s.IsTree) (h : s.KnowsWayBack path)
    (hname : Path.fileName? path = some name) (hnone : s.node? path = none)
    (habove : above ∈ prefixes (Path.ofParts (Path.isAbsolute path) (Path.parts path).dropLast)) :
    normal path ≠ normal above := by
  -- A file that is missing does not stand in the way of its own directory.
  obtain ⟨hparts, hdot, hback⟩ := Path.parts_of_fileName? hname
  have hclean := Path.clean_parts path
  have hdots : ∀ p ∈ Path.parts path, p ≠ "." := fun p hp => bne_iff_ne.mp (List.mem_filter.mp hp).2
  have hfront : Path.Clean (Path.parts path).dropLast := hclean.of_subset fun _ => List.mem_of_mem_dropLast
  obtain ⟨ps, -, hps, rfl⟩ := Path.mem_prefixes.mp habove
  rw [Path.steps_ofParts hfront] at hps
  rw [Path.isAbsolute_ofParts hfront]
  obtain ⟨rest, hrest⟩ := hps
  have hpsClean : Path.Clean ps := hfront.of_subset fun _ hp => hrest ▸ List.mem_append_left _ hp
  rw [← hrest, List.append_assoc] at hparts
  -- the way to the file would go on below the directory, to a place that is further down
  intro heq
  rw [s.node?_congr heq] at hnone
  unfold KnowsWayBack at h
  rw [hparts] at hclean hdots h
  have hbelow := (hs.missing_on hclean (fun p hp => hdots p (List.mem_append_right _ hp)) hnone h).2
  rw [← hparts, ← Path.walk_steps, (Path.normal_eq_iff.mp heq).2, Path.steps_ofParts hpsClean] at hbelow
  have hlength := congrArg List.length hbelow
  simp at hlength

theorem Grown.found_eq {s' : Sandbox} {path name : String} (hs : s.IsTree) (hway : s.KnowsWayBack path)
    (hname : Path.fileName? path = some name)
    (h : Grown (prefixes (Path.ofParts (Path.isAbsolute path) (Path.parts path).dropLast)) s s') :
    s'.found path = s.found path := by
  refine Option.ext fun node => ?_
  rw [found_eq_some, found_eq_some]
  refine and_congr_right fun _ => ⟨fun ⟨habove, hnode, hslash⟩ => ?_, fun ⟨habove, hnode, hslash⟩ => ?_⟩
  · have hthere : s.node? path ≠ none := by
      intro hnone
      rcases h path with hsame | ⟨-, -, above, hmem, heq⟩
      · rw [← hsame, hnode] at hnone
        cases hnone
      · exact hway.ne_above hs hname hnone hmem heq
    refine ⟨fun above hmem => ?_, ?_, hslash⟩
    · rcases h above with hsame | ⟨hnone, -, -⟩
      · rw [← hsame]
        exact habove above hmem
      · exact absurd (hway.missing hs hmem hnone) hthere
    · rcases h path with hsame | ⟨hnone, -, -⟩
      · rw [← hsame, hnode]
      · exact absurd hnone hthere
  · refine ⟨fun above hmem => h.keeps_directory (habove above hmem), ?_, hslash⟩
    rcases h path with hsame | ⟨hnone, -, -⟩
    · rw [hsame, hnode]
    · rw [hnode] at hnone
      cases hnone

end Admission.Sandbox
