import Admission.Proofs.Ledger.Written
import Admission.Proofs.Sandbox.Tree

/-!
# Saving is all or nothing

After a save that succeeds the snapshot is loaded as it was saved. After one that fails, wherever it breaks off, what
is loaded is what was loaded before: besides the directories that the file is to lie in, only the file under the
temporary name is touched. The exception is a path that goes back out of a directory that was not there. Once the
directory is made, there is a way to the file.
-/

namespace Admission

/-! ## Actions that break off halfway -/

/-- How actions on files break off halfway. Those that fail from the start are left to the sandbox. -/
structure Trouble where
  reason : FileFault := .other "broken off"
  /-- How many directories are made, if that breaks off. -/
  directories : Option Nat := none
  /-- What is left of a file, if writing breaks off. -/
  torn : Option { node : Node // node ≠ .directory } := none

/-- A sandbox in trouble. -/
abbrev TroubledM := ReaderT Trouble SandboxM

namespace Trouble

def createDirs (trouble : Trouble) (path : String) : SandboxM (Except FileFault Unit) := fun s =>
  match trouble.directories with
  | none => (Machine.createDirs path : SandboxM _) s
  | some count => (.error trouble.reason, (s.makeAll false ((Path.prefixes path).take count)).2)

def writePrivate (trouble : Trouble) (path content : String) : SandboxM (Except FileFault Unit) := fun s =>
  match trouble.torn with
  | none => (Machine.writePrivate path content : SandboxM _) s
  | some node =>
    match s.write path content true with
    | .error fault => (.error fault, s)
    | .ok _ => (.error trouble.reason, s.put path node)

end Trouble

instance : Machine TroubledM where
  hasPath path := fun _ => Machine.hasPath path
  readText path := fun _ => Machine.readText path
  createDirs path := fun trouble => trouble.createDirs path
  writeText path content := fun _ => Machine.writeText path content
  writePrivate path content := fun trouble => trouble.writePrivate path content
  rename path target := fun _ => Machine.rename path target
  env? name := fun _ => Machine.env? name
  now := fun _ => Machine.now
  instant := fun _ => Machine.instant
  freshId := fun _ => Machine.freshId
  dice := fun _ => Machine.dice
  printLine text := fun _ => Machine.printLine text
  eachLine start step := fun trouble => Machine.eachLine start fun line state => step line state trouble

namespace Trouble

variable (trouble : Trouble) (s : Sandbox)

theorem createDirs_grown (path : String) :
    Sandbox.Grown (Path.prefixes path) s (trouble.createDirs path s).2 := by
  unfold createDirs
  cases trouble.directories with
  | none =>
    show Sandbox.Grown _ s (SandboxM.attempt _ _ s).2
    unfold SandboxM.attempt
    split_ifs
    · exact .refl
    · exact s.createDirs_grown path
  | some count => exact (s.makeAll_grown false _).mono (List.take_subset count _)

theorem writePrivate_cases (path content : String) :
    (∃ fault, trouble.writePrivate path content s = (.error fault, s)) ∨
      (∀ above ∈ (Path.prefixes path).dropLast, s.node? above = some .directory) ∧ s.node? path ≠ some .directory ∧
        ((∃ fault, ∃ node ≠ .directory, trouble.writePrivate path content s = (.error fault, s.put path node)) ∨
          ∃ isPrivate, trouble.writePrivate path content s = (.ok (), s.put path (.file content isPrivate))) := by
  unfold writePrivate
  cases trouble.torn with
  | none =>
    rcases SandboxM.attempt_whole (.write path) (·.write path content true) s with ⟨fault, hrun⟩ | ⟨s', hwrite, hrun⟩
    · exact .inl ⟨fault, hrun⟩
    · obtain ⟨habove, hfree, isPrivate, rfl⟩ := s.write_eq_ok hwrite
      exact .inr ⟨habove, hfree, .inr ⟨isPrivate, hrun⟩⟩
  | some node =>
    cases hwrite : s.write path content true with
    | error fault => exact .inl ⟨fault, rfl⟩
    | ok s' =>
      obtain ⟨habove, hfree, -⟩ := s.write_eq_ok hwrite
      exact .inr ⟨habove, hfree, .inl ⟨trouble.reason, node.1, node.2, rfl⟩⟩

theorem createDirs_isTree {s : Sandbox} (hs : s.IsTree) (path : String) : (trouble.createDirs path s).2.IsTree := by
  unfold createDirs
  cases trouble.directories with
  | none =>
    show (SandboxM.attempt _ _ s).2.IsTree
    unfold SandboxM.attempt
    split_ifs
    · exact hs
    · exact hs.createDirs path
  | some count => exact hs.makeAll_take path count

theorem writePrivate_isTree {s : Sandbox} (hs : s.IsTree) (path content : String) :
    (trouble.writePrivate path content s).2.IsTree := by
  rcases trouble.writePrivate_cases s path content with
    ⟨fault, hrun⟩ | ⟨habove, hfree, ⟨fault, node, hnode, hrun⟩ | ⟨isPrivate, hrun⟩⟩
  · rw [hrun]
    exact hs
  · rw [hrun]
    exact hs.put habove (s.directory_put_iff hnode hfree).mpr
  · rw [hrun]
    exact hs.put habove (s.directory_put_iff (by simp) hfree).mpr

end Trouble

namespace Store

/-! ## What is loaded -/

def loaded : Option Node → Except LedgerError (Option (Snapshot Double))
  | none => .ok none
  | some .directory => .error (.io FileFault.isDirectory.message)
  | some .binary => .error (.io FileFault.notText.message)
  | some (.file content _) =>
    match Snapshot.ofText? content with
    | some x => .ok (some x)
    | none => .error .serialization

theorem loaded_file (content : String) (isPrivate : Bool) :
    loaded (some (.file content isPrivate)) =
      match Snapshot.ofText? content with
      | some x => .ok (some x)
      | none => .error .serialization := rfl

theorem loadFile_eq (s : Sandbox) (path : String) :
    (loadFile path : SandboxM _) s = (loaded (s.found path), s) := by
  have hpath : (Machine.hasPath path : SandboxM _) s = (s.hasPath path, s) := rfl
  have hread : (Machine.readText path : SandboxM _) s = (s.readText path, s) := rfl
  unfold loadFile
  simp only [bind, StateT.bind, hpath]
  unfold Sandbox.hasPath Sandbox.found
  unfold Sandbox.readText at hread
  cases hlook : s.look path with
  | error fault => rfl
  | ok node =>
    rw [hlook] at hread
    rcases node with _ | _ | ⟨content, isPrivate⟩ | _
    · rfl
    · simp only [if_true, StateT.bind, hread]
      rfl
    · simp only [if_true, StateT.bind, hread, loaded_file]
      show (match Snapshot.ofText? content with | some x => _ | none => _ : SandboxM _) s = _
      cases Snapshot.ofText? content <;> rfl
    · simp only [if_true, StateT.bind, hread]
      rfl

/-! ## What a save comes to -/

def directories (path : String) : List String :=
  Path.prefixes (Path.ofParts (Path.isAbsolute path) (Path.parts path).dropLast)

/-- How a save of the text can end, by how far it got. -/
inductive Outcome (path text : String) (s : Sandbox) : Except LedgerError Unit → Sandbox → Prop
  | unwritten {s₁ : Sandbox} (e : LedgerError) (grown : Sandbox.Grown (directories path) s s₁) :
      Outcome path text s (.error e) s₁
  | waiting {s₁ : Sandbox} {node : Node} (e : LedgerError) (grown : Sandbox.Grown (directories path) s s₁)
      (free : s₁.node? (temporary path) ≠ some .directory) (left : node ≠ .directory) :
      Outcome path text s (.error e) (s₁.put (temporary path) node)
  | renamed {s₁ s₂ : Sandbox} {isPrivate : Bool} (grown : Sandbox.Grown (directories path) s s₁)
      (free : s₁.node? (temporary path) ≠ some .directory)
      (done : (s₁.put (temporary path) (.file text isPrivate)).rename (temporary path) path = .ok s₂) :
      Outcome path text s (.ok ()) s₂

section

variable {β : Type} {first : TroubledM (Except FileFault Unit)} {trouble : Trouble} {s s' : Sandbox}

theorem andThen_error (next : TroubledM (Except FileFault β)) {fault : FileFault}
    (h : first trouble s = (.error fault, s')) : andThen first next trouble s = (.error fault, s') := by
  unfold andThen
  simp only [bind, ReaderT.bind, StateT.bind, h]
  rfl

theorem andThen_ok (next : TroubledM (Except FileFault β)) (h : first trouble s = (.ok (), s')) :
    andThen first next trouble s = next trouble s' := by
  unfold andThen
  simp only [bind, ReaderT.bind, StateT.bind, h]

theorem andThen_isTree {next : TroubledM (Except FileFault β)} (hs : s.IsTree)
    (hfirst : ∀ {s : Sandbox}, s.IsTree → (first trouble s).2.IsTree)
    (hnext : ∀ {s : Sandbox}, s.IsTree → (next trouble s).2.IsTree) : (andThen first next trouble s).2.IsTree := by
  have htree := hfirst hs
  rcases hrun : first trouble s with ⟨fault | _, s'⟩ <;> rw [hrun] at htree
  · rw [andThen_error next hrun]
    exact htree
  · rw [andThen_ok next hrun]
    exact hnext htree

end

theorem saveFile_isTree (path : String) (x : Snapshot Double) (trouble : Trouble) {s : Sandbox} (hs : s.IsTree) :
    ((saveFile path x : TroubledM _) trouble s).2.IsTree := by
  have hparent : ∀ {s : Sandbox}, s.IsTree → ((createParent path : TroubledM _) trouble s).2.IsTree := by
    intro s hs
    unfold createParent
    cases Path.parent? path with
    | some directory => exact trouble.createDirs_isTree hs directory
    | none => exact hs
  have hrename : ∀ {s : Sandbox}, s.IsTree →
      ((Machine.rename (temporary path) path : TroubledM _) trouble s).2.IsTree := by
    intro s hs
    rcases SandboxM.attempt_whole (.rename (temporary path) path) (·.rename (temporary path) path) s with
      ⟨fault, hrun⟩ | ⟨s', hdone, hrun⟩
    · exact (congrArg Prod.snd hrun).symm ▸ hs
    · exact (congrArg Prod.snd hrun).symm ▸ hs.rename hdone
  have hreplace : ∀ {s : Sandbox}, s.IsTree → ((andThen (Machine.writePrivate (temporary path) x.text)
      (Machine.rename (temporary path) path) : TroubledM (Except FileFault Unit)) trouble s).2.IsTree :=
    fun hs => andThen_isTree hs (fun hs => trouble.writePrivate_isTree hs _ _) hrename
  exact andThen_isTree hs hparent hreplace

theorem createParent_run {path name : String} (hname : Path.fileName? path = some name) (trouble : Trouble)
    (s : Sandbox) : ∃ result s₁, (createParent path : TroubledM _) trouble s = (result, s₁) ∧
      Sandbox.Grown (directories path) s s₁ := by
  unfold createParent
  rw [Path.parent?_of_fileName? hname]
  exact ⟨_, _, rfl, trouble.createDirs_grown s _⟩

theorem saveFile_outcome {path name : String} (hname : Path.fileName? path = some name) (x : Snapshot Double)
    (trouble : Trouble) (s : Sandbox) :
    ∃ result s', (saveFile path x : TroubledM _) trouble s = (result, s') ∧ Outcome path x.text s result s' := by
  let replace : TroubledM (Except FileFault Unit) :=
    andThen (Machine.writePrivate (temporary path) x.text) (Machine.rename (temporary path) path)
  -- the steps alone decide how far the save gets; their fault is only put in words at the end
  have hsave : ∀ {result s'}, andThen (createParent path) replace trouble s = (result, s') →
      Outcome path x.text s (ofFault result) s' →
        ∃ result s', (saveFile path x : TroubledM _) trouble s = (result, s') ∧ Outcome path x.text s result s' := by
    intro result s' hrun houtcome
    have hmap : (saveFile path x : TroubledM _) trouble s =
        Prod.map ofFault id (andThen (createParent path) replace trouble s : Except FileFault Unit × Sandbox) := rfl
    exact ⟨_, _, hmap.trans (congrArg _ hrun), houtcome⟩
  obtain ⟨fault | _, s₁, hparent, hgrown⟩ := createParent_run hname trouble s
  · exact hsave (andThen_error replace hparent) (.unwritten _ hgrown)
  have hreplaced := andThen_ok replace hparent
  rcases trouble.writePrivate_cases s₁ (temporary path) x.text with
    ⟨fault, hwrite⟩ | ⟨-, hfree, ⟨fault, node, hnode, hwrite⟩ | ⟨isPrivate, hwrite⟩⟩
  · exact hsave (hreplaced.trans (andThen_error _ hwrite)) (.unwritten _ hgrown)
  · exact hsave (hreplaced.trans (andThen_error _ hwrite)) (.waiting _ hgrown hfree hnode)
  · have hwritten := hreplaced.trans (andThen_ok _ hwrite)
    rcases SandboxM.attempt_whole (.rename (temporary path) path) (·.rename (temporary path) path)
      (s₁.put (temporary path) (.file x.text isPrivate)) with ⟨fault, hrun⟩ | ⟨s₂, hdone, hrun⟩
    · exact hsave (hwritten.trans hrun) (.waiting _ hgrown hfree (by simp))
    · exact hsave (hwritten.trans hrun) (.renamed hgrown hfree hdone)

namespace Outcome

variable {path name text : String} {s s' : Sandbox}

theorem found_of_ok (h : Outcome path text s (.ok ()) s') :
    ∃ isPrivate, s'.found path = some (.file text isPrivate) := by
  cases h with
  | @renamed s₁ _ isPrivate grown free done =>
    refine ⟨isPrivate, ?_⟩
    rw [Sandbox.found_rename _ done, s₁.node?_put_self _ (s₁.not_all_of_node? free)]

theorem found_of_error {e : LedgerError} (h : Outcome path text s (.error e) s')
    (hname : Path.fileName? path = some name) (hs : s.IsTree) (hway : s.KnowsWayBack path) :
    s'.found path = s.found path := by
  cases h with
  | unwritten e grown => exact grown.found_eq hs hway hname
  | waiting e grown free left =>
    rw [Sandbox.found_put_of_ne _ (Path.normal_temporary_ne hname) left free]
    exact grown.found_eq hs hway hname

end Outcome

theorem loadFile_of_saved {path : String} (hname : (Path.fileName? path).isSome) {x y : Snapshot Double}
    (hread : Snapshot.ofText? x.text = some y) (trouble : Trouble) (s : Sandbox) :
    let run := (saveFile path x : TroubledM _) trouble s
    run.1 = .ok () → ((loadFile path : SandboxM _) run.2).1 = .ok (some y) := by
  intro run h
  obtain ⟨name, hname⟩ := Option.isSome_iff_exists.mp hname
  obtain ⟨saved, s', hrun, houtcome⟩ := saveFile_outcome hname x trouble s
  obtain rfl : saved = .ok () := (congrArg Prod.fst hrun).symm.trans h
  obtain ⟨isPrivate, hfound⟩ := houtcome.found_of_ok
  rw [show run = (_, s') from hrun, loadFile_eq, hfound, loaded_file, hread]

/-- A save is all or nothing for the next load, wherever it breaks off. -/
theorem saveFile_atomic (s : Sandbox) (trouble : Trouble) (path : String) (x : Snapshot Double)
    (hname : (Path.fileName? path).isSome) :
    let run := (saveFile path x : TroubledM _) trouble s
    let load := (loadFile path : SandboxM _)
    (run.1 = .ok () → x.Kept → (load run.2).1 = .ok (some x)) ∧
      (∀ e, run.1 = .error e → s.IsTree → s.KnowsWayBack path → (load run.2).1 = (load s).1) := by
  intro run load
  refine ⟨fun h hx => loadFile_of_saved hname (Snapshot.ofText?_text hx) trouble s h, fun e h hs hway => ?_⟩
  obtain ⟨name, hname⟩ := Option.isSome_iff_exists.mp hname
  obtain ⟨saved, s', hrun, houtcome⟩ := saveFile_outcome hname x trouble s
  obtain rfl : saved = .error e := (congrArg Prod.fst hrun).symm.trans h
  have hload : ∀ s, (load s).1 = loaded (s.found path) := fun s => congrArg Prod.fst (loadFile_eq s path)
  rw [show run = (_, s') from hrun, hload, hload, houtcome.found_of_error hname hs hway]

def someRow : StoredRow Double := ⟨0.25, 0.5, 20000, 650⟩

theorem someRow_kept : someRow.Kept where
  dailySpent := ⟨rfl, rfl⟩
  monthlySpent := ⟨rfl, rfl⟩
  day := by decide
  month := by decide

def snapshotAt (t : Timestamp) : Snapshot Double := ⟨some t, 4, someRow, ⟨[("ada", someRow)], by simp⟩⟩

theorem snapshotAt_kept {t : Timestamp} (h : t.Kept) : (snapshotAt t).Kept where
  savedAt := by rintro _ ⟨⟩; exact h
  resetHour := (by decide : 4 < 2 ^ 8)
  global := someRow_kept
  identities := by
    intro entry hentry
    rw [List.mem_singleton.mp hentry]
    exact someRow_kept

def someFiles : Sandbox :=
  { nodes := .ofList [("state", .directory), ("ledger.json", .file "no snapshot" true)] }

def tearing : Trouble := { torn := some ⟨.file "some of it" true, nofun⟩ }

def saveUnder (trouble : Trouble) : Except LedgerError Unit × Sandbox :=
  (saveFile "state/../ledger.json" (snapshotAt ⟨59, 1500000000⟩) : TroubledM _) trouble someFiles

theorem saveFile_atomic_someFiles :
    ((saveUnder {}).1 = .ok () ∧
        ((loadFile "state/../ledger.json" : SandboxM _) (saveUnder {}).2).1 = .ok (some (snapshotAt ⟨59, 1500000000⟩))) ∧
      (saveUnder tearing).1 = .error (.io "broken off") ∧
        ((loadFile "state/../ledger.json" : SandboxM _) (saveUnder tearing).2).1 =
          ((loadFile "state/../ledger.json" : SandboxM _) someFiles).1 := by
  have hname : (Path.fileName? "state/../ledger.json").isSome := by decide +kernel
  have hsaved : (saveUnder {}).1 = .ok () := by decide +kernel
  have hfailed : (saveUnder tearing).1 = .error (.io "broken off") := by decide +kernel
  have hkept : (snapshotAt ⟨59, 1500000000⟩).Kept := snapshotAt_kept ⟨by decide, by decide, by decide⟩
  have htree : someFiles.IsTree := by decide +kernel
  have hway : someFiles.KnowsWayBack "state/../ledger.json" := by decide +kernel
  unfold saveUnder at *
  exact ⟨⟨hsaved, (saveFile_atomic someFiles {} _ _ hname).1 hsaved hkept⟩,
    hfailed, (saveFile_atomic someFiles tearing _ _ hname).2 _ hfailed htree hway⟩

/-- A save that fails can open a way to the file that was there, and a leap second in the middle of a minute is loaded
as a part of the next second. -/
theorem saveFile_not_atomic :
    let s : Sandbox :=
      { nodes := .ofList [("ledger.json", .file "no snapshot" true), ("ledger.json.tmp", .directory)] }
    let save := (saveFile "a/../ledger.json" (snapshotAt ⟨0, 0⟩) : TroubledM _) {}
    let load := (loadFile "a/../ledger.json" : SandboxM _)
    let saveLeap := (saveFile "ledger.json" (snapshotAt ⟨0, 1500000000⟩) : TroubledM _) {}
    (s.IsTree ∧ (save s).1 = .error (.io FileFault.isDirectory.message) ∧
      (load s).1 = .ok none ∧ (load (save s).2).1 = .error .serialization) ∧
        (saveLeap {}).1 = .ok () ∧
          ((loadFile "ledger.json" : SandboxM _) (saveLeap {}).2).1 = .ok (some (snapshotAt ⟨1, 500000000⟩)) := by
  intro s save load saveLeap
  have hload : ∀ s, (load s).1 = loaded (s.found _) := fun s => congrArg Prod.fst (loadFile_eq s _)
  have hbefore : s.found "a/../ledger.json" = none := by decide +kernel
  have hafter : (save s).2.found "a/../ledger.json" = some (.file "no snapshot" true) := by decide +kernel
  have hmoment : Timestamp.text ⟨0, 1500000000⟩ = Timestamp.text ⟨1, 500000000⟩ := by decide +kernel
  have htext : (snapshotAt ⟨0, 1500000000⟩).text = (snapshotAt ⟨1, 500000000⟩).text := by
    simp only [Snapshot.text, Snapshot.toJson, snapshotAt, Json.nullable, Timestamp.toJson, hmoment]
  have hread : Snapshot.ofText? (snapshotAt ⟨0, 1500000000⟩).text = some (snapshotAt ⟨1, 500000000⟩) := by
    rw [htext]
    exact Snapshot.ofText?_text (snapshotAt_kept ⟨by decide, by decide, by decide⟩)
  refine ⟨⟨by decide +kernel, by decide +kernel, ?_, ?_⟩, by decide +kernel, ?_⟩
  · rw [hload, hbefore]
    rfl
  · rw [hload, hafter]
    rfl
  · exact loadFile_of_saved (by decide +kernel) hread {} {} (by decide +kernel)

end Store

end Admission
