import Mathlib
import Admission.Ledger.Store

/-!
# Where paths lead

A path is its steps and whether it starts at the root. Going along the steps, with each step back undoing the one
before it, gives the place that the path leads to, and two paths have one normal spelling exactly if they lead to one
place. The temporary name of a file lies in the directory of the file and is another one.
-/

namespace Admission

namespace Text

theorem pieces_append_mark (mark : Char) (cs ds : List Char) :
    pieces mark (cs ++ mark :: ds) = pieces mark cs ++ pieces mark ds := by
  induction cs with
  | nil =>
    exact if_pos BEq.rfl
  | cons c rest ih =>
    rw [List.cons_append, pieces, pieces, ih]
    split_ifs
    · rfl
    · cases hpieces : pieces mark rest with
      | nil => exact absurd hpieces (pieces_ne_nil mark rest)
      | cons piece others => rfl

theorem pieces_of_not_mem {mark : Char} {cs : List Char} (h : mark ∉ cs) : pieces mark cs = [cs] := by
  induction cs with
  | nil => rfl
  | cons c rest ih =>
    rw [List.mem_cons, not_or] at h
    have hc : ¬ (c == mark) = true := fun heq => h.1 (eq_of_beq heq).symm
    rw [pieces, if_neg hc, ih h.2]

theorem not_mem_of_mem_pieces {mark : Char} {cs piece : List Char} (h : piece ∈ pieces mark cs) : mark ∉ piece := by
  induction cs generalizing piece with
  | nil =>
    rw [List.mem_singleton.mp h]
    exact List.not_mem_nil
  | cons c rest ih =>
    unfold pieces at h
    split_ifs at h with hc
    · rcases List.mem_cons.mp h with rfl | h
      · exact List.not_mem_nil
      · exact ih h
    · have hne : mark ≠ c := fun heq => hc (beq_iff_eq.mpr heq.symm)
      cases hpieces : pieces mark rest with
      | nil => exact absurd hpieces (pieces_ne_nil mark rest)
      | cons first others =>
        rw [hpieces] at h ih
        rcases List.mem_cons.mp h with rfl | h
        · exact List.not_mem_cons_of_ne_of_not_mem hne (ih List.mem_cons_self)
        · exact ih (List.mem_cons_of_mem _ h)

theorem pieces_intercalate {mark : Char} {texts : List (List Char)} (hne : texts ≠ [])
    (h : ∀ text ∈ texts, mark ∉ text) : pieces mark ([mark].intercalate texts) = texts := by
  induction texts with
  | nil => exact absurd rfl hne
  | cons text rest ih =>
    obtain ⟨htext, hrest⟩ := List.forall_mem_cons.mp h
    cases rest with
    | nil => rw [List.intercalate_singleton, pieces_of_not_mem htext]
    | cons next rest =>
      rw [List.intercalate_cons_cons, List.append_assoc, List.singleton_append, pieces_append_mark,
        pieces_of_not_mem htext, ih (List.cons_ne_nil _ _) hrest]
      rfl

end Text

namespace Path

/-! ## Steps -/

def Clean (ps : List String) : Prop := ∀ p ∈ ps, p ≠ "" ∧ '/' ∉ p.toList

theorem Clean.of_subset {ps qs : List String} (h : Clean qs) (hsub : ∀ p ∈ ps, p ∈ qs) : Clean ps :=
  fun p hp => h p (hsub p hp)

theorem clean_steps (path : String) : Clean (steps path) := by
  intro p hp
  obtain ⟨hp, hne⟩ := List.mem_filter.mp hp
  obtain ⟨piece, hpiece, rfl⟩ := List.mem_map.mp hp
  rw [String.toList_ofList]
  exact ⟨bne_iff_ne.mp hne, Text.not_mem_of_mem_pieces hpiece⟩

theorem toList_ofParts (absolute : Bool) (ps : List String) :
    (ofParts absolute ps).toList =
      (if absolute then ['/'] else []) ++ ['/'].intercalate (ps.map String.toList) := by
  unfold ofParts
  rw [String.toList_append, String.toList_intercalate]
  cases absolute <;> rfl

theorem steps_ofParts {absolute : Bool} {ps : List String} (h : Clean ps) : steps (ofParts absolute ps) = ps := by
  have hkeep : ps.filter (· != "") = ps := List.filter_eq_self.mpr fun p hp => bne_iff_ne.mpr (h p hp).1
  have hparts : ((Text.pieces '/' (['/'].intercalate (ps.map String.toList))).map String.ofList).filter (· != "") =
      ps := by
    cases ps with
    | nil => rfl
    | cons p rest =>
      have hclean : ∀ text ∈ (p :: rest).map String.toList, '/' ∉ text := by
        intro text htext
        obtain ⟨q, hq, rfl⟩ := List.mem_map.mp htext
        exact (h q hq).2
      have hback : ((p :: rest).map String.toList).map String.ofList = p :: rest := by
        rw [List.map_map]
        exact List.map_id'' (fun q => String.ofList_toList) _
      rw [Text.pieces_intercalate (by simp) hclean, hback, hkeep]
  unfold steps
  rw [toList_ofParts]
  cases absolute with
  | false => exact hparts
  | true =>
    have hfront := Text.pieces_append_mark '/' [] (['/'].intercalate (ps.map String.toList))
    rw [List.nil_append] at hfront
    rw [if_pos rfl, List.singleton_append, hfront]
    exact hparts

theorem isAbsolute_ofParts {absolute : Bool} {ps : List String} (h : Clean ps) :
    isAbsolute (ofParts absolute ps) = absolute := by
  unfold isAbsolute
  rw [toList_ofParts]
  cases absolute with
  | true => rfl
  | false =>
    cases ps with
    | nil => rfl
    | cons p rest =>
      obtain ⟨hne, hslash⟩ := h p List.mem_cons_self
      cases hp : p.toList with
      | nil => exact absurd (String.toList_eq_nil_iff.mp hp) hne
      | cons c cs =>
        have hc : c ≠ '/' := fun heq => hslash (hp ▸ heq ▸ List.mem_cons_self)
        have hhead : (['/'].intercalate ((p :: rest).map String.toList)).head? = some c := by
          cases rest with
          | nil => rw [List.map_singleton, List.intercalate_singleton, hp]; rfl
          | cons q rest => rw [List.map_cons, List.map_cons, List.intercalate_cons_cons, hp]; rfl
        rw [if_neg Bool.false_ne_true, List.nil_append, hhead]
        exact beq_eq_false_iff_ne.mpr fun heq => hc (Option.some.inj heq)

/-! ## Places -/

/-- Where the steps lead, beginning where the path begins. -/
def walk (ps : List String) : List String := (ps.filter (· != ".")).foldl descend []

theorem walk_append (ps : List String) (p : String) :
    walk (ps ++ [p]) = if p = "." then walk ps else descend (walk ps) p := by
  unfold walk
  rw [List.filter_append]
  split_ifs with hdot
  · rw [List.filter_cons_of_neg (by simp [hdot]), List.filter_nil, List.append_nil]
  · rw [List.filter_cons_of_pos (by simp [hdot]), List.filter_nil, List.foldl_append]
    rfl

theorem walk_append_of_ne {p : String} (ps : List String) (hdot : p ≠ ".") (hback : p ≠ "..") :
    walk (ps ++ [p]) = walk ps ++ [p] := by
  have hdown : ¬ (p == ".." && (walk ps).getLast?.any (· != "..")) = true := by
    rw [Bool.and_eq_true, beq_iff_eq]
    exact fun h => hback h.1
  rw [walk_append, if_neg hdot]
  exact if_neg hdown

theorem dropLast_walk_append (ps : List String) (p : String) : (walk (ps ++ [p])).dropLast <+: walk ps := by
  rw [walk_append]
  split_ifs
  · exact List.dropLast_prefix _
  · unfold descend
    split_ifs
    · exact (List.dropLast_prefix _).trans (List.dropLast_prefix _)
    · rw [List.dropLast_concat]

theorem mem_walk {ps : List String} {p : String} (h : p ∈ walk ps) : p ∈ ps ∧ p ≠ "." := by
  induction ps using List.reverseRecOn with
  | nil => cases h
  | append_singleton ps q ih =>
    have hps : p ∈ walk ps → p ∈ ps ++ [q] ∧ p ≠ "." := fun h => ⟨List.mem_append_left _ (ih h).1, (ih h).2⟩
    rw [walk_append] at h
    split_ifs at h with hdot
    · exact hps h
    · unfold descend at h
      split_ifs at h
      · exact hps (List.mem_of_mem_dropLast h)
      · rcases List.mem_append.mp h with h | h
        · exact hps h
        · rw [List.mem_singleton.mp h]
          exact ⟨List.mem_append_right _ (List.mem_singleton_self q), hdot⟩

/-- Before a step back there are only steps back. -/
def Settled (ps : List String) : Prop := ps.IsChain fun p q => q = ".." → p = ".."

theorem Settled.descend {above : List String} (h : Settled above) (p : String) : Settled (descend above p) := by
  unfold Path.descend
  split_ifs with hback
  · exact h.prefix (List.dropLast_prefix above)
  · refine List.isChain_append.mpr ⟨h, List.isChain_singleton p, fun x hx y hy hdots => ?_⟩
    cases hy
    by_contra hne
    rw [Bool.and_eq_true, Option.any_eq_true] at hback
    exact hback ⟨beq_iff_eq.mpr hdots, x, hx, bne_iff_ne.mpr hne⟩

theorem settled_walk (ps : List String) : Settled (walk ps) := by
  induction ps using List.reverseRecOn with
  | nil => exact List.isChain_nil
  | append_singleton ps p ih =>
    rw [walk_append]
    split_ifs
    · exact ih
    · exact ih.descend p

theorem walk_walk (ps : List String) : walk (walk ps) = walk ps := by
  have hstay : ∀ rest above : List String, Settled (above ++ rest) → rest.foldl descend above = above ++ rest := by
    intro rest
    induction rest with
    | nil => exact fun above _ => (List.append_nil above).symm
    | cons p rest ih =>
      intro above h
      have hdown : ¬ (p == ".." && above.getLast?.any (· != "..")) = true := by
        rw [Bool.and_eq_true, beq_iff_eq, Option.any_eq_true]
        rintro ⟨hback, x, hx, hne⟩
        exact bne_iff_ne.mp hne ((List.isChain_append.mp h).2.2 x hx p rfl hback)
      have hp : descend above p = above ++ [p] := if_neg hdown
      rw [List.foldl_cons, hp, ih _ (by rwa [List.append_assoc]), List.append_assoc]
      rfl
  have hdots : (walk ps).filter (· != ".") = walk ps :=
    List.filter_eq_self.mpr fun p hp => bne_iff_ne.mpr (mem_walk hp).2
  show ((walk ps).filter (· != ".")).foldl descend [] = walk ps
  rw [hdots]
  exact hstay (walk ps) [] (settled_walk ps)

theorem Clean.walk {ps : List String} (h : Clean ps) : Clean (walk ps) := h.of_subset fun _ hp => (mem_walk hp).1

theorem walk_filter (ps : List String) : walk (ps.filter (· != ".")) = walk ps := by
  unfold walk
  rw [List.filter_filter]
  simp only [Bool.and_self]

theorem walk_steps (path : String) : walk (steps path) = walk (parts path) := (walk_filter _).symm

theorem normal_eq (path : String) : normal path = ofParts (isAbsolute path) (walk (steps path)) := rfl

theorem normal_ofParts {absolute : Bool} {ps : List String} (h : Clean ps) :
    normal (ofParts absolute ps) = ofParts absolute (walk ps) := by
  rw [normal_eq, steps_ofParts h, isAbsolute_ofParts h]

theorem parts_normal (path : String) : parts (normal path) = walk (steps path) := by
  unfold parts
  rw [normal_eq, steps_ofParts (clean_steps path).walk]
  exact List.filter_eq_self.mpr fun p hp => bne_iff_ne.mpr (mem_walk hp).2

theorem normal_eq_iff {path other : String} :
    normal path = normal other ↔ isAbsolute path = isAbsolute other ∧ walk (steps path) = walk (steps other) := by
  constructor
  · intro h
    have habsolute := congrArg isAbsolute h
    have hplace := congrArg steps h
    rw [normal_eq, normal_eq, isAbsolute_ofParts (clean_steps _).walk, isAbsolute_ofParts (clean_steps _).walk]
      at habsolute
    rw [normal_eq, normal_eq, steps_ofParts (clean_steps _).walk, steps_ofParts (clean_steps _).walk] at hplace
    exact ⟨habsolute, hplace⟩
  · rintro ⟨habsolute, hplace⟩
    rw [normal_eq, normal_eq, habsolute, hplace]

theorem clean_parts (path : String) : Clean (parts path) :=
  (clean_steps path).of_subset fun _ => List.mem_of_mem_filter

theorem normal_ofParts_filter {absolute : Bool} {ps : List String} (h : Clean ps) :
    normal (ofParts absolute (ps.filter (· != "."))) = normal (ofParts absolute ps) := by
  rw [normal_ofParts h, normal_ofParts (h.of_subset fun _ => List.mem_of_mem_filter), walk_filter]

theorem normal_ofParts_parts (path : String) : normal (ofParts (isAbsolute path) (parts path)) = normal path := by
  rw [normal_ofParts (clean_parts path), normal_eq, walk_steps]

/-! ## Prefixes -/

theorem mem_prefixes {path above : String} :
    above ∈ prefixes path ↔ ∃ ps ≠ [], ps <+: steps path ∧ above = ofParts (isAbsolute path) ps := by
  unfold prefixes
  simp only [List.mem_map, List.mem_range]
  constructor
  · rintro ⟨n, hn, rfl⟩
    refine ⟨_, ?_, List.take_prefix (n + 1) _, rfl⟩
    rw [← List.length_pos_iff, List.length_take]
    omega
  · rintro ⟨ps, hne, hps, rfl⟩
    have hlength := List.length_pos_iff.mpr hne
    refine ⟨ps.length - 1, ?_, ?_⟩
    · have := hps.length_le
      omega
    · rw [Nat.sub_add_cancel hlength, ← List.prefix_iff_eq_take.mp hps]

theorem dropLast_prefixes (path : String) :
    (prefixes path).dropLast = prefixes (ofParts (isAbsolute path) (steps path).dropLast) := by
  have hclean := (clean_steps path).of_subset fun _ => List.mem_of_mem_dropLast
  unfold prefixes
  rw [steps_ofParts hclean, isAbsolute_ofParts hclean]
  dsimp only
  rw [← List.map_dropLast, List.length_dropLast]
  cases hlength : (steps path).length with
  | zero => rfl
  | succ m =>
    rw [List.range_succ, List.dropLast_concat, Nat.add_sub_cancel]
    refine List.map_congr_left fun i hi => ?_
    rw [List.dropLast_eq_take, List.take_take, Nat.min_eq_left ?_]
    have := List.mem_range.mp hi
    omega

theorem mem_prefixes_dropLast {path above : String} :
    above ∈ (prefixes path).dropLast ↔
      ∃ ps ≠ [], ps <+: (steps path).dropLast ∧ above = ofParts (isAbsolute path) ps := by
  have hclean := (clean_steps path).of_subset fun _ => List.mem_of_mem_dropLast
  rw [dropLast_prefixes, mem_prefixes, steps_ofParts hclean, isAbsolute_ofParts hclean]

theorem above_mem_of_prefixes {path p above : String} {before after : List String}
    (h : prefixes path = before ++ p :: after) (habove : above ∈ (prefixes p).dropLast) : above ∈ before := by
  obtain ⟨earlier, later, hrange, rfl, hlater⟩ := List.map_eq_append_iff.mp h
  obtain ⟨i, last, rfl, rfl, -⟩ := List.map_eq_cons_iff.mp hlater
  obtain ⟨ps, hne, hps, rfl⟩ := mem_prefixes_dropLast.mp habove
  have hclean := (clean_steps path).of_subset fun _ => List.mem_of_mem_take (i := i + 1)
  rw [steps_ofParts hclean] at hps
  rw [isAbsolute_ofParts hclean]
  have hlength : ps.length - 1 + 1 = ps.length := Nat.sub_add_cancel (List.length_pos_iff.mpr hne)
  have hsteps : ps <+: steps path := hps.trans ((List.dropLast_prefix _).trans (List.take_prefix _ _))
  have hfirst : ps.length - 1 < i := by
    have hle := hps.length_le
    rw [List.length_dropLast, List.length_take] at hle
    omega
  have hmem : ps.length - 1 ∈ List.range (steps path).length := by
    have := hsteps.length_le
    rw [List.mem_range]
    omega
  have hsorted := List.pairwise_lt_range (n := (steps path).length)
  rw [hrange] at hmem hsorted
  refine List.mem_map.mpr ⟨ps.length - 1, ?_, ?_⟩
  · rcases List.mem_append.mp hmem with hearlier | hlater
    · exact hearlier
    · rcases List.mem_cons.mp hlater with heq | hlast
      · omega
      · have := List.rel_of_pairwise_cons (List.pairwise_append.mp hsorted).2.1 hlast
        omega
  · rw [hlength, ← List.prefix_iff_eq_take.mp hsteps]

/-! ## Names of files -/

def fileName? (path : String) : Option String := (parts path).getLast?.filter (· != "..")

theorem parts_of_fileName? {path name : String} (h : fileName? path = some name) :
    parts path = (parts path).dropLast ++ [name] ∧ name ≠ "." ∧ name ≠ ".." := by
  obtain ⟨hlast, hback⟩ := Option.filter_eq_some_iff.mp h
  obtain ⟨above, hparts⟩ := List.getLast?_eq_some_iff.mp hlast
  have hdot := (List.mem_filter.mp (List.mem_of_getLast? hlast)).2
  exact ⟨by rw [hparts, List.dropLast_concat], bne_iff_ne.mp hdot, bne_iff_ne.mp hback⟩

theorem parent?_of_fileName? {path name : String} (h : fileName? path = some name) :
    parent? path = some (ofParts (isAbsolute path) (parts path).dropLast) := by
  have hparts := (parts_of_fileName? h).1
  unfold parent?
  split
  · next hnil =>
    rw [hnil] at hparts
    cases hparts
  · rfl

def partsOf (cs : List Char) : List String :=
  (((Text.pieces '/' cs).map String.ofList).filter (· != "")).filter (· != ".")

theorem parts_eq (path : String) : parts path = partsOf path.toList := rfl

theorem partsOf_append (cs ds : List Char) : partsOf (cs ++ '/' :: ds) = partsOf cs ++ partsOf ds := by
  unfold partsOf
  rw [Text.pieces_append_mark, List.map_append, List.filter_append, List.filter_append]

theorem partsOf_name {cs : List Char} (hslash : '/' ∉ cs) (hne : cs ≠ []) (hdot : cs ≠ ['.']) :
    partsOf cs = [String.ofList cs] := by
  have hempty : String.ofList cs ≠ "" := fun h => hne (by rw [← String.toList_ofList (l := cs), h]; rfl)
  have hpoint : String.ofList cs ≠ "." := fun h => hdot (by rw [← String.toList_ofList (l := cs), h]; rfl)
  unfold partsOf
  simp [Text.pieces_of_not_mem hslash, hempty, hpoint]

theorem partsOf_dropTail (cs : List Char) : partsOf (dropTail cs).reverse = partsOf cs.reverse := by
  fun_induction dropTail cs with
  | case1 rest ih =>
    rw [ih, List.reverse_cons, partsOf_append rest.reverse []]
    exact (List.append_nil _).symm
  | case2 rest ih =>
    rw [ih, List.reverse_cons, List.reverse_cons, List.append_assoc]
    exact ((partsOf_append rest.reverse ['.']).trans (List.append_nil _)).symm
  | case3 => rfl

theorem dropTail_suffix (cs : List Char) : dropTail cs <:+ cs := by
  fun_induction dropTail cs with
  | case1 rest ih => exact ih.trans (List.suffix_cons _ _)
  | case2 rest ih => exact ih.trans ((List.suffix_cons _ _).trans (List.suffix_cons _ _))
  | case3 => exact List.suffix_rfl

theorem dropTail_ne (cs rest : List Char) : dropTail cs ≠ '/' :: rest ∧ dropTail cs ≠ '.' :: '/' :: rest := by
  fun_induction dropTail cs with
  | case1 _ ih => exact ih
  | case2 _ ih => exact ih
  | case3 cs hslash hpoint => exact ⟨fun h => hslash rest h, fun h => hpoint rest h⟩

theorem exists_name (cs : List Char) :
    ∃ name, '/' ∉ name ∧ (cs = name ∨ ∃ directory, cs = directory ++ '/' :: name) := by
  induction cs with
  | nil => exact ⟨[], List.not_mem_nil, .inl rfl⟩
  | cons c rest ih =>
    obtain ⟨name, hname, rfl | ⟨directory, rfl⟩⟩ := ih
    · by_cases hc : c = '/'
      · exact ⟨rest, hname, .inr ⟨[], by rw [hc]; rfl⟩⟩
      · exact ⟨c :: rest, List.not_mem_cons_of_ne_of_not_mem (Ne.symm hc) hname, .inl rfl⟩
    · exact ⟨name, hname, .inr ⟨c :: directory, rfl⟩⟩

theorem isAbsolute_of_not_mem {cs : List Char} (hne : cs ≠ []) (hslash : '/' ∉ cs) (ds : List Char) :
    isAbsolute (String.ofList (cs ++ ds)) = false := by
  unfold isAbsolute
  rw [String.toList_ofList, List.head?_append_of_ne_nil _ hne]
  exact beq_eq_false_iff_ne.mpr fun h => hslash (List.mem_of_head? h)

theorem exists_front {path name : String} (h : (parts path).getLast? = some name) :
    ∃ front : List Char, (dropTail path.toList.reverse).reverse = front ++ name.toList ∧
      ∀ file : List Char, '/' ∉ file → file ≠ [] → file ≠ ['.'] →
        parts (String.ofList (front ++ file)) = (parts path).dropLast ++ [String.ofList file] ∧
          isAbsolute (String.ofList (front ++ file)) = isAbsolute path := by
  have hparts : partsOf (dropTail path.toList.reverse).reverse = parts path := by
    rw [partsOf_dropTail, List.reverse_reverse, parts_eq]
  obtain ⟨tail, htail⟩ : ∃ tail, path.toList = (dropTail path.toList.reverse).reverse ++ tail := by
    obtain ⟨tail, htail⟩ := dropTail_suffix path.toList.reverse
    exact ⟨tail.reverse, by rw [← List.reverse_append, htail, List.reverse_reverse]⟩
  have hend := dropTail_ne path.toList.reverse
  -- without a slash the last part is all there is; otherwise it stands behind the last one
  obtain ⟨last, hslash, hcs | ⟨directory, hcs⟩⟩ := exists_name (dropTail path.toList.reverse).reverse
  · have hne : last ≠ [] := by
      rintro rfl
      rw [← hparts, hcs] at h
      cases h
    have hdot : last ≠ ['.'] := by
      rintro rfl
      rw [← hparts, hcs] at h
      cases h
    have hname : name = String.ofList last := by
      rw [← hparts, hcs, partsOf_name hslash hne hdot] at h
      exact (Option.some.inj h).symm
    refine ⟨[], by rw [hcs, hname, String.toList_ofList]; rfl, fun file hfile hfileNe hfileDot => ⟨?_, ?_⟩⟩
    · rw [← hparts, hcs, partsOf_name hslash hne hdot, parts_eq, String.toList_ofList]
      exact partsOf_name hfile hfileNe hfileDot
    · have hpath : isAbsolute path = false := by
        rw [← String.ofList_toList (s := path), htail, hcs]
        exact isAbsolute_of_not_mem hne hslash tail
      rw [hpath]
      exact List.append_nil file ▸ isAbsolute_of_not_mem hfileNe hfile []
  · have hreverse : dropTail path.toList.reverse = last.reverse ++ '/' :: directory.reverse := by
      rw [← List.reverse_reverse (dropTail path.toList.reverse), hcs]
      simp
    have hne : last ≠ [] := by
      rintro rfl
      exact (hend directory.reverse).1 hreverse
    have hdot : last ≠ ['.'] := by
      rintro rfl
      exact (hend directory.reverse).2 hreverse
    have hsplit : parts path = partsOf directory ++ [String.ofList last] := by
      rw [← hparts, hcs, partsOf_append, partsOf_name hslash hne hdot]
    have hname : name = String.ofList last := by
      rw [hsplit, List.getLast?_concat] at h
      exact (Option.some.inj h).symm
    refine ⟨directory ++ ['/'], ?_, fun file hfile hfileNe hfileDot => ⟨?_, ?_⟩⟩
    · rw [hcs, hname, String.toList_ofList, List.append_assoc]
      rfl
    · rw [hsplit, List.dropLast_concat, parts_eq, String.toList_ofList, List.append_assoc]
      exact (partsOf_append directory file).trans (congrArg _ (partsOf_name hfile hfileNe hfileDot))
    · unfold isAbsolute
      rw [String.toList_ofList, htail, hcs]
      cases directory <;> rfl

theorem stem_isPrefix (name : List Char) : stem name <+: name := by
  unfold stem
  dsimp only
  split_ifs
  · exact List.prefix_rfl
  · exact List.take_prefix _ _

theorem stem_append_ne (name : List Char) : stem name ++ '.' :: "json.tmp".toList ≠ name := by
  -- such a name would lose the four characters of its ending and get nine for them
  intro h
  have hending : name.reverse.takeWhile (· != '.') = ['p', 'm', 't'] := by
    rw [← h]
    simp
  have hlength := congrArg List.length h
  unfold stem at hlength
  rw [hending] at hlength
  dsimp only at hlength
  split_ifs at hlength
  · simp at hlength
  · simp at hlength
    omega

theorem parts_temporary {path name : String} (h : fileName? path = some name) :
    ∃ other, other ≠ name ∧ other ≠ "." ∧ other ≠ ".." ∧
      parts (Store.temporary path) = (parts path).dropLast ++ [other] ∧
        isAbsolute (Store.temporary path) = isAbsolute path := by
  obtain ⟨hlast, hback⟩ := Option.filter_eq_some_iff.mp h
  obtain ⟨front, hfront, hfile⟩ := exists_front hlast
  have hclean := clean_steps path name (List.mem_of_mem_filter (List.mem_of_getLast? hlast))
  have htemporary : Store.temporary path = String.ofList (front ++ (stem name.toList ++ '.' :: "json.tmp".toList)) := by
    have hdirectory : (front ++ name.toList).take ((front ++ name.toList).length - name.length) = front := by
      rw [List.length_append, String.length_toList, Nat.add_sub_cancel, List.take_left]
    unfold Store.temporary withEnding
    rw [hlast]
    split
    · next heq => cases heq
    · next heq =>
      cases heq
      cases hback
    · next heq =>
      cases heq
      simp only [hfront, hdirectory, List.append_assoc]
  have hslash : '/' ∉ stem name.toList ++ '.' :: "json.tmp".toList := by
    intro hmem
    rcases List.mem_append.mp hmem with hmem | hmem
    · exact hclean.2 ((stem_isPrefix name.toList).subset hmem)
    · exact absurd hmem (by decide)
  have hlong : ∀ short : List Char, short.length < 9 → stem name.toList ++ '.' :: "json.tmp".toList ≠ short := by
    intro short hshort heq
    rw [← heq, List.length_append] at hshort
    have hending : ('.' :: "json.tmp".toList).length = 9 := by decide
    omega
  have hother : ∀ short : String, short.toList.length < 9 →
      String.ofList (stem name.toList ++ '.' :: "json.tmp".toList) ≠ short := by
    intro short hshort heq
    exact hlong short.toList hshort ((String.toList_ofList).symm.trans (congrArg String.toList heq))
  obtain ⟨hparts, habsolute⟩ := hfile _ hslash (hlong [] (by decide)) (hlong ['.'] (by decide))
  refine ⟨_, ?_, hother "." (by decide), hother ".." (by decide), htemporary ▸ hparts, htemporary ▸ habsolute⟩
  exact fun heq => stem_append_ne name.toList ((String.toList_ofList).symm.trans (congrArg String.toList heq))

theorem normal_temporary_ne {path name : String} (h : fileName? path = some name) :
    normal path ≠ normal (Store.temporary path) := by
  obtain ⟨other, hne, hdot, hback, hparts, -⟩ := parts_temporary h
  obtain ⟨hpath, hnameDot, hnameBack⟩ := parts_of_fileName? h
  intro heq
  have hplace := (normal_eq_iff.mp heq).2
  rw [walk_steps, walk_steps, hparts, hpath, List.dropLast_concat, walk_append_of_ne _ hnameDot hnameBack,
    walk_append_of_ne _ hdot hback] at hplace
  exact hne (List.singleton_inj.mp (List.append_cancel_left hplace)).symm

end Path

end Admission
