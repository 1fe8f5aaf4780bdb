import Admission.Proofs.Json.Fields
import Admission.Server.Message

/-!
# Lines and their messages

A message depends on the members with the names of its own fields and on no other part of the line. A
request for admission without its model is the same request of a caller who names no model.
-/

namespace Admission

/-- What is read from a line, without the model. In an array the model stands behind six other items. -/
def Json.withoutModel : Json → Json
  | .obj members => .obj (members.filter fun m => m.1 != "model")
  | .arr items => .arr (items.take 6)
  | other => other

namespace Message

def fields {α : Type} : Message α → List String
  | route .. => ["op", "caller", "channel", "complexity", "input_tokens", "max_output", "model"]
  | usage .. => ["op", "reservation_id", "tokens_in", "tokens_out"]
  | release .. => ["op", "reservation_id"]
  | tool .. => ["op", "caller", "channel", "tool"]

/-! ## Other members -/

theorem agree_untagged (names : List String) (members members' : List (String × Json))
    (htag : "op" ∉ names) (h : Agree ("op" :: names) members members') :
    Agree names (members.filter fun m => m.1 != "op") (members'.filter fun m => m.1 != "op") := by
  have hskip : ∀ name ∈ names, ∀ ms : List (String × Json),
      ((ms.filter fun m => m.1 != "op").filter fun m => m.1 == name) = ms.filter fun m => m.1 == name := by
    intro name hname ms
    rw [List.filter_filter]
    refine List.filter_congr fun m _ => ?_
    by_cases hm : m.1 = name
    · have hne : m.1 ≠ "op" := fun heq => htag (heq ▸ hm ▸ hname)
      simp [hm, hm ▸ hne]
    · simp [hm]
  intro name hname
  rw [hskip name hname, hskip name hname]
  exact h name (List.mem_cons_of_mem "op" hname)

theorem made_of_openStructure (names : List String) (reader : Fields (Message Double)) (j : Json)
    (P : Message Double → Prop) (hmakes : reader.Makes P) (message : Message Double)
    (h : (Decode.openStructure names reader .json j).toOption = some message) : P message := by
  rw [Decode.openStructure_toOption] at h
  obtain ⟨parts, -, h⟩ := Option.bind_eq_some_iff.mp h
  split at h
  · cases h
  · exact hmakes parts message h

theorem untagged_congr (names : List String) (reader : Fields (Message Double))
    (hreads : reader.Reads names) (hmakes : reader.Makes fun message => message.fields = "op" :: names)
    (htag : "op" ∉ names) (message : Message Double) (members members' : List (String × Json))
    (hagree : Agree message.fields members members')
    (h : (Decode.openStructure names reader .json
      (.obj (members.filter fun m => m.1 != "op"))).toOption = some message) :
    (Decode.openStructure names reader .json
      (.obj (members'.filter fun m => m.1 != "op"))).toOption = some message := by
  have hfields := made_of_openStructure names reader _ _ hmakes message h
  rw [hfields] at hagree
  have huntagged := agree_untagged names members members' htag hagree
  exact (Decode.openStructure_congr reader .json hreads huntagged).symm.trans h

open Fields in
theorem ofJson_congr (message : Message Double) (members members' : List (String × Json))
    (hagree : Agree message.fields members members')
    (h : (ofJson .json (.obj members)).toOption = some message) :
    (ofJson .json (.obj members')).toOption = some message := by
  obtain ⟨name, entry, htag, hfind, hdecode⟩ := (Decode.tagged_toOption _ _ _ _ _).mp h
  have hop : "op" ∈ message.fields := by cases message <;> simp [fields]
  refine (Decode.tagged_toOption _ _ _ _ _).mpr ⟨name, entry, hagree "op" hop ▸ htag, hfind, ?_⟩
  have hentry := List.mem_of_find?_eq_some hfind
  simp only [List.mem_cons, List.not_mem_nil, or_false] at hentry
  -- Each of the four structures reads the fields of the message that it makes, and no tag.
  rcases hentry with rfl | rfl | rfl | rfl
  · refine untagged_congr _ _ ?_ ?_ (by decide) message members members' hagree hdecode
    · exact .seq (.seq (.seq (.seq (.seq (.map route (.part _ _ _ (by decide)))
        (.part _ _ _ (by decide))) (.part _ _ _ (by decide))) (.part _ _ _ (by decide)))
        (.part _ _ _ (by decide))) (.part _ _ _ (by decide))
    · exact .seq (.seq (.seq (.seq (.seq (.map route fun _ _ _ _ _ _ => rfl)))))
  · refine untagged_congr _ _ ?_ ?_ (by decide) message members members' hagree hdecode
    · exact .seq (.seq (.map usage (.part _ _ _ (by decide))) (.part _ _ _ (by decide)))
        (.part _ _ _ (by decide))
    · exact .seq (.seq (.map usage fun _ _ _ => rfl))
  · refine untagged_congr _ _ ?_ ?_ (by decide) message members members' hagree hdecode
    · exact .map release (.part _ _ _ (by decide))
    · exact .map release fun _ => rfl
  · refine untagged_congr _ _ ?_ ?_ (by decide) message members members' hagree hdecode
    · exact .seq (.seq (.map tool (.part _ _ _ (by decide))) (.part _ _ _ (by decide)))
        (.part _ _ _ (by decide))
    · exact .seq (.seq (.map tool fun _ _ _ => rfl))

theorem ofText?_congr (message : Message Double) (line line' : String)
    (members members' : List (String × Json)) (hread : Json.read? line = some (.obj members))
    (hread' : Json.read? line' = some (.obj members'))
    (hreadable : ((Json.obj members').isWithin maxDepth && (Json.obj members').isUsable) = true)
    (hagree : Agree message.fields members members') (h : ofText? line = some message) :
    ofText? line' = some message := by
  unfold ofText? at h ⊢
  rw [hread, Option.bind_some] at h
  rw [hread', Option.bind_some, if_pos hreadable]
  split at h
  · exact ofJson_congr message members members' hagree h
  · cases h

/-! ## The model -/

def routeFields : Fields (Option String → Message Double) :=
  route
    <$> .required "caller" .string
    <*> .required "channel" .string
    <*> .required "complexity" .float
    <*> .withDefault "input_tokens" (.nat 32) defaultInputTokens
    <*> .optional "max_output" (.nat 32)

def routeNames : List String :=
  ["caller", "channel", "complexity", "input_tokens", "max_output", "model"]

theorem routeOfJson_eq :
    routeOfJson = .openStructure routeNames (routeFields <*> .optional "model" .string) := rfl

open Fields in
theorem routeFields_reads : routeFields.Reads (routeNames.take 5) :=
  .seq (.seq (.seq (.seq (.map route (.part _ _ _ (by decide))) (.part _ _ _ (by decide)))
    (.part _ _ _ (by decide))) (.part _ _ _ (by decide))) (.part _ _ _ (by decide))

open Fields in
theorem routeFields_makes : routeFields.Makes fun g =>
    ∃ caller channel complexity inputTokens maxOutput,
      g = route caller channel complexity inputTokens maxOutput :=
  .seq (.seq (.seq (.seq (.map route fun caller channel complexity inputTokens maxOutput =>
    ⟨caller, channel, complexity, inputTokens, maxOutput, rfl⟩))))

variable {caller channel : String} {complexity : Double} {inputTokens : Nat} {maxOutput : Option Nat}
  {model : Option String}

theorem route_result?_withoutModel (parts parts' : Parts) (hformat : parts.format = parts'.format)
    (hvalues : ∀ name ∈ routeNames.take 5, parts.value? name = parts'.value? name)
    (hmodel : parts'.value? "model" = none)
    (h : (routeFields <*> .optional "model" .string).result? parts =
      some (.route caller channel complexity inputTokens maxOutput model)) :
    (routeFields <*> .optional "model" .string).result? parts' =
      some (.route caller channel complexity inputTokens maxOutput none) := by
  rw [Fields.seq_result?] at h ⊢
  rw [← routeFields_reads parts parts' hformat hvalues]
  obtain ⟨g, hg, h⟩ := Option.bind_eq_some_iff.mp h
  obtain ⟨named, -, h⟩ := Option.map_eq_some_iff.mp h
  obtain ⟨_, _, _, _, _, rfl⟩ := routeFields_makes parts g hg
  have hnone : (Fields.optional "model" Decode.string).result? parts' = some none := by
    unfold Fields.optional
    rw [Fields.part_result?, hmodel]
  cases h
  rw [hg, hnone]
  rfl

open Fields in
theorem route_entry (entry : String × Decode (Message Double)) (j : Json)
    (hentry : entry ∈ [("route", routeOfJson), ("usage", usageOfJson), ("release", releaseOfJson),
      ("tool", toolOfJson)])
    (h : (entry.2 .json j).toOption =
      some (.route caller channel complexity inputTokens maxOutput model)) :
    entry = ("route", routeOfJson) := by
  have hother : ∀ (names : List String) (reader : Fields (Message Double)),
      reader.Makes (fun message => message.fields.length < 7) →
      (Decode.openStructure names reader .json j).toOption ≠
        some (.route caller channel complexity inputTokens maxOutput model) := by
    intro names reader hmakes hroute
    exact absurd (made_of_openStructure names reader j _ hmakes _ hroute) (by simp [fields])
  simp only [List.mem_cons, List.not_mem_nil, or_false] at hentry
  rcases hentry with rfl | rfl | rfl | rfl
  · rfl
  · exact absurd h (hother _ _ (.seq (.seq (.map usage fun _ _ _ => by simp [fields]))))
  · exact absurd h (hother _ _ (.map release fun _ => by simp [fields]))
  · exact absurd h (hother _ _ (.seq (.seq (.map tool fun _ _ _ => by simp [fields]))))

theorem routeOfJson_filter (members : List (String × Json))
    (h : (routeOfJson .json (.obj members)).toOption =
      some (.route caller channel complexity inputTokens maxOutput model)) :
    (routeOfJson .json (.obj (members.filter fun m => m.1 != "model"))).toOption =
      some (.route caller channel complexity inputTokens maxOutput none) := by
  rw [routeOfJson_eq, Decode.openStructure_toOption] at h ⊢
  simp only [Decode.Parts.of?, Decode.surplus, Bool.false_eq_true, if_false] at h ⊢
  split at h
  · cases h
  · next hrepeats =>
    have honce := Decode.repeats_filter (fun m => m.1 != "model") (Bool.eq_false_iff.mpr hrepeats)
    rw [if_neg (Bool.eq_false_iff.mp honce)]
    rw [Option.bind_some] at h ⊢
    refine route_result?_withoutModel ⟨.json, (Dict.ofList members).toList⟩ _ rfl
      (fun name hname => ?_) ?_ h
    · rw [Decode.value?_ofList, Decode.value?_ofList, List.filter_filter]
      have hne : name ≠ "model" := by
        rintro rfl
        exact absurd hname (by decide)
      have hsame : (members.filter fun m => m.1 == name && m.1 != "model") =
          members.filter fun m => m.1 == name := by
        refine List.filter_congr fun m _ => ?_
        by_cases hm : m.1 = name <;> simp [hm, hne]
      rw [hsame]
    · have hnone : ((members.filter fun m => m.1 != "model").filter fun m => m.1 == "model") = [] := by
        simp
      rw [Decode.value?_ofList, hnone]
      rfl

theorem routeOfJson_take (items : List Json)
    (h : (routeOfJson .json (.arr items)).toOption =
      some (.route caller channel complexity inputTokens maxOutput model)) :
    (routeOfJson .json (.arr (items.take 5))).toOption =
      some (.route caller channel complexity inputTokens maxOutput none) := by
  -- Items stand for names in their order, and the model has the sixth name.
  have hnames : routeNames.Nodup := by decide
  rw [routeOfJson_eq, Decode.openStructure_toOption] at h ⊢
  simp only [Decode.Parts.of?, Option.bind_some] at h ⊢
  have hfits : Decode.surplus routeNames .json (.arr (items.take 5)) = false := by
    have hlength : routeNames.length = 6 := rfl
    simp only [Decode.surplus, List.length_take, hlength, Bool.and_eq_false_iff, decide_eq_false_iff_not]
    omega
  rw [if_neg (Bool.eq_false_iff.mp hfits)]
  split at h
  · cases h
  · refine route_result?_withoutModel ⟨.json, routeNames.zip items⟩ _ rfl (fun name hname => ?_) ?_ h
    · obtain ⟨i, hi, rfl⟩ := List.getElem_of_mem hname
      have hi5 : i < 5 := hi
      have hbefore := value?_zip .json routeNames hnames items i (Nat.lt_succ_of_lt hi5)
      have hafter := value?_zip .json routeNames hnames (items.take 5) i (Nat.lt_succ_of_lt hi5)
      rw [List.getElem?_take_of_lt hi5] at hafter
      rw [List.getElem_take]
      exact hbefore.trans hafter.symm
    · have hlast := value?_zip .json routeNames hnames (items.take 5) 5 (by decide)
      exact hlast.trans (List.getElem?_eq_none (by simp))

theorem ofJson_withoutModel (j : Json)
    (h : (ofJson .json j).toOption = some (.route caller channel complexity inputTokens maxOutput model)) :
    (ofJson .json j.withoutModel).toOption =
      some (.route caller channel complexity inputTokens maxOutput none) := by
  cases j with
  | obj members =>
    obtain ⟨name, entry, htag, hfind, hdecode⟩ := (Decode.tagged_toOption _ _ _ _ _).mp h
    have hentry := route_entry entry _ (List.mem_of_find?_eq_some hfind) hdecode
    subst hentry
    refine (Decode.tagged_toOption _ _ _ _ _).mpr ⟨name, _, ?_, hfind, ?_⟩
    · have hsame : ((members.filter fun m => m.1 != "model").filter fun m => m.1 == "op") =
          members.filter fun m => m.1 == "op" := by
        rw [List.filter_filter]
        refine List.filter_congr fun m _ => ?_
        by_cases hm : m.1 = "op" <;> simp [hm]
      rw [hsame]
      exact htag
    · rw [List.filter_comm]
      exact routeOfJson_filter _ hdecode
  | arr items =>
    obtain ⟨name, rest, entry, rfl, hfind, hdecode⟩ := (Decode.tagged_arr_toOption _ _ _ _ _).mp h
    have hentry := route_entry entry _ (List.mem_of_find?_eq_some hfind) hdecode
    subst hentry
    exact (Decode.tagged_arr_toOption _ _ _ _ _).mpr
      ⟨name, rest.take 5, _, rfl, hfind, routeOfJson_take rest hdecode⟩
  | null | bool | int | float | str | unusable => cases h

theorem withoutModel_readable (j : Json) (h : (j.isWithin maxDepth && j.isUsable) = true) :
    (j.withoutModel.isWithin maxDepth && j.withoutModel.isUsable) = true := by
  cases j with
  | obj members =>
    exact Json.obj_readable maxDepth members _ (fun m hm => (List.mem_filter.mp hm).1) h
  | arr items => exact Json.arr_readable maxDepth items _ (fun item hitem => List.mem_of_mem_take hitem) h
  | null | bool | int | float | str | unusable => exact h

theorem ofText?_withoutModel (line line' : String) (j : Json) (hread : Json.read? line = some j)
    (hread' : Json.read? line' = some j.withoutModel)
    (h : ofText? line = some (.route caller channel complexity inputTokens maxOutput model)) :
    ofText? line' = some (.route caller channel complexity inputTokens maxOutput none) := by
  unfold ofText? at h ⊢
  rw [hread, Option.bind_some] at h
  rw [hread', Option.bind_some]
  split at h
  · next hreadable =>
    rw [if_pos (withoutModel_readable j hreadable)]
    exact ofJson_withoutModel j h
  · cases h

end Message

end Admission
