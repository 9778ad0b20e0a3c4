import Mathlib.Data.List.Dedup
import Mathlib.Data.List.Forall2
import Qualification.Definition
/-!
# The sections of a run definition as texts

A definition names its sections, and the keys in them, with values; a run has texts for them. Values
that differ may have one text, as the number `1` and the text `1` have, and then the later one takes
the place of the earlier one.

* `Dict.size_ofList_iff`, `Sections.entries_ofList`: nothing is lost where no key and no title comes
  twice;
* `RunDefinition.Stands`, `RunDefinition.Faithful`: the sections with texts are those of the
  definition, one for one and in order;
* `RunDefinition.SpelledApart`: titles, and keys in a section, have texts that differ;
* `RunDefinition.distinct_of_parse?`: a definition that was read names nothing twice, as a value;
* **`RunDefinition.faithful_iff`**: no section and no value is lost exactly if their texts differ.
-/

namespace Qualification

/-! ## Dictionaries and sections of lists -/

namespace Dict

variable {β : Type} {es : List (String × β)}

/-- A dictionary has an entry for every given one exactly if no key was given twice. -/
theorem size_ofList_iff : (ofList es).size = es.length ↔ (es.map Prod.fst).Nodup := by
  have hperm : (ofList es).keys.Perm (es.map Prod.fst).dedup :=
    (List.perm_ext_iff_of_nodup (keys_nodup _) (List.nodup_dedup _)).mpr fun k => by
      rw [mem_keys_ofList, List.mem_dedup]
  have hsize : (ofList es).size = (es.map Prod.fst).dedup.length := by
    rw [← hperm.length_eq, keys, List.length_map]
    rfl
  have hlength : es.length = (es.map Prod.fst).length := (List.length_map _).symm
  rw [hsize, hlength]
  constructor
  · intro h
    rw [← (List.dedup_sublist _).eq_of_length h]
    exact List.nodup_dedup _
  · intro h
    rw [h.dedup]

theorem get?_ofList_of_mem (h : (es.map Prod.fst).Nodup) {k : String} {v : β} (he : (k, v) ∈ es) :
    (ofList es).get? k = some v := by
  rw [get?_ofList]
  cases hfind : es.reverse.find? fun e => e.1 == k with
  | none =>
    have hnone := List.find?_eq_none.mp hfind (k, v) (List.mem_reverse.mpr he)
    simp at hnone
  | some f =>
    have hf : f ∈ es := List.mem_reverse.mp (List.mem_of_find?_eq_some hfind)
    have hkey : f.1 = k := by simpa using List.find?_some hfind
    rw [List.inj_on_of_nodup_map h hf he hkey]
    rfl

end Dict

namespace Sections

/-- A new section stands last, and the others stay. -/
theorem entries_update_of_not_mem {s : Sections} {title : String} (h : title ∉ s.titles)
    (f : Dict String → Dict String) :
    (s.update title f).entries = s.entries ++ [(title, f Dict.empty)] := by
  have hnone : s.get? title = none :=
    Option.not_isSome_iff_eq_none.mp (mt (s.mem_titles_iff title).mpr h)
  have hothers : ∀ t ∈ s.titles, ((s.update title f).get? t).map (t, ·) =
      (s.get? t).map (t, ·) := by
    intro t ht
    rw [get?_update, if_neg fun he : t = title => h (he ▸ ht)]
  have hself : (s.update title f).get? title = some (f Dict.empty) := by
    rw [get?_update, if_pos rfl, hnone, Option.getD_none]
  change (s.update title f).titles.filterMap (fun t => ((s.update title f).get? t).map (t, ·)) =
    s.titles.filterMap (fun t => (s.get? t).map (t, ·)) ++ _
  rw [titles_update, if_neg h, List.filterMap_append, List.filterMap_congr hothers,
    List.filterMap_cons, hself]
  rfl

theorem entries_foldl_put {s : Sections} {es : List (String × Dict String)}
    (h : ((s.entries ++ es).map Prod.fst).Nodup) :
    (es.foldl (fun s e => s.put e.1 e.2) s).entries = s.entries ++ es := by
  induction es generalizing s with
  | nil => exact (List.append_nil _).symm
  | cons e es ih =>
    have hnew : e.1 ∉ s.titles := by
      rw [List.map_append, List.map_cons, List.nodup_append, titles_entries] at h
      exact fun he => h.2.2 _ he _ List.mem_cons_self rfl
    have hput : (s.put e.1 e.2).entries = s.entries ++ [(e.1, e.2)] :=
      entries_update_of_not_mem hnew fun _ => e.2
    rw [List.foldl_cons, ih, hput, List.append_assoc, List.singleton_append]
    rw [hput, List.append_assoc, List.singleton_append]
    exact h

theorem entries_ofList {es : List (String × Dict String)} (h : (es.map Prod.fst).Nodup) :
    (ofList es).entries = es :=
  entries_foldl_put (s := empty) h

end Sections

/-! ## What was read -/

namespace Yaml

theorem plainValue?_ne_mapping (s : String) (es : List (Value × Value)) :
    plainValue? s ≠ some (.mapping es) := by
  unfold plainValue? integerValue
  grind

theorem scalarValue?_ne_mapping (tag : Option String) (s : String) (style : Style)
    (es : List (Value × Value)) : scalarValue? tag s style ≠ some (.mapping es) := by
  have hplain := plainValue?_ne_mapping s es
  unfold scalarValue? integerValue
  grind [Option.map_eq_some_iff]

namespace Document

variable {d : Document} {depth b b' : Nat} {n : Node}

theorem withTag_eq_mapping {tag : Option String} {v : Value} {es : List (Value × Value)}
    (h : withTag tag v = .mapping es) : v = .mapping es := by
  unfold withTag at h
  split at h
  · split_ifs at h
    exact h
  · exact h

/-- Of entries that were read no two have equal keys, and their values were read. -/
theorem distinct_of_entriesOf? {es : List (Node × Node)} {done vs : List (Value × Value)}
    (h : d.entriesOf? depth es done b = some (vs, b'))
    (hdone : done.Pairwise fun e f => f.1.same e.1 = false)
    (hread : ∀ e ∈ done, ∃ n b b', d.valueOf? depth n b = some (e.2, b')) :
    (vs.Pairwise fun e f => e.1.same f.1 = false) ∧
      ∀ e ∈ vs, ∃ n b b', d.valueOf? depth n b = some (e.2, b') := by
  -- The induction is on what is left to read; what was read stands last entry first.
  induction es generalizing done b with
  | nil =>
    rw [entriesOf?] at h
    cases h
    exact ⟨List.pairwise_reverse.mpr hdone, fun e he => hread e (List.mem_reverse.mp he)⟩
  | cons e es ih =>
    obtain ⟨kn, vn⟩ := e
    rw [entriesOf?] at h
    obtain ⟨⟨k, b₁⟩, -, h⟩ := Option.bind_eq_some_iff.mp h
    dsimp only at h
    split_ifs at h with hany
    obtain ⟨⟨v, b₂⟩, hv, h⟩ := Option.bind_eq_some_iff.mp h
    refine ih h (List.pairwise_cons.mpr ⟨fun f hf => ?_, hdone⟩)
      (List.forall_mem_cons.mpr ⟨⟨vn, b₁, b₂, hv⟩, hread⟩)
    exact Bool.eq_false_iff.mpr fun hsame => hany (List.any_eq_true.mpr ⟨f, hf, hsame⟩)

theorem entriesOf?_of_valueOf? {es : List (Value × Value)}
    (h : d.valueOf? depth n b = some (.mapping es, b')) :
    ∃ depth' nodes b₁, d.entriesOf? depth' nodes [] b₁ = some (es, b') := by
  -- Of the nodes only mappings give mappings, and a tag makes nothing else of them.
  have htagged : ∀ (v? : Option Value) tag b₁, v? ≠ some (.mapping es) →
      (v?.bind fun v => pure (withTag tag v, b₁)) ≠ some (.mapping es, b') := by
    intro v? tag b₁ hne h
    obtain ⟨v, rfl, h⟩ := Option.bind_eq_some_iff.mp h
    obtain ⟨hv, -⟩ := Prod.mk.inj (Option.some.inj h)
    exact hne (congrArg some (withTag_eq_mapping hv))
  have hscalar : ∀ tag s style b₁, (do
      let v ← if tag.any isLocalTag then
          (if style == .plain then plainValue? s else some (.text s))
        else scalarValue? tag s style
      pure (withTag tag v, b₁) : Option (Value × Nat)) ≠ some (.mapping es, b') := by
    intro tag s style b₁
    split_ifs
    · exact htagged _ tag b₁ (plainValue?_ne_mapping s es)
    · exact htagged _ tag b₁ nofun
    · exact htagged _ tag b₁ (scalarValue?_ne_mapping tag s style es)
  cases depth with
  | zero =>
    rw [valueOf?] at h
    obtain ⟨⟨n, b₁⟩, -, h⟩ := Option.bind_eq_some_iff.mp h
    cases n with
    | scalar tag s style => exact absurd h (hscalar tag s style b₁)
    | _ => cases h
  | succ depth =>
    rw [valueOf?] at h
    obtain ⟨⟨n, b₁⟩, -, h⟩ := Option.bind_eq_some_iff.mp h
    cases n with
    | scalar tag s style => exact absurd h (hscalar tag s style b₁)
    | sequence tag nodes =>
      obtain ⟨⟨vs, b₂⟩, -, h⟩ := Option.bind_eq_some_iff.mp h
      obtain ⟨hv, -⟩ := Prod.mk.inj (Option.some.inj h)
      cases withTag_eq_mapping hv
    | mapping tag nodes =>
      obtain ⟨⟨vs, b₂⟩, hvs, h⟩ := Option.bind_eq_some_iff.mp h
      obtain ⟨hv, rfl⟩ := Prod.mk.inj (Option.some.inj h)
      obtain rfl := Value.mapping.inj (withTag_eq_mapping hv)
      exact ⟨depth, nodes, b₁, hvs⟩
    | «alias» => cases h

theorem distinct_of_valueOf? {es : List (Value × Value)}
    (h : d.valueOf? depth n b = some (.mapping es, b')) :
    es.Pairwise fun e f => e.1.same f.1 = false := by
  obtain ⟨_, _, _, hentries⟩ := entriesOf?_of_valueOf? h
  exact (distinct_of_entriesOf? hentries List.Pairwise.nil (List.forall_mem_nil _)).1

end Document

end Yaml

namespace RunDefinition

/-- The entries of a section's content. -/
def contentEntries : Yaml.Value → List (Yaml.Value × Yaml.Value)
  | .mapping es => es
  | _ => []

/-- Whether no title is there twice, and no key in a section, as values. -/
structure Distinct (d : RunDefinition) : Prop where
  titles : d.sections.Pairwise fun e f => e.1.same f.1 = false
  keys : ∀ e ∈ d.sections, (contentEntries e.2).Pairwise fun a b => a.1.same b.1 = false

/-- **A definition that was read names nothing twice.** -/
theorem distinct_of_parse? {yaml : String} {d : RunDefinition} (h : parse? yaml = some d) :
    d.Distinct := by
  unfold parse? at h
  simp only [Option.bind_eq_bind, Option.bind_eq_some_iff, Option.pure_def, Option.some.injEq] at h
  obtain ⟨doc, -, r, -, name, -, description, -, goOn, -, limits, -, sections, hsections, rfl⟩ := h
  have hread : sections = [] ∨ ∃ depth nodes b b',
      doc.entriesOf? depth nodes [] b = some (sections, b') := by
    unfold Yaml.Fields.withDefault at hsections
    split at hsections
    · exact .inl (Option.some.inj hsections).symm
    · unfold Yaml.Document.mapping? at hsections
      obtain ⟨n, -, hn⟩ := Option.bind_eq_some_iff.mp hsections
      split at hn
      · obtain ⟨⟨vs, b'⟩, hvs, rfl⟩ := Option.map_eq_some_iff.mp hn
        exact .inr ⟨_, _, _, _, hvs⟩
      · split_ifs at hn
        exact .inl (Option.some.inj hn).symm
      · cases hn
  rcases hread with rfl | ⟨depth, nodes, b, b', hentries⟩
  · exact ⟨List.Pairwise.nil, List.forall_mem_nil _⟩
  · obtain ⟨htitles, hvalues⟩ := Yaml.Document.distinct_of_entriesOf? hentries List.Pairwise.nil
      (List.forall_mem_nil _)
    refine ⟨htitles, fun e he => ?_⟩
    obtain ⟨n, b₁, b₂, hvalue⟩ := hvalues e he
    obtain ⟨title, content⟩ := e
    cases content with
    | mapping es => exact Yaml.Document.distinct_of_valueOf? hvalue
    | _ => exact List.Pairwise.nil

/-! ## Texts -/

/-- The texts of an entry's key and value, if both are scalars. -/
def entryTexts (e : Yaml.Value × Yaml.Value) : Option String × Option String :=
  (scalarText? e.1, scalarText? e.2)

theorem sectionValues_eq_ok {title : String} {es : List (Yaml.Value × Yaml.Value)}
    {values : List (String × String)} (h : sectionValues title es = .ok values) :
    es.map entryTexts = values.map fun v => (some v.1, some v.2) := by
  induction es generalizing values with
  | nil =>
    cases h
    rfl
  | cons e es ih =>
    obtain ⟨k, v⟩ := e
    rw [sectionValues] at h
    cases hk : scalarText? k with
    | none => simp [hk] at h
    | some key =>
      cases hv : scalarText? v with
      | none => simp [hk, hv] at h
      | some value =>
        simp only [hk, hv] at h
        cases hmore : sectionValues title es with
        | error fault =>
          rw [hmore] at h
          cases h
        | ok more =>
          rw [hmore] at h
          cases h
          rw [List.map_cons, List.map_cons, ih hmore, entryTexts, hk, hv]

theorem section?_eq_ok {title content : Yaml.Value} {f : String × Dict String}
    (h : section? title content = .ok f) : titleText title = .ok f.1 ∧
      ∃ values, f.2 = Dict.ofList values ∧
        (contentEntries content).map entryTexts = values.map fun v => (some v.1, some v.2) := by
  unfold section? at h
  cases ht : titleText title with
  | error fault =>
    rw [ht] at h
    cases h
  | ok text =>
    rw [ht] at h
    cases content with
    | null =>
      cases h
      exact ⟨rfl, [], rfl, rfl⟩
    | mapping es =>
      cases hvalues : sectionValues text es with
      | error fault =>
        simp only [bind, Except.bind, hvalues] at h
        cases h
      | ok values =>
        simp only [bind, Except.bind, hvalues] at h
        cases h
        exact ⟨rfl, values, rfl, sectionValues_eq_ok hvalues⟩
    | _ => cases h

theorem sections?_eq_ok {d : RunDefinition} {s : Sections} (h : d.sections? = .ok s) :
    ∃ fs, List.Forall₂ (fun e f => section? e.1 e.2 = .ok f) d.sections fs ∧
      s = Sections.ofList fs := by
  have hmap : ∀ (es : List (Yaml.Value × Yaml.Value)) (fs : List (String × Dict String)),
      (es.mapM fun e => section? e.1 e.2) = .ok fs →
        List.Forall₂ (fun e f => section? e.1 e.2 = .ok f) es fs := by
    intro es
    induction es with
    | nil =>
      intro fs hfs
      cases hfs
      exact .nil
    | cons e es ih =>
      intro fs hfs
      rw [List.mapM_cons] at hfs
      cases he : section? e.1 e.2 with
      | error fault =>
        rw [he] at hfs
        cases hfs
      | ok f =>
        cases hes : es.mapM fun e => section? e.1 e.2 with
        | error fault =>
          simp only [he, hes, bind, Except.bind] at hfs
          cases hfs
        | ok rest =>
          simp only [he, hes, bind, Except.bind] at hfs
          cases hfs
          exact .cons he (ih rest hes)
  unfold sections? at h
  cases hfs : d.sections.mapM fun e => section? e.1 e.2 with
  | error fault =>
    rw [hfs] at h
    cases h
  | ok fs =>
    rw [hfs] at h
    cases h
    exact ⟨fs, hmap _ _ hfs, rfl⟩

/-! ## Nothing is lost -/

/-- Whether the section `e` of a definition stands as `f` among sections with texts: under the text
of its title, and with one entry for each of its keys. -/
structure Stands (e : Yaml.Value × Yaml.Value) (f : String × Dict String) : Prop where
  title : titleText e.1 = .ok f.1
  size : f.2.size = (contentEntries e.2).length
  value : ∀ a ∈ contentEntries e.2, ∃ key value,
    entryTexts a = (some key, some value) ∧ f.2.get? key = some value

/-- Whether sections with texts are those of a definition, one for one and in order. -/
def Faithful (d : RunDefinition) (s : Sections) : Prop := List.Forall₂ Stands d.sections s.entries

/-- Whether no two titles have one text, and no two keys in a section. -/
structure SpelledApart (d : RunDefinition) : Prop where
  titles : (d.sections.map fun e => titleText e.1).Nodup
  keys : ∀ e ∈ d.sections, ((contentEntries e.2).map fun a => scalarText? a.1).Nodup

/-- A section stands as what is made of it exactly if no two of its keys have one text. -/
theorem stands_iff {e : Yaml.Value × Yaml.Value} {f : String × Dict String}
    (h : section? e.1 e.2 = .ok f) :
    Stands e f ↔ ((contentEntries e.2).map fun a => scalarText? a.1).Nodup := by
  obtain ⟨htitle, values, hf, hvalues⟩ := section?_eq_ok h
  have hlength : (contentEntries e.2).length = values.length := by
    simpa using congrArg List.length hvalues
  have hkeys : (contentEntries e.2).map (fun a => scalarText? a.1) =
      (values.map Prod.fst).map some := by
    have hfirst := congrArg (List.map Prod.fst) hvalues
    rw [List.map_map, List.map_map] at hfirst
    rw [List.map_map]
    exact hfirst
  rw [hkeys, List.nodup_map_iff fun _ _ => Option.some.inj]
  constructor
  · intro hstands
    have hsize := hstands.size
    rw [hf, hlength] at hsize
    exact Dict.size_ofList_iff.mp hsize
  · intro hnodup
    refine ⟨htitle, ?_, fun a ha => ?_⟩
    · rw [hf, hlength]
      exact Dict.size_ofList_iff.mpr hnodup
    · have htexts : entryTexts a ∈ values.map fun v => (some v.1, some v.2) :=
        hvalues ▸ List.mem_map_of_mem ha
      obtain ⟨v, hv, heq⟩ := List.mem_map.mp htexts
      exact ⟨v.1, v.2, heq.symm, hf ▸ Dict.get?_ofList_of_mem hnodup hv⟩

theorem titles_of_forall₂ {es : List (Yaml.Value × Yaml.Value)} {fs : List (String × Dict String)}
    (h : List.Forall₂ (fun e f => titleText e.1 = .ok f.1) es fs) :
    es.map (fun e => titleText e.1) = (fs.map Prod.fst).map Except.ok := by
  have heq : List.Forall₂ Eq (es.map fun e => titleText e.1) ((fs.map Prod.fst).map Except.ok) := by
    rw [List.map_map]
    exact List.forall₂_map_left_iff.mpr (List.forall₂_map_right_iff.mpr h)
  rwa [List.forall₂_eq_eq_eq] at heq

/-- Whether all titles, and all keys in sections, are texts as values. -/
def TextsOnly (d : RunDefinition) : Prop :=
  ∀ e ∈ d.sections, (∃ title, e.1 = .text title) ∧
    ∀ a ∈ contentEntries e.2, ∃ key, a.1 = .text key

theorem nodup_of_texts {β : Type} {f : Yaml.Value → β}
    (hf : ∀ s t, f (.text s) = f (.text t) → s = t) {es : List (Yaml.Value × Yaml.Value)}
    (hdistinct : es.Pairwise fun e f => e.1.same f.1 = false)
    (htexts : ∀ e ∈ es, ∃ s, e.1 = .text s) : (es.map fun e => f e.1).Nodup := by
  rw [List.Nodup, List.pairwise_map]
  refine hdistinct.imp_of_mem fun {a b} ha hb hsame heq => ?_
  obtain ⟨s, hs⟩ := htexts a ha
  obtain ⟨t, ht⟩ := htexts b hb
  rw [hs, ht] at hsame heq
  rw [hf s t heq, Yaml.Value.same, beq_self_eq_true] at hsame
  cases hsame

theorem spelledApart_of_texts {d : RunDefinition} (h : d.Distinct) (htexts : d.TextsOnly) :
    d.SpelledApart where
  titles := nodup_of_texts (fun _ _ => Except.ok.inj) h.titles fun e he => (htexts e he).1
  keys e he := nodup_of_texts (fun _ _ => Option.some.inj) (h.keys e he) (htexts e he).2

/-- **No section is lost** of those that have texts, and no entry of one, exactly if titles, and
keys in a section, are spelled apart. Those that are texts as values are. -/
theorem faithful_iff {d : RunDefinition} {s : Sections} (h : d.sections? = .ok s) :
    (d.Faithful s ↔ d.SpelledApart) ∧ (d.Distinct → d.TextsOnly → d.Faithful s) := by
  obtain ⟨fs, hfs, rfl⟩ := sections?_eq_ok h
  have htitles := titles_of_forall₂ (hfs.imp fun _ _ he => (section?_eq_ok he).1)
  -- Only when titles are spelled apart do sections stay where they were put.
  have hentries : (d.sections.map fun e => titleText e.1).Nodup →
      (Sections.ofList fs).entries = fs := by
    intro hnodup
    rw [htitles] at hnodup
    exact Sections.entries_ofList (hnodup.of_map _)
  have hiff : d.Faithful (Sections.ofList fs) ↔ d.SpelledApart := by
    constructor
    · intro hfaithful
      -- The titles of a store are distinct, and here they are those of the definition.
      have hnodup : (d.sections.map fun e => titleText e.1).Nodup := by
        rw [titles_of_forall₂ (hfaithful.imp fun _ _ he => he.title)]
        exact (Sections.ofList fs).distinct.map fun _ _ => Except.ok.inj
      refine ⟨hnodup, ?_⟩
      rw [Faithful, hentries hnodup] at hfaithful
      have hkeys := hfs.mp (fun _ _ he hstands => And.intro ((stands_iff he).mp hstands) he)
        hfaithful
      exact ((List.forall₂_and_left _ _).mp hkeys).1
    · intro hapart
      rw [Faithful, hentries hapart.titles]
      have hkeys := (List.forall₂_and_left _ _).mpr ⟨hapart.keys, hfs⟩
      exact hkeys.imp fun _ _ he => (stands_iff he.2).mpr he.1
  exact ⟨hiff, fun hdistinct htexts => hiff.mpr (spelledApart_of_texts hdistinct htexts)⟩

/-- Two sections with values of several kinds. -/
def twoSections : RunDefinition := ⟨"two sections", "", false, Limits.unlimited,
  [(.text "TestRun:ibm", .mapping [(.text "np", .number (.natural 4)), (.text "fast", .bool true)]),
    (.text "STOP BIOS", .mapping [(.text "image", .text "a.bin"), (.text "note", .null)])]⟩

/-- Keys and titles that are texts are all there. -/
theorem faithful_iff_twoSections :
    let s := Sections.ofList [("TestRun:ibm", Dict.ofList [("np", "4"), ("fast", "true")]),
      ("STOP BIOS", Dict.ofList [("image", "a.bin"), ("note", "")])]
    twoSections.sections? = .ok s ∧ twoSections.Distinct ∧ twoSections.TextsOnly ∧
      twoSections.Faithful s ∧ twoSections.SpelledApart := by
  intro s
  have hs : twoSections.sections? = .ok s := rfl
  have hdistinct : twoSections.Distinct := by
    constructor
    · simp [twoSections, Yaml.Value.same]
    · simp [twoSections, contentEntries, Yaml.Value.same]
  have htexts : twoSections.TextsOnly := by
    simp only [TextsOnly, twoSections, contentEntries, List.forall_mem_cons]
    simp
  obtain ⟨hiff, hfaithful⟩ := faithful_iff hs
  exact ⟨hs, hdistinct, htexts, hfaithful hdistinct htexts, hiff.mp (hfaithful hdistinct htexts)⟩

/-- A section whose title is a number, and one whose title is the text of it. -/
def numberAndText : RunDefinition := ⟨"number and text", "", false, Limits.unlimited,
  [(.number (.natural 1), .mapping [(.text "image", .text "a.bin")]),
    (.text "1", .mapping [(.text "np", .number (.natural 2))])]⟩

/-- **A lost section.** Two titles that differ as values have one text, and the second section takes
the place of the first one. -/
theorem not_faithful_numberAndText :
    let s := Sections.ofList [("1", Dict.ofList [("np", "2")])]
    numberAndText.Distinct ∧ numberAndText.sections? = .ok s ∧
      s.entries = [("1", Dict.ofList [("np", "2")])] ∧ ¬ numberAndText.Faithful s := by
  intro s
  refine ⟨?_, rfl, rfl, fun hfaithful => ?_⟩
  · constructor
    · simp [numberAndText, Yaml.Value.same]
    · simp [numberAndText, contentEntries]
  · have hlength : numberAndText.sections.length = s.entries.length := hfaithful.length_eq
    cases hlength

end RunDefinition

end Qualification
