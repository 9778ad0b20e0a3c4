import Mathlib.Data.List.DropRight
import Mathlib.Data.List.Induction
import Mathlib.Data.List.Nodup
import Mathlib.Data.List.Perm.Basic
import Qualification.Section.Store
/-!
# Sections in the order of first mention

Sections are put and single values of them set in any succession. What is left is every section that
was ever named, once, in the order in which they were first named, with the values that it was last
put with and what was set in it afterwards. Each of them is addressed to one key.

* `Sections.Change`, `Sections.changeAll`: histories of the sections;
* `InOrderOfMention`, `inOrderOfMention_concat`: the titles of a history;
* `sincePut`, `settings`, `valuesAfter`: the values that a history leaves in a section;
* `Account`, `Account.change`, **`account_changeAll`**: one change, and all of them;
* `perm_flatMap_filter`: lists parted by a key;
* **`sections_changeAll`**: what a history leaves, and how it is parted by keys.
-/

namespace Qualification.Sections

/-! ## Histories -/

/-- A call that changes the sections. -/
inductive Change where
  | put (title : String) (values : Dict String)
  | set (title key value : String)

namespace Change

/-- The title that a change names. -/
def title : Change → String
  | put title _ => title
  | set title _ _ => title

/-- The values that a change puts a section with. -/
def given? (title : String) : Change → Option (Dict String)
  | put t values => if t = title then some values else none
  | set _ _ _ => none

/-- The key and the value that a change sets in a section. -/
def setting? (title : String) : Change → Option (String × String)
  | put _ _ => none
  | set t key value => if t = title then some (key, value) else none

end Change

/-- The sections after a change. -/
def change (s : Sections) : Change → Sections
  | .put title values => s.put title values
  | .set title key value => s.set title key value

/-- The sections after changes, one after the other. -/
def changeAll (s : Sections) (history : List Change) : Sections := history.foldl change s

/-! ## Titles -/

/-- Whether titles are those that a history names, each once, in the order in which it first names
them. -/
structure InOrderOfMention (history : List Change) (titles : List String) : Prop where
  once : titles.Nodup
  named : ∀ title, title ∈ titles ↔ ∃ c ∈ history, c.title = title
  ordered : titles.Pairwise fun a b =>
    (history.map Change.title).idxOf a < (history.map Change.title).idxOf b

/-- The titles after one change more: a title that was not named before stands last. -/
theorem inOrderOfMention_concat {history : List Change} {titles : List String}
    (h : InOrderOfMention history titles) (c : Change) :
    InOrderOfMention (history ++ [c])
      (if c.title ∈ titles then titles else titles ++ [c.title]) := by
  let names := history.map Change.title
  have hmem : ∀ {t}, t ∈ titles → t ∈ names := fun ht => by
    obtain ⟨d, hd, rfl⟩ := (h.named _).mp ht
    exact List.mem_map_of_mem hd
  have hplace : ∀ {t}, t ∈ titles → (names ++ [c.title]).idxOf t = names.idxOf t := fun ht =>
    List.idxOf_append_of_mem (hmem ht)
  have hold : titles.Pairwise fun a b =>
      (names ++ [c.title]).idxOf a < (names ++ [c.title]).idxOf b :=
    h.ordered.imp_of_mem fun ha hb hlt => by rwa [hplace ha, hplace hb]
  have hnames : (history ++ [c]).map Change.title = names ++ [c.title] := List.map_append
  have hnamed : ∀ t, (∃ d ∈ history ++ [c], d.title = t) ↔ t ∈ titles ∨ t = c.title := by
    intro t
    rw [h.named t]
    simp only [List.mem_append, List.mem_singleton, or_and_right, exists_or, exists_eq_left,
      eq_comm (a := t)]
  split
  · next hin =>
    refine ⟨h.once, fun t => ?_, hnames ▸ hold⟩
    rw [hnamed t]
    exact ⟨.inl, fun ht => ht.elim id (· ▸ hin)⟩
  · next hnew =>
    have hout : c.title ∉ names := fun hin => hnew ((h.named _).mpr (List.mem_map.mp hin))
    refine ⟨?_, fun t => ?_, ?_⟩
    · exact List.nodup_append.mpr ⟨h.once, List.nodup_singleton _, fun a ha b hb hab =>
        hnew (List.mem_singleton.mp hb ▸ hab ▸ ha)⟩
    · rw [hnamed t, List.mem_append, List.mem_singleton]
    · rw [hnames]
      refine List.pairwise_append.mpr ⟨hold, List.pairwise_singleton _ _, fun a ha b hb => ?_⟩
      rw [List.mem_singleton.mp hb, hplace ha, List.idxOf_append_of_notMem hout]
      exact Nat.lt_of_lt_of_le (List.idxOf_lt_length_of_mem (hmem ha)) (Nat.le_add_right _ _)

/-! ## Values -/

section Values

variable (title : String) (history : List Change)

/-- The values that a history last puts a section with; without any they are none. -/
def lastGiven : Dict String :=
  (history.reverse.findSome? (Change.given? title)).getD Dict.empty

/-- The changes after the last one that puts a section. -/
def sincePut : List Change := history.rtakeWhile fun c => (c.given? title).isNone

/-- The keys and values that changes set in a section, in order. -/
def settings : List (String × String) := history.filterMap (Change.setting? title)

/-- The values that a history leaves in a section: those that it was last put with, and what was set
in it afterwards. -/
def valuesAfter : Dict String := (lastGiven title history).insertAll (settings title
  (sincePut title history))

theorem valuesAfter_put (values : Dict String) :
    valuesAfter title (history ++ [.put title values]) = values := by
  have hgiven : (Change.put title values).given? title = some values := if_pos rfl
  simp [valuesAfter, lastGiven, sincePut, settings, hgiven, Dict.insertAll]

theorem valuesAfter_set (key value : String) :
    valuesAfter title (history ++ [.set title key value]) =
      (valuesAfter title history).insert key value := by
  have hgiven : (Change.set title key value).given? title = none := rfl
  have hsetting : (Change.set title key value).setting? title = some (key, value) := if_pos rfl
  simp [valuesAfter, lastGiven, sincePut, settings, hgiven, hsetting, Dict.insertAll]

/-- A change that names another section. -/
theorem valuesAfter_of_ne {c : Change} (h : c.title ≠ title) :
    valuesAfter title (history ++ [c]) = valuesAfter title history := by
  have hgiven : c.given? title = none := by
    cases c with
    | put t values => exact if_neg h
    | set t key value => rfl
  have hsetting : c.setting? title = none := by
    cases c with
    | put t values => rfl
    | set t key value => exact if_neg h
  simp [valuesAfter, lastGiven, sincePut, settings, hgiven, hsetting]

end Values

/-! ## What a history leaves -/

/-- Whether sections are those that a history leaves. -/
structure Account (history : List Change) (s : Sections) : Prop where
  titles : InOrderOfMention history s.titles
  values : ∀ title, (s.get? title).getD Dict.empty = valuesAfter title history

/-- A change is an update of the section that it names. -/
theorem change_eq (s : Sections) (history : List Change) (c : Change) :
    ∃ f, s.change c = s.update c.title f ∧
      f (valuesAfter c.title history) = valuesAfter c.title (history ++ [c]) := by
  cases c with
  | put title values =>
    exact ⟨fun _ => values, rfl, (valuesAfter_put title history values).symm⟩
  | set title key value =>
    exact ⟨(·.insert key value), rfl, (valuesAfter_set title history key value).symm⟩

/-- **One change more.** -/
theorem Account.change {history : List Change} {s : Sections} (h : Account history s)
    (c : Change) : Account (history ++ [c]) (s.change c) := by
  obtain ⟨f, hchange, hvalues⟩ := change_eq s history c
  refine ⟨?_, fun title => ?_⟩
  · rw [hchange, titles_update]
    exact inOrderOfMention_concat h.titles c
  · rw [hchange, get?_update]
    by_cases htitle : title = c.title
    · rw [if_pos htitle, Option.getD_some, htitle, h.values, hvalues]
    · rw [if_neg htitle, h.values, valuesAfter_of_ne title history (Ne.symm htitle)]

/-- **Every history** leaves sections that are accounted for. -/
theorem account_changeAll (history : List Change) : Account history (empty.changeAll history) := by
  induction history using List.reverseRecOn with
  | nil =>
    refine ⟨⟨List.nodup_nil, fun title => ?_, List.Pairwise.nil⟩, fun _ => rfl⟩
    exact ⟨fun h => (List.not_mem_nil h).elim, fun ⟨_, h, _⟩ => (List.not_mem_nil h).elim⟩
  | append_singleton history c ih =>
    rw [changeAll, List.foldl_append]
    exact ih.change c

/-- A section that a history names has the values that it leaves there. -/
theorem Account.entries {history : List Change} {s : Sections} (h : Account history s) :
    s.entries = s.titles.map fun title => (title, valuesAfter title history) := by
  rw [Sections.entries, ← List.filterMap_eq_map]
  refine List.filterMap_congr fun title htitle => ?_
  obtain ⟨values, hget⟩ := Option.isSome_iff_exists.mp ((s.mem_titles_iff title).mp htitle)
  have hvalues := h.values title
  rw [show s.get? title = some values from hget, Option.getD_some] at hvalues
  rw [hget, hvalues]
  rfl

/-! ## Sections by key -/

/-- A list is parted into the parts of any keys that are enough for it. -/
theorem perm_flatMap_filter {α : Type} (key : α → String) (l : List α) {keys : List String}
    (hkeys : keys.Nodup) (hall : ∀ a ∈ l, key a ∈ keys) :
    (keys.flatMap fun k => l.filter fun a => key a == k).Perm l := by
  induction keys generalizing l with
  | nil =>
    rw [List.eq_nil_iff_forall_not_mem.mpr fun a ha => List.not_mem_nil (hall a ha)]
    exact .refl _
  | cons k keys ih =>
    obtain ⟨hk, hrest⟩ := List.nodup_cons.mp hkeys
    -- The parts of the other keys are those of what is left without this key.
    have hothers : (keys.flatMap fun k' => l.filter fun a => key a == k') =
        keys.flatMap fun k' => (l.filter fun a => !(key a == k)).filter fun a => key a == k' := by
      refine List.flatMap_congr fun k' hk' => ?_
      rw [List.filter_filter]
      refine List.filter_congr fun a _ => ?_
      have hne : k' ≠ k := fun he => hk (he ▸ hk')
      by_cases ha : key a = k' <;> simp [ha, hne]
    rw [List.flatMap_cons, hothers]
    refine ((ih (l.filter fun a => !(key a == k)) hrest fun a ha => ?_).append_left _).trans
      (List.filter_append_perm _ _)
    obtain ⟨hmem, hne⟩ := List.mem_filter.mp ha
    refine (List.mem_cons.mp (hall a hmem)).resolve_left fun he => ?_
    rw [he, beq_self_eq_true] at hne
    cases hne

/-- The section as it stands among all of them. -/
def Addressed.entry (a : Addressed) : String × Dict String := (a.title, a.values)

theorem entries_addressedTo (s : Sections) (key : String) :
    (s.addressedTo key).map Addressed.entry =
      s.entries.filter fun e => (Title.parse e.1).stage == key := by
  rw [addressedTo, List.filter_map, List.map_map]
  exact List.map_id _

/-- **What a history leaves in the sections**: every one that it ever names, once, in the order in
which it first names them, with the values that it was last put with and what was set in it
afterwards; their number is that of the sections that are listed. By their keys the sections are
parted: each is addressed to one key, that of its title, and those of a key stay in order. -/
theorem sections_changeAll (history : List Change) :
    let s := empty.changeAll history
    InOrderOfMention history (s.entries.map Prod.fst) ∧
    (∀ e ∈ s.entries, e.2 = valuesAfter e.1 history) ∧
    (∀ title values, s.get? title = some values ↔ (title, values) ∈ s.entries) ∧
    s.size = s.entries.length ∧ (s.isEmpty = true ↔ s.entries = []) ∧
    (∀ key, ((s.addressedTo key).map Addressed.entry).Sublist s.entries ∧
      ∀ a ∈ s.addressedTo key, a.parts = Title.parse a.title ∧ a.parts.stage = key) ∧
    (∀ e ∈ s.entries, ∀ key, e ∈ (s.addressedTo key).map Addressed.entry ↔
      key = (Title.parse e.1).stage) ∧
    ∀ keys : List String, keys.Nodup → (∀ e ∈ s.entries, (Title.parse e.1).stage ∈ keys) →
      (keys.flatMap fun key => (s.addressedTo key).map Addressed.entry).Perm s.entries := by
  intro s
  have haccount : Account history s := account_changeAll history
  have hlength : s.entries.length = s.titles.length := by
    rw [← s.titles_entries, List.length_map]
  refine ⟨s.titles_entries ▸ haccount.titles, fun e he => ?_, fun _ _ => get?_eq_some_iff,
    hlength.symm, ?_, fun key => ⟨?_, fun a ha => ?_⟩, fun e he key => ?_,
    fun keys hkeys hall => ?_⟩
  · rw [haccount.entries] at he
    obtain ⟨title, -, rfl⟩ := List.mem_map.mp he
    rfl
  · rw [isEmpty, List.isEmpty_iff, ← List.length_eq_zero_iff, ← hlength, List.length_eq_zero_iff]
  · rw [entries_addressedTo]
    exact List.filter_sublist
  · obtain ⟨hmem, hkey⟩ := List.mem_filter.mp ha
    obtain ⟨e, -, rfl⟩ := List.mem_map.mp hmem
    exact ⟨rfl, eq_of_beq hkey⟩
  · rw [entries_addressedTo, List.mem_filter, beq_iff_eq, eq_comm]
    exact and_iff_right he
  · simp only [entries_addressedTo]
    exact perm_flatMap_filter _ s.entries hkeys hall

/-- A section is named by a value of it, put, set again and put anew; two others come in between. -/
def recastHistory : List Change :=
  [.set "TestRun:ibm" "np" "4", .put "BIOS" (Dict.ofList [("image", "a.bin")]),
    .put "TestRun:ibm" (Dict.ofList [("np", "8"), ("fast", "true")]), .set "STOP TestRun" "why" "",
    .set "TestRun:ibm" "np" "16", .set "BIOS" "image" "b.bin"]

/-- The section that was named first stands first, without the value from before it was put. -/
theorem sections_changeAll_recast :
    let s := empty.changeAll recastHistory
    s.entries = [("TestRun:ibm", Dict.ofList [("fast", "true"), ("np", "16")]),
      ("BIOS", Dict.ofList [("image", "b.bin")]), ("STOP TestRun", Dict.ofList [("why", "")])] ∧
    Dict.ofList [("fast", "true"), ("np", "16")] = valuesAfter "TestRun:ibm" recastHistory ∧
    ("STOP TestRun", Dict.ofList [("why", "")]) ∈
      (s.addressedTo "TestRun").map Addressed.entry ∧
    (["BIOS", "TestRun"].flatMap fun key => (s.addressedTo key).map Addressed.entry).Perm
      s.entries := by
  intro s
  have hentries : s.entries = [("TestRun:ibm", Dict.ofList [("fast", "true"), ("np", "16")]),
      ("BIOS", Dict.ofList [("image", "b.bin")]), ("STOP TestRun", Dict.ofList [("why", "")])] := by
    decide +kernel
  obtain ⟨-, hvalues, -, -, -, -, hkeys, hparts⟩ := sections_changeAll recastHistory
  refine ⟨hentries, hvalues ("TestRun:ibm", _) ?_, (hkeys ("STOP TestRun", _) ?_ _).mpr ?_,
    hparts _ ?_ ?_⟩
  · exact hentries ▸ List.mem_cons_self
  · exact hentries ▸ by simp
  · decide +kernel
  · decide
  · exact hentries ▸ by decide +kernel

end Qualification.Sections
