import Qualification.Dict
import Qualification.Section.Title
/-!
# Configuration sections

The sections of a run: their titles in the order in which they were first named, and their values by
title; each holds texts by key.

* `Sections.put` sets a whole section, `Sections.set` one value of it; neither moves a section;
* `Sections.entries`: titles and values side by side; **`titles_entries`**: no title is left out;
* `Sections.get?_eq_some_iff`: a section is found by its title as it is written;
* `Sections.addressedTo` lists the sections of a stage.
-/

namespace Qualification

/-- Titles in order, none of them twice, and the values of just these. -/
structure Sections where
  titles : List String
  values : Dict (Dict String)
  nodup : titles.Nodup
  mem_titles_iff : ∀ title, title ∈ titles ↔ values.contains title = true

namespace Sections

/-- No sections. -/
def empty : Sections := ⟨[], Dict.empty, List.nodup_nil, fun _ => by simp [Dict.contains]⟩

instance : Inhabited Sections := ⟨empty⟩

/-- Changes the values of one section; a new one begins empty and stands last. -/
def update (s : Sections) (title : String) (f : Dict String → Dict String) : Sections where
  titles := if s.values.contains title then s.titles else s.titles ++ [title]
  values := s.values.insert title (f ((s.values.get? title).getD Dict.empty))
  nodup := by
    split
    · exact s.nodup
    · next hnew =>
      have hout : title ∉ s.titles := mt (s.mem_titles_iff title).mp hnew
      exact List.nodup_append.2 ⟨s.nodup, by simp, fun a ha b hb => by
        rw [List.mem_singleton.1 hb]; exact fun e => hout (e ▸ ha)⟩
  mem_titles_iff t := by
    have hold := s.mem_titles_iff title
    have hsame := s.mem_titles_iff t
    simp only [Dict.contains, Dict.get?_insert] at hold hsame ⊢
    by_cases ht : t = title
    · subst ht
      by_cases hmem : (s.values.get? t).isSome = true <;> simp [hmem, hold]
    · by_cases hmem : (s.values.get? title).isSome = true <;> simp [hmem, hsame, ht]

/-- Sets the values of a section. -/
def put (s : Sections) (title : String) (values : Dict String) : Sections :=
  s.update title fun _ => values

/-- Sets one value of a section. -/
def set (s : Sections) (title key value : String) : Sections :=
  s.update title fun vs => vs.insert key value

/-- The values of the section with exactly this title. -/
def get? (s : Sections) (title : String) : Option (Dict String) := s.values.get? title

/-- The sections in order. -/
def entries (s : Sections) : List (String × Dict String) :=
  s.titles.filterMap fun title => (s.values.get? title).map (title, ·)

/-- The sections of a list of titles and values, set one after the other. -/
def ofList (es : List (String × Dict String)) : Sections :=
  es.foldl (fun s e => s.put e.1 e.2) empty

/-- The number of sections. -/
def size (s : Sections) : Nat := s.titles.length

def isEmpty (s : Sections) : Bool := s.titles.isEmpty

/-- A section, with its title as written and its parts. -/
structure Addressed where
  title : String
  parts : Title
  values : Dict String

/-- The sections that are addressed to a key, in order. -/
def addressedTo (s : Sections) (key : String) : List Addressed :=
  (s.entries.map fun e => ⟨e.1, Title.parse e.1, e.2⟩).filter fun a => a.parts.stage == key

variable {s : Sections} {title : String} {f : Dict String → Dict String}

/-- **Every title has its entry**, in order. -/
theorem titles_entries (s : Sections) : s.entries.map Prod.fst = s.titles := by
  have hall : ∀ ts : List String, (∀ t ∈ ts, s.values.contains t = true) →
      (ts.filterMap fun t => (s.values.get? t).map (t, ·)).map Prod.fst = ts := by
    intro ts hts
    induction ts with
    | nil => rfl
    | cons t ts ih =>
      obtain ⟨ht, hrest⟩ := List.forall_mem_cons.mp hts
      obtain ⟨vs, hvs⟩ := Option.isSome_iff_exists.mp ht
      rw [List.filterMap_cons, hvs]
      exact congrArg (t :: ·) (ih hrest)
  exact hall s.titles fun t ht => (s.mem_titles_iff t).mp ht

theorem distinct (s : Sections) : (s.entries.map Prod.fst).Nodup := by
  rw [titles_entries]
  exact s.nodup

/-- The sections are the look-ups by title. -/
theorem get?_eq_some_iff {values : Dict String} :
    s.get? title = some values ↔ (title, values) ∈ s.entries := by
  rw [entries, List.mem_filterMap]
  constructor
  · intro h
    refine ⟨title, (s.mem_titles_iff title).mpr ?_, ?_⟩
    · rw [Dict.contains, show s.values.get? title = some values from h]
      rfl
    · rw [show s.values.get? title = some values from h]
      rfl
  · rintro ⟨t, -, ht⟩
    obtain ⟨vs, hvs, hpair⟩ := Option.map_eq_some_iff.mp ht
    obtain ⟨rfl, rfl⟩ := Prod.mk.inj hpair
    exact hvs

theorem titles_update (s : Sections) (title : String) (f : Dict String → Dict String) :
    (s.update title f).titles = if title ∈ s.titles then s.titles else s.titles ++ [title] := by
  rw [update]
  simp only [s.mem_titles_iff title]

theorem get?_update (s : Sections) (title : String) (f : Dict String → Dict String) (t : String) :
    (s.update title f).get? t =
      if t = title then some (f ((s.get? title).getD Dict.empty)) else s.get? t :=
  Dict.get?_insert _ _ _ _

end Sections

end Qualification
