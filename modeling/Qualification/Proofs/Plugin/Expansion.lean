import Mathlib.Data.List.Induction
import Mathlib.Data.List.Infix
import Mathlib.Data.List.Nodup
import Mathlib.Data.List.Perm.Basic
import Qualification.Plugin.CommandLine
import Qualification.Proofs.Text.Placeholder
/-!
# The words of a command line

The words hold placeholders for option values. They are filled in one name after the other, so a
value that holds a placeholder, or that completes one with the text around it, is read again for the
names that come later.

* `Resolved.value?`, `Resolved.entries`: the values that are filled in, and their order;
* `substitute`: all of them at once;
* `Clear`: no value makes a placeholder of a name that comes later;
* **`fill_eq_substitute_iff`**: filling in one after the other and all at once agree, at each
  moment, exactly for words that are clear;
* `clear_of_flat`: values that open no brace are clear of each other in every order;
* **`expand_placeholders`**: the words of a command.
-/

namespace Qualification

/-- The value of an option, declared or passed through. -/
def Resolved.value? (r : Resolved) (name : String) : Option String :=
  (r.values.get? name).or (r.passthrough.get? name)

/-- The values in the order in which they are filled in. -/
def Resolved.entries (r : Resolved) : List (String × String) :=
  r.values.toList ++ r.passthrough.toList

namespace CommandLine

/-- The characters of a value, by those of its name. -/
def charsOf (value? : String → Option String) (name : List Char) : Option (List Char) :=
  (value? (String.ofList name)).map String.toList

/-- A word with the value of each name in the places of its placeholders, all at once. -/
def substitute (value? : String → Option String) (word : String) : String :=
  String.ofList (Text.substitute (charsOf value?) word.toList)

/-- The value of a name among some entries. -/
def valueIn (entries : List (String × String)) (name : String) : Option String :=
  Dict.lookupIn name entries

/-- The placeholder of a name. -/
def placeholder (name : String) : String := "\x7b" ++ name ++ "\x7d"

/-- How often a word holds the placeholder of a name. -/
def placeholders (name word : String) : Nat := Text.holes name.toList word.toList

/-- Whether a name has no braces. -/
def Plain (name : String) : Prop := Text.Braceless name.toList

instance (name : String) : Decidable (Plain name) :=
  inferInstanceAs (Decidable (Text.Braceless name.toList))

/-- Whether no value makes a placeholder of a name that comes later; one that is the placeholder of
its own name may meet as many of them as there are. -/
def Clear (entries : List (String × String)) (word : String) : Prop :=
  ∀ before e, before ++ [e] <+: entries →
    e.2 = placeholder e.1 ∨
      placeholders e.1 (substitute (valueIn before) word) = placeholders e.1 word

/-! ## Values among entries -/

section Values

variable {entries : List (String × String)} {e : String × String} {name : String}

theorem valueIn_append (before after : List (String × String)) (name : String) :
    valueIn (before ++ after) name = (valueIn before name).or (valueIn after name) := by
  induction before with
  | nil => rfl
  | cons e before ih =>
    by_cases h : name = e.1
    · simp [valueIn, Dict.lookupIn, h]
    · simpa [valueIn, Dict.lookupIn, h] using ih

theorem valueIn_eq_none : valueIn entries name = none ↔ name ∉ entries.map Prod.fst := by
  induction entries with
  | nil => simp [valueIn, Dict.lookupIn]
  | cons e entries ih =>
    by_cases h : name = e.1
    · simp [valueIn, Dict.lookupIn, h]
    · simpa [valueIn, Dict.lookupIn, h] using ih

/-- Where no name stands twice, the values are the entries. -/
theorem valueIn_eq_some (h : (entries.map Prod.fst).Nodup) {value : String} :
    valueIn entries name = some value ↔ (name, value) ∈ entries := by
  induction entries with
  | nil => simp [valueIn, Dict.lookupIn]
  | cons e entries ih =>
    obtain ⟨k, v⟩ := e
    obtain ⟨hk, h⟩ := List.nodup_cons.mp h
    by_cases hname : name = k
    · subst hname
      have hout : (name, value) ∉ entries := fun hmem => hk (List.mem_map.mpr ⟨_, hmem, rfl⟩)
      simp [valueIn, Dict.lookupIn, hout, eq_comm]
    · simpa [valueIn, Dict.lookupIn, hname] using ih h

/-- The order of the entries does not matter for their values. -/
theorem valueIn_of_perm {order : List (String × String)} (h : (entries.map Prod.fst).Nodup)
    (hperm : order.Perm entries) : valueIn order = valueIn entries := by
  have horder : (order.map Prod.fst).Nodup := (hperm.map Prod.fst).nodup_iff.mpr h
  funext name
  refine Option.ext fun value => ?_
  rw [valueIn_eq_some horder, valueIn_eq_some h, hperm.mem_iff]

variable {spec : OptionSpec} {overrides : Dict String}

theorem valueIn_entries (r : Resolved) : valueIn r.entries = r.value? :=
  funext fun name => valueIn_append r.values.toList r.passthrough.toList name

/-- No option has two values. -/
theorem nodup_entries (spec : OptionSpec) (overrides : Dict String) :
    ((resolve spec overrides).entries.map Prod.fst).Nodup := by
  rw [Resolved.entries, List.map_append]
  refine List.Nodup.append (Dict.keys_nodup _) (Dict.keys_nodup _) ?_
  intro name hvalue hpass
  have hdeclared : spec.contains name = true := by
    simpa [resolve, Dict.get?_map, Dict.contains] using Dict.mem_keys_iff.mp hvalue
  obtain ⟨e, he, rfl⟩ := List.mem_map.mp hpass
  have hundeclared := (List.mem_filter.mp he).2
  simp [hdeclared] at hundeclared

theorem plain_of_mem_entries (hspec : ∀ name ∈ spec.keys, Plain name)
    (hoverrides : ∀ name ∈ overrides.keys, Plain name)
    (he : e ∈ (resolve spec overrides).entries) : Plain e.1 := by
  rcases List.mem_append.mp he with h | h
  · obtain ⟨d, hd, rfl⟩ := List.mem_map.mp h
    exact hspec d.1 (List.mem_map_of_mem hd)
  · exact hoverrides e.1 (List.mem_map_of_mem (List.mem_filter.mp h).1)

end Values

/-! ## One name after the other -/

section Successive

variable {entries before : List (String × String)} {e : String × String}

theorem charsOf_valueIn_append (hout : e.1 ∉ before.map Prod.fst) :
    charsOf (valueIn (before ++ [e])) =
      Function.update (charsOf (valueIn before)) e.1.toList (some e.2.toList) := by
  funext name
  rw [charsOf, valueIn_append]
  by_cases h : name = e.1.toList
  · rw [h, String.ofList_toList, valueIn_eq_none.mpr hout]
    simp [valueIn, Dict.lookupIn]
  · have hne : String.ofList name ≠ e.1 := fun heq => h (by rw [← heq, String.toList_ofList])
    simp [Function.update_of_ne h, charsOf, valueIn, Dict.lookupIn, hne]

theorem toList_placeholder (name : String) :
    (placeholder name).toList = Text.placeholder name.toList := by
  simp [placeholder, Text.placeholder]

/-- Replacing the placeholders of one name is putting in its value. -/
theorem replaceAll_placeholder (h : Plain e.1) (word : String) :
    Text.replaceAll (placeholder e.1) e.2 word = substitute (valueIn [e]) word := by
  have hchars := @charsOf_valueIn_append [] e List.not_mem_nil
  rw [Text.replaceAll, toList_placeholder, Text.replaceFrom_placeholder h, substitute]
  exact congrArg (fun v => String.ofList (Text.substitute v word.toList)) hchars.symm

theorem fill_append (before : List (String × String)) (e : String × String) (word : String) :
    fill (before ++ [e]) word = Text.replaceAll (placeholder e.1) e.2 (fill before word) := by
  simp [fill, placeholder]

/-- Each value is put into the word together with what the earlier ones have brought along. -/
theorem fill_eq_foldl (h : ∀ e ∈ entries, Plain e.1) (word : String) :
    fill entries word = entries.foldl (fun w e => substitute (valueIn [e]) w) word := by
  induction entries generalizing word with
  | nil => rfl
  | cons e entries ih =>
    obtain ⟨he, h⟩ := List.forall_mem_cons.mp h
    have hone : fill [e] word = substitute (valueIn [e]) word := replaceAll_placeholder he word
    rw [List.foldl_cons, ← hone, ← ih h]
    rfl

theorem substitute_append_iff (h : Plain e.1) (hout : e.1 ∉ before.map Prod.fst) (word : String) :
    Text.replaceAll (placeholder e.1) e.2 (substitute (valueIn before) word) =
        substitute (valueIn (before ++ [e])) word ↔
      e.2 = placeholder e.1 ∨
        placeholders e.1 (substitute (valueIn before) word) = placeholders e.1 word := by
  have hnone : charsOf (valueIn before) e.1.toList = none := by
    simp [charsOf, valueIn_eq_none.mpr hout]
  rw [Text.replaceAll, toList_placeholder, Text.replaceFrom_placeholder h, substitute, substitute,
    String.toList_ofList, String.ofList_inj, charsOf_valueIn_append hout,
    Text.substitute_substitute_iff h hnone, ← toList_placeholder, String.toList_inj, placeholders,
    placeholders, String.toList_ofList]

theorem clear_append (entries : List (String × String)) (e : String × String) (word : String) :
    Clear (entries ++ [e]) word ↔ Clear entries word ∧ (e.2 = placeholder e.1 ∨
      placeholders e.1 (substitute (valueIn entries) word) = placeholders e.1 word) := by
  constructor
  · intro h
    exact ⟨fun before d hd => h before d (hd.trans (List.prefix_append _ _)),
      h entries e List.prefix_rfl⟩
  · rintro ⟨h, he⟩ before d hd
    rcases List.prefix_concat_iff.mp hd with heq | hd
    · obtain ⟨rfl, hde⟩ := List.append_inj' heq rfl
      rwa [List.singleton_inj.mp hde]
    · exact h before d hd

/-- **Filling in one name after the other and all at once agree** as long as the word is clear. -/
theorem fill_eq_substitute_iff (h : ∀ e ∈ entries, Plain e.1)
    (hnodup : (entries.map Prod.fst).Nodup) (word : String) :
    (∀ visited, visited <+: entries → fill visited word = substitute (valueIn visited) word) ↔
      Clear entries word := by
  induction entries using List.reverseRecOn with
  | nil =>
    refine ⟨fun _ before e hprefix => ?_, fun _ visited hprefix => ?_⟩
    · exact absurd (List.prefix_nil.mp hprefix) (by simp)
    · rw [List.prefix_nil.mp hprefix, substitute]
      simp [fill, show charsOf (valueIn []) = fun _ => none from rfl, Text.substitute_none]
  | append_singleton entries e ih =>
    have hplain : ∀ d ∈ entries, Plain d.1 := fun d hd => h d (List.mem_append_left _ hd)
    rw [List.map_append, List.nodup_append'] at hnodup
    obtain ⟨hnodup, -, hdisjoint⟩ := hnodup
    have hout : e.1 ∉ entries.map Prod.fst := fun hmem =>
      hdisjoint hmem (List.mem_singleton_self e.1)
    have hstep := substitute_append_iff (h e (by simp)) hout word
    rw [clear_append, ← ih hplain hnodup, ← hstep]
    constructor
    · intro hall
      have hearlier : ∀ visited, visited <+: entries →
          fill visited word = substitute (valueIn visited) word :=
        fun visited hvisited => hall visited (hvisited.trans (List.prefix_append _ _))
      have hlast := hall (entries ++ [e]) List.prefix_rfl
      rw [fill_append, hearlier entries List.prefix_rfl] at hlast
      exact ⟨hearlier, hlast⟩
    · rintro ⟨hearlier, hlast⟩ visited hvisited
      rcases List.prefix_concat_iff.mp hvisited with rfl | hvisited
      · rwa [fill_append, hearlier entries List.prefix_rfl]
      · exact hearlier visited hvisited

end Successive

/-! ## Clear words -/

section Clear

variable {entries order : List (String × String)}

/-- Values that open no brace are clear of each other where no brace opens inside braces. -/
theorem clear_of_flat {word : String} (h : ∀ e ∈ entries, Plain e.1)
    (hnodup : (entries.map Prod.fst).Nodup) (hopen : ∀ e ∈ entries, '\x7b' ∉ e.2.toList)
    (hflat : Text.Flat word.toList) : Clear entries word := by
  intro before e hprefix
  obtain ⟨rest, rfl⟩ := hprefix
  have hmem : e ∈ before ++ [e] ++ rest := by simp
  rw [List.map_append, List.map_append] at hnodup
  obtain ⟨hbefore, -, hdisjoint⟩ := List.nodup_append'.mp (List.nodup_append'.mp hnodup).1
  have hout : e.1 ∉ before.map Prod.fst := fun hname =>
    hdisjoint hname (List.mem_singleton_self e.1)
  have hnone : charsOf (valueIn before) e.1.toList = none := by
    simp [charsOf, valueIn_eq_none.mpr hout]
  refine .inr ?_
  rw [placeholders, placeholders, substitute, String.toList_ofList]
  refine Text.holes_substitute_of_flat (h e hmem) hnone (fun name value hvalue => ?_) hflat
  obtain ⟨v, hv, rfl⟩ := Option.map_eq_some_iff.mp hvalue
  exact hopen _ (List.mem_append_left _ (List.mem_append_left _ ((valueIn_eq_some hbefore).mp hv)))

end Clear

/-- **The words of a command.** Each value is put into a word together with what the ones before it
have brought along. This is what putting all values into the word at once gives, at each moment,
exactly where no value makes a placeholder of a name that comes later; then the order of the names
does not matter. Values that open no brace make none in words where no brace opens inside braces. -/
theorem expand_placeholders (c : CommandLine) {spec : OptionSpec} {overrides : Dict String}
    (hspec : ∀ name ∈ spec.keys, Plain name) (hoverrides : ∀ name ∈ overrides.keys, Plain name) :
    let r := resolve spec overrides
    c.expand r = c.command.map
      (fun word => r.entries.foldl (fun w e => substitute (valueIn [e]) w) word) ∧
    (∀ word, (∀ visited, visited <+: r.entries →
        fill visited word = substitute (valueIn visited) word) ↔ Clear r.entries word) ∧
    ((∀ word ∈ c.command, Clear r.entries word) →
      c.expand r = c.command.map (substitute r.value?)) ∧
    (∀ order, order.Perm r.entries →
      ((∀ word ∈ c.command, Clear order word) →
        c.command.map (fill order) = c.command.map (substitute r.value?)) ∧
      ((∀ e ∈ r.entries, '\x7b' ∉ e.2.toList) → (∀ word ∈ c.command, Text.Flat word.toList) →
        ∀ word ∈ c.command, Clear order word)) := by
  intro r
  have hplain : ∀ e ∈ r.entries, Plain e.1 := fun e he => plain_of_mem_entries hspec hoverrides he
  have hnodup : (r.entries.map Prod.fst).Nodup := nodup_entries spec overrides
  have horder : ∀ order, order.Perm r.entries → (∀ word ∈ c.command, Clear order word) →
      c.command.map (fill order) = c.command.map (substitute r.value?) := by
    intro order hperm hclear
    refine List.map_congr_left fun word hword => ?_
    have hnodup' : (order.map Prod.fst).Nodup := (hperm.map Prod.fst).nodup_iff.mpr hnodup
    rw [← valueIn_entries, ← valueIn_of_perm hnodup hperm]
    exact (fill_eq_substitute_iff (fun e he => hplain e (hperm.mem_iff.mp he)) hnodup' word).mpr
      (hclear word hword) order List.prefix_rfl
  refine ⟨List.map_congr_left fun word _ => fill_eq_foldl hplain word,
    fill_eq_substitute_iff hplain hnodup, horder r.entries (.refl _), fun order hperm =>
    ⟨horder order hperm, fun hopen hflat word hword => ?_⟩⟩
  exact clear_of_flat (fun e he => hplain e (hperm.mem_iff.mp he))
    ((hperm.map Prod.fst).nodup_iff.mpr hnodup) (fun e he => hopen e (hperm.mem_iff.mp he))
    (hflat word hword)

/-- A declared image and a target that is passed through. -/
def flash : CommandLine := ⟨"BIOS", "", 0, ["flash", "--image=\x7bimage\x7d", "\x7btarget\x7d"],
  Dict.ofList [("image", ⟨"bios.bin", "Image"⟩)], none⟩

theorem expand_placeholders_flash :
    (∀ name ∈ flash.declared.keys, Plain name) ∧
      (∀ name ∈ (Dict.ofList [("target", "node01")]).keys, Plain name) ∧
      flash.expand (resolve flash.declared (Dict.ofList [("target", "node01")])) =
        ["flash", "--image=bios.bin", "node01"] := by
  have hspec : ∀ name ∈ flash.declared.keys, Plain name := by decide +kernel
  have hoverrides : ∀ name ∈ (Dict.ofList [("target", "node01")]).keys, Plain name := by
    decide +kernel
  obtain ⟨-, -, hall, horder⟩ := expand_placeholders flash hspec hoverrides
  refine ⟨hspec, hoverrides, (hall ?_).trans (by decide +kernel)⟩
  exact (horder _ (.refl _)).2 (by decide +kernel) (by decide +kernel)

/-- A value that is the placeholder of a later name. -/
def nested : CommandLine := ⟨"C", "", 0, ["\x7ba\x7d"],
  Dict.ofList [("a", ⟨"\x7bb\x7d", ""⟩), ("b", ⟨"x", ""⟩)], none⟩

/-- A placeholder after an opening brace. -/
def joined : CommandLine := ⟨"C", "", 0, ["\x7b\x7ba\x7db\x7d"],
  Dict.ofList [("a", ⟨"", ""⟩), ("b", ⟨"x", ""⟩)], none⟩

/-- **A value is searched for placeholders,** alone and together with the text around it, and
whether it is depends on the order of the names. -/
theorem expand_not_substitute :
    (∀ c ∈ [nested, joined], ∀ name ∈ c.declared.keys, Plain name) ∧
      (∀ c ∈ [nested, joined], c.expand (resolve c.declared Dict.empty) = ["x"]) ∧
      ∀ c ∈ [nested, joined],
        c.command.map (substitute (resolve c.declared Dict.empty).value?) = ["\x7bb\x7d"] ∧
        c.command.map (fill (resolve c.declared Dict.empty).entries.reverse) = ["\x7bb\x7d"] := by
  decide +kernel

end CommandLine

end Qualification
