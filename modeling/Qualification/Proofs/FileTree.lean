import Qualification.FileTree
import Qualification.Proofs.Text.Lines
/-!
# File trees

What stands where after a change of a tree, and that a directory is there when it was made.

* `entry?_put`, `append?_eq`: what is put at a place, and what is added to a file;
* `names_append_slash`: the names in a path below another one;
* **`isDirectory_of_makeDirsFrom?`**: names that were made lead to a directory.
-/

namespace Qualification

namespace Path

theorem names_append_slash (a b : String) : names (a ++ "/" ++ b) = names a ++ names b := by
  have hlist : (a ++ "/" ++ b).toList = a.toList ++ '/' :: b.toList := by simp
  simp [names, Text.splitOn, hlist, Text.splitAt_append_cons]

/-- A name is the only one in its path. -/
theorem names_of_name {n : String} (h : '/' ∉ n.toList) (hempty : n ≠ "") (hdot : n ≠ ".") :
    names n = [n] := by
  have hfree : ∀ c ∈ n.toList, (c == '/') = false := by
    intro c hc
    simpa using fun heq : c = '/' => h (heq ▸ hc)
  simp [names, Text.splitOn, Text.splitAt_of_none hfree, hempty, hdot]

theorem exists_of_endsWith {s : String} (h : Text.endsWith s "/" = true) : ∃ a, s = a ++ "/" := by
  obtain ⟨front, hfront⟩ := Option.isSome_iff_exists.mp h
  obtain ⟨r, hr, -⟩ := Option.map_eq_some_iff.mp hfront
  have hs : s.toList = r.reverse ++ ['/'] := by
    rw [← List.reverse_reverse s.toList, Text.dropPrefix?_eq_some.mp hr, List.reverse_append]
    rfl
  exact ⟨String.ofList r.reverse, String.toList_inj.mp (by simp [hs])⟩

/-- A name below a path is the last one in it. -/
theorem names_join (base : String) {n : String} (h : '/' ∉ n.toList) (hempty : n ≠ "")
    (hdot : n ≠ ".") : ∃ front, names (join base n) = front ++ [n] := by
  have habsolute : isAbsolute n = false := by
    rw [isAbsolute, Text.startsWith, Option.isSome_eq_false_iff, Option.isNone_iff_eq_none,
      Option.eq_none_iff_forall_ne_some]
    intro r hr
    exact h (by rw [Text.dropPrefix?_eq_some.mp hr]; exact List.mem_cons_self)
  have hname := names_of_name h hempty hdot
  rw [join, habsolute, if_neg (by simp)]
  split
  next hbase =>
    rcases Bool.or_eq_true_iff.mp hbase with hbase | hbase
    · obtain rfl : base = "" := by simpa using hbase
      exact ⟨[], by simpa using hname⟩
    · obtain ⟨a, rfl⟩ := exists_of_endsWith hbase
      exact ⟨names a, by rw [names_append_slash, hname]⟩
  next => exact ⟨names base, by rw [names_append_slash, hname]⟩

end Path

namespace FileTree

variable {t t' : FileTree} {p q : Place}

/-! ## Entries -/

theorem lookup_filter_ne (p q : Place) (l : List (Place × FileEntry)) :
    (l.filter fun x => x.1 != p).lookup q = if q = p then none else l.lookup q := by
  induction l with
  | nil => simp
  | cons x l ih =>
    obtain ⟨p', e⟩ := x
    by_cases hp : p' = p
    · subst hp
      rw [List.filter_cons_of_neg (by simp), ih]
      by_cases hq : q = p'
      · simp [hq]
      · have hne : (q == p') = false := by simpa using hq
        simp [hq, List.lookup_cons, hne]
    · rw [List.filter_cons_of_pos (by simpa using hp), List.lookup_cons, List.lookup_cons, ih]
      by_cases hq : q = p'
      · simp [hq, hp]
      · have hne : (q == p') = false := by simpa using hq
        simp [hne]

theorem entry?_put (hp : p ≠ []) (e : FileEntry) (q : Place) :
    FileTree.entry? (t.put p e) q = if q = p then some e else t.entry? q := by
  cases q with
  | nil => simp [ entry?, Ne.symm hp]
  | cons n q =>
    simp only [ entry?, put, List.isEmpty_cons, List.lookup_append, lookup_filter_ne]
    by_cases hq : n :: q = p
    · simp [hq]
    · have hne : (n :: q == p) = false := by simpa using hq
      simp [hq, List.lookup_cons, hne]

theorem isDirectory_iff : t.isDirectory p = true ↔ t.entry? p = some .directory := by
  unfold isDirectory
  split <;> simp_all

/-- What is added to a file stands after what was there. -/
theorem append?_eq (hp : p ≠ []) (hparent : t.isDirectory p.dropLast = true)
    (hfile : t.isDirectory p = false) (bytes : ByteArray) :
    t.append? p bytes = some (t.put p (.file ((t.read? p).getD ByteArray.empty ++ bytes))) := by
  simp [append?, write?, hp, hparent, hfile]

/-! ## Directories -/

/-- Where a name leads from a place. -/
def next (p : Place) (n : String) : Place := if n = ".." then p.dropLast else p ++ [n]

/-- A step of making directories: the rest is made from where the first name leads, and that is a
directory by then, unless the name leads back. -/
theorem makeDirsFrom?_cons {n : String} {names : List String}
    (h : t.makeDirsFrom? p (n :: names) = some t') :
    ∃ t₁ : FileTree, t₁.makeDirsFrom? (next p n) names = some t' ∧
      (∀ q, t.isDirectory q = true → t₁.isDirectory q = true) ∧
      (n ≠ ".." → t₁.isDirectory (next p n) = true) := by
  by_cases hn : n = ".."
  · subst hn
    exact ⟨t, h, fun _ => id, fun h => absurd rfl h⟩
  · have hnext : next p n = p ++ [n] := if_neg hn
    rw [hnext]
    rw [makeDirsFrom?] at h
    · cases hentry : t.entry? (p ++ [n]) with
      | none =>
        rw [hentry] at h
        refine ⟨_, h, fun q hq => ?_, fun _ => ?_⟩
        · rw [isDirectory_iff, entry?_put (by simp)]
          split
          · rfl
          · exact isDirectory_iff.mp hq
        · rw [isDirectory_iff, entry?_put (by simp), if_pos rfl]
      | some e =>
        cases e with
        | directory =>
          rw [hentry] at h
          exact ⟨t, h, fun _ => id, fun _ => isDirectory_iff.mpr hentry⟩
        | file bytes => simp [hentry] at h
    · exact hn

/-- Directories stay while others are made. -/
theorem isDirectory_makeDirsFrom? {names : List String} (hmake : t.makeDirsFrom? p names = some t')
    (h : t.isDirectory q = true) : t'.isDirectory q = true := by
  induction names generalizing t p with
  | nil =>
    cases hmake
    exact h
  | cons n names ih =>
    obtain ⟨t₁, hmake₁, hstay, -⟩ := makeDirsFrom?_cons hmake
    exact ih hmake₁ (hstay q h)

theorem follow?_cons {n : String} {names : List String} (h : t.follow? p (n :: names) = some q) :
    t.follow? (next p n) names = some q := by
  by_cases hn : n = ".."
  · subst hn
    rw [follow?] at h
    split at h
    · exact h
    · cases h
  · rw [follow?] at h
    · split at h
      · rwa [next, if_neg hn]
      · cases h
    · exact hn

/-- **Names that were made lead to a directory**, if the last one does not lead back. -/
theorem isDirectory_of_makeDirsFrom? {names : List String} {n : String} (hn : n ≠ "..")
    (hmake : t.makeDirsFrom? p (names ++ [n]) = some t')
    (hfollow : t'.follow? p (names ++ [n]) = some q) : t'.isDirectory q = true := by
  induction names generalizing t p with
  | nil =>
    obtain ⟨t₁, hmake₁, -, hmade⟩ := makeDirsFrom?_cons hmake
    obtain rfl : next p n = q := by simpa [follow?] using follow?_cons hfollow
    exact isDirectory_makeDirsFrom? hmake₁ (hmade hn)
  | cons m names ih =>
    obtain ⟨t₁, hmake₁, -, -⟩ := makeDirsFrom?_cons hmake
    exact ih hmake₁ (follow?_cons hfollow)

/-- A path that was made leads to a directory, if its last name does not lead back. -/
theorem isDirectory_of_makeDirs? {cwd : Place} {path n : String} {front : List String}
    (hnames : Path.names path = front ++ [n]) (hn : n ≠ "..")
    (hmake : t.makeDirs? cwd path = some t') (hresolve : t'.resolve? cwd path = some q) :
    t'.isDirectory q = true := by
  have hne : path.isEmpty = false := by
    rw [Bool.eq_false_iff]
    intro hempty
    rw [String.isEmpty_iff.mp hempty] at hnames
    simp [Path.names, Text.splitOn, Text.splitAt] at hnames
  simp only [makeDirs?, hne, hnames, Bool.false_eq_true, if_false] at hmake
  simp only [resolve?, hne, hnames, Bool.false_eq_true, if_false] at hresolve
  split at hresolve
  next place hfollow =>
    obtain ⟨-, hplace⟩ := Option.ite_none_left_eq_some.mp hresolve
    cases hplace
    exact isDirectory_of_makeDirsFrom? hn hmake hfollow
  next => cases hresolve

end FileTree

end Qualification
