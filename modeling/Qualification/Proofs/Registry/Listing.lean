import Mathlib.Data.List.Sort
import Qualification.Proofs.Registry.Discovery
/-!
# Listings of files

Files are listed in no particular order, and their paths are sorted before anything is done with
them. So the candidates for discovery are the same whichever order that is.

* `Path.before_iff`: paths are compared as lists of names;
* `FileTree.manifestsBelow`, `Candidate.ofListing`: the manifests below a directory, and the
  candidates of a listing;
* `Candidate.sort_perm`, `sorted_sort`: what sorting does;
* **`ofListing_of_perm`**: the candidates do not depend on the order of a listing;
* `ascending_ofListing`: of distinct files one comes before the other;
* `Candidate.loadAll`, `units_of_foldlM`: the candidates that have a plugin are what is staged.
-/

namespace Qualification

/-! ## Paths -/

/-- Paths are sorted as lists of names. -/
theorem Path.before_iff {a b : List String} : Path.before a b = true ↔ a < b := by
  induction a generalizing b with
  | nil => cases b <;> simp [Path.before]
  | cons x a ih =>
    cases b with
    | nil => simp [Path.before]
    | cons y b => simp [Path.before, List.cons_lt_cons_iff, ih]

namespace FileTree

/-- The manifests at or below a directory, in the order in which they are listed. -/
def manifestsBelow (files : FileTree) (top : Place) : List Place :=
  (files.filesBelow top).filter fun p => p.getLast?.any Candidate.isManifest

theorem prefix_of_mem_manifestsBelow (files : FileTree) {top p : Place}
    (h : p ∈ files.manifestsBelow top) : top <+: p := by
  obtain ⟨x, -, hx⟩ := List.mem_filterMap.mp (List.mem_filter.mp h).1
  split at hx
  · split_ifs at hx with hprefix
    cases hx
    exact List.isPrefixOf_iff_prefix.mp hprefix
  · cases hx

end FileTree

namespace Candidate

/-! ## Sorting -/

/-- Whether a candidate does not come after another one. -/
def Upto (c d : Candidate) : Prop := ¬ d.names < c.names

theorem Upto.trans {c d e : Candidate} (h : c.Upto d) (h' : d.Upto e) : c.Upto e :=
  List.not_lt.mpr (List.le_trans (List.not_lt.mp h) (List.not_lt.mp h'))

theorem Upto.antisymm {c d : Candidate} (h : c.Upto d) (h' : d.Upto c) : c.names = d.names :=
  List.le_antisymm (List.not_lt.mp h) (List.not_lt.mp h')

theorem insertSorted_perm (c : Candidate) (cs : List Candidate) :
    (insertSorted c cs).Perm (c :: cs) := by
  induction cs with
  | nil => rfl
  | cons d cs ih =>
    rw [insertSorted]
    split_ifs
    · rfl
    · exact (ih.cons d).trans (.swap c d cs)

theorem sorted_insertSorted (c : Candidate) {cs : List Candidate} (h : cs.Pairwise Upto) :
    (insertSorted c cs).Pairwise Upto := by
  induction cs with
  | nil => exact List.pairwise_singleton Upto c
  | cons d cs ih =>
    obtain ⟨hd, hcs⟩ := List.pairwise_cons.mp h
    rw [insertSorted]
    split_ifs with hbefore
    · have hupto : c.Upto d := List.lt_asymm (Path.before_iff.mp hbefore)
      refine List.pairwise_cons.mpr ⟨?_, h⟩
      intro e he
      rcases List.mem_cons.mp he with rfl | he
      · exact hupto
      · exact hupto.trans (hd e he)
    · have hupto : d.Upto c := fun hlt => hbefore (Path.before_iff.mpr hlt)
      refine List.pairwise_cons.mpr ⟨?_, ih hcs⟩
      intro e he
      rcases List.mem_cons.mp ((insertSorted_perm c cs).mem_iff.mp he) with rfl | he
      · exact hupto
      · exact hd e he

/-- Candidates sorted by path. -/
def sort (cs : List Candidate) : List Candidate := cs.foldl (fun ds c => insertSorted c ds) []

theorem sort_perm (cs : List Candidate) : (sort cs).Perm cs := by
  have h : ∀ ds, (cs.foldl (fun ds c => insertSorted c ds) ds).Perm (ds ++ cs) := by
    induction cs with
    | nil => simp
    | cons c cs ih =>
      intro ds
      exact (ih _).trans (((insertSorted_perm c ds).append_right cs).trans
        List.perm_middle.symm)
  exact h []

theorem sorted_sort (cs : List Candidate) : (sort cs).Pairwise Upto := by
  have h : ∀ ds : List Candidate, ds.Pairwise Upto →
      (cs.foldl (fun ds c => insertSorted c ds) ds).Pairwise Upto := by
    induction cs with
    | nil => exact fun _ => id
    | cons c cs ih => exact fun ds hds => ih _ (sorted_insertSorted c hds)
  exact h [] List.Pairwise.nil

/-! ## Listings -/

theorem ofFile?_eq_some {root : String} {top place : Place} {c : Candidate}
    (h : ofFile? root top place = some c) : c.place = place ∧ c.names = place.drop top.length := by
  unfold ofFile? at h
  obtain ⟨name, hname, h⟩ := Option.bind_eq_some_iff.mp h
  split_ifs at h
  obtain ⟨role, hrole, h⟩ := Option.bind_eq_some_iff.mp h
  cases h
  exact ⟨rfl, rfl⟩

/-- A candidate below a directory is known by its names. -/
theorem eq_of_names {root : String} {top p q : Place} {c d : Candidate}
    (hc : ofFile? root top p = some c) (hd : ofFile? root top q = some d) (hp : top <+: p)
    (hq : top <+: q) (h : c.names = d.names) : c = d := by
  obtain ⟨p', rfl⟩ := hp
  obtain ⟨q', rfl⟩ := hq
  have hsame : p' = q' := by
    rw [(ofFile?_eq_some hc).2, (ofFile?_eq_some hd).2, List.drop_left, List.drop_left] at h
    exact h
  subst hsame
  exact Option.some.inj (hc.symm.trans hd)

/-- The candidates of a list of files below a directory, sorted by path. -/
def ofListing (root : String) (top : Place) (paths : List Place) : List Candidate :=
  sort (paths.filterMap (ofFile? root top))

theorem mem_ofListing {root : String} {top : Place} {paths : List Place} {c : Candidate} :
    c ∈ ofListing root top paths ↔ ∃ p ∈ paths, ofFile? root top p = some c := by
  rw [ofListing, (sort_perm _).mem_iff, List.mem_filterMap]

/-- Other files than manifests have no part in it. -/
theorem ofListing_manifestsBelow (root : String) (files : FileTree) (top : Place) :
    ofListing root top (files.manifestsBelow top) = ofListing root top (files.filesBelow top) := by
  rw [ofListing, ofListing, FileTree.manifestsBelow, List.filterMap_filter]
  refine congrArg sort (List.filterMap_congr fun p _ => ?_)
  cases hmanifest : p.getLast?.any isManifest with
  | true => rfl
  | false =>
    refine (Option.eq_none_iff_forall_ne_some.mpr fun c hc => ?_).symm
    unfold ofFile? at hc
    obtain ⟨name, hname, hc⟩ := Option.bind_eq_some_iff.mp hc
    rw [List.getLast?_drop] at hname
    split_ifs at hname hc with hlong hother
    rw [hname, Option.any_some] at hmanifest
    exact hother (by rw [hmanifest]; rfl)

/-- **The order of the list has no part in it.** -/
theorem ofListing_of_perm {root : String} {top : Place} {paths paths' : List Place}
    (hbelow : ∀ p ∈ paths, top <+: p) (h : paths'.Perm paths) :
    ofListing root top paths' = ofListing root top paths := by
  have hperm : (ofListing root top paths').Perm (ofListing root top paths) :=
    (sort_perm _).trans ((h.filterMap _).trans (sort_perm _).symm)
  refine hperm.eq_of_pairwise ?_ (sorted_sort _) (sorted_sort _)
  intro c d hc hd hcd hdc
  obtain ⟨p, hp, hc⟩ := mem_ofListing.mp (hperm.mem_iff.mp hc)
  obtain ⟨q, hq, hd⟩ := mem_ofListing.mp hd
  exact eq_of_names hc hd (hbelow p hp) (hbelow q hq) (hcd.antisymm hdc)

/-- Of distinct files one comes before the other. -/
theorem ascending_ofListing {root : String} {top : Place} {paths : List Place}
    (hbelow : ∀ p ∈ paths, top <+: p) (h : paths.Nodup) :
    (ofListing root top paths).Pairwise fun c d => Path.before c.names d.names = true := by
  have hnodup : (ofListing root top paths).Nodup := by
    rw [ofListing, (sort_perm _).nodup_iff]
    refine h.filterMap fun p q c hp hq => ?_
    rw [← (ofFile?_eq_some hp).1, (ofFile?_eq_some hq).1]
  refine List.Pairwise.imp_of_mem ?_ (List.Pairwise.and hnodup (sorted_sort _))
  rintro c d hc hd ⟨hne, hupto⟩
  obtain ⟨p, hp, hc⟩ := mem_ofListing.mp hc
  obtain ⟨q, hq, hd⟩ := mem_ofListing.mp hd
  rw [Path.before_iff]
  by_contra hge
  exact hne (eq_of_names hc hd (hbelow p hp) (hbelow q hq) (hupto.antisymm hge))

variable {σ : Type}

/-- The role and the key that a candidate's plugin gets. -/
def pair (c : Candidate) : Role × String := (c.role, c.key)

/-- The candidates that have a plugin, each with the instance that is made of it; the first one has
a number. -/
def loadAll (files : FileTree) (catalog : Catalog σ) :
    (number : Nat) → List Candidate → List (Candidate × Instance σ)
  | _, [] => []
  | number, c :: cs =>
    match c.load files catalog with
    | .ok (some plugin) =>
      (c, ⟨number, c.role, plugin⟩) :: loadAll files catalog (number + 1) cs
    | _ => loadAll files catalog number cs

theorem sublist_loadAll (files : FileTree) (catalog : Catalog σ) (number : Nat)
    (cs : List Candidate) : ((loadAll files catalog number cs).map Prod.fst).Sublist cs := by
  induction cs generalizing number with
  | nil => rfl
  | cons c cs ih =>
    rw [loadAll]
    split
    · exact (ih _).cons_cons c
    · exact (ih _).cons c

theorem load_of_mem_loadAll {files : FileTree} {catalog : Catalog σ} {number : Nat}
    {cs : List Candidate} {f : Candidate × Instance σ} (h : f ∈ loadAll files catalog number cs) :
    f.1.load files catalog = .ok (some f.2.plugin) ∧ f.2.role = f.1.role := by
  induction cs generalizing number with
  | nil => cases h
  | cons c cs ih =>
    rw [loadAll] at h
    split at h
    · rename_i plugin hload
      rcases List.mem_cons.mp h with rfl | h
      · exact ⟨hload, rfl⟩
      · exact ih h
    · exact ih h

end Candidate

namespace Registry

variable {σ : Type}

/-- The instance of a candidate under the key of that. -/
def unitOf (f : Candidate × Instance σ) : Registered σ := ⟨f.1.key, f.2⟩

/-- What is staged are the candidates that have a plugin. -/
theorem units_of_foldlM {files : FileTree} {catalog : Catalog σ} {s s' : Staged σ}
    {cs : List Candidate} (h : cs.foldlM (stage files catalog) s = .ok s') :
    s'.units = s.units ++ (Candidate.loadAll files catalog s.nextInstance cs).map unitOf := by
  induction cs generalizing s with
  | nil =>
    cases h
    simp [Candidate.loadAll]
  | cons c cs ih =>
    rw [List.foldlM_cons] at h
    cases hc : stage files catalog s c with
    | error e =>
      rw [hc] at h
      cases h
    | ok s₁ =>
      rw [hc] at h
      obtain ⟨hload, rfl⟩ | ⟨plugin, hload, -, rfl⟩ := stage_ok hc
      · rw [ih h, Candidate.loadAll, hload]
      · rw [ih h, Candidate.loadAll, hload]
        simp [unitOf]

end Registry

end Qualification
