import Qualification.Proofs.Registry.Balance
import Qualification.Proofs.Registry.Listing
/-!
# The plugins that prevail

Several files may describe a plugin for the same role and key. Discovery puts all of them under it,
by ascending path, so that the last one stays; everything that was in its way is deactivated.

* `lookup?_commitAll`, `filter_ordered_commitAll`: what is held after plugins were put under their
  keys, and the order of the stages that were not touched;
* `held_cases`, `deactivations_commitAll`: whatever is not held in the end was deactivated, once;
* `Registry.Prevails`, **`prevails_commitAll`**, `prevails_discoverAll`: what a discovery leaves;
* `Registry.Settled`, **`settled_discover`**: the set of the manifests settles what discovery comes
  to, and not the order in which they are listed.
-/

namespace Qualification

section Registered

variable {σ : Type}

/-- Whether a plugin stands in a role under a key. -/
def Registered.standsAt (role : Role) (key : String) (u : Registered σ) : Bool :=
  u.inst.role == role && u.key == key

theorem Registered.standsAt_iff {role : Role} {key : String} {u : Registered σ} :
    u.standsAt role key = true ↔ u.inst.role = role ∧ u.key = key := by
  simp [standsAt]

end Registered

namespace Registry

variable {σ : Type} {r : Registry σ}

/-! ## Commits -/

/-- Of plugins that are put under one key the last one stays. -/
theorem lookup?_commitAll (r : Registry σ) (us : List (Registered σ)) (role : Role) (key : String) :
    (r.commitAll us).1.lookup? role key =
      ((us.reverse.find? (Registered.standsAt role key)).map Registered.inst).or
        (r.lookup? role key) := by
  induction us generalizing r with
  | nil => rfl
  | cons u us ih =>
    have hrest : (r.commitAll (u :: us)).1 = ((r.commit u).1.commitAll us).1 := rfl
    rw [hrest, ih, lookup?_commit, List.reverse_cons, List.find?_append]
    cases us.reverse.find? (Registered.standsAt role key) with
    | some v => rfl
    | none =>
      by_cases h : role = u.inst.role ∧ key = u.key
      · obtain ⟨rfl, rfl⟩ := h
        simp [Registered.standsAt]
      · have hne : Registered.standsAt role key u = false := by
          rw [Bool.eq_false_iff, Ne, Registered.standsAt_iff]
          exact fun hu => h ⟨hu.1.symm, hu.2.symm⟩
        simp [h, hne]

theorem filter_orderedInsert {α : Type} {rel : α → α → Prop} [DecidableRel rel] (test : α → Bool)
    {a : α} (h : test a = false) (l : List α) :
    (l.orderedInsert rel a).filter test = l.filter test := by
  rw [List.orderedInsert_eq_take_drop, List.filter_append, List.filter_cons_of_neg (by simp [h]),
    ← List.filter_append, List.takeWhile_append_dropWhile]

/-- A commit leaves the other names in their order. -/
theorem entries_commit (h : r.order.Sound) {u : Registered σ} {test : String → Bool}
    (htest : u.inst.role = .stage → test u.key = false) :
    ((r.commit u).1.order.entries.filter fun e => test e.1) =
      r.order.entries.filter fun e => test e.1 := by
  rw [order_commit]
  split_ifs with hrole
  · rw [h.entries_insert, filter_orderedInsert (fun e : String × Int => test e.1) (htest hrole),
      List.filter_filter]
    refine List.filter_congr fun e _ => ?_
    cases he : test e.1 with
    | false => rfl
    | true =>
      have hne : e.1 ≠ u.key := by
        intro hkey
        rw [hkey, htest hrole] at he
        cases he
      simp [hne]
  · rfl

theorem sound_order_commit (h : r.order.Sound) (u : Registered σ) :
    (r.commit u).1.order.Sound := by
  rw [order_commit]
  split_ifs
  · exact h.insert _ _
  · exact h

theorem sound_order_commitAll (h : r.order.Sound) (us : List (Registered σ)) :
    (r.commitAll us).1.order.Sound := by
  induction us generalizing r with
  | nil => exact h
  | cons u us ih => exact ih (sound_order_commit h u)

theorem entries_commitAll (h : r.order.Sound) {us : List (Registered σ)} {test : String → Bool}
    (htest : ∀ u ∈ us, u.inst.role = .stage → test u.key = false) :
    ((r.commitAll us).1.order.entries.filter fun e => test e.1) =
      r.order.entries.filter fun e => test e.1 := by
  induction us generalizing r with
  | nil => rfl
  | cons u us ih =>
    obtain ⟨hu, hus⟩ := List.forall_mem_cons.mp htest
    exact (ih (sound_order_commit h u) hus).trans (entries_commit h hu)

/-- The stages of some names in order are those names with their stages. -/
theorem filter_ordered (h : r.order.Sound) (test : String → Bool) :
    (r.ordered.filter fun u => test u.key) =
      ((r.order.entries.filter fun e => test e.1).map Prod.fst).filterMap fun name =>
        (r.lookup? .stage name).map fun i => ⟨name, i⟩ := by
  have hnames : (r.order.entries.filter fun e => test e.1).map Prod.fst =
      r.order.names.filter test := by
    rw [← h.map_fst_entries, List.filter_map]
    rfl
  rw [hnames, ordered, List.filter_filterMap, List.filterMap_filter]
  refine List.filterMap_congr fun name _ => ?_
  change Option.filter _ ((r.lookup? .stage name).map _) = _
  cases r.lookup? .stage name <;> cases htest : test name <;> simp [htest]

/-- **Stages that are not touched keep their places in the order.** -/
theorem filter_ordered_commitAll (h : r.order.Sound) {us : List (Registered σ)}
    (test : String → Bool) (htest : ∀ u ∈ us, u.inst.role = .stage → test u.key = false) :
    ((r.commitAll us).1.ordered.filter fun u => test u.key) =
      r.ordered.filter fun u => test u.key := by
  rw [filter_ordered (sound_order_commitAll h us), filter_ordered h, entries_commitAll h htest]
  refine List.filterMap_congr fun name hname => ?_
  obtain ⟨e, he, rfl⟩ := List.mem_map.mp hname
  have hpass : test e.1 = true := (List.mem_filter.mp he).2
  have hnone : us.reverse.find? (Registered.standsAt .stage e.1) = none := by
    refine List.find?_eq_none.mpr fun u hu hstands => ?_
    obtain ⟨hrole, hkey⟩ := Registered.standsAt_iff.mp hstands
    have hfail := htest u (List.mem_reverse.mp hu) hrole
    rw [hkey, hpass] at hfail
    cases hfail
  rw [lookup?_commitAll, hnone]
  rfl

/-! ## What discovery leaves -/

open LifeCall

/-- What a discovery leaves that has found some candidates with their plugins. -/
structure Prevails (r : Registry σ) (found : List (Candidate × Instance σ))
    (x : Registration σ Nat) : Prop where
  /-- The paths ascend. -/
  sorted : found.Pairwise fun f g => Path.before f.1.names g.1.names = true
  counted : x.result = .ok found.length
  /-- All plugins are activated in the order of their paths before any is deactivated. -/
  calls : ∃ gone : List (Instance σ),
    x.calls = (found.map Prod.snd).map activate ++ gone.map deactivate
  /-- Of the plugins of one role and key that of the greatest path is held in the end. Each other
  one of them and the one that was there before have been deactivated, once. -/
  winner : ∀ role key, (∃ f ∈ found, f.1.pair = (role, key)) → ∃ f ∈ found,
    f.1.pair = (role, key) ∧
    (∀ g ∈ found, g.1.pair = (role, key) → g = f ∨ Path.before g.1.names f.1.names = true) ∧
    x.registry.lookup? role key = some f.2 ∧ deactivations f.2.id x.calls = 0 ∧
    (∀ g ∈ found, g.1.pair = (role, key) → g ≠ f → deactivations g.2.id x.calls = 1) ∧
    ∀ i, r.lookup? role key = some i → deactivations i.id x.calls = 1
  /-- Plugins of other roles or keys are held as before, and none of them is called. -/
  others : ∀ role key, (∀ f ∈ found, f.1.pair ≠ (role, key)) →
    x.registry.lookup? role key = r.lookup? role key ∧
    ∀ i, r.lookup? role key = some i → ∀ c ∈ x.calls, c.inst.id ≠ i.id
  /-- The stages among them are in the same order. -/
  order : let other := fun u : Registered σ => found.all fun f => f.1.pair != (.stage, u.key)
    x.registry.ordered.filter other = r.ordered.filter other

/-- What is held after candidates were loaded and put under their keys. -/
theorem lookup?_loadAll (r : Registry σ) {found : List (Candidate × Instance σ)}
    (hroles : ∀ f ∈ found, f.2.role = f.1.role) (role : Role) (key : String) :
    (r.commitAll (found.map unitOf)).1.lookup? role key =
      ((found.reverse.find? fun f => f.1.pair == (role, key)).map Prod.snd).or
        (r.lookup? role key) := by
  have hfind : (found.map unitOf).reverse.find? (Registered.standsAt role key) =
      (found.reverse.find? fun f => f.1.pair == (role, key)).map unitOf := by
    rw [← List.map_reverse, List.find?_map, ← List.head?_filter, ← List.head?_filter]
    refine congrArg (Option.map unitOf ∘ List.head?) (List.filter_congr fun f hf => ?_)
    rw [Bool.eq_iff_iff, Function.comp_apply, Registered.standsAt_iff, beq_iff_eq, Candidate.pair,
      Prod.mk.injEq, ← hroles f (List.mem_reverse.mp hf)]
    rfl
  rw [lookup?_commitAll, hfind, Option.map_map]
  rfl

/-- The last candidate of a role and key comes after all others of them. -/
theorem exists_greatest {found : List (Candidate × Instance σ)}
    (hsorted : found.Pairwise fun f g => Path.before f.1.names g.1.names = true)
    {pair : Role × String} (h : ∃ f ∈ found, f.1.pair = pair) :
    ∃ f ∈ found, f.1.pair = pair ∧ (found.reverse.find? fun f => f.1.pair == pair) = some f ∧
      ∀ g ∈ found, g.1.pair = pair → g = f ∨ Path.before g.1.names f.1.names = true := by
  obtain ⟨e, he, hpair⟩ := h
  obtain ⟨f, hf⟩ : ∃ f, found.reverse.find? (fun f => f.1.pair == pair) = some f :=
    Option.isSome_iff_exists.mp
      (List.find?_isSome.mpr ⟨e, List.mem_reverse.mpr he, beq_iff_eq.mpr hpair⟩)
  obtain ⟨hfpair, after, before, hsplit, hafter⟩ := List.find?_eq_some_iff_append.mp hf
  have hfound : found = before.reverse ++ f :: after.reverse := by
    rw [← List.reverse_reverse found, hsplit]
    simp
  refine ⟨f, List.mem_reverse.mp (List.mem_of_find?_eq_some hf), beq_iff_eq.mp hfpair, hf, ?_⟩
  intro g hg hgpair
  rw [hfound, List.pairwise_append] at hsorted
  rw [hfound, List.mem_append, List.mem_cons] at hg
  rcases hg with hg | rfl | hg
  · exact .inr (hsorted.2.2 g hg f List.mem_cons_self)
  · exact .inl rfl
  · have hother := hafter g (List.mem_reverse.mp hg)
    simp [hgpair] at hother

section Commits

variable {found : List (Candidate × Instance σ)} {n : Nat}
  (hroles : ∀ f ∈ found, f.2.role = f.1.role)
  (hids : ((found.map Prod.snd ++ r.instances).map Instance.id).Nodup)

include hroles in
/-- What is held in the end is new, and the last one of its role and key, or it was there before and
nothing new has its role and key. -/
theorem held_cases {i : Instance σ}
    (h : (({ r with nextInstance := n } : Registry σ).commitAll (found.map unitOf)).1.Holds i) :
    (∃ f ∈ found, f.2 = i ∧ (found.reverse.find? fun g => g.1.pair == f.1.pair) = some f) ∨
    ∃ role key, r.lookup? role key = some i ∧ ∀ f ∈ found, f.1.pair ≠ (role, key) := by
  obtain ⟨role, key, hi⟩ := h
  rw [lookup?_loadAll _ hroles] at hi
  cases hfind : found.reverse.find? fun f => f.1.pair == (role, key) with
  | some f =>
    rw [hfind] at hi
    have hpair : f.1.pair = (role, key) := by simpa using List.find?_some hfind
    refine .inl ⟨f, List.mem_reverse.mp (List.mem_of_find?_eq_some hfind), Option.some.inj hi, ?_⟩
    rw [hpair, hfind]
  | none =>
    rw [hfind] at hi
    refine .inr ⟨role, key, by simpa [lookup?] using hi, fun f hf hpair => ?_⟩
    have hnone := List.find?_eq_none.mp hfind f (List.mem_reverse.mpr hf)
    simp [hpair] at hnone

include hids in
/-- Of the new instances and those that were there each one is held in the end or was deactivated,
once. -/
theorem deactivations_commitAll {i : Instance σ} (hi : i ∈ found.map Prod.snd ++ r.instances) :
    let x := ({ r with nextInstance := n } : Registry σ).commitAll (found.map unitOf)
    (x.1.Holds i → deactivations i.id x.2 = 0) ∧ (¬ x.1.Holds i → deactivations i.id x.2 = 1) := by
  intro x
  have hperm : (x.1.instances ++ deactivated x.2).Perm (found.map Prod.snd ++ r.instances) := by
    have hcommits := instances_commitAll ({ r with nextInstance := n } : Registry σ)
      (found.map unitOf)
    rw [List.map_map, instances_nextInstance] at hcommits
    exact hcommits
  have hcount : ((x.1.instances ++ deactivated x.2).map Instance.id).count i.id = 1 := by
    rw [(hperm.map Instance.id).count_eq]
    exact List.count_eq_one_of_mem hids (List.mem_map_of_mem hi)
  rw [List.map_append, List.count_append, ← deactivations_eq_count] at hcount
  constructor
  · intro hholds
    have hmem : i.id ∈ x.1.instances.map Instance.id :=
      List.mem_map_of_mem (mem_instances.mpr hholds)
    have hpos := List.count_pos_iff.mpr hmem
    omega
  · intro hgone
    have hzero : (x.1.instances.map Instance.id).count i.id = 0 := by
      refine List.count_eq_zero.mpr fun hmem => hgone ?_
      obtain ⟨j, hj, hid⟩ := List.mem_map.mp hmem
      have hjold := hperm.mem_iff.mp (List.mem_append_left _ hj)
      rw [← List.inj_on_of_nodup_map hids hjold hi hid]
      exact mem_instances.mp hj
    omega

include hids in
/-- New instances have other numbers than those that were there. -/
theorem id_ne_of_found {f : Candidate × Instance σ} (hf : f ∈ found) {role : Role} {key : String}
    {i : Instance σ} (hi : r.lookup? role key = some i) : f.2.id ≠ i.id := by
  rw [List.map_append, List.nodup_append] at hids
  exact hids.2.2 _ (List.mem_map_of_mem (List.mem_map_of_mem hf)) _
    (List.mem_map_of_mem (mem_instances.mpr ⟨role, key, hi⟩))

include hids in
theorem eq_of_found {f g : Candidate × Instance σ} (hf : f ∈ found) (hg : g ∈ found)
    (h : f.2 = g.2) : f = g := by
  rw [List.map_append, List.nodup_append, List.map_map] at hids
  exact List.inj_on_of_nodup_map hids.1 hf hg (congrArg Instance.id h)

include hroles hids in
/-- A new instance that another of its role and key comes after is not held in the end. -/
theorem not_holds_of_overtaken {f g : Candidate × Instance σ} (hg : g ∈ found)
    (hlast : (found.reverse.find? fun e => e.1.pair == g.1.pair) = some f) (hne : g ≠ f) :
    ¬ (({ r with nextInstance := n } : Registry σ).commitAll (found.map unitOf)).1.Holds g.2 := by
  intro hholds
  rcases held_cases hroles hholds with ⟨e, he, heg, hfind⟩ | ⟨role, key, hi, -⟩
  · obtain rfl := eq_of_found hids he hg heg
    exact hne (Option.some.inj (hfind.symm.trans hlast))
  · exact id_ne_of_found hids hg hi rfl

include hroles hids in
/-- An instance that was there under the role and key of a new one is not held in the end. -/
theorem not_holds_of_replaced (h : r.Sound) {f : Candidate × Instance σ} (hf : f ∈ found)
    {role : Role} {key : String} (hpair : f.1.pair = (role, key)) {i : Instance σ}
    (hi : r.lookup? role key = some i) :
    ¬ (({ r with nextInstance := n } : Registry σ).commitAll (found.map unitOf)).1.Holds i := by
  intro hholds
  rcases held_cases hroles hholds with ⟨e, he, rfl, -⟩ | ⟨role', key', hi', hnone⟩
  · exact id_ne_of_found hids he hi rfl
  · have hold : (r.instances.map Instance.id).Nodup := by
      rw [List.map_append] at hids
      exact (List.nodup_append.mp hids).2.1
    obtain ⟨rfl, rfl⟩ := h.eq_of_nodup hold hi hi' rfl
    exact hnone f hf hpair

include hids in
/-- An instance that was there and is held still is not called. -/
theorem id_ne_of_called {role : Role} {key : String} {i : Instance σ}
    (hi : r.lookup? role key = some i) :
    let x := ({ r with nextInstance := n } : Registry σ).commitAll (found.map unitOf)
    x.1.Holds i → ∀ c ∈ (found.map Prod.snd).map activate ++ x.2, c.inst.id ≠ i.id := by
  intro x hholds c hc
  have hkept : deactivations i.id x.2 = 0 :=
    (deactivations_commitAll hids
      (List.mem_append_right _ (mem_instances.mpr ⟨role, key, hi⟩))).1 hholds
  rcases List.mem_append.mp hc with hc | hc
  · obtain ⟨j, hj, rfl⟩ := List.mem_map.mp hc
    obtain ⟨f, hf, rfl⟩ := List.mem_map.mp hj
    exact id_ne_of_found hids hf hi
  · rw [calls_commitAll] at hc
    obtain ⟨j, hj, rfl⟩ := List.mem_map.mp hc
    rw [deactivations_eq_count, List.count_eq_zero] at hkept
    exact fun hid => hkept (hid ▸ List.mem_map_of_mem hj)

include hroles in
/-- Stages that nothing new stands for are in the same order. -/
theorem filter_ordered_found (h : r.Sound) :
    let other := fun u : Registered σ => found.all fun f => f.1.pair != (.stage, u.key)
    let x := ({ r with nextInstance := n } : Registry σ).commitAll (found.map unitOf)
    x.1.ordered.filter other = r.ordered.filter other := by
  intro other x
  refine filter_ordered_commitAll (r := { r with nextInstance := n }) h.order
    (fun key => found.all fun f => f.1.pair != (.stage, key)) ?_
  intro u hu hrole
  obtain ⟨f, hf, rfl⟩ := List.mem_map.mp hu
  rw [Bool.eq_false_iff, Ne, List.all_eq_true]
  intro hall
  have hpair : f.1.pair = (.stage, f.1.key) := by
    rw [Candidate.pair, ← hroles f hf]
    exact congrArg (·, f.1.key) hrole
  have hne := hall f hf
  simp [unitOf, hpair] at hne

include hroles hids in
/-- **What commits leave**: the instances that were found are put under their keys, one after the
other, when all of them were activated. -/
theorem prevails_commitAll (h : r.Sound)
    (hsorted : found.Pairwise fun f g => Path.before f.1.names g.1.names = true) :
    let x := ({ r with nextInstance := n } : Registry σ).commitAll (found.map unitOf)
    r.Prevails found
      ⟨x.1, .ok found.length, (found.map Prod.snd).map activate ++ x.2⟩ := by
  intro x
  have hlookup : ∀ role key, x.1.lookup? role key =
      ((found.reverse.find? fun f => f.1.pair == (role, key)).map Prod.snd).or
        (r.lookup? role key) := by
    intro role key
    rw [lookup?_loadAll _ hroles]
    simp [lookup?]
  have hcalls : ∀ id, deactivations id ((found.map Prod.snd).map activate ++ x.2) =
      deactivations id x.2 := by
    intro id
    rw [deactivations_append, deactivations_activate, Nat.zero_add]
  have hnew : ∀ {f}, f ∈ found → f.2 ∈ found.map Prod.snd ++ r.instances :=
    fun hf => List.mem_append_left _ (List.mem_map_of_mem hf)
  have hold : ∀ {role key i}, r.lookup? role key = some i →
      i ∈ found.map Prod.snd ++ r.instances :=
    fun hi => List.mem_append_right _ (mem_instances.mpr ⟨_, _, hi⟩)
  constructor
  case sorted => exact hsorted
  case counted => rfl
  case calls => exact ⟨deactivated x.2, by rw [← calls_commitAll]⟩
  case winner =>
    intro role key hexists
    obtain ⟨f, hf, hpair, hfind, hgreatest⟩ := exists_greatest hsorted hexists
    have hheld : x.1.lookup? role key = some f.2 := by
      rw [hlookup, hfind]
      rfl
    refine ⟨f, hf, hpair, hgreatest, hheld, ?_, ?_, ?_⟩
    · rw [hcalls]
      exact (deactivations_commitAll hids (hnew hf)).1 ⟨role, key, hheld⟩
    · intro g hg hgpair hne
      rw [hcalls]
      exact (deactivations_commitAll hids (hnew hg)).2
        (not_holds_of_overtaken hroles hids hg (hgpair ▸ hfind) hne)
    · intro i hi
      rw [hcalls]
      exact (deactivations_commitAll hids (hold hi)).2
        (not_holds_of_replaced hroles hids h hf hpair hi)
  case others =>
    intro role key hnone
    have hfind : (found.reverse.find? fun f => f.1.pair == (role, key)) = none := by
      refine List.find?_eq_none.mpr fun f hf => ?_
      simpa using hnone f (List.mem_reverse.mp hf)
    have hheld : x.1.lookup? role key = r.lookup? role key := by
      rw [hlookup, hfind]
      rfl
    exact ⟨hheld, fun i hi => id_ne_of_called hids hi ⟨role, key, hheld.trans hi⟩⟩
  case order => exact filter_ordered_found hroles h

end Commits

/-- **What a discovery leaves that succeeds**, in a registry in which no number stands twice. -/
theorem prevails_discoverAll (h : r.Sound) (hids : (r.instances.map Instance.id).Nodup)
    {files : FileTree} {cs : List Candidate}
    (hsorted : cs.Pairwise fun c d => Path.before c.names d.names = true) {n : Nat}
    (hn : (r.discoverAll files cs).result = .ok n) :
    r.Prevails (Candidate.loadAll files r.catalog r.nextInstance cs) (r.discoverAll files cs) := by
  cases hf : cs.foldlM (stage files r.catalog) ⟨[], [], r.nextInstance⟩ with
  | error e =>
    rw [discoverAll_of_error hf] at hn
    cases hn
  | ok s =>
    have hs : s.Sound r.nextInstance := (Staged.Sound.empty r.nextInstance).foldlM hf
    obtain ⟨found, hfound⟩ :
        ∃ found, found = Candidate.loadAll files r.catalog r.nextInstance cs := ⟨_, rfl⟩
    have hunits : s.units = found.map unitOf := by
      rw [hfound]
      simpa using units_of_foldlM hf
    have hroles : ∀ f ∈ found, f.2.role = f.1.role := by
      intro f hf
      rw [hfound] at hf
      exact (Candidate.load_of_mem_loadAll hf).2
    have hnew : (found.map Prod.snd).map Instance.id =
        List.range' r.nextInstance found.length := by
      have hrange := hs.ids
      rw [hunits, List.map_map, List.length_map] at hrange
      rw [List.map_map]
      exact hrange
    have hall : ((found.map Prod.snd ++ r.instances).map Instance.id).Nodup := by
      rw [List.map_append, hnew, List.nodup_append]
      refine ⟨List.nodup_range', hids, fun a ha b hb => ?_⟩
      obtain ⟨i, hi, rfl⟩ := List.mem_map.mp hb
      obtain ⟨role, key, hi⟩ := mem_instances.mp hi
      exact Nat.ne_of_gt (Nat.lt_of_lt_of_le (h.issued hi) (List.mem_range'_1.mp ha).1)
    have hascending : found.Pairwise fun f g => Path.before f.1.names g.1.names = true := by
      have hsub := Candidate.sublist_loadAll files r.catalog r.nextInstance cs
      rw [← hfound] at hsub
      exact List.pairwise_map.mp (hsorted.sublist hsub)
    rw [discoverAll_of_ok hf, hs.calls, hunits, List.length_map, ← hfound, List.map_map]
    have hprevails := prevails_commitAll (n := s.nextInstance) hroles hall h hascending
    rw [List.map_map] at hprevails
    exact hprevails

/-! ## Listings of files -/

/-- Discovery below a directory, where files are listed in some order. -/
def discoverListed (r : Registry σ) (files : FileTree) (root : String) (top : Place)
    (paths : List Place) : Registration σ Nat :=
  r.discoverAll files (Candidate.ofListing root top paths)

/-- The candidates below a directory that have a plugin, by path, with the instances that discovery
makes of them. -/
def found (r : Registry σ) (files : FileTree) (root : String) (top : Place) :
    List (Candidate × Instance σ) :=
  Candidate.loadAll files r.catalog r.nextInstance
    (Candidate.ofListing root top (files.manifestsBelow top))

/-- Whether the set of the manifests below a directory settles what discovery comes to. -/
structure Settled (r : Registry σ) (files : FileTree) (cwd : Place) (root : String)
    (top : Place) : Prop where
  /-- In whichever order the manifests are listed, the registry, the result and the calls are the
  same. -/
  listed : ∀ paths : List Place, paths.Perm (files.manifestsBelow top) →
    r.discoverListed files root top paths = r.discover files cwd root
  prevails : ∀ n, (r.discover files cwd root).result = .ok n →
    r.Prevails (r.found files root top) (r.discover files cwd root)

theorem discover_eq {files : FileTree} {cwd top : Place} {root : String}
    (htop : (files.resolve? cwd root).filter files.isDirectory = some top) :
    r.discover files cwd root = r.discoverListed files root top (files.manifestsBelow top) := by
  have hscan : Candidate.scan files cwd root =
      .ok (Candidate.ofListing root top (files.manifestsBelow top)) := by
    rw [Candidate.scan, htop, Candidate.ofListing_manifestsBelow]
    rfl
  exact discover_of_scan hscan

theorem settled_of_sound (h : r.Sound) (hids : (r.instances.map Instance.id).Nodup)
    {files : FileTree} {cwd top : Place} {root : String}
    (htop : (files.resolve? cwd root).filter files.isDirectory = some top)
    (hdistinct : (files.manifestsBelow top).Nodup) : r.Settled files cwd root top where
  listed paths hperm := by
    rw [discover_eq htop, discoverListed, discoverListed,
      Candidate.ofListing_of_perm (fun p => files.prefix_of_mem_manifestsBelow) hperm]
  prevails n hn := by
    rw [discover_eq htop] at hn ⊢
    exact prevails_discoverAll h hids
      (Candidate.ascending_ofListing (fun p => files.prefix_of_mem_manifestsBelow) hdistinct) hn

/-- **The order in which files are listed has no part in a discovery**, after any calls before it
and whether it fails or not. When it succeeds, of the plugins for one role and key that of the
greatest path prevails, over what was there before too, and nothing else is touched; and so it is
with another discovery after it. -/
theorem settled_discover (catalog : Catalog σ) (reqs : List (Request σ)) {files : FileTree}
    {cwd top : Place} {root : String}
    (htop : (files.resolve? cwd root).filter files.isDirectory = some top)
    (hdistinct : (files.manifestsBelow top).Nodup) :
    let r := (Registry.new catalog).serveAll reqs
    r.Settled files cwd root top ∧
    ∀ (files' : FileTree) (cwd' top' : Place) (root' : String),
      (files'.resolve? cwd' root').filter files'.isDirectory = some top' →
      (files'.manifestsBelow top').Nodup →
      (r.discover files cwd root).registry.Settled files' cwd' root' top' := by
  intro r
  have hlater : (r.discover files cwd root).registry =
      (Registry.new catalog).serveAll (reqs ++ [.discover files cwd root]) := by
    rw [serveAll, List.foldl_append]
    rfl
  refine ⟨settled_of_sound (sound_serveAll catalog reqs) (nodup_instances catalog reqs) htop
    hdistinct, fun files' cwd' top' root' htop' hdistinct' => ?_⟩
  rw [hlater]
  exact settled_of_sound (sound_serveAll catalog _) (nodup_instances catalog _) htop' hdistinct'

/-! ## Two files for one key -/

/-- A file with an empty entry for a tool. -/
def emptyEntry : FileEntry := .file entryText.toUTF8

/-- Two files for one tool, of which the later one is listed first. -/
def twoFiles : FileTree := ⟨[(["p"], .directory), (["p", "b"], .directory),
  (["p", "b", "ATool.yml"], emptyEntry), (["p", "a"], .directory),
  (["p", "a", "ATool.yaml"], emptyEntry)]⟩

/-- The candidate of one of the files. -/
def ofTwo (directory file : String) : Candidate :=
  ⟨[directory, file], "p/" ++ directory ++ "/" ++ file, ["p", directory, file], "ATool", .tool, "A"⟩

/-- A registry with an old tool under the key of the two new ones. -/
def oldTool : List (Request Unit) := [.register "A" .tool idle]

/-- Of two new tools under the key of an old one the second one stays, by its path and not by its
place in the listing. -/
theorem settled_discover_twoFiles :
    let r := (Registry.new idleCatalog).serveAll oldTool
    let x := r.discover twoFiles [] "p"
    twoFiles.manifestsBelow ["p"] = [["p", "b", "ATool.yml"], ["p", "a", "ATool.yaml"]] ∧
    r.Settled twoFiles [] "p" ["p"] ∧ x.result = .ok 2 ∧
    (x.registry.lookup? .tool "A").map Instance.id = some 2 ∧
    (List.range 3).map (fun id => deactivations id x.calls) = [1, 1, 0] ∧
    x.registry.Settled twoFiles [] "p" ["p"] := by
  have htop : (twoFiles.resolve? [] "p").filter twoFiles.isDirectory = some ["p"] := by
    decide +kernel
  have hlisted : twoFiles.manifestsBelow ["p"] =
      [["p", "b", "ATool.yml"], ["p", "a", "ATool.yaml"]] := by decide +kernel
  have hdistinct : (twoFiles.manifestsBelow ["p"]).Nodup := by
    rw [hlisted]
    decide
  have hscan : Candidate.scan twoFiles [] "p" =
      .ok [ofTwo "a" "ATool.yaml", ofTwo "b" "ATool.yml"] := by decide +kernel
  have hbrings : Brings .fresh twoFiles idleCatalog 1 [ofTwo "a" "ATool.yaml", ofTwo "b" "ATool.yml"]
      [⟨"A", ⟨1, .tool, idle⟩⟩, ⟨"A", ⟨2, .tool, idle⟩⟩] 3 :=
    .bring (load_of_entryText (by decide +kernel) rfl rfl rfl) rfl
      (.bring (load_of_entryText (by decide +kernel) rfl rfl rfl) rfl .nil)
  have hstaged : [ofTwo "a" "ATool.yaml", ofTwo "b" "ATool.yml"].foldlM
      (stage twoFiles ((Registry.new idleCatalog).serveAll oldTool).catalog)
        ⟨[], [], ((Registry.new idleCatalog).serveAll oldTool).nextInstance⟩ =
      .ok ⟨[⟨"A", ⟨1, .tool, idle⟩⟩, ⟨"A", ⟨2, .tool, idle⟩⟩],
        [.activate ⟨1, .tool, idle⟩, .activate ⟨2, .tool, idle⟩], 3⟩ :=
    foldlM_of_brings hbrings [] []
  have hdiscover : ((Registry.new idleCatalog).serveAll oldTool).discover twoFiles [] "p" =
      ((Registry.new idleCatalog).serveAll oldTool).discoverAll twoFiles
        [ofTwo "a" "ATool.yaml", ofTwo "b" "ATool.yml"] := discover_of_scan hscan
  obtain ⟨hsettled, hlater⟩ := settled_discover idleCatalog oldTool htop hdistinct
  refine ⟨hlisted, hsettled, ?_, ?_, ?_, hlater _ _ _ _ ?_ hdistinct⟩
  · rw [hdiscover, discoverAll_of_ok hstaged]
    rfl
  · rw [hdiscover, discoverAll_of_ok hstaged]
    decide +kernel
  · rw [hdiscover, discoverAll_of_ok hstaged]
    decide +kernel
  · exact htop

end Registry

end Qualification
