import Qualification.Proofs.Registry.Invariant
/-!
# A pass of discovery

Discovery loads and activates one candidate after the other, and puts the plugins under their keys
only when all of them are there. `Staged.Sound` says what is staged at any time, and the first
candidate that fails ends the pass.

* `Candidate.build_eq_ok`, `Candidate.load_eq_some`: how a candidate comes to a plugin;
* `stageFrom_ok`, `stageFrom_error`: everything that one candidate can do, whatever instances it is
  handed; `foldlM_stageFrom_error`: a pass fails at one candidate, after those before it;
* `stage_ok`, `of_foldlM_stage`: the same with new instances;
* `Staged.Sound`, `Sound.stage`, `Sound.foldlM`: what is staged after some candidates;
* `discoverFrom_of_error`, `discoverFrom_of_scan`: a discovery by the candidates that it finds;
* `Staged.Failed`, **`failed_of_foldlM`**: the calls of a pass that fails;
* `registry_discover`: everything that discovery can do to a registry;
* **`Sound.discover`**: it keeps a registry sound.
-/

namespace Qualification

variable {σ : Type}

namespace Candidate

variable {files : FileTree} {catalog : Catalog σ} {c : Candidate} {plugin : Plugin σ}

/-- Everything that has to be right for an entry to be built: the key, the ordering of a stage, the
implementation, and the role of what it builds. -/
theorem build_eq_ok {d : PluginDefinition} (h : c.build catalog d = .ok plugin) :
    Text.isBlankText c.key = false ∧ (c.role = .stage → d.ordering.isSome = true) ∧
      ∃ factory, catalog.get? d.implementationName = some factory ∧
        factory c.role c.key d = .ok (c.role, plugin) := by
  unfold build at h
  split_ifs at h with hkey hordering
  split at h
  · cases h
  · rename_i factory hfactory
    split at h
    · cases h
    · rename_i role plugin' hbuilt
      split_ifs at h with hrole
      cases h
      refine ⟨Bool.eq_false_iff.mpr hkey, ?_, factory, hfactory, hrole ▸ hbuilt⟩
      intro hstage
      by_contra hnone
      exact hordering ⟨hstage, by simpa using hnone⟩

/-- A candidate that has a plugin has an entry that was built. -/
theorem load_eq_some (h : c.load files catalog = .ok (some plugin)) :
    ∃ v d, c.entry? files = .ok (some v) ∧ PluginDefinition.ofYaml? v = some d ∧
      c.build catalog d = .ok plugin := by
  unfold load at h
  split at h
  · cases h
  · cases h
  · rename_i v hv
    split at h
    · cases h
    · rename_i d hd
      cases hb : c.build catalog d with
      | error e =>
        rw [hb] at h
        cases h
      | ok p =>
        rw [hb] at h
        cases h
        exact ⟨v, d, hv, hd, hb⟩

theorem key_of_load (h : c.load files catalog = .ok (some plugin)) :
    Text.isBlankText c.key = false := by
  obtain ⟨_, _, _, _, hb⟩ := load_eq_some h
  exact (build_eq_ok hb).1

end Candidate

namespace Registry

section StageFrom

variable {supply : Supply σ} {files : FileTree} {catalog : Catalog σ} {s s' : Staged σ}
  {c : Candidate}

/-- Everything that a candidate can do to what is staged: nothing, if its file has no entry for it,
or else one plugin is activated. -/
theorem stageFrom_ok (h : stageFrom supply files catalog s c = .ok s') :
    (c.load files catalog = .ok none ∧ s' = s) ∨
    ∃ plugin, c.load files catalog = .ok (some plugin) ∧
      supply.outcome s.nextInstance plugin = .ok () ∧
      let inst := supply.inst s.nextInstance c.role plugin
      s' = ⟨s.units ++ [⟨c.key, inst⟩], s.calls ++ [.activate inst], s.nextInstance + 1⟩ := by
  unfold stageFrom at h
  split at h
  · cases h
  · rename_i hl
    cases h
    exact Or.inl ⟨hl, rfl⟩
  · rename_i plugin hl
    cases ha : supply.outcome s.nextInstance plugin with
    | error fault =>
      simp only [ha] at h
      cases h
    | ok =>
      simp only [ha] at h
      cases h
      exact Or.inr ⟨plugin, hl, ha, rfl⟩

/-- How a candidate can fail: before its plugin is there, or by the activation of it. -/
theorem stageFrom_error {e : DiscoveryError}
    (h : stageFrom supply files catalog s c = .error (e, s')) :
    (c.load files catalog = .error e ∧ s' = s) ∨
    ∃ plugin fault, c.load files catalog = .ok (some plugin) ∧
      supply.outcome s.nextInstance plugin = .error fault ∧
      e = .activation c.stem fault.message ∧
      s' = ⟨s.units, s.calls ++ [.activate (supply.inst s.nextInstance c.role plugin)],
        s.nextInstance + 1⟩ := by
  unfold stageFrom at h
  split at h
  · rename_i hl
    cases h
    exact Or.inl ⟨hl, rfl⟩
  · cases h
  · rename_i plugin hl
    cases ha : supply.outcome s.nextInstance plugin with
    | error fault =>
      simp only [ha] at h
      cases h
      exact Or.inr ⟨plugin, fault, hl, ha, rfl, rfl⟩
    | ok =>
      simp only [ha] at h
      cases h

/-- **A pass fails at one candidate**, after all candidates before it were staged. -/
theorem foldlM_stageFrom_error {cs : List Candidate} {e : DiscoveryError}
    (h : cs.foldlM (stageFrom supply files catalog) s = .error (e, s')) :
    ∃ before c after s₁, cs = before ++ c :: after ∧
      before.foldlM (stageFrom supply files catalog) s = .ok s₁ ∧
      stageFrom supply files catalog s₁ c = .error (e, s') := by
  induction cs generalizing s with
  | nil => cases h
  | cons c cs ih =>
    rw [List.foldlM_cons] at h
    cases hc : stageFrom supply files catalog s c with
    | error x =>
      rw [hc] at h
      cases h
      exact ⟨[], c, cs, s, rfl, rfl, hc⟩
    | ok s₁ =>
      rw [hc] at h
      obtain ⟨before, c', after, s₂, rfl, hb, he⟩ := ih h
      refine ⟨c :: before, c', after, s₂, rfl, ?_, he⟩
      rw [List.foldlM_cons, hc]
      exact hb

end StageFrom

/-! ## New instances -/

theorem stage_ok {files : FileTree} {catalog : Catalog σ} {s s' : Staged σ} {c : Candidate}
    (h : stage files catalog s c = .ok s') :
    (c.load files catalog = .ok none ∧ s' = s) ∨
    ∃ plugin, c.load files catalog = .ok (some plugin) ∧
      plugin.activation s.nextInstance = .ok () ∧
      s' = ⟨s.units ++ [⟨c.key, ⟨s.nextInstance, c.role, plugin⟩⟩],
        s.calls ++ [.activate ⟨s.nextInstance, c.role, plugin⟩], s.nextInstance + 1⟩ :=
  stageFrom_ok h

/-- What every candidate keeps is true of what is staged in the end. -/
theorem of_foldlM_stage {P : Staged σ → Prop} {files : FileTree} {catalog : Catalog σ}
    (hstep : ∀ {s s' c}, P s → stage files catalog s c = .ok s' → P s') {s s' : Staged σ}
    (hs : P s) {cs : List Candidate} (h : cs.foldlM (stage files catalog) s = .ok s') : P s' := by
  induction cs generalizing s with
  | nil =>
    cases h
    exact hs
  | cons c cs ih =>
    rw [List.foldlM_cons] at h
    cases hc : stage files catalog s c with
    | error e =>
      rw [hc] at h
      cases h
    | ok s₁ =>
      rw [hc] at h
      exact ih (hstep hs hc) h

/-- What is staged: each plugin was activated once, in order, with the numbers from `first` on. -/
structure Staged.Sound (first : Nat) (s : Staged σ) : Prop where
  calls : s.calls = s.units.map fun u => .activate u.inst
  key : ∀ u ∈ s.units, Text.isBlankText u.key = false
  activated : ∀ u ∈ s.units, u.inst.plugin.activation u.inst.id = .ok ()
  ids : (s.units.map fun u => u.inst.id) = List.range' first s.units.length
  next : s.nextInstance = first + s.units.length

namespace Staged.Sound

variable {first : Nat} {s s' : Staged σ} {files : FileTree} {catalog : Catalog σ}

theorem empty (first : Nat) : (⟨[], [], first⟩ : Staged σ).Sound first where
  calls := rfl
  key _ hu := nomatch hu
  activated _ hu := nomatch hu
  ids := rfl
  next := rfl

theorem id_range (hs : s.Sound first) {u : Registered σ} (hu : u ∈ s.units) :
    first ≤ u.inst.id ∧ u.inst.id < s.nextInstance := by
  have hmem : u.inst.id ∈ s.units.map fun u => u.inst.id := List.mem_map_of_mem hu
  rw [hs.ids, List.mem_range'_1, ← hs.next] at hmem
  exact hmem

/-- One more candidate keeps what is staged sound. -/
theorem stage (hs : s.Sound first) {c : Candidate} (h : Registry.stage files catalog s c = .ok s') :
    s'.Sound first := by
  obtain ⟨-, rfl⟩ | ⟨plugin, hl, ha, rfl⟩ := stage_ok h
  · exact hs
  · have hkey := Candidate.key_of_load hl
    refine ⟨?_, ?_, ?_, ?_, ?_⟩
    · simp [hs.calls]
    · simpa [or_imp, forall_and] using ⟨hs.key, hkey⟩
    · simpa [or_imp, forall_and] using ⟨hs.activated, ha⟩
    · simp [hs.ids, hs.next, List.range'_concat]
    · simp [hs.next, Nat.add_assoc]

theorem foldlM (hs : s.Sound first) {cs : List Candidate}
    (h : cs.foldlM (Registry.stage files catalog) s = .ok s') : s'.Sound first :=
  of_foldlM_stage (fun hs h => hs.stage h) hs h

end Staged.Sound

/-! ## Passes that fail and passes that succeed -/

/-- What a failed pass leaves: plugins that were activated, and perhaps one more whose activation
failed. -/
structure Staged.Failed (first : Nat) (s : Staged σ) (failed : Option (Instance σ)) : Prop where
  calls : s.calls = (s.units.map Registered.inst ++ failed.toList).map .activate
  activated : ∀ u ∈ s.units, u.inst.plugin.activation u.inst.id = .ok ()
  refused : ∀ i ∈ failed, ∃ fault, i.plugin.activation i.id = .error fault
  ids : ((s.units.map Registered.inst ++ failed.toList).map fun i => i.id) =
    List.range' first (s.units.length + failed.toList.length)
  next : s.nextInstance = first + (s.units.length + failed.toList.length)

/-- **A failed pass has activated the plugins before the failure**, each once. -/
theorem failed_of_foldlM {files : FileTree} {catalog : Catalog σ} {first : Nat} {s : Staged σ}
    {cs : List Candidate} {e : DiscoveryError}
    (h : cs.foldlM (stage files catalog) ⟨[], [], first⟩ = .error (e, s)) :
    ∃ failed, s.Failed first failed := by
  obtain ⟨before, c, after, s₁, -, hb, he⟩ := foldlM_stageFrom_error h
  have hs := (Staged.Sound.empty first).foldlM hb
  obtain ⟨-, rfl⟩ | ⟨plugin, fault, -, ha, -, rfl⟩ := stageFrom_error he
  · exact ⟨none, by simp [hs.calls], hs.activated, by simp, by simp [← hs.ids], by simp [hs.next]⟩
  · refine ⟨some ⟨s₁.nextInstance, c.role, plugin⟩, ?_, hs.activated, ?_, ?_, ?_⟩
    · simp [hs.calls]
    · simpa using ⟨fault, ha⟩
    · have hids : ((s₁.units.map Registered.inst).map fun i => i.id) =
          List.range' first s₁.units.length := by simp [← hs.ids]
      simp [List.map_append, hids, hs.next, List.range'_concat]
    · simp [hs.next, Nat.add_assoc]

variable {r : Registry σ}

section DiscoverAllFrom

variable {supply : Supply σ} {files : FileTree} {cs : List Candidate} {s : Staged σ}

theorem discoverAllFrom_of_error {e : DiscoveryError}
    (h : cs.foldlM (stageFrom supply files r.catalog) ⟨[], [], r.nextInstance⟩ = .error (e, s)) :
    r.discoverAllFrom supply files cs = ⟨{ r with nextInstance := s.nextInstance }, .error e,
      s.calls ++ s.units.map fun u => .deactivate u.inst⟩ := by
  rw [discoverAllFrom, h]

theorem discoverAllFrom_of_ok
    (h : cs.foldlM (stageFrom supply files r.catalog) ⟨[], [], r.nextInstance⟩ = .ok s) :
    r.discoverAllFrom supply files cs =
      ⟨({ r with nextInstance := s.nextInstance }.commitAll s.units).1, .ok s.units.length,
        s.calls ++ ({ r with nextInstance := s.nextInstance }.commitAll s.units).2⟩ := by
  rw [discoverAllFrom, h]

end DiscoverAllFrom

theorem discoverAll_of_error {files : FileTree} {cs : List Candidate} {e : DiscoveryError}
    {s : Staged σ}
    (h : cs.foldlM (stage files r.catalog) ⟨[], [], r.nextInstance⟩ = .error (e, s)) :
    r.discoverAll files cs = ⟨{ r with nextInstance := s.nextInstance }, .error e,
      s.calls ++ s.units.map fun u => .deactivate u.inst⟩ := discoverAllFrom_of_error h

theorem discoverAll_of_ok {files : FileTree} {cs : List Candidate} {s : Staged σ}
    (h : cs.foldlM (stage files r.catalog) ⟨[], [], r.nextInstance⟩ = .ok s) :
    r.discoverAll files cs = ⟨({ r with nextInstance := s.nextInstance }.commitAll s.units).1,
      .ok s.units.length,
      s.calls ++ ({ r with nextInstance := s.nextInstance }.commitAll s.units).2⟩ :=
  discoverAllFrom_of_ok h

section Scan

variable {files : FileTree} {cwd : Place} {root : String}

theorem discoverFrom_of_error (supply : Supply σ) {e : DiscoveryError}
    (h : Candidate.scan files cwd root = .error e) :
    r.discoverFrom supply files cwd root = ⟨r, .error e, []⟩ := by
  rw [discoverFrom, h]

theorem discoverFrom_of_scan (supply : Supply σ) {cs : List Candidate}
    (h : Candidate.scan files cwd root = .ok cs) :
    r.discoverFrom supply files cwd root = r.discoverAllFrom supply files cs := by
  rw [discoverFrom, h]

theorem discover_of_error {e : DiscoveryError} (h : Candidate.scan files cwd root = .error e) :
    r.discover files cwd root = ⟨r, .error e, []⟩ := discoverFrom_of_error .fresh h

theorem discover_of_scan {cs : List Candidate} (h : Candidate.scan files cwd root = .ok cs) :
    r.discover files cwd root = r.discoverAll files cs := discoverFrom_of_scan .fresh h

end Scan

/-- Everything that discovery can do to a registry: a pass that fails has only used up numbers, and
one that succeeds has put what it staged under its keys. -/
theorem registry_discover (r : Registry σ) (files : FileTree) (cwd : Place) (root : String) :
    (∃ n, r.nextInstance ≤ n ∧
      (r.discover files cwd root).registry = { r with nextInstance := n }) ∨
    ∃ (cs : List Candidate) (s : Staged σ),
      cs.foldlM (stage files r.catalog) ⟨[], [], r.nextInstance⟩ = .ok s ∧
      s.Sound r.nextInstance ∧ (r.discover files cwd root).registry =
        ({ r with nextInstance := s.nextInstance }.commitAll s.units).1 := by
  cases hscan : Candidate.scan files cwd root with
  | error e =>
    rw [discover_of_error hscan]
    exact .inl ⟨r.nextInstance, le_refl _, rfl⟩
  | ok cs =>
    rw [discover_of_scan hscan]
    cases hf : cs.foldlM (stage files r.catalog) ⟨[], [], r.nextInstance⟩ with
    | error x =>
      obtain ⟨e, s⟩ := x
      obtain ⟨failed, hs⟩ := failed_of_foldlM hf
      refine .inl ⟨s.nextInstance, by rw [hs.next]; omega, ?_⟩
      rw [discoverAll_of_error hf]
    | ok s =>
      refine .inr ⟨cs, s, hf, (Staged.Sound.empty r.nextInstance).foldlM hf, ?_⟩
      rw [discoverAll_of_ok hf]

/-- **Discovery keeps a registry sound**, whether it fails or not. -/
theorem Sound.discover (h : r.Sound) (files : FileTree) (cwd : Place) (root : String) :
    (r.discover files cwd root).registry.Sound := by
  obtain ⟨n, hn, hr⟩ | ⟨cs, s, -, hs, hr⟩ := r.registry_discover files cwd root
  · rw [hr]
    exact h.skip hn
  · rw [hr]
    exact (h.skip (by rw [hs.next]; omega)).commitAll hs.key fun u hu => (hs.id_range hu).2

end Registry

end Qualification
