import Mathlib.Tactic.SplitIfs
import Qualification.Context
/-!
# Which value counts

Three dictionaries have a say in the options of an invocation: the declared defaults, the section
titled with the key, and the values that the caller gives. A caller's value counts before that of
the section, and this one before the default. What is not declared is passed through, except for the
reserved keys.

* `Dropped`: reserved keys that nothing is made of;
* `Precedence`, **`precedence_resolve`**: the options, and what becomes of every key;
* `resolve_resolve`: resolving the outcome once more changes nothing;
* `Context.servicesAt`, `Context.invokeAt_eq`, `Context.invokeAt_of_none`: what an invocation hands
  to the plugin, and what it makes of its result;
* **`Context.precedence_invoke`**: the options and the log that an invoked plugin is given.
-/

namespace Qualification

/-! ## Options -/

/-- Whether a key is reserved and not declared, so that nothing is made of it. -/
structure Dropped (spec : OptionSpec) (given : Dict String) (key : String) : Prop where
  given : key ∈ given.keys
  reserved : key ∈ reservedKeys
  undeclared : key ∉ spec.keys

/-- What becomes of a section and the values of a caller. -/
structure Precedence (spec : OptionSpec) (sect overrides : Dict String) (r : Resolved) : Prop where
  /-- There is a value for each declared option and no other: that of the caller, or else that of
  the section, or else the default. -/
  value : ∀ name, r.get? name =
    (spec.get? name).map fun d => ((overrides.get? name).or (sect.get? name)).getD d.default
  /-- All else that is given and not reserved is passed through, with the value that counts. -/
  passed : ∀ key, key ∉ spec.keys → key ∉ reservedKeys →
    r.passthrough.get? key = (overrides.get? key).or (sect.get? key)
  declared : ∀ key ∈ spec.keys, r.passthrough.get? key = none
  /-- A reserved key that is not declared is in neither. -/
  reserved : ∀ key ∈ reservedKeys, key ∉ spec.keys →
    r.get? key = none ∧ r.passthrough.get? key = none
  /-- Values, what is passed through and what is dropped have no key in common. -/
  apart : ∀ key, ¬ (key ∈ r.values.keys ∧ key ∈ r.passthrough.keys) ∧
    ¬ (key ∈ r.values.keys ∧ Dropped spec (sect.union overrides) key) ∧
    ¬ (key ∈ r.passthrough.keys ∧ Dropped spec (sect.union overrides) key)
  /-- Every key that is given is in one of them. -/
  covered : ∀ key, key ∈ sect.keys ∨ key ∈ overrides.keys →
    key ∈ r.values.keys ∨ key ∈ r.passthrough.keys ∨ Dropped spec (sect.union overrides) key
  /-- Resolving all of it once more gives the same. -/
  again : resolve spec (r.values.union r.passthrough) = r

section Resolve

variable (spec : OptionSpec) (given : Dict String)

theorem get?_resolve (name : String) : (resolve spec given).get? name =
    (spec.get? name).map fun d => (given.get? name).getD d.default := Dict.get?_map _ _ _

theorem passthrough_resolve (key : String) : (resolve spec given).passthrough.get? key =
    if key ∈ spec.keys ∨ key ∈ reservedKeys then none else given.get? key := by
  have hget : (resolve spec given).passthrough.get? key = (given.get? key).filter
      fun _ => !spec.contains key && !reservedKeys.contains key := Dict.get?_filter _ _ _
  have hcontains : spec.contains key = decide (key ∈ spec.keys) :=
    Bool.eq_iff_iff.mpr (Dict.mem_keys_iff.symm.trans decide_eq_true_iff.symm)
  rw [hget, hcontains]
  cases given.get? key with
  | none => simp
  | some v => by_cases hkey : key ∈ spec.keys <;> by_cases hreserved : key ∈ reservedKeys <;>
      simp [hkey, hreserved]

theorem mem_values_resolve {key : String} :
    key ∈ (resolve spec given).values.keys ↔ key ∈ spec.keys := by
  rw [Dict.mem_keys_iff, Dict.mem_keys_iff]
  change ((resolve spec given).get? key).isSome = true ↔ _
  rw [get?_resolve, Option.isSome_map]

theorem mem_passthrough_resolve {key : String} : key ∈ (resolve spec given).passthrough.keys ↔
    key ∈ given.keys ∧ key ∉ spec.keys ∧ key ∉ reservedKeys := by
  rw [Dict.mem_keys_iff, passthrough_resolve, Dict.mem_keys_iff (d := given)]
  split_ifs with h <;> simp [← not_or, h]

/-- **Resolving the outcome once more changes nothing.** -/
theorem resolve_resolve : resolve spec ((resolve spec given).values.union
    (resolve spec given).passthrough) = resolve spec given := by
  generalize hr : resolve spec given = r
  have hjoined : ∀ key, (r.values.union r.passthrough).get? key =
      (r.passthrough.get? key).or (r.get? key) := Dict.get?_union r.values r.passthrough
  have hvalues : (resolve spec (r.values.union r.passthrough)).values = r.values := by
    refine Dict.ext_get? fun name => ?_
    change (resolve spec _).get? name = r.get? name
    -- A declared name is not passed through, so that its value is found.
    rw [get?_resolve, hjoined, ← hr, get?_resolve, passthrough_resolve]
    cases hname : spec.get? name with
    | none => rfl
    | some d =>
      have hdeclared : name ∈ spec.keys := Dict.mem_keys_iff.mpr (by rw [hname]; rfl)
      simp [hdeclared]
  have hpassed : (resolve spec (r.values.union r.passthrough)).passthrough = r.passthrough := by
    refine Dict.ext_get? fun key => ?_
    rw [passthrough_resolve, hjoined, ← hr, passthrough_resolve, get?_resolve]
    split_ifs with h
    · rfl
    · have hnone : spec.get? key = none := by
        simpa [Dict.mem_keys_iff] using fun hkey => h (.inl hkey)
      simp [hnone]
  calc resolve spec (r.values.union r.passthrough)
      = ⟨(resolve spec (r.values.union r.passthrough)).values,
          (resolve spec (r.values.union r.passthrough)).passthrough⟩ := rfl
    _ = r := by rw [hvalues, hpassed]

end Resolve

/-- **A caller's value counts before that of the section, and this one before the default.** -/
theorem precedence_resolve (spec : OptionSpec) (sect overrides : Dict String) :
    Precedence spec sect overrides (resolve spec (sect.union overrides)) where
  value name := by rw [get?_resolve, Dict.get?_union]
  passed key hdeclared hreserved := by
    rw [passthrough_resolve, if_neg (not_or.mpr ⟨hdeclared, hreserved⟩), Dict.get?_union]
  declared key hkey := by rw [passthrough_resolve, if_pos (.inl hkey)]
  reserved key hkey hdeclared := by
    have hnone : spec.get? key = none := by simpa [Dict.mem_keys_iff] using hdeclared
    rw [get?_resolve, hnone, passthrough_resolve, if_pos (.inr hkey)]
    exact ⟨rfl, rfl⟩
  apart key := by
    rw [mem_values_resolve, mem_passthrough_resolve]
    exact ⟨fun h => h.2.2.1 h.1, fun h => h.2.undeclared h.1, fun h => h.1.2.2 h.2.reserved⟩
  covered key hkey := by
    have hgiven : key ∈ (sect.union overrides).keys := Dict.mem_keys_union.mpr hkey
    rw [mem_values_resolve, mem_passthrough_resolve]
    by_cases hdeclared : key ∈ spec.keys
    · exact .inl hdeclared
    · by_cases hreserved : key ∈ reservedKeys
      · exact .inr (.inr ⟨hgiven, hreserved, hdeclared⟩)
      · exact .inr (.inl ⟨hgiven, hdeclared, hreserved⟩)
  again := resolve_resolve spec _

/-! ## Invocations -/

/-- The log that an invoked plugin is given. -/
def handedLog (key : String) (options : Resolved) : Log :=
  { Log.new key key with extra := options.passthrough }

/-- The log that a caller gets of what an invoked plugin comes to: a fault takes the place of status
and explanation, and nothing else. -/
def answerOf : Log × Except Fault Unit → Log
  | (log, .ok ()) => log
  | (log, .error fault) => log.fail faultStatus fault.message

namespace Context

variable {σ : Type} (c : Context σ)

/-- What a plugin may use that is invoked so deep that `depth` more may follow. -/
def servicesAt (depth : Nat) : Services σ :=
  ⟨c.invokeAt depth, c.executor, c.moduleCommand, c.scratchDir⟩

/-- The section titled with a key. -/
def sectionOf (key : String) : Dict String := (c.config.get? key).getD Dict.empty

/-- The options of an invocation. -/
def optionsOf (inst : Instance σ) (key : String) (overrides : Dict String) : Resolved :=
  resolve inst.plugin.options ((c.sectionOf key).union overrides)

/-- The world in which an invoked plugin begins: each key that is passed through is noticed. -/
def noticed (inst : Instance σ) (key : String) (overrides : Dict String) (w : World σ) : World σ :=
  w.notice ((c.optionsOf inst key overrides).passthrough.keys.map (.undeclaredOption key))

variable {role : Role} {key : String} {inst : Instance σ}

/-- **What an invocation comes down to**: the plugin is executed with its log and its options, and
the caller gets a log of what it comes to. -/
theorem invokeAt_eq (h : c.toolbox? role key = some inst) (depth : Nat) (overrides : Dict String)
    (w : World σ) : c.invokeAt (depth + 1) role key overrides w =
      (inst.plugin.execute inst.id (c.servicesAt depth)
        (handedLog key (c.optionsOf inst key overrides)) (c.optionsOf inst key overrides) >>=
          fun x => pure (answerOf x)) (c.noticed inst key overrides w) := by
  have hextra : (Log.new key key).extra.union (c.optionsOf inst key overrides).passthrough =
      (c.optionsOf inst key overrides).passthrough := Dict.empty_union _
  rw [invokeAt, h]
  change (inst.plugin.execute inst.id (c.servicesAt depth) { Log.new key key with
    extra := (Log.new key key).extra.union (c.optionsOf inst key overrides).passthrough }
      (c.optionsOf inst key overrides) >>= _) (c.noticed inst key overrides w) = _
  rw [hextra]
  refine congrFun (congrArg (_ >>= ·) (funext fun x => ?_)) _
  obtain ⟨log, result⟩ := x
  cases result <;> rfl

/-- **The options and the log that an invoked plugin is given.** For each option that it declares it
sees the value of the caller, or else that of the section titled with its key, or else the default.
What else is given is passed through and stands in its log, except for reserved keys; and nothing is
lost or told twice. -/
theorem precedence_invoke (h : c.toolbox? role key = some inst) (overrides : Dict String) :
    let options := c.optionsOf inst key overrides
    let log := handedLog key options
    Precedence inst.plugin.options (c.sectionOf key) overrides options ∧
    (∀ values, c.config.get? key = some values ↔ (key, values) ∈ c.config.entries) ∧
    log.extra = options.passthrough ∧
    (∀ depth w, c.invokeAt (depth + 1) role key overrides w =
      (inst.plugin.execute inst.id (c.servicesAt depth) log options >>= fun x => pure (answerOf x))
        (c.noticed inst key overrides w)) ∧
    ∀ w, c.invoke role key overrides w =
      (inst.plugin.execute inst.id (c.servicesAt (nestingLimit - 1)) log options >>= fun x =>
        pure (answerOf x)) (c.noticed inst key overrides w) :=
  ⟨precedence_resolve _ _ _, fun _ => Sections.get?_eq_some_iff, rfl,
    fun depth => c.invokeAt_eq h depth overrides, c.invokeAt_eq h (nestingLimit - 1) overrides⟩

end Context

/-- A tool that declares a level, and an option under a reserved key. -/
def levelTool : Instance Unit :=
  ⟨1, .tool, { Plugin.simple "Level" fun _ _ log _ => pure (log, .ok ()) with
    options := Dict.ofList [("level", ⟨"1", "How hard"⟩), ("parent", ⟨"none", "Whose"⟩)] }⟩

/-- A context with the tool, with a section for it and another one that is for its stage. -/
def levelContext : Context Unit where
  runId := Uuid.ofNat 1
  config := Sections.ofList [
    ("Level:1", Dict.ofList [("level", "9"), ("mark", "m")]),
    ("Level", Dict.ofList [("level", "2"), ("note", "warm"), ("parent", "Boot"),
      ("plugin", "Other")])]
  executor := fun _ host => (⟨0, .ok ⟨0, "", "", false⟩⟩, host)
  moduleCommand := none
  scratchDir := none
  tools := Dict.ofList [("Level", levelTool)]
  utilities := Dict.empty

/-- The caller's level counts, the section's parent is declared, its plugin is dropped, and its note
is passed through with the caller's value. -/
theorem Context.precedence_invoke_level :
    let overrides := Dict.ofList [("level", "3"), ("note", "cold")]
    let options := levelContext.optionsOf levelTool "Level" overrides
    levelContext.toolbox? .tool "Level" = some levelTool ∧
    options.get? "level" = some "3" ∧ options.get? "parent" = some "Boot" ∧
    options.passthrough.get? "note" = some "cold" ∧ options.passthrough.get? "plugin" = none ∧
    (handedLog "Level" options).extra = options.passthrough ∧
    ∀ depth w, levelContext.invokeAt (depth + 1) .tool "Level" overrides w =
      (levelTool.plugin.execute 1 (levelContext.servicesAt depth) (handedLog "Level" options)
        options >>= fun x => pure (answerOf x)) (levelContext.noticed levelTool "Level" overrides w)
    := by
  intro overrides options
  have htool : levelContext.toolbox? .tool "Level" = some levelTool := rfl
  obtain ⟨hprecedence, -, hextra, hinvoke, -⟩ := levelContext.precedence_invoke htool overrides
  exact ⟨htool, (hprecedence.value "level").trans (by decide +kernel),
    (hprecedence.value "parent").trans (by decide +kernel),
    (hprecedence.passed "note" (by decide +kernel) (by decide)).trans (by decide +kernel),
    (hprecedence.reserved "plugin" (by decide) (by decide +kernel)).2, hextra, hinvoke⟩

end Qualification
