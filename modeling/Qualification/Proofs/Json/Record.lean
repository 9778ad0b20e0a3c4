import Qualification.Log
/-!
# Records in JSON

A record that was written as an object is read field by field, whatever the order of the fields.

* `filterMap_of_nodup`, `record?_of_asObject?`: the fields of an object that names none of them
  twice;
* `asOption?_ofOption`, `asNat?_ofNat`, `asInt32?_int`, `asDict?_ofDict`: what is read from fields.
-/

namespace Qualification.Json

/-! ## Fields -/

section Fields

variable {names : List String} {fields : List (String × Json)}

/-- What is given for a name that no two fields have. -/
theorem filterMap_of_nodup (h : (fields.map Prod.fst).Nodup) (name : String) :
    fields.filterMap (fun f => if f.1 == name then some f.2 else none) =
      (fields.lookup name).toList := by
  induction fields with
  | nil => rfl
  | cons f fields ih =>
    obtain ⟨name', j⟩ := f
    obtain ⟨hnew, hrest⟩ := List.nodup_cons.mp h
    by_cases hname : name' = name
    · subst hname
      have hnone : fields.lookup name' = none := by
        rw [List.lookup_eq_none_iff]
        intro f hf
        have hne : name' ≠ f.1 := fun heq =>
          hnew (List.mem_map.mpr ⟨f, hf, heq.symm⟩)
        simpa using hne
      rw [List.filterMap_cons_some (b := j) (by simp), ih hrest, hnone]
      simp
    · have hne : (name == name') = false := by simpa using Ne.symm hname
      rw [List.filterMap_cons_none (by simp [hname]), ih hrest, List.lookup_cons, hne]

theorem lookup_zip_map {α : Type} {name : String} (g : String → α) (h : name ∈ names) :
    (names.zip (names.map g)).lookup name = some (g name) := by
  induction names with
  | nil => cases h
  | cons n names ih =>
    by_cases hname : name = n
    · subst hname
      simp
    · have hne : (name == n) = false := by simpa using hname
      rcases List.mem_cons.mp h with rfl | h
      · exact absurd rfl hname
      · simp [List.lookup_cons, hne, ih h]

/-- **An object is read as a record** if none of its fields has the name of another one. -/
theorem record?_of_asObject? {j : Json} (hj : j.asObject? = some fields)
    (h : (fields.map Prod.fst).Nodup) (names : List String) :
    ∃ r, j.record? names = some r ∧
      ∀ name ∈ names, r.get? name = fields.lookup name ∧ r.positional = false := by
  obtain rfl : j = object fields := by
    cases j <;> simp_all [asObject?]
  have hgiven : (names.map fun n => fields.filterMap fun f => if f.1 == n then some f.2 else none) =
      names.map fun n => (fields.lookup n).toList :=
    List.map_congr_left fun n _ => filterMap_of_nodup h n
  have hall : (names.map fun n => (fields.lookup n).toList).all (·.length ≤ 1) = true := by
    simp only [List.all_eq_true, List.mem_map]
    rintro _ ⟨n, -, rfl⟩
    cases fields.lookup n <;> simp
  refine ⟨⟨names, (names.map fun n => (fields.lookup n).toList).map List.head?, false⟩,
    by simp only [record?, hgiven, hall, if_true], fun name hname => ⟨?_, rfl⟩⟩
  simp only [Record.get?, List.map_map]
  rw [lookup_zip_map _ hname]
  simp

end Fields

/-! ## Values -/

theorem asOption?_ofOption {α : Type} {write : α → Json} {read : Json → Option α} {o : Option α}
    (h : ∀ a ∈ o, write a ≠ .null ∧ read (write a) = some a) :
    (ofOption write o).asOption? read = some o := by
  cases o with
  | none => rfl
  | some a =>
    obtain ⟨hne, hread⟩ := h a rfl
    simp only [ofOption]
    unfold asOption?
    split
    next heq => exact absurd heq hne
    next => rw [hread]; rfl

theorem asNat?_ofNat {n : Nat} (h : n < Word.count64) : (ofNat n).asNat? = some n := by
  have hword : Word.isUInt64 (n : Int) = true := by
    simp only [Word.isUInt64, Bool.and_eq_true, decide_eq_true_eq]
    exact ⟨Int.natCast_nonneg n, Int.ofNat_lt.mpr h⟩
  simp only [asNat?, asInt?, ofNat, Option.filter_some_pos hword]
  rfl

theorem asInt32?_int {i : Int} (h : Word.isInt32 i = true) : (int i).asInt32? = some i := by
  simp [asInt32?, asInt?, h]

theorem asDict?_ofDict (d : Dict String) : (ofDict d).asDict? = some d := by
  have hread : ∀ es : List (String × String),
      (es.map fun e => (e.1, text e.2)).mapM (fun f => f.2.asText?.map (f.1, ·)) = some es := by
    intro es
    induction es with
    | nil => rfl
    | cons e es ih =>
      simp only [List.map_cons, List.mapM_cons, ih]
      rfl
  simp only [ofDict, asDict?, asObject?, Option.bind_eq_bind, Option.bind_some, hread]
  exact congrArg some (Dict.ofList_toList d)

end Qualification.Json
