import Mathlib.Data.List.Sort
import Mathlib.Data.List.InsertIdx
import Qualification.Registry.Order
/-!
# The order of stages as a sorted list

The two lists of an order are one list of names with keys, `Order.entries`. Taking a name out erases
its entry, and inserting one is the insertion into a sorted list.

* `bisect_eq`, `partitionPoint_eq`: halving finds the place of a key among ascending keys;
* `keyOf?_ofEntries`, `remove_ofEntries`, `insert_ofEntries`: the operations on the list of entries;
* `Order.Sound`, **`Sound.remove`**, **`Sound.insert`**: what all of them keep;
* `keyOf?_remove`, `keyOf?_insert`: the keys after them.
-/

namespace Qualification.Order

/-! ## The search for a place -/

section Search

variable {below : Int → Bool} {keys : List Int} {n : Nat}

/-- **Halving finds the last place that is below**, where the first `n` ones are. -/
theorem bisect_eq (h : ∀ i (hi : i < keys.length), below keys[i] = decide (i < n)) (base size : Nat)
    (hsize : 0 < size) (hlen : base + size ≤ keys.length) (hbase : base = 0 ∨ base < n)
    (hn : n ≤ base + size) : bisect below keys base size = n - 1 := by
  fun_induction bisect below keys base size with
  | case1 base size h1 => omega
  | case2 base size h1 middle ih =>
    have hm : middle < keys.length := by omega
    have hmid : keys[middle]?.any below = decide (middle < n) := by
      rw [List.getElem?_eq_getElem hm, Option.any_some, h middle hm]
    rw [hmid] at ih ⊢
    by_cases hlt : middle < n
    · simp only [decide_eq_true hlt, dite_true, if_true] at ih ⊢
      exact ih (by omega) (by omega) (Or.inr hlt) (by omega)
    · simp only [decide_eq_false hlt, Bool.false_eq_true, dite_false, if_false] at ih ⊢
      exact ih (by omega) (by omega) hbase (by omega)

theorem partitionPoint_of_below (h : ∀ i (hi : i < keys.length), below keys[i] = decide (i < n))
    (hn : n ≤ keys.length) : partitionPoint below keys = n := by
  unfold partitionPoint
  cases hk : keys with
  | nil => simp only [hk, List.length_nil] at hn; simp; omega
  | cons k ks =>
    have hpos : 0 < keys.length := by simp [hk]
    have hlast : keys[n - 1]?.any below = decide (n - 1 < n) := by
      rw [List.getElem?_eq_getElem (by omega), Option.any_some, h _ (by omega)]
    have hne : keys.isEmpty = false := by simp [hk]
    rw [← hk, bisect_eq h 0 keys.length hpos (by omega) (Or.inl rfl) (by omega)]
    simp only [hne, hlast, Bool.false_eq_true, if_false, decide_eq_true_eq]
    split_ifs <;> omega

/-- The place of a key among ascending keys is that of the first one that is not below it. -/
theorem partitionPoint_eq (hs : keys.Pairwise (· ≤ ·)) (key : Int) :
    partitionPoint (· < key) keys = keys.findIdx fun k => decide (key ≤ k) := by
  refine partitionPoint_of_below (fun i hi => ?_) List.findIdx_le_length
  rw [decide_eq_decide]
  constructor
  · intro hlt
    by_contra hge
    have hi' : keys.findIdx (fun k => decide (key ≤ k)) < keys.length := by omega
    have hfound : key ≤ keys[keys.findIdx fun k => decide (key ≤ k)] := by
      simpa using List.findIdx_getElem (w := hi')
    have hle : keys[keys.findIdx fun k => decide (key ≤ k)] ≤ keys[i] := by
      rcases Nat.lt_or_ge (keys.findIdx fun k => decide (key ≤ k)) i with hl | hl
      · exact List.pairwise_iff_getElem.mp hs _ _ hi' hi hl
      · have : i = keys.findIdx fun k => decide (key ≤ k) := by omega
        simp only [← this, le_refl]
    omega
  · intro hlt
    simpa using List.not_of_lt_findIdx hlt

end Search

/-! ## The list of entries -/

/-- The order of a list of names with keys. -/
def ofEntries (es : List (String × Int)) : Order := ⟨es.map Prod.fst, es.map Prod.snd⟩

@[simp] theorem entries_ofEntries (es : List (String × Int)) : (ofEntries es).entries = es :=
  (List.zip_of_prod rfl rfl).symm

theorem ofEntries_entries {o : Order} (h : o.names.length = o.keys.length) :
    ofEntries o.entries = o := by
  unfold ofEntries entries
  rw [List.map_fst_zip h.le, List.map_snd_zip h.ge]

theorem position?_ofEntries (es : List (String × Int)) (name : String) :
    (ofEntries es).position? name = es.findIdx? fun e => e.1 == name := by
  simp only [position?, ofEntries, List.findIdx?_map]
  rfl

theorem keyOf?_ofEntries (es : List (String × Int)) (name : String) :
    (ofEntries es).keyOf? name = (es.find? fun e => e.1 == name).map Prod.snd := by
  rw [keyOf?, position?_ofEntries, List.find?_eq_bind_findIdx?_getElem?, Option.map_bind]
  simp [ofEntries]

/-- Taking a name out erases its first entry. -/
theorem remove_ofEntries (es : List (String × Int)) (name : String) :
    (ofEntries es).remove name = ofEntries (es.eraseP fun e => e.1 == name) := by
  unfold remove take?
  rw [position?_ofEntries, List.eraseP_eq_eraseIdx]
  cases hi : es.findIdx? fun e => e.1 == name with
  | none => rfl
  | some i =>
    obtain ⟨hlt, -, -⟩ := List.findIdx?_eq_some_iff_getElem.mp hi
    simp [ofEntries, hlt, List.eraseIdx_map]

theorem insertIdx_findIdx {α : Type} (r : α → α → Prop) [DecidableRel r] (a : α) (l : List α) :
    l.insertIdx (l.findIdx fun b => decide (r a b)) a = l.orderedInsert r a := by
  induction l with
  | nil => rfl
  | cons b l ih =>
    by_cases h : r a b
    · simp [List.findIdx_cons, h]
    · simp [List.findIdx_cons, h, ih]

/-- Whether an entry may stand before another one. -/
def Before (a b : String × Int) : Prop := a.2 ≤ b.2

instance : DecidableRel Before := fun a b => Int.decLe a.2 b.2

instance : Std.Total Before := ⟨fun a b => Int.le_total a.2 b.2⟩

instance : IsTrans (String × Int) Before := ⟨fun _ _ _ => Int.le_trans⟩

/-- **Inserting a name** erases its first entry and inserts the new one into the sorted list. -/
theorem insert_ofEntries {es : List (String × Int)} (hs : es.Pairwise Before) (name : String)
    (key : Int) : (ofEntries es).insert name key =
      ofEntries ((es.eraseP fun e => e.1 == name).orderedInsert Before (name, key)) := by
  have hs' : ((es.eraseP fun e => e.1 == name).map Prod.snd).Pairwise (· ≤ ·) :=
    List.pairwise_map.mpr (hs.sublist List.eraseP_sublist)
  unfold insert
  rw [remove_ofEntries]
  simp only [ofEntries]
  rw [partitionPoint_eq hs' key, List.findIdx_map, ← insertIdx_findIdx, List.map_insertIdx,
    List.map_insertIdx]
  rfl

/-! ## What every order keeps -/

/-- Each name has one key, no name stands twice, and the keys ascend. -/
structure Sound (o : Order) : Prop where
  aligned : o.names.length = o.keys.length
  distinct : o.names.Nodup
  ascending : o.keys.Pairwise (· ≤ ·)

theorem sound_empty : Sound empty := ⟨rfl, List.nodup_nil, List.Pairwise.nil⟩

theorem sound_ofEntries {es : List (String × Int)} (hd : (es.map Prod.fst).Nodup)
    (hs : es.Pairwise Before) : (ofEntries es).Sound :=
  ⟨by simp [ofEntries], hd, List.pairwise_map.mpr hs⟩

theorem eraseP_eq_filter {es : List (String × Int)} (hd : (es.map Prod.fst).Nodup) (name : String) :
    (es.eraseP fun e => e.1 == name) = es.filter fun e => e.1 != name := by
  induction es with
  | nil => rfl
  | cons e es ih =>
    obtain ⟨hne, hd⟩ := List.nodup_cons.mp hd
    by_cases h : e.1 = name
    · have hself : es.filter (fun e => e.1 != name) = es := by
        refine List.filter_eq_self.mpr fun x hx => ?_
        have hx' : x.1 ≠ e.1 := fun hxe => hne (hxe ▸ List.mem_map_of_mem hx)
        simpa [← h] using hx'
      simp [h, hself]
    · simp [h, ih hd]

namespace Sound

variable {o : Order} (ho : o.Sound)

include ho

theorem ofEntries_eq : ofEntries o.entries = o := ofEntries_entries ho.aligned

theorem map_fst_entries : o.entries.map Prod.fst = o.names := by
  conv_rhs => rw [← ho.ofEntries_eq]
  rfl

theorem map_snd_entries : o.entries.map Prod.snd = o.keys := by
  conv_rhs => rw [← ho.ofEntries_eq]
  rfl

theorem distinct_entries : (o.entries.map Prod.fst).Nodup := ho.map_fst_entries ▸ ho.distinct

theorem ascending_entries : o.entries.Pairwise Before := by
  have h := ho.ascending
  rw [← ho.map_snd_entries, List.pairwise_map] at h
  exact h

theorem remove_eq (name : String) :
    o.remove name = ofEntries (o.entries.filter fun e => e.1 != name) := by
  conv_lhs => rw [← ho.ofEntries_eq]
  rw [remove_ofEntries, eraseP_eq_filter ho.distinct_entries]

theorem insert_eq (name : String) (key : Int) : o.insert name key =
    ofEntries ((o.entries.filter fun e => e.1 != name).orderedInsert Before (name, key)) := by
  conv_lhs => rw [← ho.ofEntries_eq]
  rw [insert_ofEntries ho.ascending_entries, eraseP_eq_filter ho.distinct_entries]

theorem entries_remove (name : String) :
    (o.remove name).entries = o.entries.filter fun e => e.1 != name := by
  rw [ho.remove_eq, entries_ofEntries]

theorem entries_insert (name : String) (key : Int) : (o.insert name key).entries =
    (o.entries.filter fun e => e.1 != name).orderedInsert Before (name, key) := by
  rw [ho.insert_eq, entries_ofEntries]

/-- **Taking a name out keeps an order sound.** -/
theorem remove (name : String) : (o.remove name).Sound := by
  rw [ho.remove_eq]
  exact sound_ofEntries (ho.distinct_entries.sublist (List.filter_sublist.map _))
    (ho.ascending_entries.sublist List.filter_sublist)

/-- **Inserting a name keeps an order sound.** -/
theorem insert (name : String) (key : Int) : (o.insert name key).Sound := by
  rw [ho.insert_eq]
  refine sound_ofEntries ?_ ((ho.ascending_entries.sublist List.filter_sublist).orderedInsert _ _)
  rw [((List.perm_orderedInsert Before (name, key) _).map Prod.fst).nodup_iff, List.map_cons,
    List.nodup_cons]
  refine ⟨?_, ho.distinct_entries.sublist (List.filter_sublist.map _)⟩
  simp

/-! ## The keys of names -/

theorem keyOf?_eq_some_iff {name : String} {key : Int} :
    o.keyOf? name = some key ↔ (name, key) ∈ o.entries := by
  conv_lhs => rw [← ho.ofEntries_eq]
  rw [keyOf?_ofEntries, Option.map_eq_some_iff]
  constructor
  · rintro ⟨e, he, rfl⟩
    have hname : e.1 = name := by simpa using List.find?_some he
    exact hname ▸ List.mem_of_find?_eq_some he
  · intro h
    obtain ⟨e, he⟩ : ∃ e, o.entries.find? (fun e => e.1 == name) = some e :=
      Option.isSome_iff_exists.mp (List.find?_isSome.mpr ⟨_, h, by simp⟩)
    have hname : e.1 = name := by simpa using List.find?_some he
    have := List.inj_on_of_nodup_map ho.distinct_entries (List.mem_of_find?_eq_some he) h hname
    exact ⟨e, he, by rw [this]⟩

theorem mem_names_iff {name : String} : name ∈ o.names ↔ ∃ key, o.keyOf? name = some key := by
  simp only [← ho.map_fst_entries, List.mem_map, ho.keyOf?_eq_some_iff]
  constructor
  · rintro ⟨e, he, rfl⟩
    exact ⟨e.2, he⟩
  · rintro ⟨key, h⟩
    exact ⟨_, h, rfl⟩

theorem keyOf?_remove (name name' : String) :
    (o.remove name).keyOf? name' = if name' = name then none else o.keyOf? name' := by
  ext key
  rw [(ho.remove name).keyOf?_eq_some_iff, ho.entries_remove]
  split_ifs with h
  · simp [h]
  · simp [h, ho.keyOf?_eq_some_iff]

theorem keyOf?_insert (name name' : String) (key : Int) :
    (o.insert name key).keyOf? name' = if name' = name then some key else o.keyOf? name' := by
  ext key'
  rw [(ho.insert name key).keyOf?_eq_some_iff, ho.entries_insert, List.mem_orderedInsert]
  split_ifs with h
  · simp [h, eq_comm]
  · simp [h, ho.keyOf?_eq_some_iff]

end Sound

end Qualification.Order
