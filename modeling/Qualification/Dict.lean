/-!
# Dictionaries

A dictionary maps texts to values and lists its entries by ascending key (by code points). It is a
list of entries in strictly ascending order, so two dictionaries with the same look-ups are equal.

* `Dict.get?`, `Dict.insert`, `Dict.erase`, `Dict.union`, `Dict.ofList`, `Dict.filter`, `Dict.map`;
* `Dict.get?_insert`, `Dict.get?_erase`, `Dict.get?_map`, `Dict.get?_filter`, `Dict.get?_union`,
  `Dict.mem_toList_iff`, `Dict.ext_get?`;
* `Dict.values_insert_perm`, `Dict.values_erase_perm`: the values after a change;
* `Dict.ofList_toList`: a dictionary is that of its entries;
* `Dict.get?_ofList`, `Dict.mem_keys_ofList`: the last entry of a key stays.
-/

namespace Qualification

/-- A finite map from texts, in ascending order of the keys. -/
structure Dict (β : Type) where
  entries : List (String × β)
  ascending : entries.Pairwise fun a b => a.1 < b.1

namespace Dict

variable {β γ : Type}

/-- The entries with one added; an entry of the same key is replaced. -/
def insertEntry (k : String) (v : β) : List (String × β) → List (String × β)
  | [] => [(k, v)]
  | (k', v') :: rest =>
    if k < k' then (k, v) :: (k', v') :: rest
    else if k = k' then (k, v) :: rest
    else (k', v') :: insertEntry k v rest

theorem key_of_mem_insertEntry {k : String} {v : β} {l : List (String × β)} {e : String × β}
    (h : e ∈ insertEntry k v l) : e.1 = k ∨ e ∈ l := by
  induction l with
  | nil => simp_all [insertEntry]
  | cons hd rest ih =>
    obtain ⟨k', v'⟩ := hd
    simp only [insertEntry] at h
    grind

theorem insertEntry_ascending {k : String} {v : β} {l : List (String × β)}
    (h : l.Pairwise fun a b => a.1 < b.1) :
    (insertEntry k v l).Pairwise fun a b => a.1 < b.1 := by
  induction l with
  | nil => simp [insertEntry]
  | cons hd rest ih =>
    obtain ⟨k', v'⟩ := hd
    obtain ⟨h1, h2⟩ := List.pairwise_cons.1 h
    simp only [insertEntry]
    split
    next hlt =>
      refine List.pairwise_cons.2 ⟨fun e he => ?_, h⟩
      rcases List.mem_cons.1 he with rfl | he
      · exact hlt
      · exact String.lt_trans hlt (h1 e he)
    next hlt =>
      split
      next heq => subst heq; exact List.pairwise_cons.2 ⟨h1, h2⟩
      next hne =>
        refine List.pairwise_cons.2 ⟨fun e he => ?_, ih h2⟩
        rcases key_of_mem_insertEntry he with hk | he
        · rw [hk]; grind
        · exact h1 e he

/-- The dictionary without entries. -/
def empty : Dict β := ⟨[], List.Pairwise.nil⟩

instance : EmptyCollection (Dict β) := ⟨empty⟩
instance : Inhabited (Dict β) := ⟨empty⟩

/-- The dictionary with one entry set. -/
def insert (d : Dict β) (k : String) (v : β) : Dict β :=
  ⟨insertEntry k v d.entries, insertEntry_ascending d.ascending⟩

/-- The value of the first entry with a key. -/
def lookupIn (k : String) : List (String × β) → Option β
  | [] => none
  | (k', v) :: rest => if k = k' then some v else lookupIn k rest

/-- The value held under a key. -/
def get? (d : Dict β) (k : String) : Option β := lookupIn k d.entries

/-- Whether a key has a value. -/
def contains (d : Dict β) (k : String) : Bool := (d.get? k).isSome

/-- The dictionary without a key. -/
def erase (d : Dict β) (k : String) : Dict β :=
  ⟨d.entries.filter fun e => e.1 ≠ k, d.ascending.filter _⟩

/-- The entries that pass a test of key and value. -/
def filter (p : String → β → Bool) (d : Dict β) : Dict β :=
  ⟨d.entries.filter fun e => p e.1 e.2, d.ascending.filter _⟩

/-- The dictionary with every value changed, under the same keys. -/
def map (f : String → β → γ) (d : Dict β) : Dict γ :=
  ⟨d.entries.map fun e => (e.1, f e.1 e.2), by
    have := d.ascending
    simpa [List.pairwise_map] using this⟩

/-- Sets entries one after the other, so the last one of a key stays. -/
def insertAll (d : Dict β) (es : List (String × β)) : Dict β :=
  es.foldl (fun d e => d.insert e.1 e.2) d

/-- The dictionary of a list of entries; the last one of a key stays. -/
def ofList (es : List (String × β)) : Dict β := insertAll empty es

/-- The entries of both; those of the second win. -/
def union (d e : Dict β) : Dict β := d.insertAll e.entries

/-- The entries, by ascending key. -/
def toList (d : Dict β) : List (String × β) := d.entries

/-- The keys, ascending. -/
def keys (d : Dict β) : List String := d.entries.map Prod.fst

/-- The values, by ascending key. -/
def values (d : Dict β) : List β := d.entries.map Prod.snd

/-- The number of entries. -/
def size (d : Dict β) : Nat := d.entries.length

/-- Whether there is no entry. -/
def isEmpty (d : Dict β) : Bool := d.entries.isEmpty

instance [DecidableEq β] : DecidableEq (Dict β) := fun a b =>
  decidable_of_iff (a.entries = b.entries)
    ⟨fun h => by cases a; cases b; simp_all, fun h => by rw [h]⟩

@[simp] theorem get?_empty (k : String) : (empty : Dict β).get? k = none := rfl

theorem lookupIn_insertEntry (k k' : String) (v : β) (l : List (String × β)) :
    lookupIn k' (insertEntry k v l) = if k' = k then some v else lookupIn k' l := by
  induction l with
  | nil => simp [insertEntry, lookupIn]
  | cons hd rest ih =>
    obtain ⟨k₁, v₁⟩ := hd
    simp only [insertEntry]
    grind [lookupIn]

@[simp] theorem get?_insert (d : Dict β) (k k' : String) (v : β) :
    (d.insert k v).get? k' = if k' = k then some v else d.get? k' :=
  lookupIn_insertEntry k k' v d.entries

theorem lookupIn_filter_ne (k k' : String) (l : List (String × β)) :
    lookupIn k' (l.filter fun e => e.1 ≠ k) = if k' = k then none else lookupIn k' l := by
  induction l with
  | nil => simp [lookupIn]
  | cons hd rest ih => grind [lookupIn]

@[simp] theorem get?_erase (d : Dict β) (k k' : String) :
    (d.erase k).get? k' = if k' = k then none else d.get? k' :=
  lookupIn_filter_ne k k' d.entries

theorem lookupIn_eq_none_of_lt {k : String} {l : List (String × β)} (h : ∀ e ∈ l, k < e.1) :
    lookupIn k l = none := by
  induction l with
  | nil => rfl
  | cons hd rest ih =>
    obtain ⟨k', v⟩ := hd
    have : k ≠ k' := fun e => String.lt_irrefl k (by simpa [← e] using h (k', v) (by simp))
    simp [lookupIn, this, ih fun e he => h e (List.mem_cons_of_mem _ he)]

theorem eq_of_lookupIn {l m : List (String × β)}
    (hl : l.Pairwise fun a b => a.1 < b.1) (hm : m.Pairwise fun a b => a.1 < b.1)
    (h : ∀ k, lookupIn k l = lookupIn k m) : l = m := by
  induction l generalizing m with
  | nil =>
    cases m with
    | nil => rfl
    | cons e m => simpa [lookupIn] using h e.1
  | cons e l ih =>
    obtain ⟨k, v⟩ := e
    obtain ⟨hl1, hl2⟩ := List.pairwise_cons.1 hl
    cases m with
    | nil => simpa [lookupIn] using h k
    | cons e' m =>
      obtain ⟨k', v'⟩ := e'
      obtain ⟨hm1, hm2⟩ := List.pairwise_cons.1 hm
      have hk : k = k' := by
        rcases Std.lt_trichotomy k k' with hlt | heq | hlt
        · have h1 := h k
          have hne : k ≠ k' := fun e => String.lt_irrefl k (by simp [← e] at hlt)
          rw [show lookupIn k ((k', v') :: m) = none from
            lookupIn_eq_none_of_lt fun x hx => by
              rcases List.mem_cons.1 hx with rfl | hx
              · exact hlt
              · exact String.lt_trans hlt (hm1 x hx)] at h1
          simp [lookupIn] at h1
        · exact heq
        · have h1 := h k'
          rw [show lookupIn k' ((k, v) :: l) = none from
            lookupIn_eq_none_of_lt fun x hx => by
              rcases List.mem_cons.1 hx with rfl | hx
              · exact hlt
              · exact String.lt_trans hlt (hl1 x hx)] at h1
          simp [lookupIn] at h1
      subst hk
      have hv : v = v' := by simpa [lookupIn] using h k
      subst hv
      congr 1
      refine ih hl2 hm2 fun x => ?_
      have hx := h x
      by_cases hxk : x = k
      · subst hxk
        rw [lookupIn_eq_none_of_lt hl1, lookupIn_eq_none_of_lt hm1]
      · simpa [lookupIn, hxk] using hx

theorem lookupIn_eq_some_iff {l : List (String × β)} (h : l.Pairwise fun a b => a.1 < b.1)
    {k : String} {v : β} : lookupIn k l = some v ↔ (k, v) ∈ l := by
  induction l with
  | nil => simp [lookupIn]
  | cons e l ih =>
    obtain ⟨k', v'⟩ := e
    obtain ⟨h1, h2⟩ := List.pairwise_cons.1 h
    by_cases hk : k = k'
    · subst hk
      have hout : (k, v) ∉ l := fun hm => String.lt_irrefl k (h1 (k, v) hm)
      simp [lookupIn, hout, eq_comm]
    · simp [lookupIn, hk, ih h2]

/-- The entries are the look-ups. -/
theorem mem_toList_iff {d : Dict β} {k : String} {v : β} : (k, v) ∈ d.toList ↔ d.get? k = some v :=
  (lookupIn_eq_some_iff d.ascending).symm

/-- No key stands twice. -/
theorem keys_nodup (d : Dict β) : d.keys.Nodup :=
  List.pairwise_map.2 (d.ascending.imp fun {a b} (h : a.1 < b.1) (he : a.1 = b.1) =>
    String.lt_irrefl b.1 (he ▸ h))

theorem mem_keys_iff {d : Dict β} {k : String} : k ∈ d.keys ↔ (d.get? k).isSome := by
  rw [Option.isSome_iff_exists]
  constructor
  · intro h
    obtain ⟨e, he, rfl⟩ := List.mem_map.1 h
    exact ⟨e.2, mem_toList_iff.1 he⟩
  · rintro ⟨v, h⟩
    exact List.mem_map.2 ⟨(k, v), mem_toList_iff.2 h, rfl⟩

theorem insertEntry_perm {k : String} {v : β} {l : List (String × β)}
    (h : l.Pairwise fun a b => a.1 < b.1) :
    ((insertEntry k v l).map Prod.snd ++ (lookupIn k l).toList).Perm (v :: l.map Prod.snd) := by
  induction l with
  | nil => simp [insertEntry, lookupIn]
  | cons e l ih =>
    obtain ⟨k', v'⟩ := e
    obtain ⟨h1, h2⟩ := List.pairwise_cons.1 h
    simp only [insertEntry]
    split
    next hlt =>
      have hnone : lookupIn k ((k', v') :: l) = none := by
        refine lookupIn_eq_none_of_lt fun x hx => ?_
        rcases List.mem_cons.1 hx with rfl | hx
        · exact hlt
        · exact String.lt_trans hlt (h1 x hx)
      simp [hnone]
    next hlt =>
      split
      next heq => simp [lookupIn, heq]
      next hne => simpa [lookupIn, hne] using ((ih h2).cons v').trans (.swap v v' _)

theorem filter_ne_perm {k : String} {l : List (String × β)}
    (h : l.Pairwise fun a b => a.1 < b.1) :
    ((l.filter fun e => e.1 ≠ k).map Prod.snd ++ (lookupIn k l).toList).Perm (l.map Prod.snd) := by
  induction l with
  | nil => simp [lookupIn]
  | cons e l ih =>
    obtain ⟨k', v'⟩ := e
    obtain ⟨h1, h2⟩ := List.pairwise_cons.1 h
    by_cases hk : k = k'
    · subst hk
      have hself : l.filter (fun e => e.1 ≠ k) = l := by
        refine List.filter_eq_self.2 fun x hx => ?_
        have hne : x.1 ≠ k := fun hx' => String.lt_irrefl k (by simpa [hx'] using h1 x hx)
        simpa using hne
      rw [List.filter_cons_of_neg (by simp), hself]
      simp [lookupIn]
    · simpa [lookupIn, hk, Ne.symm hk] using (ih h2).cons v'

/-- A value that is set takes the place of the one that was there. -/
theorem values_insert_perm (d : Dict β) (k : String) (v : β) :
    ((d.insert k v).values ++ (d.get? k).toList).Perm (v :: d.values) :=
  insertEntry_perm d.ascending

theorem values_erase_perm (d : Dict β) (k : String) :
    ((d.erase k).values ++ (d.get? k).toList).Perm d.values :=
  filter_ne_perm d.ascending

theorem mem_values_iff {d : Dict β} {v : β} : v ∈ d.values ↔ ∃ k, d.get? k = some v := by
  constructor
  · intro h
    obtain ⟨e, he, rfl⟩ := List.mem_map.1 h
    exact ⟨e.1, mem_toList_iff.1 he⟩
  · rintro ⟨k, h⟩
    exact List.mem_map.2 ⟨(k, v), mem_toList_iff.2 h, rfl⟩

theorem lookupIn_map (f : String → β → γ) (k : String) (l : List (String × β)) :
    lookupIn k (l.map fun e => (e.1, f e.1 e.2)) = (lookupIn k l).map (f k) := by
  induction l with
  | nil => rfl
  | cons e l ih =>
    by_cases h : k = e.1
    · simp [lookupIn, ← h]
    · simp [lookupIn, h, ih]

theorem get?_map (f : String → β → γ) (d : Dict β) (k : String) :
    (d.map f).get? k = (d.get? k).map (f k) :=
  lookupIn_map f k d.entries

theorem get?_filter (p : String → β → Bool) (d : Dict β) (k : String) :
    (d.filter p).get? k = (d.get? k).filter (p k) := by
  ext v
  rw [← mem_toList_iff, Option.filter_eq_some_iff, ← mem_toList_iff]
  exact List.mem_filter

/-- Dictionaries with the same look-ups are equal. -/
theorem ext_get? {d e : Dict β} (h : ∀ k, d.get? k = e.get? k) : d = e := by
  cases d with
  | mk l hl =>
    cases e with
    | mk m hm =>
      have : l = m := eq_of_lookupIn hl hm h
      subst this
      rfl

theorem insertEntry_of_lt {k : String} {v : β} {l : List (String × β)} (h : ∀ e ∈ l, e.1 < k) :
    insertEntry k v l = l ++ [(k, v)] := by
  induction l with
  | nil => rfl
  | cons e l ih =>
    obtain ⟨k', v'⟩ := e
    have hlt : k' < k := h (k', v') List.mem_cons_self
    have hnlt : ¬ k < k' := fun hk => String.lt_irrefl k (String.lt_trans hk hlt)
    have hne : k ≠ k' := fun hk => String.lt_irrefl k (by simp [hk] at hlt)
    simp [insertEntry, hnlt, hne, ih fun e he => h e (List.mem_cons_of_mem _ he)]

theorem entries_insertAll {d : Dict β} {es : List (String × β)}
    (h : (d.entries ++ es).Pairwise fun a b => a.1 < b.1) :
    (d.insertAll es).entries = d.entries ++ es := by
  induction es generalizing d with
  | nil => simp [insertAll]
  | cons e es ih =>
    have hlt : ∀ x ∈ d.entries, x.1 < e.1 := fun x hx =>
      (List.pairwise_append.1 h).2.2 x hx e List.mem_cons_self
    have hentries : (d.insert e.1 e.2).entries = d.entries ++ [e] := insertEntry_of_lt hlt
    have hrest := ih (d := d.insert e.1 e.2) (by rw [hentries]; simpa using h)
    rw [hentries] at hrest
    simpa [insertAll] using hrest

/-- A dictionary is that of its entries. -/
theorem ofList_toList (d : Dict β) : ofList d.toList = d := by
  have hentries : (ofList d.toList).entries = d.entries :=
    entries_insertAll (d := empty) d.ascending
  exact ext_get? fun k => congrArg (lookupIn k) hentries

/-- Of entries that are set one after the other the last one of a key stays. -/
theorem get?_insertAll (d : Dict β) (es : List (String × β)) (k : String) :
    (d.insertAll es).get? k =
      ((es.reverse.find? fun e => e.1 == k).map Prod.snd).or (d.get? k) := by
  induction es generalizing d with
  | nil => rfl
  | cons e es ih =>
    change ((d.insert e.1 e.2).insertAll es).get? k = _
    rw [ih, List.reverse_cons, List.find?_append, get?_insert]
    cases (es.reverse.find? fun e => e.1 == k) with
    | some f => rfl
    | none =>
      by_cases hk : k = e.1
      · simp [hk]
      · simp [hk, Ne.symm hk]

theorem get?_ofList (es : List (String × β)) (k : String) :
    (ofList es).get? k = (es.reverse.find? fun e => e.1 == k).map Prod.snd := by
  rw [ofList, get?_insertAll, get?_empty, Option.or_none]

/-- Of two entries of one key the one of the second dictionary counts. -/
theorem get?_union (d e : Dict β) (k : String) :
    (d.union e).get? k = (e.get? k).or (d.get? k) := by
  rw [union, get?_insertAll, ← get?_ofList]
  exact congrArg (fun e : Dict β => (e.get? k).or (d.get? k)) e.ofList_toList

theorem mem_keys_union {d e : Dict β} {k : String} :
    k ∈ (d.union e).keys ↔ k ∈ d.keys ∨ k ∈ e.keys := by
  rw [mem_keys_iff, get?_union, Option.isSome_or, mem_keys_iff, mem_keys_iff, Bool.or_eq_true,
    or_comm]

theorem empty_union (d : Dict β) : empty.union d = d := d.ofList_toList

theorem mem_keys_ofList {es : List (String × β)} {k : String} :
    k ∈ (ofList es).keys ↔ k ∈ es.map Prod.fst := by
  rw [mem_keys_iff, get?_ofList, Option.isSome_map, List.find?_isSome]
  simp

end Dict

end Qualification
