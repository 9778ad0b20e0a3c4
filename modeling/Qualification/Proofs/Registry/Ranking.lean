import Mathlib.Data.List.Induction
import Qualification.Proofs.Registry.Order
/-!
# What a history leaves in an order

Names are inserted into an order and taken out of it in any succession. What is left is a ranking:
each name that is still there stands by its last insertion, names with lower keys stand first, and
of names with one key the one that was inserted last.

* `Order.Change`, `Order.changeAll`: histories of an order;
* `Stands`, `stands_concat`: the insertion that a name stands by;
* `IsRanking`, `IsRanking.eq`: the ranking that a history leaves, and that there is only one;
* `Ranked.change`, `ranked_changeAll`: one change, and all of them;
* **`ranking_changeAll`**: the entries of an order are its ranking, and all else agrees with them.
-/

namespace Qualification.Order

/-! ## Histories -/

/-- A call that changes an order. -/
inductive Change where
  | insert (name : String) (key : Int)
  | remove (name : String)

/-- The name that a change is about. -/
def Change.name : Change → String
  | insert name _ => name
  | remove name => name

/-- The order after a change. -/
def change (o : Order) : Change → Order
  | .insert name key => o.insert name key
  | .remove name => o.remove name

/-- The order after changes, one after the other. -/
def changeAll (o : Order) (history : List Change) : Order := history.foldl change o

/-- Whether the change at a place of a history gave a name its key, and nothing later is about the
name. -/
structure Stands (history : List Change) (place : Nat) (name : String) (key : Int) : Prop where
  inserted : history[place]? = some (.insert name key)
  last : ∀ later c, place < later → history[later]? = some c → c.name ≠ name

section Stands

variable {history : List Change} {place : Nat} {name : String} {key : Int}

theorem Stands.place_lt (h : Stands history place name key) : place < history.length :=
  (List.getElem?_eq_some_iff.mp h.inserted).choose

/-- One change more: a name stands by it, or as before where it is about another name. -/
theorem stands_concat {c : Change} : Stands (history ++ [c]) place name key ↔
    (place = history.length ∧ c = .insert name key) ∨
    (c.name ≠ name ∧ Stands history place name key) := by
  have hold : ∀ {i}, i < history.length → (history ++ [c])[i]? = history[i]? := fun hi =>
    List.getElem?_append_left hi
  have hnew : (history ++ [c])[history.length]? = some c := List.getElem?_concat_length
  constructor
  · intro h
    have hle : place ≤ history.length := by simpa [Nat.lt_succ_iff] using h.place_lt
    rcases Nat.eq_or_lt_of_le hle with rfl | hlt
    · exact .inl ⟨rfl, Option.some.inj (hnew.symm.trans h.inserted)⟩
    · refine .inr ⟨h.last _ _ hlt hnew, (hold hlt).symm.trans h.inserted,
        fun later d hlater hd => ?_⟩
      have hlength : later < history.length := (List.getElem?_eq_some_iff.mp hd).choose
      exact h.last later d hlater ((hold hlength).trans hd)
  · rintro (⟨rfl, rfl⟩ | ⟨hname, h⟩)
    · refine ⟨hnew, fun later d hlater hd => ?_⟩
      have hlength : later < history.length + 1 := by
        simpa using (List.getElem?_eq_some_iff.mp hd).choose
      omega
    · refine ⟨(hold h.place_lt).trans h.inserted, fun later d hlater hd => ?_⟩
      rcases Nat.lt_or_ge later history.length with hlt | hge
      · exact h.last later d hlater ((hold hlt).symm.trans hd)
      · have hlength : later < history.length + 1 := by
          simpa using (List.getElem?_eq_some_iff.mp hd).choose
        obtain rfl : later = history.length := by omega
        rwa [← Option.some.inj (hnew.symm.trans hd)]

end Stands

/-! ## Rankings -/

/-- Whether one entry ranks before another one: its key is lower, or it is the same and was given
later. -/
def Precedes (history : List Change) (a b : String × Int) : Prop :=
  ∀ i j, Stands history i a.1 a.2 → Stands history j b.1 b.2 → a.2 < b.2 ∨ (a.2 = b.2 ∧ j < i)

/-- Whether a list is the ranking that a history leaves. -/
structure IsRanking (history : List Change) (es : List (String × Int)) : Prop where
  mem_iff : ∀ name key, (name, key) ∈ es ↔ ∃ place, Stands history place name key
  distinct : (es.map Prod.fst).Nodup
  ranked : es.Pairwise (Precedes history)

/-- **A history leaves one ranking only.** -/
theorem IsRanking.eq {history : List Change} {es es' : List (String × Int)}
    (h : IsRanking history es) (h' : IsRanking history es') : es = es' := by
  have hperm : es.Perm es' := by
    refine (List.perm_ext_iff_of_nodup h.distinct.of_map h'.distinct.of_map).mpr fun e => ?_
    exact (h.mem_iff e.1 e.2).trans (h'.mem_iff e.1 e.2).symm
  refine hperm.eq_of_pairwise (fun a b ha hb hab hba => ?_) h.ranked h'.ranked
  obtain ⟨i, hi⟩ := (h.mem_iff a.1 a.2).mp ha
  obtain ⟨j, hj⟩ := (h'.mem_iff b.1 b.2).mp hb
  have hfirst := hab i j hi hj
  have hsecond := hba j i hj hi
  omega

/-- Whether an order is sound and holds the ranking that a history leaves. -/
structure Ranked (history : List Change) (o : Order) : Prop where
  sound : o.Sound
  entries : IsRanking history o.entries

theorem ranked_empty : Ranked [] empty where
  sound := sound_empty
  entries := ⟨fun _ _ => ⟨nofun, fun ⟨_, h⟩ => nomatch h.inserted⟩, List.nodup_nil, .nil⟩

/-- A list stays in a relation when an element is put before the first one that it may precede. -/
theorem pairwise_orderedInsert {α : Type} {r s : α → α → Prop} [DecidableRel r] {a : α} {l : List α}
    (hsorted : l.Pairwise r) (htrans : ∀ b c, r a b → r b c → r a c) (hl : l.Pairwise s)
    (hbefore : ∀ b ∈ l, r a b → s a b) (hafter : ∀ b ∈ l, ¬ r a b → s b a) :
    (l.orderedInsert r a).Pairwise s := by
  induction l with
  | nil => exact List.pairwise_singleton s a
  | cons b l ih =>
    obtain ⟨hbr, hsorted⟩ := List.pairwise_cons.mp hsorted
    obtain ⟨hbs, hs⟩ := List.pairwise_cons.mp hl
    obtain ⟨hb, hbefore⟩ := List.forall_mem_cons.mp hbefore
    obtain ⟨hb', hafter⟩ := List.forall_mem_cons.mp hafter
    by_cases h : r a b
    · rw [List.orderedInsert_cons_of_le r l h]
      refine List.pairwise_cons.mpr ⟨List.forall_mem_cons.mpr ⟨hb h, fun c hc => ?_⟩, hl⟩
      exact hbefore c hc (htrans b c h (hbr c hc))
    · rw [List.orderedInsert_of_not_le r l h]
      refine List.pairwise_cons.mpr ⟨fun c hc => ?_, ih hsorted hs hbefore hafter⟩
      rcases (List.mem_orderedInsert r).mp hc with rfl | hc
      · exact hb' h
      · exact hbs c hc

namespace Ranked

variable {history : List Change} {o : Order} (h : Ranked history o)

include h

section Others

variable {c : Change} {name : String} (hc : c.name = name)

include hc

theorem mem_others_iff (name' : String) (key : Int) :
    ((name', key) ∈ o.entries.filter fun e => e.1 != name) ↔
      c.name ≠ name' ∧ ∃ place, Stands history place name' key := by
  rw [List.mem_filter, h.entries.mem_iff, and_comm, hc, bne_iff_ne, ne_comm]

/-- The entries of other names than that of one more change rank as before. -/
theorem pairwise_others :
    (o.entries.filter fun e => e.1 != name).Pairwise (Precedes (history ++ [c])) := by
  have hold : ∀ {e : String × Int}, (e ∈ o.entries.filter fun e => e.1 != name) → ∀ place,
      Stands (history ++ [c]) place e.1 e.2 → Stands history place e.1 e.2 := by
    intro e he place hplace
    rcases stands_concat.mp hplace with ⟨-, rfl⟩ | ⟨-, hplace⟩
    · exact absurd rfl ((h.mem_others_iff hc e.1 e.2).mp he).1
    · exact hplace
  refine (h.entries.ranked.sublist List.filter_sublist).imp_of_mem fun ha hb hab i j hi hj => ?_
  exact hab i j (hold ha i hi) (hold hb j hj)

end Others

theorem remove (name : String) : Ranked (history ++ [.remove name]) (o.remove name) where
  sound := h.sound.remove name
  entries := by
    have hc : (Change.remove name).name = name := rfl
    rw [h.sound.entries_remove]
    refine ⟨fun name' key => ?_, ?_, h.pairwise_others hc⟩
    · rw [h.mem_others_iff hc]
      simp [stands_concat]
    · exact h.sound.distinct_entries.sublist (List.filter_sublist.map _)

theorem insert (name : String) (key : Int) :
    Ranked (history ++ [.insert name key]) (o.insert name key) where
  sound := h.sound.insert name key
  entries := by
    have hc : (Change.insert name key).name = name := rfl
    refine ⟨fun name' key' => ?_, (h.sound.insert name key).distinct_entries, ?_⟩
    · rw [h.sound.entries_insert, List.mem_orderedInsert, h.mem_others_iff hc]
      simp [stands_concat, exists_or, eq_comm]
    · rw [h.sound.entries_insert]
      have hsorted := h.sound.ascending_entries.sublist
        (List.filter_sublist (p := fun e : String × Int => e.1 != name))
      -- The new entry stands by the last place, and those that it meets by earlier ones.
      have hplaces : ∀ b ∈ o.entries.filter (fun e => e.1 != name), ∀ i j,
          Stands (history ++ [.insert name key]) i name key →
          Stands (history ++ [.insert name key]) j b.1 b.2 → j < i := by
        intro b hb i j hi hj
        have hne : name ≠ b.1 := ((h.mem_others_iff hc b.1 b.2).mp hb).1
        have hlast : i = history.length := by simpa [stands_concat, Change.name] using hi
        have hj : Stands history j b.1 b.2 := by simpa [stands_concat, Change.name, hne] using hj
        exact hlast ▸ hj.place_lt
      refine pairwise_orderedInsert hsorted (fun _ _ => Int.le_trans)
        (h.pairwise_others hc) (fun b hb hle i j hi hj => ?_) fun b hb hlt i j hi hj => ?_
      · have hle : key ≤ b.2 := hle
        have hlater := hplaces b hb i j hi hj
        change key < b.2 ∨ (key = b.2 ∧ j < i)
        omega
      · have hlt : ¬ key ≤ b.2 := hlt
        change b.2 < key ∨ (b.2 = key ∧ j < i)
        omega

/-- **One change more** leaves an order ranked. -/
theorem change (c : Change) : Ranked (history ++ [c]) (o.change c) := by
  cases c with
  | insert name key => exact h.insert name key
  | remove name => exact h.remove name

end Ranked

/-- **Every history leaves an order ranked.** -/
theorem ranked_changeAll (history : List Change) : Ranked history (empty.changeAll history) := by
  induction history using List.reverseRecOn with
  | nil => exact ranked_empty
  | append_singleton history c ih =>
    rw [changeAll, List.foldl_append]
    exact ih.change c

/-! ## What an order tells -/

theorem take?_eq (o : Order) (name : String) :
    o.take? name = (o.keyOf? name).map fun key => (key, o.remove name) := by
  unfold remove take? keyOf?
  cases o.position? name with
  | none => rfl
  | some i => cases hkey : o.keys[i]? <;> simp [hkey]

/-- **The entries of an order are the ranking that its history leaves**, and no other list is. The
two lists of the order have one length, and all that it tells agrees with its entries: the names in
order, their number, whether a name is there, its key, and what taking it out gives and leaves. -/
theorem ranking_changeAll (history : List Change) :
    let o := empty.changeAll history
    (∀ es, o.entries = es ↔ IsRanking history es) ∧
    o.names.length = o.keys.length ∧
    (o.names = o.entries.map Prod.fst ∧ o.size = o.entries.length ∧
      (o.isEmpty = true ↔ o.entries = [])) ∧
    (∀ name, o.contains name = true ↔ ∃ key, (name, key) ∈ o.entries) ∧
    (∀ name key, o.keyOf? name = some key ↔ (name, key) ∈ o.entries) ∧
    ∀ name, (∀ key rest, o.take? name = some (key, rest) ↔
        (name, key) ∈ o.entries ∧ rest = o.remove name) ∧
      (o.remove name).entries = o.entries.filter fun e => e.1 != name := by
  intro o
  obtain ⟨hsound, hranking⟩ : Ranked history o := ranked_changeAll history
  have hnames : o.names = o.entries.map Prod.fst := hsound.map_fst_entries.symm
  refine ⟨fun es => ⟨fun hes => hes ▸ hranking, hranking.eq⟩, hsound.aligned, ⟨hnames, ?_, ?_⟩,
    fun name => ?_, fun name key => hsound.keyOf?_eq_some_iff, fun name => ⟨fun key rest => ?_,
      hsound.entries_remove name⟩⟩
  · rw [size, hnames, List.length_map]
  · rw [isEmpty, hnames, List.isEmpty_iff, List.map_eq_nil_iff]
  · rw [contains, hnames]
    simp
  · rw [take?_eq, ← hsound.keyOf?_eq_some_iff, Option.map_eq_some_iff]
    constructor
    · rintro ⟨key', hkey, hpair⟩
      obtain ⟨rfl, rfl⟩ := Prod.mk.inj hpair
      exact ⟨hkey, rfl⟩
    · rintro ⟨hkey, rfl⟩
      exact ⟨key, hkey, rfl⟩

/-- Of names with one key the last one comes first, and a name that is inserted again moves. -/
example : (empty.changeAll [.insert "Flash" 50, .insert "Run" 500, .insert "Boot" 50,
    .insert "Check" 50, .remove "Check", .insert "Flash" 500]).entries =
      [("Boot", 50), ("Flash", 500), ("Run", 500)] := by decide +kernel

end Qualification.Order
