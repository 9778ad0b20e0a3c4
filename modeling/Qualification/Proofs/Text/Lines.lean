import Qualification.Text.Cut
import Qualification.Text.Utf8
/-!
# Lines of bytes

What the lines of a file are when whole lines are added at its end, and the bytes of a text.

* `splitAt_append_cons`, `splitOn_joinWith`: cutting goes part by part; `not_of_mem_splitAt`,
  `flatten_splitAt`: what is cut at is not in the parts, and all else is;
* `Closed`, `linesAt_append`: lines that are added to closed ones come after these;
* `decode?_bytes`, `mem_of_mem_bytes`: the bytes of a text are read again, and those of ASCII stand
  for nothing else;
* **`linesAt_bytes`**: a line of text is one line of bytes.
-/

namespace Qualification.Text

/-! ## Lines -/

section Lines

variable {α : Type}

theorem splitAt_ne_nil (p : α → Bool) (cs : List α) : splitAt p cs ≠ [] := by
  cases cs with
  | nil => simp [splitAt]
  | cons c cs =>
    simp only [splitAt]
    split
    · simp
    · split <;> simp

theorem splitAt_append_cons {p : α → Bool} {c : α} (h : p c = true) (a b : List α) :
    splitAt p (a ++ c :: b) = splitAt p a ++ splitAt p b := by
  induction a with
  | nil => simp [splitAt, h]
  | cons d a ih =>
    simp only [List.cons_append, splitAt, ih]
    split
    · rfl
    · cases hparts : splitAt p a with
      | nil => exact absurd hparts (splitAt_ne_nil p a)
      | cons part parts => rfl

theorem splitAt_of_none {p : α → Bool} {a : List α} (h : ∀ c ∈ a, p c = false) :
    splitAt p a = [a] := by
  induction a with
  | nil => rfl
  | cons c a ih =>
    have hc : p c = false := h c List.mem_cons_self
    simp [splitAt, hc, ih fun d hd => h d (List.mem_cons_of_mem c hd)]

theorem not_of_mem_splitAt {p : α → Bool} {cs part : List α} (h : part ∈ splitAt p cs) :
    ∀ c ∈ part, p c = false := by
  induction cs generalizing part with
  | nil =>
    obtain rfl := List.mem_singleton.mp h
    simp
  | cons c cs ih =>
    rw [splitAt] at h
    split at h
    next =>
      rcases List.mem_cons.mp h with rfl | h
      · simp
      · exact ih h
    next hc =>
      obtain ⟨first, parts, hcs⟩ := List.exists_cons_of_ne_nil (splitAt_ne_nil p cs)
      rw [hcs] at h ih
      rcases List.mem_cons.mp h with rfl | h
      · exact List.forall_mem_cons.mpr ⟨by simpa using hc, ih List.mem_cons_self⟩
      · exact ih (List.mem_cons_of_mem first h)

/-- Nothing is lost but what is cut at. -/
theorem flatten_splitAt (p : α → Bool) (cs : List α) :
    (splitAt p cs).flatten = cs.filter fun c => !p c := by
  induction cs with
  | nil => rfl
  | cons c cs ih =>
    obtain ⟨first, parts, hcs⟩ := List.exists_cons_of_ne_nil (splitAt_ne_nil p cs)
    rw [hcs] at ih
    by_cases hc : p c
    · simpa [splitAt, hc, hcs] using ih
    · simpa [splitAt, hc, hcs] using ih

/-- Texts that are joined are found again, if none of them has the separator in it. -/
theorem splitOn_joinWith {c : Char} {sep : String} (hsep : sep.toList = [c]) {ls : List String}
    (hne : ls ≠ []) (h : ∀ l ∈ ls, c ∉ l.toList) : splitOn c (joinWith sep ls) = ls := by
  have hsplit : ∀ l : String, c ∉ l.toList → splitAt (· == c) l.toList = [l.toList] :=
    fun l hl => splitAt_of_none fun d hd => beq_eq_false_iff_ne.mpr fun heq => hl (heq ▸ hd)
  induction ls with
  | nil => exact absurd rfl hne
  | cons l ls ih =>
    obtain ⟨hl, hls⟩ := List.forall_mem_cons.mp h
    cases ls with
    | nil => rw [joinWith, splitOn, hsplit l hl, List.map_singleton, String.ofList_toList]
    | cons l' ls =>
      have hjoin : (joinWith sep (l :: l' :: ls)).toList =
          l.toList ++ c :: (joinWith sep (l' :: ls)).toList := by
        simp [joinWith, hsep]
      have hrest : splitOn c (joinWith sep (l' :: ls)) = l' :: ls := ih (List.cons_ne_nil l' ls) hls
      rw [splitOn, hjoin, splitAt_append_cons (p := (· == c)) (beq_self_eq_true c), hsplit l hl,
        List.map_append, List.map_singleton, String.ofList_toList]
      exact congrArg (l :: ·) hrest

/-- Whether the last line has its end. -/
def Closed (feed : α) (cs : List α) : Prop := cs = [] ∨ ∃ front, cs = front ++ [feed]

theorem Closed.append {feed : α} {a b : List α} (ha : Closed feed a) (hb : Closed feed b) :
    Closed feed (a ++ b) := by
  rcases hb with rfl | ⟨front, rfl⟩
  · simpa using ha
  · exact .inr ⟨a ++ front, by simp⟩

variable [DecidableEq α] {feed return_ : α}

/-- **Lines that are added to closed ones** come after these, and these stay. -/
theorem linesAt_append {a : List α} (h : Closed feed a) (b : List α) :
    linesAt feed return_ (a ++ b) = linesAt feed return_ a ++ linesAt feed return_ b := by
  rcases h with rfl | ⟨front, rfl⟩
  · simp [linesAt, splitAt]
  · have hcut : ∀ b : List α, splitAt (fun c => decide (c = feed)) (front ++ feed :: b) =
        splitAt (fun c => decide (c = feed)) front ++ splitAt (fun c => decide (c = feed)) b :=
      splitAt_append_cons (by simp) front
    obtain ⟨parts, last, hb⟩ : ∃ parts last,
        splitAt (fun c => decide (c = feed)) b = parts ++ [last] := by
      rcases List.eq_nil_or_concat (splitAt (fun c => decide (c = feed)) b) with h | ⟨ps, p, h⟩
      · exact absurd h (splitAt_ne_nil _ b)
      · exact ⟨ps, p, h.trans List.concat_eq_append⟩
    have hnil : splitAt (fun c => decide (c = feed)) ([] : List α) = [[]] := rfl
    rw [List.append_assoc, List.singleton_append]
    simp only [linesAt, hcut, hb, hnil, ← List.append_assoc, List.dropLast_concat,
      List.getLast?_concat, List.map_append]
    simp

/-- A line without the character that may stand before its end. -/
def dropReturn (return_ : α) (cs : List α) : List α := (dropSuffix? [return_] cs).getD cs

theorem linesAt_singleton {a : List α} (h : feed ∉ a) :
    linesAt feed return_ (a ++ [feed]) = [dropReturn return_ a] := by
  have hfree : ∀ c ∈ a, decide (c = feed) = false := by
    intro c hc
    simpa using fun heq : c = feed => h (heq ▸ hc)
  have hcut : splitAt (fun c => decide (c = feed)) (a ++ [feed]) = [a, []] := by
    rw [splitAt_append_cons (by simp), splitAt_of_none hfree]
    rfl
  simp [linesAt, hcut, dropReturn]

theorem dropReturn_concat (a : List α) : dropReturn return_ (a ++ [return_]) = a := by
  simp [dropReturn, dropSuffix?, dropPrefix?]

theorem dropReturn_of_ne {a : List α} (h : ∀ c ∈ a.getLast?, c ≠ return_) :
    dropReturn return_ a = a := by
  rcases List.eq_nil_or_concat a with rfl | ⟨front, c, rfl⟩
  · rfl
  · have hc : return_ ≠ c := Ne.symm (h c (by simp))
    simp [dropReturn, dropSuffix?, dropPrefix?, hc]

theorem mem_of_mem_dropReturn {a : List α} {c : α} (h : c ∈ dropReturn return_ a) : c ∈ a := by
  rcases List.eq_nil_or_concat a with rfl | ⟨front, d, rfl⟩
  · exact h
  · rw [List.concat_eq_append] at h ⊢
    by_cases hd : d = return_
    · subst hd
      rw [dropReturn_concat] at h
      exact List.mem_append_left _ h
    · rwa [dropReturn_of_ne (by simpa using hd)] at h

end Lines

/-! ## Bytes -/

/-- The bytes of a text. -/
def bytes (s : String) : List UInt8 := (encode s).data.toList

theorem bytes_eq_flatMap (s : String) : bytes s = s.toList.flatMap String.utf8EncodeChar := by
  have h : encode s = s.toList.utf8Encode := String.utf8Encode_toList.symm
  rw [bytes, h, List.utf8Encode]
  simp

theorem bytes_append (s t : String) : bytes (s ++ t) = bytes s ++ bytes t := by
  simp [bytes_eq_flatMap]

/-- **Text is read from its bytes.** -/
theorem decode?_bytes (s : String) : decode? ⟨(bytes s).toArray⟩ = some s := by
  have h : (encode s).IsValidUTF8 := s.isValidUTF8
  have hbytes : (⟨(bytes s).toArray⟩ : ByteArray) = encode s := by simp [bytes]
  rw [hbytes, decode?, String.fromUTF8?, dif_pos h]
  rfl

/-- A byte of ASCII is a character of its own. -/
theorem eq_of_mem_utf8EncodeChar {c : Char} {b : UInt8} (h : b ∈ String.utf8EncodeChar c)
    (hb : b.toNat < 128) : String.utf8EncodeChar c = [b] ∧ b.toNat = c.toNat := by
  unfold String.utf8EncodeChar at h ⊢
  simp only at h ⊢
  split at h
  next hlt =>
    have hval : c.val.toNat = c.toNat := rfl
    obtain rfl := List.mem_singleton.mp h
    simp only [hlt, if_true, UInt8.toNat_ofNat', true_and]
    omega
  -- All bytes of other characters are 128 or more.
  split at h
  next =>
    simp only [List.mem_cons, List.not_mem_nil, or_false] at h
    rcases h with rfl | rfl <;> simp at hb <;> omega
  split at h
  next =>
    simp only [List.mem_cons, List.not_mem_nil, or_false] at h
    rcases h with rfl | rfl | rfl <;> simp at hb <;> omega
  next =>
    simp only [List.mem_cons, List.not_mem_nil, or_false] at h
    rcases h with rfl | rfl | rfl | rfl <;> simp at hb <;> omega

theorem mem_of_mem_bytes {s : String} {b : UInt8} (h : b ∈ bytes s) {c : Char}
    (hc : b.toNat = c.toNat) (hascii : c.toNat < 128) : c ∈ s.toList := by
  rw [bytes_eq_flatMap] at h
  obtain ⟨d, hd, hb⟩ := List.mem_flatMap.mp h
  have hd' := (eq_of_mem_utf8EncodeChar hb (by omega)).2
  rwa [Char.toNat_inj.mp (hc.symm.trans hd')]

/-- A text without the carriage return that may stand at its end. -/
def withoutReturn (s : String) : String := String.ofList (dropReturn '\r' s.toList)

theorem withoutReturn_of_notMem {s : String} (h : '\r' ∉ s.toList) : withoutReturn s = s := by
  rw [withoutReturn, dropReturn_of_ne, String.ofList_toList]
  rintro c hc rfl
  exact h (List.mem_of_getLast? hc)

/-- A blank text is blank without its carriage return. -/
theorem isBlankText_withoutReturn {s : String} (h : isBlankText s = true) :
    isBlankText (withoutReturn s) = true := by
  rw [isBlankText, List.all_eq_true] at h ⊢
  intro c hc
  exact h c (mem_of_mem_dropReturn (by simpa [withoutReturn] using hc))

theorem dropReturn_bytes (s : String) : dropReturn 13 (bytes s) = bytes (withoutReturn s) := by
  rcases List.eq_nil_or_concat s.toList with hs | ⟨front, c, hs⟩
  · rw [withoutReturn, bytes_eq_flatMap, bytes_eq_flatMap, hs]
    rfl
  · rw [withoutReturn, bytes_eq_flatMap, bytes_eq_flatMap, hs, List.concat_eq_append,
      String.toList_ofList, List.flatMap_append, List.flatMap_singleton]
    by_cases hc : c = '\r'
    · subst hc
      rw [dropReturn_concat]
      exact dropReturn_concat _
    · rw [dropReturn_of_ne (a := front ++ [c]) (by simpa using hc), dropReturn_of_ne]
      · simp
      · rintro b hb rfl
        rw [List.getLast?_append, Option.or_of_isSome (by simp)] at hb
        have hsame := (eq_of_mem_utf8EncodeChar (List.mem_of_getLast? hb) (by decide)).2
        exact hc (Char.toNat_inj.mp hsame.symm)

/-- **A line of text is one line of bytes.** -/
theorem linesAt_bytes {s : String} (h : '\n' ∉ s.toList) :
    linesAt 10 13 (bytes (s ++ "\n")) = [bytes (withoutReturn s)] := by
  have hend : bytes "\n" = [10] := by decide
  have hfree : (10 : UInt8) ∉ bytes s := fun h10 => h (mem_of_mem_bytes h10 rfl (by decide))
  rw [bytes_append, hend, linesAt_singleton hfree, dropReturn_bytes]

end Qualification.Text
