import CacheServer.Text.Blank
import Mathlib.Data.List.DropRight
import Mathlib.Data.List.TakeDrop
import Mathlib.Data.List.TakeWhile

/-!
# Words, and texts without their outer blanks

The words of a text are the pieces between its blanks that are not empty (`words`), and `firstWord`
takes off the first of them (`words_eq_firstWord`). Trimming takes nothing but blanks: what stands
in front of a character that is no blank stays as it is (`trimEnd_append_cons`), and blanks put
around a text without blanks are taken off again (`trim_append_append`).
-/

namespace CacheServer.Text

/-- There is no blank among the visible characters of ASCII. -/
theorem isBlank_of_visible {c : Char} (hlow : 0x21 ≤ c.toNat) (hhigh : c.toNat < 0x7F) :
    isBlank c = false := by
  simp only [isBlank, Bool.or_eq_false_iff, Bool.and_eq_false_iff, decide_eq_false_iff_not,
    beq_eq_false_iff_ne]
  omega

/-- A written number has no blank in it. -/
theorem isBlank_of_mem_repr {n : Nat} : ∀ c ∈ (Nat.repr n).toList, isBlank c = false := by
  intro c hc
  rw [Nat.repr_eq_ofList_toDigits, String.toList_ofList] at hc
  obtain ⟨hlow, hhigh⟩ := Char.isDigit_iff_toNat.1
    (Nat.isDigit_of_mem_toDigits (by decide) (by decide) hc)
  have hlow : 48 ≤ c.toNat := hlow
  have hhigh : c.toNat ≤ 57 := hhigh
  exact isBlank_of_visible (by omega) (by omega)

/-! ## Words -/

/-- The words of a text, between its blanks. -/
def words (cs : List Char) : List (List Char) := (cs.splitOnP isBlank).filter (· ≠ [])

/-- No word runs across a blank. -/
theorem words_append_cons {c : Char} (hc : isBlank c = true) (front back : List Char) :
    words (front ++ c :: back) = words front ++ words back := by
  rw [words, List.splitOnP_append_cons front back hc, List.filter_append]
  rfl

/-- There is no word in an empty text. -/
theorem words_nil : words [] = [] := rfl

/-- A blank in front changes no word. -/
theorem words_cons_of_blank {c : Char} (hc : isBlank c = true) (back : List Char) :
    words (c :: back) = words back := by
  have h := words_append_cons hc [] back
  rwa [List.nil_append, words_nil, List.nil_append] at h

/-- What has no blank in it is one word. -/
theorem words_of_forall {w : List Char} (hne : w ≠ []) (h : ∀ c ∈ w, isBlank c = false) :
    words w = [w] := by
  rw [words, List.splitOnP_eq_singleton h]
  simp [hne]

/-- Blanks in front change no word. -/
theorem words_append_of_forall {blanks : List Char} (h : ∀ c ∈ blanks, isBlank c = true)
    (back : List Char) : words (blanks ++ back) = words back := by
  induction blanks with
  | nil => rfl
  | cons c blanks ih =>
    obtain ⟨hc, hblanks⟩ := List.forall_mem_cons.1 h
    rw [List.cons_append, words_cons_of_blank hc, ih hblanks]

/-- A text behind its first blanks: there is nothing left, or no blank in front. -/
theorem exists_trimStart (cs : List Char) :
    ∃ blanks, (∀ c ∈ blanks, isBlank c = true) ∧ cs = blanks ++ trimStart cs ∧
      ∀ c ∈ (trimStart cs).head?, isBlank c = false := by
  refine ⟨cs.takeWhile isBlank, fun c => List.mem_takeWhile_imp,
    List.takeWhile_append_dropWhile.symm, fun c hc => ?_⟩
  have hhead := List.head?_dropWhile_not isBlank cs
  rw [show cs.dropWhile isBlank = trimStart cs from rfl, hc] at hhead
  simpa using hhead

/-- A text is cut into blanks, its first word and what stands behind that: a blank and more, or
nothing. -/
theorem exists_firstWord (cs : List Char) :
    ∃ blanks, (∀ c ∈ blanks, isBlank c = true) ∧
      cs = blanks ++ ((firstWord cs).1 ++ (firstWord cs).2) ∧
      (∀ c ∈ (firstWord cs).1, isBlank c = false) ∧
      ∀ c ∈ (firstWord cs).2.head?, isBlank c = true := by
  obtain ⟨blanks, hblanks, hcs, -⟩ := exists_trimStart cs
  have hrest := List.head?_dropWhile_not (!isBlank ·) (trimStart cs)
  rw [firstWord, List.span_eq_takeWhile_dropWhile]
  refine ⟨blanks, hblanks, ?_, fun c hc => ?_, fun c hc => ?_⟩
  · rw [List.takeWhile_append_dropWhile, ← hcs]
  · simpa using List.mem_takeWhile_imp hc
  · rw [hc] at hrest
    simpa using hrest

/-- Without a first word there is nothing behind it. -/
theorem firstWord_snd_of_nil {cs : List Char} (h : (firstWord cs).1 = []) :
    (firstWord cs).2 = [] := by
  obtain ⟨-, -, -, hhead⟩ := exists_trimStart cs
  rw [firstWord, List.span_eq_takeWhile_dropWhile] at h ⊢
  cases htext : trimStart cs with
  | nil => rfl
  | cons c text =>
    rw [htext] at h hhead
    rw [List.takeWhile_cons_of_pos (by simp [hhead c rfl])] at h
    cases h

/-- The words are the first one, if there is one, and those behind it. -/
theorem words_eq_firstWord (cs : List Char) :
    words cs = if (firstWord cs).1 = [] then []
      else (firstWord cs).1 :: words (firstWord cs).2 := by
  obtain ⟨blanks, hblanks, hcs, hword, hrest⟩ := exists_firstWord cs
  have hnone := @firstWord_snd_of_nil cs
  conv_lhs => rw [hcs, words_append_of_forall hblanks]
  generalize firstWord cs = cut at hword hrest hnone ⊢
  obtain ⟨word, rest⟩ := cut
  split
  · next hnil => rw [hnil, hnone hnil, List.append_nil, words_nil]
  · next hne =>
    cases rest with
    | nil => rw [List.append_nil, words_of_forall hne hword, words_nil]
    | cons c rest =>
      have hblank : isBlank c = true := hrest c rfl
      rw [words_append_cons hblank, words_of_forall hne hword, words_cons_of_blank hblank]
      rfl

/-! ## Outer blanks -/

/-- Nothing is left of a text at its end exactly if it is blank. -/
theorem trimEnd_eq_nil_iff {cs : List Char} : trimEnd cs = [] ↔ ∀ c ∈ cs, isBlank c = true :=
  List.rdropWhile_eq_nil_iff

/-- Only what stands behind the last character that is no blank is taken off the end. -/
theorem trimEnd_append_cons {c : Char} (hc : isBlank c = false) (front back : List Char) :
    trimEnd (front ++ c :: back) = front ++ c :: trimEnd back := by
  induction back using List.reverseRecOn with
  | nil => exact List.rdropWhile_concat_neg isBlank front c (by simp [hc])
  | append_singleton back d ih =>
    rw [← List.cons_append, ← List.append_assoc]
    by_cases hd : isBlank d = true
    · have hfront := List.rdropWhile_concat_pos isBlank (front ++ c :: back) d hd
      have hback := List.rdropWhile_concat_pos isBlank back d hd
      exact hfront.trans (ih.trans (congrArg (front ++ c :: ·) hback.symm))
    · have hfront := List.rdropWhile_concat_neg isBlank (front ++ c :: back) d hd
      have hback := List.rdropWhile_concat_neg isBlank back d hd
      exact hfront.trans ((List.append_assoc _ _ _).trans (congrArg (front ++ c :: ·) hback.symm))

/-- To trim the end twice is to trim it once. -/
theorem trimEnd_trimEnd (cs : List Char) : trimEnd (trimEnd cs) = trimEnd cs :=
  List.rdropWhile_idempotent isBlank cs

/-- Blanks at the end are taken off together with those in front of them. -/
theorem trimEnd_append_of_forall {blanks : List Char} (h : ∀ c ∈ blanks, isBlank c = true)
    (front : List Char) : trimEnd (front ++ blanks) = trimEnd front := by
  rw [trimEnd, List.reverse_append, List.dropWhile_append_of_pos (by simpa using h)]
  rfl

/-- Of blanks, and what opens with none, the blanks are taken off the front. -/
theorem trimStart_append {blanks back : List Char} (hblanks : ∀ c ∈ blanks, isBlank c = true)
    (hback : ∀ c ∈ back.head?, isBlank c = false) : trimStart (blanks ++ back) = back := by
  rw [trimStart, List.dropWhile_append_of_pos hblanks]
  cases back with
  | nil => rfl
  | cons c back => exact List.dropWhile_cons_of_neg (by simp [hback c rfl])

/-- Trimming at both ends is not changed by trimming at the end before. -/
theorem trim_trimEnd (cs : List Char) : trim (trimEnd cs) = trim cs := by
  obtain ⟨blanks, hblanks, hcs, hhead⟩ := exists_trimStart cs
  cases htext : trimStart cs with
  | nil =>
    rw [htext, List.append_nil] at hcs
    have hend : trimEnd cs = [] := trimEnd_eq_nil_iff.2 (by rwa [hcs])
    rw [trim, trim, htext, hend]
    rfl
  | cons c text =>
    rw [htext] at hcs hhead
    have hc : isBlank c = false := hhead c rfl
    have hend : trimEnd cs = blanks ++ c :: trimEnd text := by rw [hcs, trimEnd_append_cons hc]
    rw [trim, trim, htext, hend, trimStart_append hblanks (by simpa using hc)]
    exact (trimEnd_append_cons hc [] _).trans
      ((congrArg (c :: ·) (trimEnd_trimEnd text)).trans (trimEnd_append_cons hc [] text).symm)

/-- Blanks behind a text are trimmed away. -/
theorem trim_append_of_forall {blanks : List Char} (h : ∀ c ∈ blanks, isBlank c = true)
    (front : List Char) : trim (front ++ blanks) = trim front := by
  rw [← trim_trimEnd, trimEnd_append_of_forall h, trim_trimEnd]

/-- Blanks around a text without blanks are taken off. -/
theorem trim_append_append {blanks w blanks' : List Char} (hblanks : ∀ c ∈ blanks, isBlank c = true)
    (hw : ∀ c ∈ w, isBlank c = false) (hblanks' : ∀ c ∈ blanks', isBlank c = true) :
    trim (blanks ++ w ++ blanks') = w := by
  rw [trim_append_of_forall hblanks', trim,
    trimStart_append hblanks fun c hc => hw c (List.mem_of_mem_head? hc)]
  rcases List.eq_nil_or_concat' w with rfl | ⟨front, last, rfl⟩
  · rfl
  · exact trimEnd_append_cons (hw last (by simp)) front []

end CacheServer.Text
