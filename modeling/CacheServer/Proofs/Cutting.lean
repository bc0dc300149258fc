import CacheServer.Bytes
import Mathlib.Data.List.Infix
import Mathlib.Data.List.TakeDrop
import Mathlib.Data.List.TakeWhile

/-!
# Where byte strings are cut

Each way of cutting is characterised by what is put together again. `splitFirst` cuts at the first
occurrence (`splitFirst_eq_some_iff`, `splitFirst_eq_none_iff`), `splitAt` is `List.splitOn`, and
`lines` peels off one line at a time (`lines_line_append`). A line holds no line end
(`crlf_not_infix_of_mem_lines`), so the lines are what the line ends stand between (`areLines_iff`),
and lines that were written with their line ends are read back as they were
(`lines_dropEnding_flatMap`).
-/

namespace CacheServer

/-- What stands in a list with one more element at its end is that element, or stands in the list
before it. -/
theorem append_singleton_eq_append_cons {α : Type} {earlier later list : List α} {a last : α}
    (h : list ++ [a] = earlier ++ last :: later) :
    (later = [] ∧ last = a ∧ earlier = list) ∨
      ∃ front, later = front ++ [a] ∧ list = earlier ++ last :: front := by
  rcases List.eq_nil_or_concat' later with rfl | ⟨front, back, rfl⟩
  · obtain ⟨hlist, hlast⟩ := List.append_inj' h rfl
    exact .inl ⟨rfl, (List.singleton_inj.1 hlast).symm, hlist.symm⟩
  · rw [← List.cons_append, ← List.append_assoc] at h
    obtain ⟨hlist, hback⟩ := List.append_inj' h rfl
    rw [List.singleton_inj.1 hback]
    exact .inr ⟨front, rfl, hlist⟩

/-- A list is cut in front of the first occurrence of an element. -/
theorem span_bne_append {α : Type} [BEq α] [LawfulBEq α] {a : α} {front : List α} (h : a ∉ front)
    (rest : List α) : (front ++ a :: rest).span (· != a) = (front, a :: rest) := by
  have hfront : ∀ b ∈ front, (b != a) = true := fun b hb => by
    simpa using fun heq : b = a => h (heq ▸ hb)
  rw [List.span_eq_takeWhile_dropWhile, List.takeWhile_append_of_pos hfront,
    List.dropWhile_append_of_pos hfront]
  simp

/-- Where a separator does not occur, all of a list stands in front of it. -/
theorem span_bne_of_not_mem {α : Type} [BEq α] [LawfulBEq α] {a : α} {list : List α}
    (h : a ∉ list) : list.span (· != a) = (list, []) := by
  have hlist : ∀ b ∈ list, (b != a) = true := fun b hb => by
    simpa using fun heq : b = a => h (heq ▸ hb)
  rw [List.span_eq_takeWhile_dropWhile, List.takeWhile_eq_self_iff.2 hlist,
    List.dropWhile_eq_nil_iff.2 hlist]

namespace Bytes

/-! ## At the first occurrence -/

/-- The bytes that were passed stand in front of the first piece. -/
theorem splitFirst.go_eq_map (sep passed bs : Bytes) :
    splitFirst.go sep passed bs =
      (splitFirst sep bs).map fun cut => (passed.reverse ++ cut.1, cut.2) := by
  have key : ∀ (bs more passed : Bytes), splitFirst.go sep (more ++ passed) bs =
      (splitFirst.go sep more bs).map fun cut => (passed.reverse ++ cut.1, cut.2) := by
    intro bs
    induction bs with
    | nil => intro more passed; unfold splitFirst.go; split <;> simp
    | cons b rest ih =>
      intro more passed
      unfold splitFirst.go
      split
      · simp
      · exact ih (b :: more) passed
  exact key bs [] passed

/-- There is no separator in nothing. -/
theorem splitFirst_nil {sep : Bytes} (hsep : sep ≠ []) : splitFirst sep [] = none := by
  simp [splitFirst, splitFirst.go, hsep]

/-- A separator at the front ends the search. -/
theorem splitFirst_at_front {sep bs : Bytes} (hsep : sep ≠ []) (h : sep <+: bs) :
    splitFirst sep bs = some ([], bs.drop sep.length) := by
  cases bs with
  | nil => exact absurd (List.prefix_nil.1 h) hsep
  | cons b rest => simp [splitFirst, splitFirst.go, h]

/-- A byte that opens no separator belongs to what stands before it. -/
theorem splitFirst_cons {sep : Bytes} {b : UInt8} {rest : Bytes} (h : ¬ sep <+: b :: rest) :
    splitFirst sep (b :: rest) =
      (splitFirst sep rest).map fun cut => (b :: cut.1, cut.2) := by
  have hgo : splitFirst sep (b :: rest) = splitFirst.go sep [b] rest := by
    simp [splitFirst, splitFirst.go, h]
  rw [hgo, splitFirst.go_eq_map]
  rfl

/-- There is no cut exactly if the separator does not occur. -/
theorem splitFirst_eq_none_iff {sep bs : Bytes} (hsep : sep ≠ []) :
    splitFirst sep bs = none ↔ ¬ sep <:+: bs := by
  induction bs with
  | nil => simp [splitFirst_nil hsep, hsep]
  | cons b rest ih =>
    by_cases h : sep <+: b :: rest
    · simp [splitFirst_at_front hsep h, h.isInfix]
    · rw [splitFirst_cons h, Option.map_eq_none_iff, ih, List.infix_cons_iff]
      simp [h]

/-- Whether a separator stands at the front is decided before the last byte of the next one. -/
theorem prefix_cons_append_iff {sep before after : Bytes} {b : UInt8} :
    sep <+: b :: before ++ sep ++ after ↔ sep <+: b :: before ++ sep.dropLast := by
  have hcut : b :: before ++ sep.dropLast <+: b :: before ++ sep ++ after := by
    rw [List.append_assoc]
    exact List.prefix_append_right_inj _ |>.2 ((List.dropLast_prefix sep).trans ⟨after, rfl⟩)
  refine ⟨fun h => List.prefix_of_prefix_length_le h hcut ?_, fun h => h.trans hcut⟩
  simp only [List.length_append, List.length_cons, List.length_dropLast]
  omega

/-- A cut is one at the first occurrence: the separator does not begin any earlier. -/
theorem splitFirst_eq_some_iff {sep bs before after : Bytes} (hsep : sep ≠ []) :
    splitFirst sep bs = some (before, after) ↔
      bs = before ++ sep ++ after ∧ ¬ sep <:+: before ++ sep.dropLast := by
  have short : ¬ sep <:+: sep.dropLast := fun h => by
    have := h.length_le
    have := List.length_pos_iff.2 hsep
    simp only [List.length_dropLast] at *
    omega
  induction bs generalizing before with
  | nil => simp [splitFirst_nil hsep, hsep]
  | cons b rest ih =>
    by_cases h : sep <+: b :: rest
    · rw [splitFirst_at_front hsep h, Option.some.injEq, Prod.mk.injEq]
      constructor
      · rintro ⟨rfl, rfl⟩
        obtain ⟨after, hafter⟩ := h
        exact ⟨by simp [← hafter], short⟩
      · rintro ⟨hbs, hfirst⟩
        cases before with
        | nil => simp [hbs]
        | cons c before =>
          rw [hbs, prefix_cons_append_iff] at h
          exact absurd h.isInfix hfirst
    · rw [splitFirst_cons h]
      cases before with
      | nil =>
        simp only [Option.map_eq_some_iff, Prod.mk.injEq, List.cons_ne_nil, false_and, and_false,
          exists_false, List.nil_append, false_iff, not_and]
        exact fun hbs => absurd ⟨after, hbs.symm⟩ h
      | cons c before =>
        have hcons : (splitFirst sep rest).map (fun cut => (b :: cut.1, cut.2)) =
            some (c :: before, after) ↔ b = c ∧ splitFirst sep rest = some (before, after) := by
          simp [Option.map_eq_some_iff, and_comm]
        refine (hcons.trans (and_congr_right fun _ => ih)).trans ⟨?_, ?_⟩
        · rintro ⟨rfl, rfl, hfirst⟩
          refine ⟨rfl, fun hin => ?_⟩
          rcases List.infix_cons_iff.1 hin with hp | hin
          · exact h (prefix_cons_append_iff.2 hp)
          · exact hfirst hin
        · rintro ⟨hbs, hfirst⟩
          obtain ⟨rfl, hrest⟩ := List.cons.inj hbs
          exact ⟨rfl, hrest, fun hin => hfirst (hin.trans (List.suffix_cons b _).isInfix)⟩

/-- A byte that ends no separator adds no occurrence. -/
theorem infix_concat_iff_of_getLast? {sep bs : Bytes} {b : UInt8} (h : sep.getLast? ≠ some b) :
    sep <:+: bs ++ [b] ↔ sep <:+: bs := by
  rw [List.infix_concat_iff, or_iff_right_of_imp]
  rintro hsuffix
  rcases List.eq_nil_or_concat' sep with rfl | ⟨front, last, rfl⟩
  · exact List.nil_infix
  · obtain ⟨before, hbefore⟩ := hsuffix
    have hlast := congrArg List.getLast? hbefore
    rw [← List.append_assoc] at hlast
    simp at hlast
    simp [hlast] at h

/-- No separator begins where its first byte does not stand. -/
theorem cons_infix_append_iff {sep front rest : Bytes} {b : UInt8} (h : b ∉ front) :
    b :: sep <:+: front ++ rest ↔ b :: sep <:+: rest := by
  induction front with
  | nil => rfl
  | cons c front ih =>
    obtain ⟨hc, hfront⟩ := not_or.1 (mt List.mem_cons.2 h)
    rw [List.cons_append, List.infix_cons_iff, ih hfront, or_iff_right]
    intro hopens
    exact hc (List.cons_prefix_cons.1 hopens).1

/-! ## At every occurrence of a byte -/

/-- To cut at a byte is what the library's cut at a byte is. -/
theorem splitAt_eq_splitOn (sep : UInt8) (bs : Bytes) : splitAt sep bs = bs.splitOn sep := by
  induction bs with
  | nil => simp [splitAt]
  | cons b rest ih =>
    unfold splitAt at ih ⊢
    rw [List.foldr_cons, ih, List.splitOn_cons_eq_if_modifyHead]
    simp only [beq_iff_eq]
    split
    · rfl
    · cases h : rest.splitOn sep with
      | nil => exact absurd h (List.splitOn_ne_nil sep rest)
      | cons piece others => rfl

/-- The pieces are what the separators stand between. -/
theorem splitAt_eq_iff {sep : UInt8} {bs : Bytes} {pieces : List Bytes} (hne : pieces ≠ []) :
    splitAt sep bs = pieces ↔ bs = [sep].intercalate pieces ∧ ∀ p ∈ pieces, sep ∉ p := by
  rw [splitAt_eq_splitOn]
  constructor
  · rintro rfl
    refine ⟨(List.intercalate_splitOn sep).symm, ?_⟩
    clear hne
    induction bs with
    | nil => simp
    | cons b rest ih =>
      rw [List.splitOn_cons_eq_if_modifyHead]
      split
      · simpa using ih
      · next hb =>
        have hb : b ≠ sep := by simpa using hb
        cases h : rest.splitOn sep with
        | nil => simp
        | cons piece others =>
          rw [h] at ih
          simpa [hb.symm] using ih
  · rintro ⟨rfl, hfree⟩
    exact List.splitOn_intercalate sep hfree hne

/-- The first piece is what stands before the first separator. -/
theorem exists_splitAt_eq_cons (sep : UInt8) (bs : Bytes) :
    ∃ others, splitAt sep bs = bs.takeWhile (· ≠ sep) :: others := by
  induction bs with
  | nil => exact ⟨[], rfl⟩
  | cons b rest ih =>
    obtain ⟨others, ih⟩ := ih
    unfold splitAt at ih ⊢
    rw [List.foldr_cons, ih]
    by_cases hb : b = sep
    · exact ⟨rest.takeWhile (· ≠ sep) :: others, by simp [hb]⟩
    · exact ⟨others, by simp [hb]⟩

/-! ## At an ending -/

/-- An ending behind some bytes is dropped. -/
@[simp] theorem dropEnding_append (ending bs : Bytes) : dropEnding ending (bs ++ ending) = bs := by
  simp [dropEnding]

/-- Bytes without the ending stay. -/
theorem dropEnding_of_not_suffix {ending bs : Bytes} (h : ¬ ending <:+ bs) :
    dropEnding ending bs = bs := by
  simp [dropEnding, h]

/-- The ending is left off once or was not there. -/
theorem eq_or_eq_append_dropEnding (ending bs : Bytes) :
    bs = dropEnding ending bs ++ ending ∨ ¬ ending <:+ bs ∧ bs = dropEnding ending bs := by
  by_cases h : ending <:+ bs
  · obtain ⟨front, rfl⟩ := h
    simp
  · exact .inr ⟨h, (dropEnding_of_not_suffix h).symm⟩

/-- With the ending put back, every byte string has it. -/
theorem dropEnding_append_ending (ending bs : Bytes) :
    dropEnding ending bs ++ ending = if ending <:+ bs then bs else bs ++ ending := by
  rcases eq_or_eq_append_dropEnding ending bs with h | ⟨hnot, h⟩
  · rw [← h, if_pos ⟨_, h.symm⟩]
  · rw [← h, if_neg hnot]

/-- An ending is looked for only behind what is at least as long. -/
theorem dropEnding_append_of_length_le {ending rest : Bytes} (front : Bytes)
    (h : ending.length ≤ rest.length) :
    dropEnding ending (front ++ rest) = front ++ dropEnding ending rest := by
  rcases eq_or_eq_append_dropEnding ending rest with hrest | ⟨hnot, hrest⟩
  · conv_lhs => rw [hrest, ← List.append_assoc, dropEnding_append]
  · have hnot' : ¬ ending <:+ front ++ rest := fun hsuffix =>
      hnot (List.suffix_of_suffix_length_le hsuffix (List.suffix_append front rest) h)
    rw [← hrest, dropEnding_of_not_suffix hnot']

/-! ## At line ends -/

/-- A line end is not empty. -/
theorem crlf_ne_nil : crlf ≠ [] := by decide

/-- A line end in front stays there, unless it is all there is. -/
theorem dropEnding_crlf_append (bs : Bytes) :
    dropEnding crlf (crlf ++ bs) = [] ∨ ∃ left, dropEnding crlf (crlf ++ bs) = crlf ++ left := by
  rcases eq_or_eq_append_dropEnding crlf (crlf ++ bs) with h | ⟨-, h⟩
  · match hdrop : dropEnding crlf (crlf ++ bs) with
    | [] => exact .inl rfl
    | [b] =>
      rw [hdrop] at h
      simp [crlf] at h
    | b :: c :: left =>
      rw [hdrop] at h
      simp only [crlf, List.cons_append, List.cons.injEq] at h
      obtain ⟨rfl, rfl, -⟩ := h
      exact .inr ⟨left, rfl⟩
  · exact .inr ⟨bs, h.symm⟩

/-- A carriage return at the end opens no line end. -/
theorem crlf_infix_append_dropLast {line : Bytes} :
    crlf <:+: line ++ crlf.dropLast ↔ crlf <:+: line :=
  infix_concat_iff_of_getLast? (by decide)

/-- Where no carriage return stands, no line end begins. -/
theorem crlf_infix_append_iff {front rest : Bytes} (h : 13 ∉ front) :
    crlf <:+: front ++ rest ↔ crlf <:+: rest :=
  cons_infix_append_iff h

/-- Without a carriage return there is no line end. -/
theorem crlf_not_infix_of_not_mem {bs : Bytes} (h : 13 ∉ bs) : ¬ crlf <:+: bs := by
  rw [← List.append_nil bs, crlf_infix_append_iff h]
  decide

/-- A byte that is part of no line end keeps apart what stands on its two sides. -/
theorem crlf_not_infix_append_cons {front rest : Bytes} {b : UInt8} (hb : b ∉ crlf)
    (hfront : ¬ crlf <:+: front) (hrest : ¬ crlf <:+: rest) : ¬ crlf <:+: front ++ b :: rest := by
  rw [List.infix_append_iff, List.infix_cons_iff]
  rintro (h | (h | h) | ⟨left, right, hcut, hleft, hright⟩)
  · exact hfront h
  · exact hb ((List.cons_prefix_cons.1 h).1 ▸ List.mem_cons_self)
  · exact hrest h
  · cases right with
    | nil =>
      rw [List.append_nil] at hcut
      exact hfront (hcut ▸ hleft.isInfix)
    | cons c right =>
      rw [List.cons_prefix_cons] at hright
      rw [hright.1] at hcut
      exact hb (hcut ▸ by simp)

/-- The cut at the first line end. -/
theorem splitFirst_crlf_eq_some_iff {bs line rest : Bytes} :
    splitFirst crlf bs = some (line, rest) ↔ bs = line ++ crlf ++ rest ∧ ¬ crlf <:+: line := by
  rw [splitFirst_eq_some_iff crlf_ne_nil, crlf_infix_append_dropLast]

/-- One more byte in front goes into the first line or ends it. -/
theorem lines_cons (b : UInt8) (rest : Bytes) : lines (b :: rest) = consLine b (lines rest) := rfl

/-- Unless the two make a line end, a byte goes in front of the first line. -/
theorem consLine_of_not_crlf {b : UInt8} {line : Bytes} {others : List Bytes}
    (h : ¬ (b = 13 ∧ line.head? = some 10)) :
    consLine b (line :: others) = (b :: line) :: others := by
  unfold consLine
  split <;> simp_all

/-- There is a first line, and if it holds anything it opens as the byte string does. -/
theorem exists_lines_eq_cons (bs : Bytes) :
    ∃ line others, lines bs = line :: others ∧ ∀ c ∈ line.head?, c ∈ bs.head? := by
  cases bs with
  | nil => exact ⟨[], [], rfl, by simp⟩
  | cons b rest =>
    rw [lines_cons]
    fun_cases consLine b (lines rest) with
    | case1 => exact ⟨[b], [], rfl, by simp⟩
    | case2 line others => exact ⟨[], line :: others, rfl, by simp⟩
    | case3 line others hb => exact ⟨b :: 10 :: line, others, rfl, by simp⟩
    | case4 line others hline => exact ⟨b :: line, others, rfl, by simp⟩

/-- A line end opens a new line. -/
theorem lines_crlf_append (bs : Bytes) : lines (crlf ++ bs) = [] :: lines bs := by
  show consLine 13 (consLine 10 (lines bs)) = _
  obtain ⟨line, others, h, -⟩ := exists_lines_eq_cons bs
  rw [h, consLine_of_not_crlf (by simp)]
  rfl

/-- A byte that opens no line end belongs to the first line. -/
theorem lines_cons_of_not_crlf {b : UInt8} {rest line : Bytes} {others : List Bytes}
    (hfree : ¬ crlf <+: b :: rest) (h : lines rest = line :: others) :
    lines (b :: rest) = (b :: line) :: others := by
  rw [lines_cons, h]
  refine consLine_of_not_crlf ?_
  rintro ⟨rfl, hline⟩
  obtain ⟨line', others', h', hhead⟩ := exists_lines_eq_cons rest
  rw [h] at h'
  obtain ⟨rfl, rfl⟩ := List.cons.inj h'
  obtain ⟨rest', rfl⟩ := List.head?_eq_some_iff.1 (hhead 10 hline)
  exact hfree ⟨rest', rfl⟩

/-- A byte string without a line end is one line. -/
theorem lines_eq_singleton {bs : Bytes} (h : ¬ crlf <:+: bs) : lines bs = [bs] := by
  induction bs with
  | nil => rfl
  | cons b rest ih =>
    rw [List.infix_cons_iff, not_or] at h
    exact lines_cons_of_not_crlf h.1 (ih h.2)

/-- A line with its line end is the first of the lines. -/
theorem lines_line_append {line : Bytes} (h : ¬ crlf <:+: line) (rest : Bytes) :
    lines (line ++ crlf ++ rest) = line :: lines rest := by
  induction line with
  | nil => exact lines_crlf_append rest
  | cons b line ih =>
    have hline : ¬ crlf <:+: line := fun hin => h (List.infix_cons_iff.2 (.inr hin))
    refine lines_cons_of_not_crlf (fun hfront => ?_) (ih hline)
    have hdrop : crlf <+: b :: line ++ crlf.dropLast :=
      prefix_cons_append_iff.1 (by simpa using hfront)
    exact h (crlf_infix_append_dropLast.1 hdrop.isInfix)

/-- The lines are peeled off one by one, each at the first line end. -/
theorem lines_eq_splitFirst (bs : Bytes) :
    lines bs = match splitFirst crlf bs with
      | none => [bs]
      | some (line, rest) => line :: lines rest := by
  cases h : splitFirst crlf bs with
  | none => exact lines_eq_singleton ((splitFirst_eq_none_iff crlf_ne_nil).1 h)
  | some cut =>
    obtain ⟨rfl, hline⟩ := splitFirst_crlf_eq_some_iff.1 h
    exact lines_line_append hline cut.2

/-- A line holds no line end. -/
theorem crlf_not_infix_of_mem_lines {bs line : Bytes} (h : line ∈ lines bs) :
    ¬ crlf <:+: line := by
  rw [lines_eq_splitFirst] at h
  split at h
  · next hnone =>
    rw [List.mem_singleton.1 h]
    exact (splitFirst_eq_none_iff crlf_ne_nil).1 hnone
  · next first rest hsome =>
    obtain ⟨hbs, hfirst⟩ := splitFirst_crlf_eq_some_iff.1 hsome
    rcases List.mem_cons.1 h with rfl | hrest
    · exact hfirst
    · exact crlf_not_infix_of_mem_lines hrest
termination_by bs.length
decreasing_by
  subst hbs
  simp only [List.length_append, show crlf.length = 2 from rfl]
  omega

/-- With line ends between them, the lines are the byte string again. -/
theorem intercalate_lines (bs : Bytes) : crlf.intercalate (lines bs) = bs := by
  rw [lines_eq_splitFirst]
  split
  · exact List.intercalate_singleton
  · next line rest hsome =>
    obtain ⟨hbs, -⟩ := splitFirst_crlf_eq_some_iff.1 hsome
    obtain ⟨next, others, hrest, -⟩ := exists_lines_eq_cons rest
    have ih := intercalate_lines rest
    rw [hrest] at ih ⊢
    rw [List.intercalate_cons_cons, ih, hbs]
termination_by bs.length
decreasing_by
  subst hbs
  simp only [List.length_append, show crlf.length = 2 from rfl]
  omega

/-- The lines of a byte string: it is made up of them, with line ends between them, and none of them
holds a line end. -/
structure AreLines (ls : List Bytes) (bs : Bytes) : Prop where
  ne_nil : ls ≠ []
  eq_intercalate : bs = crlf.intercalate ls
  line_free : ∀ l ∈ ls, ¬ crlf <:+: l

/-- The lines of bytes are the only ones that these can be made of. -/
theorem areLines_iff {ls : List Bytes} {bs : Bytes} : AreLines ls bs ↔ lines bs = ls := by
  constructor
  · rintro ⟨hne, rfl, hfree⟩
    induction ls with
    | nil => exact absurd rfl hne
    | cons line ls ih =>
      obtain ⟨hline, hls⟩ := List.forall_mem_cons.1 hfree
      cases ls with
      | nil => rw [List.intercalate_singleton, lines_eq_singleton hline]
      | cons next ls =>
        rw [List.intercalate_cons_cons, lines_line_append hline, ih (List.cons_ne_nil _ _) hls]
  · rintro rfl
    obtain ⟨line, others, hlines, -⟩ := exists_lines_eq_cons bs
    exact ⟨by simp [hlines], (intercalate_lines bs).symm, fun l => crlf_not_infix_of_mem_lines⟩

/-- Bytes are empty if they have one line and this is empty. -/
theorem AreLines.eq_nil_iff {line bs : Bytes} {others : List Bytes}
    (h : AreLines (line :: others) bs) : bs = [] ↔ line = [] ∧ others = [] := by
  constructor
  · rintro rfl
    obtain ⟨rfl, rfl⟩ := List.cons.inj (areLines_iff.1 h)
    exact ⟨rfl, rfl⟩
  · rintro ⟨rfl, rfl⟩
    rw [h.eq_intercalate, List.intercalate_singleton]

/-- A line end makes no empty line unless another follows at once. -/
theorem empty_line_not_infix_append {line rest : Bytes} (hline : 13 ∉ line)
    (hhead : rest.head? ≠ some 13) (hrest : ¬ crlf ++ crlf <:+: rest) :
    ¬ crlf ++ crlf <:+: line ++ (crlf ++ rest) := by
  refine mt (cons_infix_append_iff hline).1 fun h => ?_
  rcases List.infix_cons_iff.1 h with h | h
  · obtain ⟨more, rfl⟩ : [13, 10] <+: rest := by simpa [crlf, List.cons_prefix_cons] using h
    exact hhead rfl
  · rcases List.infix_cons_iff.1 h with h | h
    · exact absurd (List.cons_prefix_cons.1 h).1 (by decide)
    · exact hrest h

/-- The first empty line is the one behind lines that are not empty. -/
theorem splitFirst_empty_line {ls : List Bytes} (hne : ls ≠ []) (hls : ∀ l ∈ ls, l ≠ [] ∧ 13 ∉ l)
    (rest : Bytes) :
    splitFirst (crlf ++ crlf) (crlf.intercalate ls ++ (crlf ++ crlf) ++ rest) =
      some (crlf.intercalate ls, rest) := by
  refine (splitFirst_eq_some_iff (by decide)).2 ⟨rfl, ?_⟩
  induction ls with
  | nil => exact absurd rfl hne
  | cons line ls ih =>
    obtain ⟨⟨-, hline⟩, hls⟩ := List.forall_mem_cons.1 hls
    cases ls with
    | nil =>
      rw [List.intercalate_singleton]
      exact mt (cons_infix_append_iff hline).1 (by decide)
    | cons next ls =>
      obtain ⟨more, hmore⟩ : ∃ more, crlf.intercalate (next :: ls) = next ++ more := by
        cases ls with
        | nil => exact ⟨[], by simp⟩
        | cons last ls => exact ⟨_, by rw [List.intercalate_cons_cons, List.append_assoc]⟩
      -- The next line opens with something, and that is no carriage return.
      have hrest := ih (List.cons_ne_nil _ _) hls
      rw [List.intercalate_cons_cons, List.append_assoc, List.append_assoc]
      refine empty_line_not_infix_append hline ?_ hrest
      obtain ⟨hnext, hfree⟩ := hls next (.head _)
      rw [hmore, List.append_assoc, List.head?_append_of_ne_nil _ hnext]
      exact fun hhead => hfree (List.mem_of_head? hhead)

/-- Lines that were written with their line ends are those of what stands before the last. -/
theorem exists_lines_eq_of_flatMap {line : Bytes} {ls : List Bytes}
    (hfree : ∀ l ∈ line :: ls, ¬ crlf <:+: l) :
    ∃ body, (line :: ls).flatMap (· ++ crlf) = body ++ crlf ∧ lines body = line :: ls := by
  induction ls generalizing line with
  | nil => exact ⟨line, by simp, lines_eq_singleton (hfree line (.head _))⟩
  | cons next ls ih =>
    obtain ⟨body, hbody, hlines⟩ := ih fun l hl => hfree l (.tail _ hl)
    refine ⟨line ++ crlf ++ body, ?_, ?_⟩
    · rw [List.flatMap_cons, hbody, List.append_assoc _ body]
    · rw [lines_line_append (hfree line (.head _)), hlines]

/-- Lines that were written with their line ends are read back, the last line end aside. -/
theorem lines_dropEnding_flatMap {ls : List Bytes} (hne : ls ≠ [])
    (hfree : ∀ l ∈ ls, ¬ crlf <:+: l) :
    lines (dropEnding crlf (ls.flatMap (· ++ crlf))) = ls := by
  cases ls with
  | nil => exact absurd rfl hne
  | cons line ls =>
    obtain ⟨body, hbody, hlines⟩ := exists_lines_eq_of_flatMap hfree
    rw [hbody, dropEnding_append, hlines]

end Bytes

end CacheServer
