import CacheServer.Json.Token
import Mathlib.Data.List.Basic
import Mathlib.Data.List.TakeWhile
import Mathlib.Tactic.Common

/-!
# Numbers and names

`IsNumeral` has the numbers of JSON (RFC 8259, section 6), and `isNumber_iff` says that these are
the byte strings that are taken for numbers. With the three names they are the scalars
(`scalar?_eq_some_iff`).
-/

namespace CacheServer.Json

/-! ## The grammar -/

/-- One digit or more. -/
def AreDigits (bs : Bytes) : Prop := bs ≠ [] ∧ ∀ b ∈ bs, isDigit b = true

/-- The whole part of a number, with no zero in front of another digit. -/
inductive WholePart : Bytes → Prop
  | zero : WholePart [0x30]
  | digits {bs : Bytes} : AreDigits bs → bs.head? ≠ some 0x30 → WholePart bs

/-- The fraction, which may be missing. -/
inductive FractionPart : Bytes → Prop
  | missing : FractionPart []
  | digits {bs : Bytes} : AreDigits bs → FractionPart (0x2E :: bs)

/-- The exponent, which may be missing, and may have a sign. -/
inductive ExponentPart : Bytes → Prop
  | missing : ExponentPart []
  | digits {letter : UInt8} {sign bs : Bytes} : letter ∈ [0x65, 0x45] →
      sign ∈ [[], [0x2B], [0x2D]] → AreDigits bs → ExponentPart (letter :: (sign ++ bs))

/-- The numbers without a sign. -/
inductive Unsigned : Bytes → Prop
  | mk {whole fraction exponent : Bytes} : WholePart whole → FractionPart fraction →
      ExponentPart exponent → Unsigned (whole ++ (fraction ++ exponent))

/-- The numbers. -/
inductive IsNumeral : Bytes → Prop
  | mk {sign bs : Bytes} : sign ∈ [[], [0x2D]] → Unsigned bs → IsNumeral (sign ++ bs)

/-! ## The readers -/

/-- What is dropped is one digit or more, and no digit is left in front. -/
theorem skipDigits?_eq_some_iff {bs rest : Bytes} : skipDigits? bs = some rest ↔
    (∃ digits, AreDigits digits ∧ bs = digits ++ rest) ∧ ∀ b ∈ rest.head?, isDigit b = false := by
  constructor
  · intro h
    match bs, h with
    | b :: bs, h =>
      obtain ⟨hb, hrest⟩ := Option.ite_none_right_eq_some.1 h
      obtain rfl := Option.some.inj hrest
      refine ⟨⟨b :: bs.takeWhile isDigit, ⟨List.cons_ne_nil _ _, ?_⟩, ?_⟩, ?_⟩
      · exact List.forall_mem_cons.2 ⟨hb, fun d hd => List.mem_takeWhile_imp hd⟩
      · rw [List.cons_append, List.takeWhile_append_dropWhile]
      · intro d hd
        have hnot := List.head?_dropWhile_not isDigit bs
        rwa [Option.mem_def.1 hd] at hnot
  · rintro ⟨⟨digits, ⟨hne, hdigits⟩, rfl⟩, hrest⟩
    obtain ⟨b, digits, rfl⟩ := List.exists_cons_of_ne_nil hne
    obtain ⟨hb, hdigits⟩ := List.forall_mem_cons.1 hdigits
    have hstop : rest.dropWhile isDigit = rest := by
      cases rest with
      | nil => rfl
      | cons d rest => exact List.dropWhile_cons_of_neg (by simp [hrest d rfl])
    rw [List.cons_append, skipDigits?, if_pos hb, List.dropWhile_append_of_pos hdigits, hstop]

/-- What is dropped as the whole part is one. -/
theorem exists_wholePart {bs rest : Bytes} (h : skipWhole? bs = some rest) :
    ∃ whole, WholePart whole ∧ bs = whole ++ rest := by
  revert h
  fun_cases skipWhole? bs with
  | case1 => rintro ⟨⟩; exact ⟨[0x30], .zero, rfl⟩
  | case2 bs hzero =>
    intro h
    obtain ⟨⟨digits, hdigits, rfl⟩, -⟩ := skipDigits?_eq_some_iff.1 h
    refine ⟨digits, .digits hdigits fun hhead => ?_, rfl⟩
    obtain ⟨more, rfl⟩ := List.head?_eq_some_iff.1 hhead
    exact hzero (more ++ rest) rfl

/-- A whole part in front of no other digit is dropped. -/
theorem WholePart.skipWhole? {whole rest : Bytes} (h : WholePart whole)
    (hrest : ∀ b ∈ rest.head?, isDigit b = false) : skipWhole? (whole ++ rest) = some rest := by
  cases h with
  | zero => rfl
  | digits hdigits hzero =>
    obtain ⟨b, more, rfl⟩ := List.exists_cons_of_ne_nil hdigits.1
    rw [Json.skipWhole?]
    · exact skipDigits?_eq_some_iff.2 ⟨⟨_, hdigits, rfl⟩, hrest⟩
    · intro rest' heq
      rw [(List.cons.inj heq).1] at hzero
      exact hzero rfl

/-- What is dropped as the fraction is one. -/
theorem exists_fractionPart {bs rest : Bytes} (h : skipFraction? bs = some rest) :
    ∃ fraction, FractionPart fraction ∧ bs = fraction ++ rest := by
  revert h
  fun_cases skipFraction? bs with
  | case1 bs =>
    intro h
    obtain ⟨⟨digits, hdigits, rfl⟩, -⟩ := skipDigits?_eq_some_iff.1 h
    exact ⟨_, .digits hdigits, rfl⟩
  | case2 => rintro ⟨⟩; exact ⟨[], .missing, rfl⟩

/-- A fraction in front of no other digit and no point is dropped. -/
theorem FractionPart.skipFraction? {fraction rest : Bytes} (h : FractionPart fraction)
    (hrest : ∀ b ∈ rest.head?, isDigit b = false ∧ b ≠ 0x2E) :
    skipFraction? (fraction ++ rest) = some rest := by
  cases h with
  | missing =>
    rw [List.nil_append, Json.skipFraction?]
    rintro rest' rfl
    exact (hrest _ rfl).2 rfl
  | digits hdigits =>
    exact skipDigits?_eq_some_iff.2 ⟨⟨_, hdigits, rfl⟩, fun b hb => (hrest b hb).1⟩

/-- Nothing is left behind digits that are all there is. -/
theorem skipDigits?_eq_nil_iff {bs : Bytes} : skipDigits? bs = some [] ↔ AreDigits bs := by
  rw [skipDigits?_eq_some_iff]
  constructor
  · rintro ⟨⟨digits, hdigits, rfl⟩, -⟩
    rwa [List.append_nil]
  · exact fun h => ⟨⟨bs, h, (List.append_nil bs).symm⟩, nofun⟩

/-- What is dropped to the end as an exponent is one. -/
theorem exponentPart_of_skipExponent? {bs : Bytes} (h : skipExponent? bs = some []) :
    ExponentPart bs := by
  have hdigits : ∀ {b : UInt8} {digits : Bytes} (sign : Bytes), sign ∈ [[], [0x2B], [0x2D]] →
      b = 0x65 ∨ b = 0x45 → skipDigits? digits = some [] → ExponentPart (b :: (sign ++ digits)) :=
    fun _ hsign hb h => .digits (List.mem_pair.2 hb) hsign (skipDigits?_eq_nil_iff.1 h)
  revert h
  fun_cases skipExponent? bs with
  | case1 b hb => exact hdigits [0x2B] (by simp) hb
  | case2 b hb => exact hdigits [0x2D] (by simp) hb
  | case3 b hb => exact hdigits [] (by simp) hb
  | case4 => rintro ⟨⟩
  | case5 => exact fun _ => .missing

/-- An exponent is dropped to its end. -/
theorem ExponentPart.skipExponent? {exponent : Bytes} (h : ExponentPart exponent) :
    skipExponent? exponent = some [] := by
  cases h with
  | missing => rfl
  | @digits letter sign bs hletter hsign hdigits =>
    have hread := skipDigits?_eq_nil_iff.2 hdigits
    simp only [List.mem_cons, List.not_mem_nil, or_false] at hsign
    rcases hsign with rfl | rfl | rfl
    · obtain ⟨b, more, rfl⟩ := List.exists_cons_of_ne_nil hdigits.1
      have hb : isDigit b = true := hdigits.2 b List.mem_cons_self
      rw [Json.skipExponent?, if_pos (List.mem_pair.1 hletter), List.nil_append]
      · exact hread
      · rintro _ ⟨⟩; cases hb
      · rintro _ ⟨⟩; cases hb
    · exact (if_pos (List.mem_pair.1 hletter)).trans hread
    · exact (if_pos (List.mem_pair.1 hletter)).trans hread

/-! ## The whole number -/

/-- No exponent begins like a whole part or a fraction. -/
theorem ExponentPart.head? {exponent : Bytes} (h : ExponentPart exponent) :
    ∀ b ∈ exponent.head?, isDigit b = false ∧ b ≠ 0x2E := by
  cases h with
  | missing => exact nofun
  | digits hletter =>
    rintro b ⟨⟩
    rcases List.mem_pair.1 hletter with rfl | rfl <;> decide

/-- Neither a fraction nor an exponent begins with a digit. -/
theorem FractionPart.head? {fraction exponent : Bytes} (h : FractionPart fraction)
    (h' : ExponentPart exponent) : ∀ b ∈ (fraction ++ exponent).head?, isDigit b = false := by
  cases h with
  | missing => exact fun b hb => (h'.head? b hb).1
  | digits => rintro b ⟨⟩; rfl

/-- The three parts are dropped to the end exactly for the numbers without a sign. -/
theorem unsigned_iff {bs : Bytes} :
    (do skipExponent? (← skipFraction? (← skipWhole? bs))) = some [] ↔ Unsigned bs := by
  simp only [Option.bind_eq_bind, Option.bind_eq_some_iff]
  constructor
  · rintro ⟨behind, hwhole, exponent, hfraction, hexponent⟩
    obtain ⟨whole, hwhole', rfl⟩ := exists_wholePart hwhole
    obtain ⟨fraction, hfraction', rfl⟩ := exists_fractionPart hfraction
    exact .mk hwhole' hfraction' (exponentPart_of_skipExponent? hexponent)
  · rintro ⟨hwhole, hfraction, hexponent⟩
    exact ⟨_, hwhole.skipWhole? (hfraction.head? hexponent), _,
      hfraction.skipFraction? hexponent.head?, hexponent.skipExponent?⟩

/-- A number without a sign does not begin with one. -/
theorem Unsigned.head? {bs : Bytes} (h : Unsigned bs) : bs.head? ≠ some 0x2D := by
  obtain ⟨hwhole, -, -⟩ := h
  cases hwhole with
  | zero => exact nofun
  | digits hdigits =>
    obtain ⟨b, more, rfl⟩ := List.exists_cons_of_ne_nil hdigits.1
    rintro ⟨⟩
    exact absurd (hdigits.2 _ List.mem_cons_self) (by decide)

/-- What does not begin with a minus sign is a number if it is one without a sign. -/
theorem isNumber_of_head? {bs : Bytes} (h : bs.head? ≠ some 0x2D) :
    isNumber bs = true ↔ Unsigned bs := by
  rw [isNumber, beq_iff_eq, unsigned_iff]
  rintro rest rfl
  exact h rfl

/-- The numbers of the grammar are those that are taken for numbers. -/
theorem isNumber_iff {bs : Bytes} : isNumber bs = true ↔ IsNumeral bs := by
  have hsigned : ∀ rest, isNumber (0x2D :: rest) = true ↔ Unsigned rest :=
    fun _ => beq_iff_eq.trans unsigned_iff
  constructor
  · intro h
    by_cases hminus : bs.head? = some 0x2D
    · obtain ⟨rest, rfl⟩ := List.head?_eq_some_iff.1 hminus
      exact @IsNumeral.mk [0x2D] _ (by simp) ((hsigned rest).1 h)
    · exact @IsNumeral.mk [] _ (by simp) ((isNumber_of_head? hminus).1 h)
  · rintro ⟨hsign, hunsigned⟩
    rcases List.mem_pair.1 hsign with rfl | rfl
    · exact (isNumber_of_head? hunsigned.head?).2 hunsigned
    · exact (hsigned _).2 hunsigned

/-! ## Scalars -/

/-- The ways to write a scalar. -/
inductive ScalarText : Scalar → Bytes → Prop
  | null : ScalarText .null (Bytes.ofText "null")
  | bool (b : Bool) : ScalarText (.bool b) (Bytes.ofText (if b then "true" else "false"))
  | number {bs : Bytes} : IsNumeral bs → ScalarText (.number bs) bs

/-- Numbers can hold digits. -/
theorem isNumeric_of_isDigit {b : UInt8} (h : isDigit b = true) : isNumeric b = true := by
  simp only [isNumeric, h, Bool.true_or]

/-- No number is empty. -/
theorem IsNumeral.ne_nil {bs : Bytes} (h : IsNumeral bs) : bs ≠ [] := by
  obtain ⟨-, ⟨hwhole, -, -⟩⟩ := h
  have hne : ∀ {whole : Bytes}, WholePart whole → whole ≠ [] := by
    rintro _ (_ | ⟨hdigits, -⟩)
    · exact List.cons_ne_nil _ _
    · exact hdigits.1
  simp [hne hwhole]

/-- A number holds what numbers can hold. -/
theorem IsNumeral.isNumeric {bs : Bytes} (h : IsNumeral bs) : ∀ b ∈ bs, isNumeric b = true := by
  have hdigits : ∀ {digits : Bytes}, AreDigits digits → ∀ b ∈ digits, Json.isNumeric b = true :=
    fun h b hb => isNumeric_of_isDigit (h.2 b hb)
  obtain ⟨hsign, ⟨hwhole, hfraction, hexponent⟩⟩ := h
  simp only [List.forall_mem_append]
  refine ⟨?_, ?_, ?_, ?_⟩
  · rcases List.mem_pair.1 hsign with rfl | rfl
    · exact nofun
    · exact List.forall_mem_singleton.2 rfl
  · cases hwhole with
    | zero => exact List.forall_mem_singleton.2 rfl
    | digits hall => exact hdigits hall
  · cases hfraction with
    | missing => exact nofun
    | digits hall => exact List.forall_mem_cons.2 ⟨rfl, hdigits hall⟩
  · cases hexponent with
    | missing => exact nofun
    | digits hletter hsign hall =>
      refine List.forall_mem_cons.2 ⟨?_, List.forall_mem_append.2 ⟨?_, hdigits hall⟩⟩
      · rcases List.mem_pair.1 hletter with rfl | rfl <;> rfl
      · simp only [List.mem_cons, List.not_mem_nil, or_false] at hsign
        rcases hsign with rfl | rfl | rfl
        · exact nofun
        · exact List.forall_mem_singleton.2 rfl
        · exact List.forall_mem_singleton.2 rfl

/-- A run is read as a scalar exactly if it is its text. -/
theorem scalar?_eq_some_iff {run : Bytes} {s : Scalar} :
    scalar? run = some s ↔ ScalarText s run := by
  constructor
  · fun_cases scalar? run with
    | case1 h => rintro ⟨⟩; rw [h]; exact .null
    | case2 _ h => rintro ⟨⟩; rw [h]; exact .bool true
    | case3 _ _ h => rintro ⟨⟩; rw [h]; exact .bool false
    | case4 _ _ _ h => rintro ⟨⟩; exact .number (isNumber_iff.1 h)
    | case5 => exact nofun
  · rintro (_ | b | h)
    · rfl
    · cases b <;> rfl
    · have hname : ∀ {name : Bytes}, (∃ b ∈ name, isNumeric b = false) → run ≠ name := by
        rintro name ⟨b, hb, hletter⟩ rfl
        exact Bool.false_ne_true (hletter.symm.trans (h.isNumeric b hb))
      rw [scalar?, if_neg (hname (by decide)), if_neg (hname (by decide)),
        if_neg (hname (by decide)), if_pos (isNumber_iff.2 h)]

end CacheServer.Json
