import CacheServer.Text.Numeral

/-!
# Unsigned numerals

`Numeral` has the ways to write a number: decimal digits, with or without a plus sign in front of
them. `readUnsigned?` reads exactly these, as long as the number is below the bound
(`readUnsigned?_eq_some_iff`), and what `Nat.repr` writes is one of them (`numeral_repr`).
-/

namespace CacheServer.Text

/-- The ways to write a number. -/
inductive Numeral : List Char → Nat → Prop
  | digits {ds : List Char} : ds ≠ [] → (∀ c ∈ ds, c.isDigit = true) →
      Numeral ds (Nat.ofDigitChars 10 ds 0)
  | signed {ds : List Char} : ds ≠ [] → (∀ c ∈ ds, c.isDigit = true) →
      Numeral ('+' :: ds) (Nat.ofDigitChars 10 ds 0)

/-- A digit is worth its distance from zero. -/
theorem digit?_eq_some_iff {c : Char} {d : Nat} :
    digit? c = some d ↔ c.isDigit = true ∧ d = c.toNat - '0'.toNat := by
  have hrange : ('0' ≤ c && c ≤ '9') = c.isDigit := rfl
  rw [digit?, hrange]
  cases c.isDigit with
  | false => simp
  | true => rw [if_pos rfl, Option.some.injEq, eq_comm, and_iff_right rfl]

/-- A number grows with the digits behind it. -/
theorem le_ofDigitChars (ds : List Char) (n : Nat) : n ≤ Nat.ofDigitChars 10 ds n := by
  induction ds generalizing n with
  | nil => exact Nat.le_of_eq Nat.ofDigitChars_nil.symm
  | cons c ds ih =>
    rw [Nat.ofDigitChars_cons]
    exact Nat.le_trans (by omega) (ih _)

/-- Digits are read as the number that they write, if it is below the bound. -/
theorem readDigits?_eq_some_iff {bound n m : Nat} (hn : n < bound) {ds : List Char} :
    readDigits? bound n ds = some m ↔
      (∀ c ∈ ds, c.isDigit = true) ∧ m = Nat.ofDigitChars 10 ds n ∧ m < bound := by
  induction ds generalizing n with
  | nil =>
    rw [readDigits?, Option.some.injEq, Nat.ofDigitChars_nil]
    exact ⟨fun h => h ▸ ⟨nofun, rfl, hn⟩, fun h => h.2.1.symm⟩
  | cons c ds ih =>
    rw [readDigits?, List.forall_mem_cons, Nat.ofDigitChars_cons]
    cases hdigit : digit? c with
    | none =>
      refine iff_of_false nofun fun h => ?_
      rw [digit?_eq_some_iff.2 ⟨h.1.1, rfl⟩] at hdigit
      cases hdigit
    | some d =>
      obtain ⟨hc, rfl⟩ := digit?_eq_some_iff.1 hdigit
      dsimp only
      rw [Nat.mul_comm n 10]
      split
      · next hlt => rw [ih hlt, and_iff_right hc]
      · next hge =>
        -- The bound has been reached, and further digits do not make the number smaller.
        refine iff_of_false nofun fun h => hge ?_
        have hle := le_ofDigitChars ds (10 * n + (c.toNat - '0'.toNat))
        rw [← h.2.1] at hle
        exact Nat.lt_of_le_of_lt hle h.2.2

/-- Exactly the numerals below the bound are read. -/
theorem readUnsigned?_eq_some_iff {bound n : Nat} (hbound : 0 < bound) {cs : List Char} :
    readUnsigned? bound cs = some n ↔ Numeral cs n ∧ n < bound := by
  fun_cases readUnsigned? bound cs with
  | case1 =>
    refine iff_of_false nofun ?_
    rintro ⟨⟨hne, -⟩, -⟩
    exact hne rfl
  | case2 =>
    refine iff_of_false nofun ?_
    rintro ⟨h, -⟩
    cases h with
    | digits _ hdigits => exact absurd (hdigits '+' (.head _)) (by decide)
    | signed hne => exact hne rfl
  | case3 ds hne =>
    rw [readDigits?_eq_some_iff hbound]
    constructor
    · rintro ⟨hdigits, rfl, hlt⟩
      exact ⟨.signed (fun h => hne (by rw [h])) hdigits, hlt⟩
    · rintro ⟨h, hlt⟩
      cases h with
      | digits _ hdigits => exact absurd (hdigits '+' (.head _)) (by decide)
      | signed _ hdigits => exact ⟨hdigits, rfl, hlt⟩
  | case4 =>
    rename_i hnil _ hsigned
    rw [readDigits?_eq_some_iff hbound]
    constructor
    · rintro ⟨hdigits, rfl, hlt⟩
      exact ⟨.digits hnil hdigits, hlt⟩
    · rintro ⟨h, hlt⟩
      cases h with
      | digits _ hdigits => exact ⟨hdigits, rfl, hlt⟩
      | @signed ds => exact absurd rfl (hsigned ds)

/-- A numeral writes one number. -/
theorem Numeral.unique {cs : List Char} {n m : Nat} (hn : Numeral cs n) (hm : Numeral cs m) :
    n = m := by
  have hread := (readUnsigned?_eq_some_iff (Nat.succ_pos (max n m))).2
    ⟨hn, Nat.lt_succ_of_le (Nat.le_max_left n m)⟩
  rw [(readUnsigned?_eq_some_iff (Nat.succ_pos (max n m))).2
    ⟨hm, Nat.lt_succ_of_le (Nat.le_max_right n m)⟩] at hread
  exact (Option.some.inj hread).symm

/-- A number is written as a numeral. -/
theorem numeral_repr (n : Nat) : Numeral (Nat.repr n).toList n := by
  have hdigits : ∀ c ∈ Nat.toDigits 10 n, c.isDigit = true :=
    fun c => Nat.isDigit_of_mem_toDigits (by decide) (by decide)
  have hnumeral := Numeral.digits Nat.toDigits_ne_nil hdigits
  rw [Nat.ofDigitChars_ten_toDigits] at hnumeral
  rwa [Nat.repr_eq_ofList_toDigits, String.toList_ofList]

end CacheServer.Text
