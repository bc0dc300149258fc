import CacheServer.Proofs.Text.Utf8

/-!
# Reading with replacement

`decodeLossy` replaces what is not UTF-8 piece by piece (`decodeLossy_eq`). No piece reaches across
an ASCII character, so what stands in front of one and what stands behind it are read apart
(`decodeLossy_append_cons`).
-/

namespace CacheServer.Text

/-! ## The first character -/

/-- The character that a byte string opens with is the one whose bytes it begins with. -/
theorem firstChar?_eq_some_iff {bs : Bytes} {c : Char} :
    firstChar? bs = some c ↔ String.utf8EncodeChar c <+: bs := by
  unfold firstChar?
  constructor
  · intro h
    obtain ⟨rest, hrest⟩ := ByteArray.exists_of_utf8DecodeChar?_eq_some h
    have hbytes : bs.take 4 = String.utf8EncodeChar c ++ rest.data.toList := by
      simpa using congrArg (fun bytes : ByteArray => bytes.data.toList) hrest
    exact (hbytes ▸ List.prefix_append _ _).trans (List.take_prefix 4 bs)
  · rintro ⟨rest, rfl⟩
    have hsize : (String.utf8EncodeChar c).length ≤ 4 := by
      rw [String.length_utf8EncodeChar]
      exact c.utf8Size_le_four
    rw [List.take_append, List.take_of_length_le hsize, List.toByteArray_append]
    exact ByteArray.utf8DecodeChar?_utf8EncodeChar_append

/-- The bytes of a character do not reach from in front of an ASCII character into it. -/
theorem prefix_of_prefix_append_cons {c d : Char} {front back : Bytes} (hc : c.toNat < 128)
    (hfront : front ≠ [])
    (h : String.utf8EncodeChar d <+: front ++ UInt8.ofNat c.toNat :: back) :
    String.utf8EncodeChar d <+: front := by
  obtain ⟨rest, hrest⟩ := h
  rcases List.append_eq_append_iff.1 hrest with ⟨more, hmore, -⟩ | ⟨more, hmore, hback⟩
  · exact ⟨more, hmore.symm⟩
  · cases more with
    | nil => exact ⟨[], by rw [hmore, List.append_nil, List.append_nil]⟩
    | cons b more =>
      obtain ⟨rfl, -⟩ := List.cons.inj hback
      have hbyte : (UInt8.ofNat c.toNat).toNat < 128 := by
        rwa [UInt8.toNat_ofNat_of_lt' (Nat.lt_trans hc (by decide))]
      have hd := toNat_of_mem_utf8EncodeChar (hmore ▸ List.mem_append_cons_self) hbyte
      rw [utf8EncodeChar_of_lt (hd ▸ hbyte)] at hmore
      have hlength : 1 = front.length + (more.length + 1) := by
        simpa only [List.length_append, List.length_cons, List.length_nil] using
          congrArg List.length hmore
      have := List.length_pos_iff.2 hfront
      omega

/-! ## Piece by piece -/

/-- There is nothing to replace in an empty text. -/
theorem replaceIllFormed_nil : replaceIllFormed [] = [] := by
  rw [replaceIllFormed, replaceIllFormed.go, List.reverse_nil]

/-- What was read before is put in front. -/
theorem replaceIllFormed_go (done : List Char) (bs : Bytes) :
    replaceIllFormed.go done bs = done.reverse ++ replaceIllFormed bs := by
  have hgo : ∀ front bs back, replaceIllFormed.go (front ++ back) bs =
      back.reverse ++ replaceIllFormed.go front bs := by
    intro front bs
    fun_induction replaceIllFormed.go front bs with
    | case1 front =>
      intro back
      rw [replaceIllFormed.go, List.reverse_append]
    | case2 front b rest c hc ih =>
      intro back
      rw [replaceIllFormed.go, hc]
      exact ih back
    | case3 front b rest hc ih =>
      intro back
      rw [replaceIllFormed.go, hc]
      exact ih back
  exact hgo [] bs done

/-- A character in front is read, whatever follows. -/
theorem replaceIllFormed_char (c : Char) (rest : Bytes) :
    replaceIllFormed (String.utf8EncodeChar c ++ rest) = c :: replaceIllFormed rest := by
  have hfirst := firstChar?_eq_some_iff.2 (List.prefix_append (String.utf8EncodeChar c) rest)
  have hlength := String.length_utf8EncodeChar c
  rw [replaceIllFormed]
  cases hbytes : String.utf8EncodeChar c with
  | nil =>
    rw [hbytes] at hlength
    exact absurd hlength (Nat.ne_of_lt c.utf8Size_pos)
  | cons b bytes =>
    rw [hbytes, List.cons_append] at hfirst
    rw [hbytes, List.length_cons] at hlength
    have hdrop : (bytes ++ rest).drop (c.utf8Size - 1) = rest := by
      rw [← hlength, Nat.add_sub_cancel, List.drop_left]
    rw [List.cons_append, replaceIllFormed.go, hfirst]
    simp only [hdrop, replaceIllFormed_go, List.reverse_singleton, List.singleton_append]

/-- A piece that is no character is read as a replacement character. -/
theorem replaceIllFormed_piece {b : UInt8} {rest : Bytes} (h : firstChar? (b :: rest) = none) :
    replaceIllFormed (b :: rest) =
      '\ufffd' :: replaceIllFormed (rest.drop (subpart (b :: rest) - 1)) := by
  rw [replaceIllFormed, replaceIllFormed.go, h]
  simp only [replaceIllFormed_go, List.reverse_singleton, List.singleton_append]

/-- A byte string is read piece by piece, and UTF-8 is read as it is. -/
theorem decodeLossy_eq (bs : Bytes) : decodeLossy bs = String.ofList (replaceIllFormed bs) := by
  have hread : ∀ cs : List Char, replaceIllFormed (cs.flatMap String.utf8EncodeChar) = cs := by
    intro cs
    induction cs with
    | nil => exact replaceIllFormed_nil
    | cons c cs ih => rw [List.flatMap_cons, replaceIllFormed_char, ih]
  cases h : decode? bs with
  | none => rw [decodeLossy, h, Option.getD_none]
  | some s =>
    rw [decodeLossy, h, Option.getD_some, decode?_eq_some_iff.1 h, Bytes.ofText_eq_flatMap, hread,
      String.ofList_toList]

/-! ## ASCII characters between pieces -/

/-- A scan that stops at an element does not see what is behind it. -/
theorem takeWhile_take_append_cons {α : Type} {p : α → Bool} {x : α} (h : p x = false)
    (front back : List α) (n : Nat) :
    ((front ++ x :: back).take n).takeWhile p = (front.take n).takeWhile p := by
  induction front generalizing n with
  | nil => cases n <;> simp [h]
  | cons y front ih =>
    cases n with
    | zero => rfl
    | succ n =>
      simp only [List.cons_append, List.take_succ_cons, List.takeWhile_cons, ih]

/-- What may follow an opening byte is not an ASCII character. -/
theorem le_of_opening? {b low high : UInt8} {more : Nat} (h : opening? b = some (more, low, high)) :
    0x80 ≤ low := by
  unfold opening? at h
  split_ifs at h <;> cases h <;> decide

/-- An ASCII character ends the piece in front of it. -/
theorem subpart_append_cons {a b : UInt8} (ha : a.toNat < 128) (front back : Bytes) :
    subpart (b :: (front ++ a :: back)) = subpart (b :: front) ∧
      subpart (b :: front) ≤ front.length + 1 := by
  have hlow : ∀ {low high : UInt8} {more : Nat},
      opening? b = some (more, low, high) → ¬ low ≤ a := by
    intro low high more h hle
    have := UInt8.le_iff_toNat_le.1 (UInt8.le_trans (le_of_opening? h) hle)
    have h80 : (0x80 : UInt8).toNat = 128 := rfl
    omega
  have hcontinuation : isContinuation a = false := by
    have h80 : ¬ (0x80 : UInt8) ≤ a := by
      rw [UInt8.le_iff_toNat_le]
      exact Nat.not_le.2 ha
    simp [isContinuation, h80]
  cases hopening : opening? b with
  | none => simp [subpart, hopening]
  | some opening =>
    obtain ⟨more, low, high⟩ := opening
    cases front with
    | nil => simp [subpart, hopening, hlow hopening]
    | cons second others =>
      simp only [subpart, hopening, List.cons_append, takeWhile_take_append_cons hcontinuation]
      refine ⟨trivial, ?_⟩
      split
      · have hwhile := (List.takeWhile_prefix (l := others.take (more - 1))
          isContinuation).length_le
        have htake := List.length_take_le' (more - 1) others
        rw [List.length_cons]
        omega
      · omega

/-- An ASCII character is read as itself, and what stands on its two sides is read apart. -/
theorem replaceIllFormed_append_cons {c : Char} (hc : c.toNat < 128) (back front : Bytes) :
    replaceIllFormed (front ++ UInt8.ofNat c.toNat :: back) =
      replaceIllFormed front ++ c :: replaceIllFormed back := by
  have hbyte : (UInt8.ofNat c.toNat).toNat < 128 := by
    rwa [UInt8.toNat_ofNat_of_lt' (Nat.lt_trans hc (by decide))]
  induction hn : front.length using Nat.strongRecOn generalizing front with
  | ind n ih =>
    cases front with
    | nil =>
      have hchar := replaceIllFormed_char c back
      rw [utf8EncodeChar_of_lt hc] at hchar
      rw [replaceIllFormed_nil]
      exact hchar
    | cons b front =>
      rw [List.length_cons] at hn
      cases hfirst : firstChar? (b :: front) with
      | some d =>
        obtain ⟨rest, hrest⟩ := firstChar?_eq_some_iff.1 hfirst
        have hlength := congrArg List.length hrest
        have hpos := d.utf8Size_pos
        rw [List.length_append, String.length_utf8EncodeChar, List.length_cons] at hlength
        rw [← hrest, List.append_assoc, replaceIllFormed_char, replaceIllFormed_char,
          ih rest.length (by omega) rest rfl]
        rfl
      | none =>
        obtain ⟨hpiece, hle⟩ := subpart_append_cons (b := b) hbyte front back
        have hone := one_le_subpart (b :: front)
        have hnone : firstChar? (b :: (front ++ UInt8.ofNat c.toNat :: back)) = none := by
          rw [Option.eq_none_iff_forall_ne_some]
          intro d hd
          have hprefix := prefix_of_prefix_append_cons hc (List.cons_ne_nil b front)
            (firstChar?_eq_some_iff.1 hd)
          rw [firstChar?_eq_some_iff.2 hprefix] at hfirst
          cases hfirst
        rw [List.cons_append, replaceIllFormed_piece hnone, replaceIllFormed_piece hfirst, hpiece,
          List.drop_append_of_le_length (by omega), List.cons_append,
          ih _ _ _ rfl]
        rw [List.length_drop]
        omega

/-- An ASCII character is read as itself, and what stands on its two sides is read apart. -/
theorem decodeLossy_append_cons {c : Char} (hc : c.toNat < 128) (front back : Bytes) :
    decodeLossy (front ++ UInt8.ofNat c.toNat :: back) =
      decodeLossy front ++ String.singleton c ++ decodeLossy back := by
  rw [← String.toList_inj]
  simp [decodeLossy_eq, replaceIllFormed_append_cons hc]

/-- Byte strings that part at two different ASCII characters are not read as the same text. -/
theorem decodeLossy_append_cons_ne {c d : Char} (hc : c.toNat < 128) (hd : d.toNat < 128)
    (hne : c ≠ d) (front back back' : Bytes) :
    decodeLossy (front ++ UInt8.ofNat c.toNat :: back) ≠
      decodeLossy (front ++ UInt8.ofNat d.toNat :: back') := by
  intro h
  rw [decodeLossy_eq, decodeLossy_eq, String.ofList_inj, replaceIllFormed_append_cons hc,
    replaceIllFormed_append_cons hd] at h
  exact hne (List.cons.inj (List.append_cancel_left h)).1

/-- Only nothing is read as nothing. -/
theorem decodeLossy_eq_empty_iff {bs : Bytes} : decodeLossy bs = "" ↔ bs = [] := by
  rw [decodeLossy_eq, String.ofList_eq_empty_iff]
  cases bs with
  | nil => simp [replaceIllFormed_nil]
  | cons b rest =>
    refine iff_of_false ?_ (List.cons_ne_nil b rest)
    cases hfirst : firstChar? (b :: rest) with
    | none =>
      rw [replaceIllFormed_piece hfirst]
      exact List.cons_ne_nil _ _
    | some c =>
      obtain ⟨back, hback⟩ := firstChar?_eq_some_iff.1 hfirst
      rw [← hback, replaceIllFormed_char]
      exact List.cons_ne_nil _ _

end CacheServer.Text
