import CacheServer.Proofs.Json.Spelling
import CacheServer.Proofs.Text.Lossy

/-!
# Which strings are texts

The pieces of a string stand for a text if they are, character by character, its UTF-8 bytes or its
code units (`Reads`). `decode?_eq_some_iff` says that these are the strings that are read as texts.
A character that begins with a byte is read from bytes alone, since no character begins with what
another one goes on with.
-/

namespace CacheServer.Json

/-- The code units of a character: one, or a pair of surrogates. -/
inductive CodeUnits : Char → List Piece → Prop
  | one {c : Char} : c.toNat < 0x10000 → CodeUnits c [.unit (UInt16.ofNat c.toNat)]
  | two {c : Char} {high low : Nat} : high < 0x400 → low < 0x400 →
      c.toNat = 0x10000 + high * 0x400 + low →
      CodeUnits c [.unit (UInt16.ofNat (0xD800 + high)), .unit (UInt16.ofNat (0xDC00 + low))]

/-- Whether pieces stand for characters, each of them by its bytes or by its code units. -/
inductive Reads : List Piece → List Char → Prop
  | nil : Reads [] []
  | bytes {c : Char} {cs : List Char} {pieces : List Piece} : Reads pieces cs →
      Reads ((String.utf8EncodeChar c).map .byte ++ pieces) (c :: cs)
  | units {c : Char} {cs : List Char} {units pieces : List Piece} : CodeUnits c units →
      Reads pieces cs → Reads (units ++ pieces) (c :: cs)

/-- The code units of a character read as it. -/
theorem CodeUnits.denotes {c : Char} {units : List Piece} (h : CodeUnits c units) :
    Denotes units [c] := by
  cases h with
  | one hc => exact denotes_unit hc
  | two hhigh hlow hc => exact denotes_pair hhigh hlow hc

/-- Pieces that stand for characters read as these. -/
theorem Reads.denotes {pieces : List Piece} {cs : List Char} (h : Reads pieces cs) :
    Denotes pieces cs := by
  induction h with
  | nil => exact .nil
  | bytes _ ih => exact (denotes_bytes _).append ih
  | units hunits _ ih => exact hunits.denotes.append ih

/-- The bytes of a text stand for it. -/
theorem reads_ofText (s : String) : Reads ((Bytes.ofText s).map .byte) s.toList := by
  have hbytes : ∀ cs : List Char, Reads ((cs.flatMap String.utf8EncodeChar).map .byte) cs := by
    intro cs
    induction cs with
    | nil => exact .nil
    | cons c cs ih =>
      rw [List.flatMap_cons, List.map_append]
      exact .bytes ih
  rw [Bytes.ofText_eq_flatMap]
  exact hbytes s.toList

/-! ## The bytes of a string -/

/-- Whether pieces stand for bytes, code units for the bytes of their character. -/
inductive StandsFor : List Piece → Bytes → Prop
  | nil : StandsFor [] []
  | byte {b : UInt8} {pieces : List Piece} {bytes : Bytes} : StandsFor pieces bytes →
      StandsFor (.byte b :: pieces) (b :: bytes)
  | units {c : Char} {units pieces : List Piece} {bytes : Bytes} : CodeUnits c units →
      StandsFor pieces bytes → StandsFor (units ++ pieces) (String.utf8EncodeChar c ++ bytes)

/-- A unit that is read as a character is its code unit. -/
theorem codeUnits_of_unitChar? {u : UInt16} {c : Char} (h : unitChar? u = some c) :
    CodeUnits c [.unit u] := by
  rw [unitChar?, Option.dite_none_right_eq_some] at h
  obtain ⟨hvalid, hc⟩ := h
  have hu : c.toNat = u.toNat := (congrArg Char.toNat (Option.some.inj hc)).symm
  have hone := CodeUnits.one (hu.trans_lt u.toNat_lt)
  rwa [hu, UInt16.ofNat_toNat] at hone

/-- Two units that are read as a character are its pair of surrogates. -/
theorem codeUnits_of_pairChar? {high low : UInt16} {c : Char} (h : pairChar? high low = some c) :
    CodeUnits c [.unit high, .unit low] := by
  unfold pairChar? at h
  simp only [Bool.and_eq_true, decide_eq_true_eq, UInt16.le_iff_toNat_le, UInt16.reduceToNat] at h
  split_ifs at h with hrange
  obtain rfl := Option.some.inj h
  obtain ⟨i, hi⟩ := Nat.exists_eq_add_of_le hrange.1.1.1
  obtain ⟨j, hj⟩ := Nat.exists_eq_add_of_le hrange.1.2
  have hhigh : high = UInt16.ofNat (0xD800 + i) := by rw [← hi, UInt16.ofNat_toNat]
  have hlow : low = UInt16.ofNat (0xDC00 + j) := by rw [← hj, UInt16.ofNat_toNat]
  rw [hi, hj, Nat.add_sub_cancel_left, Nat.add_sub_cancel_left, hhigh, hlow]
  refine .two (by omega) (by omega) ?_
  rw [Char.ofNat, dif_pos (.inr (by omega))]
  rfl

/-- What is collected from pieces is the bytes that they stand for. -/
theorem exists_standsFor {done all : Bytes} {pieces : List Piece}
    (h : pieceBytes? done pieces = some all) :
    ∃ bytes, StandsFor pieces bytes ∧ all = done.reverse ++ bytes := by
  fun_induction pieceBytes? done pieces with
  | case1 done => exact ⟨[], .nil, by rw [List.append_nil]; exact (Option.some.inj h).symm⟩
  | case2 done b pieces ih =>
    obtain ⟨bytes, hbytes, rfl⟩ := ih h
    exact ⟨b :: bytes, .byte hbytes, by simp⟩
  | case3 done u pieces c hc ih =>
    obtain ⟨bytes, hbytes, rfl⟩ := ih h
    exact ⟨_, .units (codeUnits_of_unitChar? hc) hbytes, by simp⟩
  | case4 done u _ low pieces c hc ih =>
    obtain ⟨bytes, hbytes, rfl⟩ := ih h
    exact ⟨_, .units (codeUnits_of_pairChar? hc) hbytes, by simp⟩
  | case5 | case6 => cases h

/-! ## From bytes to characters -/

/-- Only the first byte of a character is one with which a character begins. -/
theorem exists_utf8EncodeChar_eq_cons (c : Char) : ∃ b more, String.utf8EncodeChar c = b :: more ∧
    b.IsUTF8FirstByte ∧ ∀ b' ∈ more, ¬ b'.IsUTF8FirstByte := by
  obtain ⟨b, more, hbytes⟩ := List.exists_cons_of_ne_nil (String.utf8EncodeChar_ne_nil (c := c))
  have hfirst : ∀ {i : Nat} (hi : i < (b :: more).length),
      (b :: more)[i].IsUTF8FirstByte ↔ i = 0 := by
    rw [← hbytes]
    exact fun _ => UInt8.isUTF8FirstByte_getElem_utf8EncodeChar
  refine ⟨b, more, hbytes, (hfirst (Nat.zero_lt_succ _)).2 rfl, fun b' hb' => ?_⟩
  obtain ⟨i, hi, rfl⟩ := List.getElem_of_mem hb'
  exact fun h => Nat.succ_ne_zero i ((hfirst (Nat.succ_lt_succ hi)).1 h)

/-- The characters at the beginnings of equal byte strings are equal. -/
theorem utf8EncodeChar_append_inj {c d : Char} {front back : Bytes}
    (h : String.utf8EncodeChar c ++ front = String.utf8EncodeChar d ++ back) :
    c = d ∧ front = back := by
  have hfirst : ∀ (c : Char) (rest : Bytes),
      Text.firstChar? (String.utf8EncodeChar c ++ rest) = some c :=
    fun c rest => Text.firstChar?_eq_some_iff.2 (List.prefix_append _ rest)
  have hc := hfirst c front
  rw [h, hfirst d back] at hc
  obtain rfl := Option.some.inj hc
  exact ⟨rfl, List.append_cancel_left h⟩

/-- Bytes with which no character begins are pieces of their own. -/
theorem StandsFor.of_append {pieces : List Piece} {front back : Bytes}
    (h : StandsFor pieces (front ++ back)) (hfront : ∀ b ∈ front, ¬ b.IsUTF8FirstByte) :
    ∃ rest, pieces = front.map .byte ++ rest ∧ StandsFor rest back := by
  induction front generalizing pieces with
  | nil => exact ⟨pieces, rfl, h⟩
  | cons b front ih =>
    obtain ⟨hb, hfront⟩ := List.forall_mem_cons.1 hfront
    generalize hall : b :: front ++ back = all at h
    cases h with
    | nil => cases hall
    | byte h =>
      cases hall
      obtain ⟨rest, rfl, hrest⟩ := ih h hfront
      exact ⟨rest, rfl, hrest⟩
    | @units c =>
      obtain ⟨b', more, hc, hfirst, -⟩ := exists_utf8EncodeChar_eq_cons c
      rw [hc, List.cons_append, List.cons_append] at hall
      exact absurd ((List.cons.inj hall).1 ▸ hfirst) hb

/-- Pieces that stand for the bytes of characters stand for the characters. -/
theorem StandsFor.reads {pieces : List Piece} {cs : List Char}
    (h : StandsFor pieces (cs.flatMap String.utf8EncodeChar)) : Reads pieces cs := by
  have hne : ∀ (c : Char) (rest : Bytes), String.utf8EncodeChar c ++ rest ≠ [] :=
    fun _ => List.append_ne_nil_of_left_ne_nil String.utf8EncodeChar_ne_nil
  -- the first piece decides: a byte is followed by the other bytes of its character
  induction cs generalizing pieces with
  | nil =>
    generalize hall : [].flatMap String.utf8EncodeChar = all at h
    cases h with
    | nil => exact .nil
    | byte => cases hall
    | units => exact absurd hall.symm (hne _ _)
  | cons c cs ih =>
    rw [List.flatMap_cons] at h
    generalize hall : String.utf8EncodeChar c ++ cs.flatMap String.utf8EncodeChar = all at h
    cases h with
    | nil => exact absurd hall (hne _ _)
    | @byte b pieces bytes h =>
      obtain ⟨b', more, hc, -, hmore⟩ := exists_utf8EncodeChar_eq_cons c
      rw [hc] at hall
      cases hall
      obtain ⟨rest, rfl, hrest⟩ := h.of_append hmore
      have hreads := (ih hrest).bytes (c := c)
      rwa [hc] at hreads
    | units hunits h =>
      obtain ⟨rfl, rfl⟩ := utf8EncodeChar_append_inj hall
      exact .units hunits (ih h)

/-- A string is read as a text exactly if its pieces stand for the characters of the text. -/
theorem decode?_eq_some_iff {pieces : List Piece} {s : String} :
    decode? pieces = some s ↔ Reads pieces s.toList := by
  refine ⟨fun h => ?_, fun h => h.denotes.decode?⟩
  obtain ⟨all, hbytes, hread⟩ := Option.bind_eq_some_iff.1 h
  obtain ⟨bytes, hstands, hall⟩ := exists_standsFor hbytes
  rw [Text.decode?_eq_some_iff, Bytes.ofText_eq_flatMap, hall, List.reverse_nil,
    List.nil_append] at hread
  exact StandsFor.reads (hread ▸ hstands)

/-- Pieces stand for one text. -/
theorem Reads.unique {pieces : List Piece} {s t : String} (h : Reads pieces s.toList)
    (h' : Reads pieces t.toList) : s = t := by
  have hread := decode?_eq_some_iff.2 h
  rw [decode?_eq_some_iff.2 h'] at hread
  exact (Option.some.inj hread).symm

end CacheServer.Json
