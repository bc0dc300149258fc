import CacheServer.Proofs.Json.Scalars
import CacheServer.Proofs.Json.Spelling
import Mathlib.Data.List.Forall2
import Mathlib.Data.List.TakeWhile

/-!
# Reading what is written

A JSON text that is put together from texts is read as the value that is put together from the
values of these. Two things are said of every part: which tokens it is scanned as (`Scans`,
`ScansBefore`), and as which value these tokens are parsed (`Parses`); `Spells` joins the two. A
number or a name ends only with what follows it, so its tokens are those that come with some
punctuation behind it, or with anything else that cannot be part of it (`ScansUpTo`).

White space is only said to be skipped between tokens; nothing that is written has any.
-/

namespace CacheServer.Json

open Scanner (punctuation?)

/-! ## Scanning -/

/-- Whether bytes are scanned as tokens in front of any punctuation. -/
def ScansBefore (bs : Bytes) (tokens : List Token) : Prop :=
  ∀ b token, punctuation? b = some token → Scans (bs ++ [b]) (tokens ++ [token])

/-- Nothing is no token. -/
theorem Scans.nil : Scans [] [] := fun _ => rfl

/-- Texts behind each other are scanned one after the other. -/
theorem Scans.append {front back : Bytes} {tokens tokens' : List Token}
    (hfront : Scans front tokens) (hback : Scans back tokens') :
    Scans (front ++ back) (tokens ++ tokens') := by
  intro behind
  rw [List.foldlM_append, hfront, List.reverse_append, List.append_assoc]
  exact hback _

/-- White space is no token. -/
theorem scans_space {bs : Bytes} (h : ∀ b ∈ bs, isSpace b = true) : Scans bs [] := by
  induction bs with
  | nil => exact .nil
  | cons b rest ih =>
    obtain ⟨hspace, hrest⟩ := List.forall_mem_cons.1 h
    have hone : Scans [b] [] := fun behind => by simp [Scanner.step, Scanner.begin?, hspace]
    exact hone.append (ih hrest)

/-- Whether a byte ends a run of numeric bytes or of letters. -/
def EndsRuns (b : UInt8) : Prop := isNumeric b = false ∧ isLetter b = false

/-- Punctuation ends a run, and is a token by itself. -/
theorem begin?_of_punctuation {b : UInt8} {token : Token} (h : punctuation? b = some token)
    (behind : List Token) :
    EndsRuns b ∧ Scanner.begin? behind b = some ⟨.between, token :: behind⟩ := by
  revert h
  fun_cases punctuation? b with
  | case7 => exact nofun
  | _ => rintro ⟨⟩; exact ⟨⟨rfl, rfl⟩, rfl⟩

/-- Punctuation is one token. -/
theorem scans_punctuation {b : UInt8} {token : Token} (h : punctuation? b = some token) :
    Scans [b] [token] := by
  intro behind
  have hstep : Scanner.step ⟨.between, behind⟩ b = some ⟨.between, token :: behind⟩ :=
    (begin?_of_punctuation h behind).2
  rw [List.foldlM_cons, hstep]
  rfl

/-- What is scanned to its end is scanned in front of anything. -/
theorem Scans.before {bs : Bytes} {tokens : List Token} (h : Scans bs tokens) :
    ScansBefore bs tokens :=
  fun _ _ hpunctuation => h.append (scans_punctuation hpunctuation)

/-- Parts with commas between them are scanned as their tokens with commas between them. -/
theorem scansBefore_intercalate {parts : List Bytes} {tokens : List (List Token)}
    (h : List.Forall₂ ScansBefore parts tokens) :
    ScansBefore ([0x2C].intercalate parts) ([.comma].intercalate tokens) := by
  induction h with
  | nil => exact Scans.nil.before
  | @cons part ts parts tokens hpart hrest ih =>
    cases hrest with
    | nil => simpa only [List.intercalate_singleton] using hpart
    | cons =>
      intro b token hpunctuation
      have hcomma := hpart 0x2C .comma rfl
      have hall := hcomma.append (ih b token hpunctuation)
      simpa only [List.intercalate_cons_cons, List.append_assoc] using hall

/-- What is scanned to its end is a text of its tokens. -/
theorem Scans.tokens? {bs : Bytes} {tokens : List Token} (h : Scans bs tokens) :
    tokens? bs = some tokens := by
  rw [Json.tokens?, Scanner.start, h [], Option.bind_some, List.append_nil]
  exact congrArg some (List.reverse_reverse tokens)

/-! ## Runs -/

/-- Whether bytes are scanned as tokens in front of any byte that ends a run. -/
def ScansUpTo (bs : Bytes) (tokens : List Token) : Prop :=
  ∀ b, EndsRuns b → ∀ behind, (bs ++ [b]).foldlM Scanner.step ⟨.between, behind⟩ =
    Scanner.begin? (tokens.reverse ++ behind) b

/-- What is scanned to its end is scanned in front of what ends runs. -/
theorem Scans.upTo {bs : Bytes} {tokens : List Token} (h : Scans bs tokens) :
    ScansUpTo bs tokens := by
  intro b _ behind
  rw [List.foldlM_append, h, Option.bind_eq_bind, Option.bind_some, List.foldlM_cons]
  exact bind_pure _

/-- What is scanned in front of what ends runs is scanned in front of punctuation. -/
theorem ScansUpTo.before {bs : Bytes} {tokens : List Token} (h : ScansUpTo bs tokens) :
    ScansBefore bs tokens := by
  intro b token hpunctuation behind
  rw [h b (begin?_of_punctuation hpunctuation []).1 behind,
    (begin?_of_punctuation hpunctuation _).2, List.reverse_append]
  rfl

/-- A run of bytes of one kind is scanned as one scalar, in front of any other byte: `inside` is
where the scanner is inside of the run. -/
theorem foldlM_run {isKind : UInt8 → Bool} {inside : Bytes → Mode} {first b : UInt8} {rest : Bytes}
    {v : Scalar} {behind : List Token}
    (hbegin : Scanner.begin? behind first = some ⟨inside [first], behind⟩)
    (hmore : ∀ run b, isKind b = true →
      Scanner.step ⟨inside run, behind⟩ b = some ⟨inside (b :: run), behind⟩)
    (hend : ∀ run, isKind b = false → Scanner.step ⟨inside run, behind⟩ b =
      (Scanner.endRun? run behind).bind fun tokens => Scanner.begin? tokens b)
    (hrest : ∀ b ∈ rest, isKind b = true) (hb : isKind b = false)
    (hv : scalar? (first :: rest) = some v) :
    (first :: rest ++ [b]).foldlM Scanner.step ⟨.between, behind⟩ =
      Scanner.begin? (.scalar v :: behind) b := by
  have hrun : ∀ bs run : Bytes, (∀ d ∈ bs, isKind d = true) →
      bs.foldlM Scanner.step ⟨inside run, behind⟩ = some ⟨inside (bs.reverse ++ run), behind⟩ := by
    intro bs
    induction bs with
    | nil => exact fun _ _ => rfl
    | cons d bs ih =>
      intro run hbs
      obtain ⟨hd, hbs⟩ := List.forall_mem_cons.1 hbs
      rw [List.foldlM_cons, hmore run d hd, Option.bind_eq_bind, Option.bind_some, ih _ hbs,
        List.reverse_cons, List.append_assoc]
      rfl
  have hopen : Scanner.step ⟨.between, behind⟩ first = some ⟨inside [first], behind⟩ := hbegin
  have hclose : Scanner.step ⟨inside (rest.reverse ++ [first]), behind⟩ b =
      Scanner.begin? (.scalar v :: behind) b := by
    rw [hend _ hb, Scanner.endRun?, List.reverse_append, List.reverse_reverse]
    simp [hv]
  rw [List.cons_append, List.foldlM_cons, hopen, Option.bind_eq_bind, Option.bind_some,
    List.foldlM_append, hrun rest [first] hrest, Option.bind_eq_bind, Option.bind_some,
    List.foldlM_cons, hclose]
  exact bind_pure _

/-- Numeric bytes are scanned as one number. -/
theorem scansUpTo_numeric {bs : Bytes} (hne : bs ≠ []) (h : ∀ b ∈ bs, isNumeric b = true)
    {v : Scalar} (hv : scalar? bs = some v) : ScansUpTo bs [.scalar v] := by
  obtain ⟨first, rest, rfl⟩ := List.exists_cons_of_ne_nil hne
  obtain ⟨hfirst, hrest⟩ := List.forall_mem_cons.1 h
  intro b hb behind
  refine @foldlM_run isNumeric .numeric _ _ _ _ _ ?_ (fun _ _ hb => if_pos hb)
    (fun _ hb => if_neg (Bool.not_eq_true _ ▸ hb)) hrest hb.1 hv
  have hother : isSpace first = false ∧ first ≠ 0x22 := by
    simp only [isDigit, isNumeric, isSpace] at *
    grind
  simp [Scanner.begin?, hfirst, hother]

/-- Letters are scanned as one name, if the first of them could not begin a number. -/
theorem scansUpTo_letters {first : UInt8} {rest : Bytes} {v : Scalar}
    (hfirst : ∀ behind, Scanner.begin? behind first = some ⟨.letters [first], behind⟩)
    (h : ∀ b ∈ rest, isLetter b = true) (hv : scalar? (first :: rest) = some v) :
    ScansUpTo (first :: rest) [.scalar v] := by
  intro b hb behind
  exact @foldlM_run isLetter .letters _ _ _ _ _ (hfirst behind) (fun _ _ hb => if_pos hb)
    (fun _ hb => if_neg (Bool.not_eq_true _ ▸ hb)) h hb.2 hv

/-- A scalar is scanned when its run ends. -/
theorem ScalarText.scansUpTo {s : Scalar} {bs : Bytes} (h : ScalarText s bs) :
    ScansUpTo bs [.scalar s] := by
  have hscalar := scalar?_eq_some_iff.2 h
  cases h with
  | null => exact scansUpTo_letters (fun _ => rfl) (List.all_eq_true.1 rfl) hscalar
  | bool b =>
    cases b with
    | false => exact scansUpTo_letters (fun _ => rfl) (List.all_eq_true.1 rfl) hscalar
    | true => exact scansUpTo_letters (fun _ => rfl) (List.all_eq_true.1 rfl) hscalar
  | number h => exact scansUpTo_numeric h.ne_nil h.isNumeric hscalar

/-! ## Parsing -/

/-- Whether tokens are parsed as a value, inside any open containers. -/
def Parses (tokens : List Token) (v : Value) : Prop :=
  ∀ stack, tokens.foldlM Parser.step (.value stack) = some (.close v stack)

/-- Whether tokens are parsed as a member of an object, behind any other members. -/
def ParsesMember (tokens : List Token) (m : Member) : Prop :=
  ∀ done stack, tokens.foldlM Parser.step (.anotherName done stack) =
    some (.member (m :: done) stack)

/-- A name, a colon and the tokens of a value are a member. -/
theorem Parses.member {tokens : List Token} {v : Value} (h : Parses tokens v) (name : List Piece) :
    ParsesMember (.string name :: .colon :: tokens) (name, v) :=
  fun done stack => h (.object done name :: stack)

section Container

variable {α : Type} (first : Parser) (enter leave result : List α → Parser) (closing : Token)

/-- Items with commas between them are parsed one after the other: `enter` is the parser in front of
an item, and `leave` is the one behind it, given the items before in reverse. -/
theorem parse_intercalate (hcomma : ∀ done, (leave done).step .comma = some (enter done))
    {tokens : List (List Token)} {items : List α}
    (h : List.Forall₂ (fun ts x => ∀ done, ts.foldlM Parser.step (enter done) =
      some (leave (x :: done))) tokens items)
    (hne : items ≠ []) (done : List α) :
    ([.comma].intercalate tokens).foldlM Parser.step (enter done) =
      some (leave (items.reverse ++ done)) := by
  induction h generalizing done with
  | nil => exact absurd rfl hne
  | cons hitem hrest ih =>
    cases hrest with
    | nil => rw [List.intercalate_singleton, hitem]; rfl
    | cons =>
      rw [List.intercalate_cons_cons, List.append_assoc, List.foldlM_append, hitem,
        Option.bind_eq_bind, Option.bind_some, List.singleton_append, List.foldlM_cons, hcomma,
        Option.bind_eq_bind, Option.bind_some, ih (List.cons_ne_nil _ _)]
      simp only [List.reverse_cons, List.append_assoc, List.cons_append, List.nil_append]

/-- A container is parsed as its items: `first` is the parser behind the opening token, which takes
the closing one or an item, and `result` the one behind the closing token. -/
theorem parse_container (hcomma : ∀ done, (leave done).step .comma = some (enter done))
    (hclosing : ∀ done, (leave done).step closing = some (result done.reverse))
    (hempty : first.step closing = some (result []))
    (hfirst : ∀ token next, (enter []).step token = some next → first.step token = some next)
    (hmoves : ∀ done, enter [] ≠ leave done)
    {tokens : List (List Token)} {items : List α}
    (h : List.Forall₂ (fun ts x => ∀ done, ts.foldlM Parser.step (enter done) =
      some (leave (x :: done))) tokens items) :
    ([.comma].intercalate tokens ++ [closing]).foldlM Parser.step first = some (result items) := by
  rcases List.eq_nil_or_concat' items with rfl | ⟨front, last, hitems⟩
  · cases h
    simp [hempty]
  · have hparse := parse_intercalate enter leave hcomma h (by simp [hitems]) []
    rw [List.append_nil] at hparse
    cases htokens : [.comma].intercalate tokens with
    | nil =>
      rw [htokens] at hparse
      exact absurd (Option.some.inj hparse) (hmoves _)
    | cons token rest =>
      rw [htokens, List.foldlM_cons, Option.bind_eq_bind, Option.bind_eq_some_iff] at hparse
      obtain ⟨next, hstep, hrest⟩ := hparse
      rw [List.cons_append, List.foldlM_cons, hfirst token next hstep, Option.bind_eq_bind,
        Option.bind_some, List.foldlM_append, hrest, Option.bind_eq_bind, Option.bind_some]
      simp [hclosing]

end Container

/-- The tokens of values between brackets are parsed as their array. -/
theorem parses_array {tokens : List (List Token)} {elements : List Value}
    (h : List.Forall₂ Parses tokens elements) :
    Parses (.openArray :: ([.comma].intercalate tokens ++ [.closeArray])) (.array elements) := by
  intro stack
  refine parse_container (.firstElement stack) (fun done => .value (.array done :: stack))
    (fun done => .element done stack) (fun elements => .close (.array elements) stack) .closeArray
    (fun _ => rfl) (fun _ => rfl) rfl (fun token next hstep => ?_) nofun
    (h.imp fun _ _ hv done => hv (.array done :: stack))
  cases token with
  | closeArray => cases hstep
  | _ => exact hstep

/-- The tokens of members between braces are parsed as their object. -/
theorem parses_object {tokens : List (List Token)} {members : List Member}
    (h : List.Forall₂ ParsesMember tokens members) :
    Parses (.openObject :: ([.comma].intercalate tokens ++ [.closeObject])) (.object members) := by
  intro stack
  refine parse_container (.firstName stack) (fun done => .anotherName done stack)
    (fun done => .member done stack) (fun members => .close (.object members) stack) .closeObject
    (fun _ => rfl) (fun _ => rfl) rfl (fun token next hstep => ?_) nofun
    (h.imp fun _ _ hm done => hm done stack)
  cases token with
  | string name => exact hstep
  | _ => cases hstep

/-! ## Numerals -/

/-- The numeral of a number that is not zero does not begin with a zero. -/
theorem toDigits_eq_cons {n : Nat} (h : n ≠ 0) :
    ∃ c rest, Nat.toDigits 10 n = c :: rest ∧ c ≠ '0' := by
  induction n using Nat.strong_induction_on with
  | h n ih =>
    rcases Nat.lt_or_ge n 10 with hn | hn
    · refine ⟨_, [], Nat.toDigits_of_lt_base hn, ?_⟩
      interval_cases n <;> first | contradiction | decide
    · obtain ⟨c, rest, hdigits, hc⟩ := ih (n / 10) (by omega) (by omega)
      rw [Nat.toDigits_of_base_le (by decide) hn, hdigits]
      exact ⟨c, _, rfl, hc⟩

/-- A decimal digit is one byte, which is a digit. -/
theorem utf8EncodeChar_of_isDigit {c : Char} (h : c.isDigit = true) :
    ∃ b, String.utf8EncodeChar c = [b] ∧ isDigit b = true ∧ (c ≠ '0' → b ≠ 0x30) := by
  obtain ⟨hlow, hhigh⟩ := Char.isDigit_iff_toNat.1 h
  have hlow : 48 ≤ c.toNat := hlow
  have hhigh : c.toNat ≤ 57 := hhigh
  have hb : (UInt8.ofNat c.toNat).toNat = c.toNat :=
    UInt8.toNat_ofNat_of_lt' (show _ < 256 by omega)
  refine ⟨_, Text.utf8EncodeChar_of_lt (by omega), ?_, fun hc hzero => hc ?_⟩
  · simp only [isDigit, Bool.and_eq_true, decide_eq_true_eq, UInt8.le_iff_toNat_le, hb]
    exact ⟨hlow, hhigh⟩
  · exact Char.toNat_inj.1 (hb.symm.trans (congrArg UInt8.toNat hzero))

/-- The bytes of digits are digits. -/
theorem isDigit_of_mem_flatMap {cs : List Char} (h : ∀ c ∈ cs, c.isDigit = true) {b : UInt8}
    (hb : b ∈ cs.flatMap String.utf8EncodeChar) : isDigit b = true := by
  obtain ⟨c, hc, hmem⟩ := List.mem_flatMap.1 hb
  obtain ⟨d, hd, hdigit, -⟩ := utf8EncodeChar_of_isDigit (h c hc)
  rw [hd, List.mem_singleton] at hmem
  rwa [hmem]

/-- A numeral is a number. -/
theorem isNumeral_repr (n : Nat) : IsNumeral (Bytes.ofText (Nat.repr n)) := by
  have hbytes : Bytes.ofText (Nat.repr n) =
      (Nat.toDigits 10 n).flatMap String.utf8EncodeChar := by
    rw [Nat.repr_eq_ofList_toDigits, Bytes.ofText_ofList]
  have hall : ∀ c ∈ Nat.toDigits 10 n, c.isDigit = true := fun c hc =>
    Nat.isDigit_of_mem_toDigits (by decide) (by decide) hc
  have hdigits : AreDigits (Bytes.ofText (Nat.repr n)) := by
    refine ⟨by simp [Nat.repr_ne_empty], fun b hb => ?_⟩
    rw [hbytes] at hb
    exact isDigit_of_mem_flatMap hall hb
  have hwhole : WholePart (Bytes.ofText (Nat.repr n)) := by
    by_cases hn : n = 0
    · subst hn
      exact .zero
    · refine .digits hdigits ?_
      obtain ⟨c, rest, hcons, hc⟩ := toDigits_eq_cons hn
      obtain ⟨b, hb, -, hzero⟩ := utf8EncodeChar_of_isDigit (hall c (hcons ▸ List.mem_cons_self))
      rw [hbytes, hcons, List.flatMap_cons, hb]
      exact fun heq => hzero hc (Option.some.inj heq)
  simpa using @IsNumeral.mk [] _ (by simp) (.mk hwhole .missing .missing)

/-! ## Texts -/

/-- Whether bytes are the JSON text of a value, in front of any punctuation. -/
def Spells (bs : Bytes) (v : Value) : Prop :=
  ∃ tokens, ScansBefore bs tokens ∧ Parses tokens v

/-- The spellings of a text are texts of a string that is decoded to it. -/
theorem StringSpelling.spells {s : String} {bs : Bytes} (h : StringSpelling s bs) :
    ∃ pieces, decode? pieces = some s ∧ Spells bs (.string pieces) := by
  obtain ⟨pieces, hdecode, hscans⟩ := h.scans
  exact ⟨pieces, hdecode, [.string pieces], hscans.before, fun _ => rfl⟩

/-- The spelling of a scalar is a text of it. -/
theorem ScalarText.spells {s : Scalar} {bs : Bytes} (h : ScalarText s bs) :
    Spells bs (.scalar s) :=
  ⟨_, h.scansUpTo.before, fun _ => rfl⟩

/-- A truth value is written as a text of it. -/
theorem spells_bool (b : Bool) :
    Spells (Bytes.ofText (if b then "true" else "false")) (.scalar (.bool b)) :=
  (ScalarText.bool b).spells

/-- A numeral is a text of a number. -/
theorem spells_repr (n : Nat) :
    Spells (Bytes.ofText (Nat.repr n)) (.scalar (.number (Bytes.ofText (Nat.repr n)))) :=
  (ScalarText.number (isNumeral_repr n)).spells

/-- The tokens of several parts. -/
theorem exists_tokens {α : Type} {P : List Token → α → Prop} {parts : List Bytes} {items : List α}
    (h : List.Forall₂ (fun part x => ∃ tokens, ScansBefore part tokens ∧ P tokens x) parts items) :
    ∃ tokens, List.Forall₂ ScansBefore parts tokens ∧ List.Forall₂ P tokens items := by
  induction h with
  | nil => exact ⟨[], .nil, .nil⟩
  | cons hpart _ ih =>
    obtain ⟨ts, hscan, hparse⟩ := hpart
    obtain ⟨tokens, hscans, hparses⟩ := ih
    exact ⟨ts :: tokens, .cons hscan hscans, .cons hparse hparses⟩

/-- Parts with commas between them, in brackets. -/
theorem scans_container {parts : List Bytes} {tokens : List (List Token)} {b b' : UInt8}
    {opening closing : Token} (h : List.Forall₂ ScansBefore parts tokens)
    (hopening : punctuation? b = some opening) (hclosing : punctuation? b' = some closing) :
    Scans (b :: ([0x2C].intercalate parts ++ [b']))
      (opening :: ([.comma].intercalate tokens ++ [closing])) :=
  (scans_punctuation hopening).append (scansBefore_intercalate h b' closing hclosing)

/-- The texts of values between brackets are a text of their array. -/
theorem spells_array {parts : List Bytes} {elements : List Value}
    (h : List.Forall₂ Spells parts elements) :
    Spells (0x5B :: ([0x2C].intercalate parts ++ [0x5D])) (.array elements) := by
  obtain ⟨tokens, hscans, hparses⟩ := exists_tokens h
  exact ⟨_, (scans_container hscans rfl rfl).before, parses_array hparses⟩

/-- What is scanned as tokens that parse as a value is parsed as it. -/
theorem parse?_of_scans {bs : Bytes} {tokens : List Token} {v : Value} (hscans : Scans bs tokens)
    (hparses : Parses tokens v) : parse? bs = some v := by
  rw [parse?, hscans.tokens?, Option.bind_some, parseTokens?, hparses []]
  rfl

/-- A name, a colon and a value behind it are scanned in front of punctuation. -/
theorem ScansBefore.member {bs bs' : Bytes} {name : List Piece} {tokens : List Token}
    (hname : ScansBefore bs [.string name]) (hv : ScansBefore bs' tokens) :
    ScansBefore (bs ++ 0x3A :: bs') (.string name :: .colon :: tokens) := by
  intro b token hpunctuation
  have hfront : Scans (bs ++ [0x3A]) [.string name, .colon] := hname 0x3A .colon rfl
  simpa only [List.append_assoc, List.cons_append, List.nil_append] using
    hfront.append (hv b token hpunctuation)

/-- A name, a colon and a text, as a member of an object. -/
theorem StringSpelling.spells_member {name : String} {bs bs' : Bytes} {v : Value}
    (hname : StringSpelling name bs) (hv : Spells bs' v) :
    ∃ pieces, decode? pieces = some name ∧
      ∃ tokens, ScansBefore (bs ++ 0x3A :: bs') tokens ∧ ParsesMember tokens (pieces, v) := by
  obtain ⟨pieces, hdecode, hname⟩ := hname.scans
  obtain ⟨tokens, hscans, hparses⟩ := hv
  exact ⟨pieces, hdecode, _, hname.before.member hscans, hparses.member pieces⟩

/-- The bytes of a member of an object that is written. -/
def memberBytes (m : String × String) : Bytes :=
  Bytes.ofText (quote m.1) ++ 0x3A :: Bytes.ofText m.2

/-- The bytes of an object that is written. -/
theorem ofText_object (members : List (String × String)) :
    Bytes.ofText (object members) =
      0x7B :: ([0x2C].intercalate (members.map memberBytes) ++ [0x7D]) := by
  have hmember : ∀ m : String × String,
      Bytes.ofText (quote m.1 ++ ":" ++ m.2) = memberBytes m := fun m => by
    rw [Bytes.ofText_append, Bytes.ofText_append, List.append_assoc]
    rfl
  rw [object, Bytes.ofText_append, Bytes.ofText_append, Bytes.ofText_intercalate, List.map_map]
  simp only [Function.comp_def, hmember]
  rfl

/-- An object that is written is read as the object of its members, each by its name and by what the
value of its text means. -/
theorem parse?_object {α : Type} {R : α → Value → Prop} {members : List (String × String)}
    {items : List (String × α)}
    (h : List.Forall₂ (fun m x => m.1 = x.1 ∧ ∃ v, Spells (Bytes.ofText m.2) v ∧ R x.2 v)
      members items) :
    ∃ read, parse? (Bytes.ofText (object members)) = some (.object read) ∧
      List.Forall₂ (fun x (r : Member) => decode? r.1 = some x.1 ∧ R x.2 r.2) items read := by
  have hmembers : ∃ read, List.Forall₂ (fun x (r : Member) => decode? r.1 = some x.1 ∧ R x.2 r.2)
      items read ∧ List.Forall₂ (fun bs r => ∃ tokens, ScansBefore bs tokens ∧
        ParsesMember tokens r) (members.map memberBytes) read := by
    induction h with
    | nil => exact ⟨[], .nil, .nil⟩
    | @cons m x _ _ hm _ ih =>
      obtain ⟨hname, v, hv, hmeans⟩ := hm
      obtain ⟨read, hread, hparts⟩ := ih
      obtain ⟨pieces, hdecode, hpart⟩ := (stringSpelling_quote m.1).spells_member hv
      exact ⟨(pieces, v) :: read, .cons ⟨hdecode.trans (congrArg some hname), hmeans⟩ hread,
        .cons hpart hparts⟩
  obtain ⟨read, hread, hparts⟩ := hmembers
  obtain ⟨tokens, hscans, hparses⟩ := exists_tokens hparts
  rw [ofText_object]
  exact ⟨read, parse?_of_scans (scans_container hscans rfl rfl) (parses_object hparses), hread⟩

end CacheServer.Json
