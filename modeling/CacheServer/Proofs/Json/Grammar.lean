import CacheServer.Proofs.Json.Tokens

/-!
# The grammar of JSON

`JsonText` has the JSON texts of a value (RFC 8259), as byte strings: inside of strings it takes
any bytes from 0x80 on, as those of a text in UTF-8 are. `parse?_eq_some_iff` says that these are
the byte strings that are read as the value, for every value, however deep it is nested.

What the parser has read is described by its stack: `Opens` has the bytes behind which the
containers of a stack are open, and `Reaches` those behind which the parser stands.
-/

namespace CacheServer.Json

/-! ## The grammar -/

/-- White space, or nothing. -/
def Blank (bs : Bytes) : Prop := ∀ b ∈ bs, isSpace b = true

/-- A member of an object with the texts of its name and its value. -/
structure MemberText where
  name : List Piece
  nameText : Bytes
  value : Value
  valueText : Bytes

namespace MemberText

def member (m : MemberText) : Member := (m.name, m.value)

/-- The text of a member. -/
def text (m : MemberText) : Bytes := m.nameText ++ 0x3A :: m.valueText

end MemberText

/-- The texts of a value, with white space around them and between their tokens. -/
inductive JsonText : Value → Bytes → Prop
  | padded {v : Value} {front text back : Bytes} : Blank front → JsonText v text → Blank back →
      JsonText v (front ++ text ++ back)
  | scalar {s : Scalar} {text : Bytes} : ScalarText s text → JsonText (.scalar s) text
  | string {pieces : List Piece} {inner : Bytes} : PiecesSpelling pieces inner →
      JsonText (.string pieces) (0x22 :: (inner ++ [0x22]))
  | emptyArray {gap : Bytes} : Blank gap → JsonText (.array []) (0x5B :: (gap ++ [0x5D]))
  | array {items : List (Value × Bytes)} : (∀ x ∈ items, JsonText x.1 x.2) →
      JsonText (.array (items.map Prod.fst))
        (0x5B :: ([0x2C].intercalate (items.map Prod.snd) ++ [0x5D]))
  | emptyObject {gap : Bytes} : Blank gap → JsonText (.object []) (0x7B :: (gap ++ [0x7D]))
  | object {members : List MemberText} : (∀ m ∈ members, JsonText (.string m.name) m.nameText) →
      (∀ m ∈ members, JsonText m.value m.valueText) →
      JsonText (.object (members.map MemberText.member))
        (0x7B :: ([0x2C].intercalate (members.map MemberText.text) ++ [0x7D]))

/-- A byte of white space is white space. -/
theorem Blank.singleton {b : UInt8} (h : isSpace b = true) : Blank [b] :=
  List.forall_mem_singleton.2 h

/-- White space may go on. -/
theorem Blank.concat {gap : Bytes} {b : UInt8} (h : Blank gap) (hb : isSpace b = true) :
    Blank (gap ++ [b]) :=
  List.forall_mem_append.2 ⟨h, Blank.singleton hb⟩

/-- White space behind a text belongs to it. -/
theorem JsonText.concat {v : Value} {text : Bytes} {b : UInt8} (h : JsonText v text)
    (hb : isSpace b = true) : JsonText v (text ++ [b]) :=
  @JsonText.padded v [] text [b] nofun h (.singleton hb)

/-- White space in front of a text belongs to it. -/
theorem JsonText.behind {v : Value} {gap text : Bytes} (h : JsonText v text) (hgap : Blank gap) :
    JsonText v (gap ++ text) := by
  have hpadded := @JsonText.padded v gap text [] hgap h nofun
  rwa [List.append_nil] at hpadded

/-! ## What the parser has read -/

/-- Parts with a comma behind each of them. -/
def commaEnded (parts : List Bytes) : Bytes := parts.flatMap (· ++ [0x2C])

/-- One more part comes with its comma. -/
theorem commaEnded_concat (parts : List Bytes) (part : Bytes) :
    commaEnded (parts ++ [part]) = commaEnded parts ++ part ++ [0x2C] := by
  simp [commaEnded]

/-- Parts with commas behind them and a last part are all parts with commas between them. -/
theorem commaEnded_append (parts : List Bytes) (last : Bytes) :
    commaEnded parts ++ last = [0x2C].intercalate (parts ++ [last]) := by
  induction parts with
  | nil => simp [commaEnded]
  | cons part parts ih =>
    have hcons : commaEnded (part :: parts) = part ++ [0x2C] ++ commaEnded parts := rfl
    have hne : parts ++ [last] ≠ [] := by simp
    obtain ⟨next, rest, hnext⟩ := List.exists_cons_of_ne_nil hne
    rw [hcons, List.append_assoc, ih, List.cons_append, hnext, List.intercalate_cons_cons]

/-- Whether the members of an object are written as their texts. -/
def AreMembers (members : List MemberText) : Prop :=
  ∀ m ∈ members, JsonText (.string m.name) m.nameText ∧ JsonText m.value m.valueText

/-- The bytes behind which the containers of a stack are open and a value is to come. -/
inductive Opens : List Frame → Bytes → Prop
  | nil : Opens [] []
  | blank {stack : List Frame} {bs gap : Bytes} : Opens stack bs → Blank gap →
      Opens stack (bs ++ gap)
  | array {stack : List Frame} {bs : Bytes} {items : List (Value × Bytes)} : Opens stack bs →
      (∀ x ∈ items, JsonText x.1 x.2) →
      Opens (.array (items.map Prod.fst).reverse :: stack)
        (bs ++ 0x5B :: commaEnded (items.map Prod.snd))
  | object {stack : List Frame} {bs : Bytes} {members : List MemberText} {name : List Piece}
      {nameText : Bytes} : Opens stack bs → AreMembers members →
      JsonText (.string name) nameText →
      Opens (.object (members.map MemberText.member).reverse name :: stack)
        (bs ++ 0x7B :: (commaEnded (members.map MemberText.text) ++ nameText ++ [0x3A]))

/-- The bytes behind which the parser stands. -/
inductive Reaches : Parser → Bytes → Prop
  | value {stack : List Frame} {bs : Bytes} : Opens stack bs → Reaches (.value stack) bs
  | firstElement {stack : List Frame} {bs gap : Bytes} : Opens stack bs → Blank gap →
      Reaches (.firstElement stack) (bs ++ 0x5B :: gap)
  | firstName {stack : List Frame} {bs gap : Bytes} : Opens stack bs → Blank gap →
      Reaches (.firstName stack) (bs ++ 0x7B :: gap)
  | anotherName {stack : List Frame} {bs gap : Bytes} {members : List MemberText} :
      Opens stack bs → AreMembers members → Blank gap →
      Reaches (.anotherName (members.map MemberText.member).reverse stack)
        (bs ++ 0x7B :: (commaEnded (members.map MemberText.text) ++ gap))
  | colon {stack : List Frame} {bs : Bytes} {members : List MemberText} {name : List Piece}
      {nameText : Bytes} : Opens stack bs → AreMembers members →
      JsonText (.string name) nameText →
      Reaches (.colon (members.map MemberText.member).reverse name stack)
        (bs ++ 0x7B :: (commaEnded (members.map MemberText.text) ++ nameText))
  | element {stack : List Frame} {bs : Bytes} {items : List (Value × Bytes)} {v : Value}
      {text : Bytes} : Opens stack bs → (∀ x ∈ items, JsonText x.1 x.2) → JsonText v text →
      Reaches (.element (v :: (items.map Prod.fst).reverse) stack)
        (bs ++ 0x5B :: (commaEnded (items.map Prod.snd) ++ text))
  | member {stack : List Frame} {bs : Bytes} {members : List MemberText} {m : MemberText} :
      Opens stack bs → AreMembers members → JsonText (.string m.name) m.nameText →
      JsonText m.value m.valueText →
      Reaches (.member (m.member :: (members.map MemberText.member).reverse) stack)
        (bs ++ 0x7B :: (commaEnded (members.map MemberText.text) ++ m.text))
  | complete {v : Value} {text : Bytes} : JsonText v text → Reaches (.complete v) text

/-- A value in the place of the one to come leads behind it. -/
theorem Opens.close {stack : List Frame} {bs text : Bytes} {v : Value} (h : Opens stack bs)
    (hv : JsonText v text) : Reaches (.close v stack) (bs ++ text) := by
  -- only the white space in front is taken off one by one; the frames below stay as they are
  induction h generalizing text with
  | nil => exact .complete hv
  | blank _ hgap ih =>
    rw [List.append_assoc]
    exact ih (hv.behind hgap)
  | array hstack hitems =>
    rw [List.append_assoc]
    exact .element hstack hitems hv
  | @object stack bs members name nameText hstack hmembers hname =>
    have hmember := Reaches.member (m := ⟨name, nameText, v, text⟩) hstack hmembers hname hv
    have hbytes : bs ++ 0x7B :: (commaEnded (members.map MemberText.text) ++ nameText ++ [0x3A]) ++
        text = bs ++ 0x7B :: (commaEnded (members.map MemberText.text) ++
          (nameText ++ 0x3A :: text)) := by simp
    rw [hbytes]
    exact hmember

/-- White space does not move the parser. -/
theorem Reaches.blank {p : Parser} {bs : Bytes} {b : UInt8} (h : Reaches p bs)
    (hb : isSpace b = true) : Reaches p (bs ++ [b]) := by
  cases h with
  | value hstack => exact .value (hstack.blank (.singleton hb))
  | firstElement hstack hgap =>
    rw [List.append_assoc]
    exact .firstElement hstack (hgap.concat hb)
  | firstName hstack hgap =>
    rw [List.append_assoc]
    exact .firstName hstack (hgap.concat hb)
  | anotherName hstack hmembers hgap =>
    rw [List.append_assoc, List.cons_append, List.append_assoc]
    exact .anotherName hstack hmembers (hgap.concat hb)
  | colon hstack hmembers hname =>
    rw [List.append_assoc, List.cons_append, List.append_assoc]
    exact .colon hstack hmembers (hname.concat hb)
  | element hstack hitems hv =>
    rw [List.append_assoc, List.cons_append, List.append_assoc]
    exact .element hstack hitems (hv.concat hb)
  | @member stack bs members m hstack hmembers hname hv =>
    have hmember := Reaches.member (m := { m with valueText := m.valueText ++ [b] }) hstack hmembers
      hname (hv.concat hb)
    have hbytes : bs ++ 0x7B :: (commaEnded (members.map MemberText.text) ++ m.text) ++ [b] =
        bs ++ 0x7B :: (commaEnded (members.map MemberText.text) ++
          (m.nameText ++ 0x3A :: (m.valueText ++ [b]))) := by simp [MemberText.text]
    rw [hbytes]
    exact hmember
  | complete hv => exact .complete (hv.concat hb)

/-- The first token of a value. -/
theorem Opens.begin? {stack : List Frame} {bs text : Bytes} {token : Token} {p : Parser}
    (h : Opens stack bs) (htoken : TokenText token text)
    (hstep : Parser.begin? stack token = some p) : Reaches p (bs ++ text) := by
  cases htoken with
  | scalar hs => cases hstep; exact h.close (.scalar hs)
  | string hpieces => cases hstep; exact h.close (.string hpieces)
  | openArray => cases hstep; exact .firstElement h nofun
  | openObject => cases hstep; exact .firstName h nofun
  | closeArray | closeObject | colon | comma => cases hstep

/-- The parser stands behind a token that it takes. -/
theorem Reaches.step {p p' : Parser} {bs text : Bytes} {token : Token} (h : Reaches p bs)
    (htoken : TokenText token text) (hstep : p.step token = some p') : Reaches p' (bs ++ text) := by
  cases h with
  | value hstack => exact hstack.begin? htoken hstep
  | @firstElement stack bs gap hstack hgap =>
    by_cases hclose : token = .closeArray
    · subst hclose
      cases htoken
      cases hstep
      rw [List.append_assoc]
      exact hstack.close (.emptyArray hgap)
    · -- any other token begins an element, as it would behind a comma
      have hfirst : (Parser.firstElement stack).step token =
          Parser.begin? (.array [] :: stack) token := by
        cases token with
        | closeArray => exact absurd rfl hclose
        | _ => rfl
      have hopen : Opens (.array [] :: stack) (bs ++ [0x5B] ++ gap) :=
        (@Opens.array stack bs [] hstack nofun).blank hgap
      rw [List.append_assoc] at hopen
      exact hopen.begin? htoken (hfirst ▸ hstep)
  | @firstName stack bs gap hstack hgap =>
    cases htoken with
    | closeObject =>
      cases hstep
      rw [List.append_assoc]
      exact hstack.close (.emptyObject hgap)
    | string hpieces =>
      cases hstep
      rw [List.append_assoc]
      exact @Reaches.colon stack bs [] _ _ hstack nofun ((JsonText.string hpieces).behind hgap)
    | _ => cases hstep
  | @anotherName stack bs gap members hstack hmembers hgap =>
    cases htoken with
    | string hpieces =>
      cases hstep
      rw [List.append_assoc, List.cons_append, List.append_assoc]
      exact .colon hstack hmembers ((JsonText.string hpieces).behind hgap)
    | _ => cases hstep
  | colon hstack hmembers hname =>
    cases htoken with
    | colon =>
      cases hstep
      rw [List.append_assoc]
      exact .value (.object hstack hmembers hname)
    | _ => cases hstep
  | @element stack bs items v text hstack hitems hv =>
    have hall : ∀ x ∈ items ++ [(v, text)], JsonText x.1 x.2 :=
      List.forall_mem_append.2 ⟨hitems, List.forall_mem_singleton.2 hv⟩
    cases htoken with
    | comma =>
      cases hstep
      have hopen := Reaches.value (.array hstack hall)
      simpa [commaEnded_concat] using hopen
    | closeArray =>
      cases hstep
      have hclosed := hstack.close (.array hall)
      simpa [← commaEnded_append] using hclosed
    | _ => cases hstep
  | @member stack bs members m hstack hmembers hname hv =>
    have hall : AreMembers (members ++ [m]) :=
      List.forall_mem_append.2 ⟨hmembers, List.forall_mem_singleton.2 ⟨hname, hv⟩⟩
    cases htoken with
    | comma =>
      cases hstep
      have hopen := @Reaches.anotherName stack bs [] _ hstack hall nofun
      simpa [commaEnded_concat] using hopen
    | closeObject =>
      cases hstep
      have hclosed := hstack.close (.object (fun m hm => (hall m hm).1) fun m hm => (hall m hm).2)
      simpa [← commaEnded_append] using hclosed
    | _ => cases hstep
  | complete hv => cases hstep

/-- The parser stands behind the text of the tokens that it has taken. -/
theorem reaches_of_lexed {tokens : List Token} {bs : Bytes} {p : Parser} (h : Lexed tokens bs)
    (hparse : tokens.foldlM Parser.step (.value []) = some p) : Reaches p bs := by
  induction h generalizing p with
  | nil => cases hparse; exact .value .nil
  | blank _ hb ih => exact (ih hparse).blank hb
  | snoc _ htoken ih =>
    rw [List.foldlM_append, Option.bind_eq_bind, Option.bind_eq_some_iff] at hparse
    obtain ⟨before, hbefore, hstep⟩ := hparse
    rw [List.foldlM_cons, Option.bind_eq_bind, Option.bind_eq_some_iff] at hstep
    obtain ⟨after, hstep, hdone⟩ := hstep
    cases hdone
    exact (ih hbefore).step htoken hstep

/-- What is parsed is a text of its value. -/
theorem jsonText_of_parse? {bs : Bytes} {v : Value} (h : parse? bs = some v) : JsonText v bs := by
  obtain ⟨tokens, htokens, hparse⟩ := Option.bind_eq_some_iff.1 h
  obtain ⟨p, hfold, hfinish⟩ := Option.bind_eq_some_iff.1 hparse
  have hreaches := reaches_of_lexed (lexed_of_tokens? htokens) hfold
  cases hreaches with
  | complete hv => cases hfinish; exact hv
  | _ => cases hfinish

/-! ## Reading a text of the grammar -/

/-- A run ends at the end of a text as it does in front of white space. -/
theorem tokens?_append_space (bs : Bytes) : tokens? (bs ++ [0x20]) = tokens? bs := by
  have hfinish : ∀ s : Scanner, (s.step 0x20).bind Scanner.finish = s.finish := by
    rintro ⟨mode, tokens⟩
    cases mode with
    | between | text | escape | hex => rfl
    | numeric run | letters run =>
      have hend : ((Scanner.endRun? run tokens).bind fun tokens => some ⟨.between, tokens⟩).bind
          Scanner.finish = (Scanner.endRun? run tokens).map List.reverse := by
        cases Scanner.endRun? run tokens <;> rfl
      exact hend
  have hspace : ∀ s : Scanner, [0x20].foldlM Scanner.step s = s.step 0x20 := fun s => bind_pure _
  rw [tokens?, tokens?, List.foldlM_append, Option.bind_eq_bind, Option.bind_assoc]
  simp only [hspace, hfinish]

/-- Tokens in front of a run are scanned before it. -/
theorem Scans.append_upTo {front back : Bytes} {tokens tokens' : List Token}
    (hfront : Scans front tokens) (hback : ScansUpTo back tokens') :
    ScansUpTo (front ++ back) (tokens ++ tokens') := by
  intro b hb behind
  rw [List.append_assoc, List.foldlM_append, hfront behind, Option.bind_eq_bind, Option.bind_some,
    hback b hb, List.reverse_append, List.append_assoc]

/-- White space ends a run. -/
theorem ScansUpTo.append_blank {text gap : Bytes} {tokens : List Token} (h : ScansUpTo text tokens)
    (hgap : Blank gap) : ScansUpTo (text ++ gap) tokens := by
  cases gap with
  | nil => rwa [List.append_nil]
  | cons b gap =>
    obtain ⟨hb, hgap⟩ := List.forall_mem_cons.1 hgap
    have hends : EndsRuns b := by
      simp only [EndsRuns, isSpace, isNumeric, isDigit, isLetter] at *
      grind
    have hspace : Scans (text ++ [b]) tokens := fun behind => by
      simp [h b hends behind, Scanner.begin?, hb]
    have hall := hspace.append (scans_space hgap)
    rw [List.append_assoc, List.append_nil] at hall
    exact hall.upTo

/-- A text of the grammar is scanned and parsed as its value. A string is one token. -/
theorem JsonText.exists_scansUpTo {v : Value} {text : Bytes} (h : JsonText v text) :
    ∃ tokens, ScansUpTo text tokens ∧ Parses tokens v ∧
      ∀ pieces, v = .string pieces → tokens = [.string pieces] := by
  -- a name has to be one token, so the induction also says which tokens a string has
  induction h with
  | @padded v front text back hfront _ hback ih =>
    obtain ⟨tokens, hscans, hparses, hstring⟩ := ih
    exact ⟨tokens, ((scans_space hfront).append_upTo hscans).append_blank hback, hparses, hstring⟩
  | scalar hs => exact ⟨_, hs.scansUpTo, fun _ => rfl, nofun⟩
  | string hpieces => exact ⟨_, hpieces.scansAs.scans.upTo, fun _ => rfl, by rintro _ ⟨⟩; rfl⟩
  | emptyArray hgap =>
    have hopening : Scans [0x5B] [.openArray] := scans_punctuation rfl
    have hclosing : Scans [0x5D] [.closeArray] := scans_punctuation rfl
    exact ⟨_, (hopening.append ((scans_space hgap).append hclosing)).upTo, fun _ => rfl, nofun⟩
  | @array items _ ih =>
    have hitems : List.Forall₂ (fun part v => ∃ tokens, ScansBefore part tokens ∧ Parses tokens v)
        (items.map Prod.snd) (items.map Prod.fst) := by
      rw [List.forall₂_map_left_iff, List.forall₂_map_right_iff, List.forall₂_same]
      intro x hx
      obtain ⟨tokens, hscans, hparses, -⟩ := ih x hx
      exact ⟨tokens, hscans.before, hparses⟩
    obtain ⟨tokens, hscans, hparses⟩ := exists_tokens hitems
    exact ⟨_, (scans_container hscans rfl rfl).upTo, parses_array hparses, nofun⟩
  | emptyObject hgap =>
    have hopening : Scans [0x7B] [.openObject] := scans_punctuation rfl
    have hclosing : Scans [0x7D] [.closeObject] := scans_punctuation rfl
    exact ⟨_, (hopening.append ((scans_space hgap).append hclosing)).upTo, fun _ => rfl, nofun⟩
  | @object members _ _ ihname ihvalue =>
    have hmembers : List.Forall₂
        (fun part m => ∃ tokens, ScansBefore part tokens ∧ ParsesMember tokens m)
        (members.map MemberText.text) (members.map MemberText.member) := by
      rw [List.forall₂_map_left_iff, List.forall₂_map_right_iff, List.forall₂_same]
      intro m hm
      obtain ⟨tokens, hname, -, hstring⟩ := ihname m hm
      obtain rfl := hstring m.name rfl
      obtain ⟨tokens, hscans, hparses, -⟩ := ihvalue m hm
      exact ⟨_, hname.before.member hscans.before, hparses.member m.name⟩
    obtain ⟨tokens, hscans, hparses⟩ := exists_tokens hmembers
    exact ⟨_, (scans_container hscans rfl rfl).upTo, parses_object hparses, nofun⟩

/-- The texts of a value are exactly the byte strings that are read as it. -/
theorem parse?_eq_some_iff {bs : Bytes} {v : Value} : parse? bs = some v ↔ JsonText v bs := by
  refine ⟨jsonText_of_parse?, fun h => ?_⟩
  obtain ⟨tokens, hscans, hparses, -⟩ := h.exists_scansUpTo
  have hscan : tokens? bs = some tokens := by
    rw [← tokens?_append_space, tokens?, Scanner.start, hscans 0x20 ⟨rfl, rfl⟩]
    simp [Scanner.begin?, isSpace, Scanner.finish]
  rw [parse?, hscan, Option.bind_some, parseTokens?, hparses []]
  rfl

/-- A text is the text of one value. -/
theorem JsonText.unique {bs : Bytes} {v w : Value} (h : JsonText v bs) (h' : JsonText w bs) :
    v = w := by
  have hparse := parse?_eq_some_iff.2 h
  rw [parse?_eq_some_iff.2 h'] at hparse
  exact (Option.some.inj hparse).symm

end CacheServer.Json
