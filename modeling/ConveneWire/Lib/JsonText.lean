import ConveneWire.Lib.Json

/-! # The compact text of a document

`Doc.text` writes a document without blanks. The parser reads it back, whatever
follows, as long as a number is not continued: `Doc.Spelled.reads`. -/

namespace Json

open List (append_assoc nil_append cons_append cons)

/-! ## Strings -/

/-- The letter of the short escape of a character. The slash needs none. -/
def shortLetter (c : Char) : Option Char :=
  if c = '"' then some '"'
  else if c = '\\' then some '\\'
  else if c = '\x08' then some 'b'
  else if c = '\x0c' then some 'f'
  else if c = '\n' then some 'n'
  else if c = '\r' then some 'r'
  else if c = '\t' then some 't'
  else none

def itemText : StrItem → List Char
  | .char c =>
    match shortLetter c with
    | some letter => ['\\', letter]
    | none => [c]
  | .unit u =>
    ['\\', 'u', Nat.digitChar (u / 4096), Nat.digitChar (u / 256 % 16), Nat.digitChar (u / 16 % 16),
      Nat.digitChar (u % 16)]

def quoted (items : List StrItem) : List Char := '"' :: items.flatMap itemText ++ ['"']

/-- A character that can stand in a string: no control character without a short escape. -/
def StrItem.Spelled : StrItem → Prop
  | .char c => shortLetter c = none → ¬ c.toNat < 0x20
  | .unit _ => True

variable {c : Char} {exponent : Option (Char × List Char × List Char)} {items : List StrItem}

theorem shortEscape_shortLetter {letter : Char} (h : shortLetter c = some letter) :
    shortEscape letter = some c := by
  unfold shortLetter at h
  split_ifs at h <;> cases h <;> subst_vars <;> rfl

theorem ne_of_shortLetter_none (h : shortLetter c = none) : c ≠ '"' ∧ c ≠ '\\' := by
  constructor
  · rintro rfl
    cases h
  · rintro rfl
    cases h

theorem hexDigit_digitChar {n : Nat} (h : n < 16) : hexDigit (Nat.digitChar n) = some ⟨n, h⟩ := by
  have hall : ∀ n : Fin 16, hexDigit (Nat.digitChar n) = some n := by decide
  exact hall ⟨n, h⟩

theorem hexUnit_digits (u : Fin 0x10000) :
    hexUnit (Nat.digitChar (u / 4096)) (Nat.digitChar (u / 256 % 16))
      (Nat.digitChar (u / 16 % 16)) (Nat.digitChar (u % 16)) = some u := by
  have hu := u.isLt
  unfold hexUnit
  rw [hexDigit_digitChar (show u.val / 4096 < 16 by omega),
    hexDigit_digitChar (show u.val / 256 % 16 < 16 by omega),
    hexDigit_digitChar (show u.val / 16 % 16 < 16 by omega),
    hexDigit_digitChar (show u.val % 16 < 16 by omega)]
  simp only [Option.bind_eq_bind, Option.bind_some, Option.some.injEq, Fin.ext_iff]
  omega

theorem stringText_flatMap (h : ∀ item ∈ items, item.Spelled) (rest : List Char) :
    StringText (items.flatMap itemText ++ '"' :: rest) items rest := by
  induction items with
  | nil => exact .close
  | cons item items ih =>
    have hmore := ih fun item hitem => h item (by simp [hitem])
    rw [List.flatMap_cons, append_assoc]
    cases item with
    | unit u => exact .unit (hexUnit_digits u) hmore
    | char c =>
      cases hletter : shortLetter c with
      | some letter =>
        simp only [itemText, hletter]
        exact .short (shortEscape_shortLetter hletter) hmore
      | none =>
        simp only [itemText, hletter]
        obtain ⟨hquote, hback⟩ := ne_of_shortLetter_none hletter
        exact .char hquote hback (h (.char c) (by simp) hletter) hmore

theorem lexString_quoted (h : ∀ item ∈ items, item.Spelled) (rest : List Char) :
    lexString (items.flatMap itemText ++ ['"'] ++ rest) = some (items, rest) := by
  rw [append_assoc]
  exact lexString_eq_some.mpr (stringText_flatMap h rest)

/-! ## Numbers -/

/-- What follows a number and does not continue it. -/
def Ends (rest : List Char) : Prop :=
  ∀ c ∈ rest.head?, c.isDigit = false ∧ c ≠ '.' ∧ c ≠ 'e' ∧ c ≠ 'E'

/-- A number as the grammar has it: nothing follows a leading zero. -/
structure NumberLit.Spelled (lit : NumberLit) : Prop extends lit.Valid where
  strict : lit.whole = ['0'] ∨ lit.whole.head? ≠ some '0'

/-- Digits are taken up to where they end. -/
theorem span_digits {digits rest : List Char} (h : ∀ c ∈ digits, c.isDigit = true)
    (hrest : ∀ c ∈ rest.head?, c.isDigit = false) :
    (digits ++ rest).takeWhile Char.isDigit = digits ∧
      (digits ++ rest).dropWhile Char.isDigit = rest := by
  rw [List.takeWhile_append_of_pos h, List.dropWhile_append_of_pos h]
  cases rest with
  | nil => simp
  | cons c rest =>
    have hc : c.isDigit = false := hrest c (by simp)
    simp [hc]

theorem lexMinus_append {negative : Bool} {whole rest : List Char}
    (h : ∀ c ∈ whole.head?, c.isDigit = true) (hne : whole ≠ []) :
    lexMinus ((if negative then ['-'] else []) ++ (whole ++ rest)) = (negative, whole ++ rest) := by
  obtain ⟨c, whole, rfl⟩ := List.exists_cons_of_ne_nil hne
  have hc : c.isDigit = true := h c (by simp)
  cases negative with
  | true => rfl
  | false =>
    simp only [Bool.false_eq_true, if_false, nil_append, cons_append]
    unfold lexMinus
    split
    · rename_i heq
      cases heq
      cases hc
    · rfl

theorem lexWhole_append {whole rest : List Char} (hne : whole ≠ [])
    (hdigits : ∀ c ∈ whole, c.isDigit = true) (hstrict : whole = ['0'] ∨ whole.head? ≠ some '0')
    (hrest : ∀ c ∈ rest.head?, c.isDigit = false) :
    lexWhole (whole ++ rest) = some (whole, rest) := by
  obtain ⟨htake, hdrop⟩ := span_digits hdigits hrest
  obtain ⟨c, whole, rfl⟩ := List.exists_cons_of_ne_nil hne
  unfold lexWhole
  split
  · rename_i heq
    rcases hstrict with h | h
    · rw [h] at heq ⊢
      cases heq
      rfl
    · cases heq
      exact absurd rfl h
  · simp only [htake, hdrop, hne, if_false]

theorem lexFraction_append {fraction rest : List Char}
    (hdigits : ∀ c ∈ fraction, c.isDigit = true)
    (hrest : ∀ c ∈ rest.head?, c.isDigit = false ∧ c ≠ '.') :
    lexFraction ((if fraction = [] then [] else '.' :: fraction) ++ rest) = (fraction, rest) := by
  by_cases hne : fraction = []
  · subst hne
    simp only [if_true, nil_append]
    unfold lexFraction
    split
    · exact absurd rfl (hrest '.' (by simp)).2
    · rfl
  · obtain ⟨htake, hdrop⟩ := span_digits hdigits fun c hc => (hrest c hc).1
    simp only [hne, if_false, cons_append, lexFraction, htake, hdrop]

theorem lexSign_append {sign digits : List Char} (hsign : sign = [] ∨ sign = ['+'] ∨ sign = ['-'])
    (hdigit : ∀ c ∈ digits.head?, c.isDigit = true) :
    lexSign (sign ++ digits) = (sign, digits) := by
  rcases hsign with rfl | rfl | rfl
  · rw [nil_append]
    unfold lexSign
    split
    · exact absurd (hdigit '+' (by simp)) (by decide)
    · exact absurd (hdigit '-' (by simp)) (by decide)
    · rfl
  · rfl
  · rfl

theorem lexExponent_append {rest : List Char}
    (hvalid : ∀ marker sign digits, exponent = some (marker, sign, digits) →
      (marker = 'e' ∨ marker = 'E') ∧ (sign = [] ∨ sign = ['+'] ∨ sign = ['-']) ∧
        digits ≠ [] ∧ ∀ c ∈ digits, c.isDigit = true) (hrest : Ends rest) :
    lexExponent (NumberLit.exponentText exponent ++ rest) = (exponent, rest) := by
  cases exponent with
  | none =>
    simp only [NumberLit.exponentText, nil_append]
    unfold lexExponent
    split
    · rfl
    · rename_i marker after
      obtain ⟨-, -, he, hE⟩ := hrest marker (by simp)
      rw [if_neg (by simp [he, hE])]
  | some parts =>
    obtain ⟨marker, sign, digits⟩ := parts
    obtain ⟨hmarker, hsign, hne, hdigits⟩ := hvalid marker sign digits rfl
    obtain ⟨htake, hdrop⟩ := span_digits hdigits fun c hc => (hrest c hc).1
    have hhead : ∀ c ∈ (digits ++ rest).head?, c.isDigit = true := by
      intro c hc
      rw [List.head?_append_of_ne_nil _ hne] at hc
      exact hdigits c (List.mem_of_mem_head? hc)
    simp only [NumberLit.exponentText, cons_append, append_assoc, lexExponent,
      if_pos hmarker, lexSign_append hsign hhead, htake, hdrop, if_neg hne]

theorem head_exponentText {rest : List Char}
    (hvalid : ∀ marker sign digits, exponent = some (marker, sign, digits) →
      (marker = 'e' ∨ marker = 'E') ∧ (sign = [] ∨ sign = ['+'] ∨ sign = ['-']) ∧
        digits ≠ [] ∧ ∀ c ∈ digits, c.isDigit = true) (hrest : Ends rest) :
    ∀ c ∈ (NumberLit.exponentText exponent ++ rest).head?, c.isDigit = false ∧ c ≠ '.' := by
  intro c hc
  cases exponent with
  | none => exact ⟨(hrest c hc).1, (hrest c hc).2.1⟩
  | some parts =>
    obtain ⟨marker, sign, digits⟩ := parts
    obtain ⟨hmarker, -⟩ := hvalid marker sign digits rfl
    cases hc
    rcases hmarker with rfl | rfl <;> decide

variable {lit : NumberLit} {d : Doc} {rest : List Char}

/-- A number is read from its own spelling. -/
theorem NumberLit.Spelled.lexNumber (h : lit.Spelled) (hrest : Ends rest) :
    Json.lexNumber (lit.raw ++ rest) = some (lit, rest) := by
  obtain ⟨negative, whole, fraction, exponent⟩ := lit
  obtain ⟨⟨hne, hwhole, hfraction, hexponent⟩, hstrict⟩ := h
  dsimp only at hne hwhole hfraction hexponent hstrict
  have hafter := head_exponentText hexponent hrest
  have hhead : ∀ c ∈ ((if fraction = [] then [] else '.' :: fraction) ++
      (exponentText exponent ++ rest)).head?, c.isDigit = false := by
    intro c hc
    split at hc
    · exact (hafter c hc).1
    · cases hc
      decide
  unfold Json.lexNumber
  simp only [raw, append_assoc]
  rw [lexMinus_append (fun c hc => hwhole c (List.mem_of_mem_head? hc)) hne]
  simp only [lexWhole_append hne hwhole hstrict hhead, Option.bind_eq_bind, Option.bind_some,
    lexFraction_append hfraction hafter, lexExponent_append hexponent hrest]

/-! ## Documents -/

mutual

def Doc.text : Doc → List Char
  | .null => "null".toList
  | .bool b => (toString b).toList
  | .number lit => lit.raw
  | .string items => quoted items
  | .array items => '[' :: [','].intercalate (Doc.itemTexts items) ++ [']']
  | .object ms => '{' :: [','].intercalate (Doc.memberTexts ms) ++ ['}']

def Doc.itemTexts : List Doc → List (List Char)
  | [] => []
  | d :: ds => d.text :: Doc.itemTexts ds

def Doc.memberTexts : List (List StrItem × Doc) → List (List Char)
  | [] => []
  | (key, d) :: ms => (quoted key ++ ':' :: d.text) :: Doc.memberTexts ms

end
open Doc (itemTexts memberTexts)

mutual

/-- Every string and number of the document can be written as it is. -/
def Doc.Spelled : Doc → Prop
  | .null | .bool _ => True
  | .number lit => lit.Spelled
  | .string items => ∀ item ∈ items, item.Spelled
  | .array items => Doc.ItemsSpelled items
  | .object ms => Doc.MembersSpelled ms

def Doc.ItemsSpelled : List Doc → Prop
  | [] => True
  | d :: ds => d.Spelled ∧ Doc.ItemsSpelled ds

def Doc.MembersSpelled : List (List StrItem × Doc) → Prop
  | [] => True
  | (key, d) :: ms => (∀ item ∈ key, item.Spelled) ∧ d.Spelled ∧ Doc.MembersSpelled ms

end

/-- A digit, the minus sign, and the letters of the literal names lead to `scalar`. -/
theorem lead_scalar {c : Char} {text : List Char} (hblank : isBlank c = false) (hquote : c ≠ '"')
    (harray : c ≠ '[') (hobject : c ≠ '{') : lead (c :: text) = .scalar (c :: text) := by
  have hskip : skipBlank (c :: text) = c :: text := List.dropWhile_cons_of_neg (by simp [hblank])
  unfold lead
  rw [hskip]
  split
  · rename_i heq
    cases heq
    exact absurd rfl hquote
  · rename_i heq
    cases heq
    exact absurd rfl harray
  · rename_i heq
    cases heq
    exact absurd rfl hobject
  · rfl

/-- The first character of a number. -/
theorem NumberLit.Valid.raw_eq (h : lit.Valid) :
    ∃ c text, lit.raw = c :: text ∧ (c = '-' ∨ c.isDigit = true) := by
  obtain ⟨c, whole, hwhole⟩ := List.exists_cons_of_ne_nil h.nonempty
  unfold raw
  split
  · exact ⟨'-', _, rfl, .inl rfl⟩
  · rw [hwhole]
    exact ⟨c, _, rfl, .inr (h.whole c (by simp [hwhole]))⟩

theorem ne_of_isDigit (h : c = '-' ∨ c.isDigit = true) (other : Char)
    (h' : other ≠ '-' ∧ other.isDigit = false) : c ≠ other := by
  rintro rfl
  rcases h with rfl | h
  · exact h'.1 rfl
  · rw [h'.2] at h
    cases h

theorem isBlank_of_isDigit (h : c = '-' ∨ c.isDigit = true) : isBlank c = false := by
  have hspace := ne_of_isDigit h ' ' (by decide)
  have htab := ne_of_isDigit h '\t' (by decide)
  have hline := ne_of_isDigit h '\n' (by decide)
  have hreturn := ne_of_isDigit h '\r' (by decide)
  simp [isBlank, hspace, htab, hline, hreturn]

theorem scalar_number (h : lit.Spelled) (hrest : Ends rest) :
    scalar (lit.raw ++ rest) = some (.number lit, rest) := by
  have hlex := h.lexNumber hrest
  obtain ⟨c, text, hraw, hc⟩ := h.toValid.raw_eq
  rw [hraw] at hlex ⊢
  unfold scalar
  split
  · rename_i heq
    exact absurd (cons.inj heq).1 (ne_of_isDigit hc _ (by decide))
  · rename_i heq
    exact absurd (cons.inj heq).1 (ne_of_isDigit hc _ (by decide))
  · rename_i heq
    exact absurd (cons.inj heq).1 (ne_of_isDigit hc _ (by decide))
  · rw [hlex]
    rfl

theorem reads_number (h : lit.Spelled) (hrest : Ends rest) :
    Reads (lit.raw ++ rest) (.number lit) rest := by
  have hscalar := scalar_number h hrest
  obtain ⟨c, text, hraw, hc⟩ := h.toValid.raw_eq
  rw [hraw] at hscalar ⊢
  exact .scalar (lead_scalar (isBlank_of_isDigit hc) (ne_of_isDigit hc _ (by decide))
    (ne_of_isDigit hc _ (by decide)) (ne_of_isDigit hc _ (by decide))) hscalar

/-- A value starts with its own first character, which closes nothing. -/
theorem Doc.Spelled.text_eq (h : d.Spelled) :
    ∃ c text, d.text = c :: text ∧ isBlank c = false ∧ c ≠ ']' ∧ c ≠ '}' := by
  cases d with
  | null => exact ⟨'n', _, rfl, by decide⟩
  | bool b =>
    cases b with
    | false => exact ⟨'f', _, rfl, by decide⟩
    | true => exact ⟨'t', _, rfl, by decide⟩
  | number lit =>
    obtain ⟨c, text, hraw, hc⟩ := NumberLit.Valid.raw_eq (NumberLit.Spelled.toValid h)
    exact ⟨c, text, hraw, isBlank_of_isDigit hc, ne_of_isDigit hc _ (by decide),
      ne_of_isDigit hc _ (by decide)⟩
  | string items => exact ⟨'"', _, rfl, by decide⟩
  | array items => exact ⟨'[', _, rfl, by decide⟩
  | object ms => exact ⟨'{', _, rfl, by decide⟩

theorem expect_self (h : isBlank c = false) :
    expect c (c :: rest) = some rest :=
  expect_eq_some.mpr (List.dropWhile_cons_of_neg (by simp [h]))

theorem expect_ne {c' : Char} (h : isBlank c' = false ∧ c' ≠ c) :
    expect c (c' :: rest) = none := by
  have hskip : skipBlank (c' :: rest) = c' :: rest := List.dropWhile_cons_of_neg (by simp [h.1])
  unfold expect
  rw [hskip]
  exact if_neg h.2

theorem name_quoted {key : List StrItem} (h : ∀ item ∈ key, item.Spelled) (rest : List Char) :
    name (quoted key ++ ':' :: rest) = some (key, rest) := by
  unfold name quoted
  simp only [cons_append, expect_self (show isBlank '"' = false by decide),
    lexString_quoted h, Option.bind_eq_bind, Option.bind_some,
    expect_self (show isBlank ':' = false by decide)]

theorem ends_cons (h : c.isDigit = false ∧ c ≠ '.' ∧ c ≠ 'e' ∧ c ≠ 'E') : Ends (c :: rest) := by
  intro c' hc'
  cases hc'
  exact h

theorem ends_nil : Ends [] := nofun

section Reads

variable (rest : List Char)

/-- Elements one after the other, once each of them reads back. -/
theorem readsElements_texts {ds : List Doc} (hspelled : Doc.ItemsSpelled (d :: ds))
    (h : ∀ e ∈ d :: ds, e.Spelled → ∀ rest, Ends rest → Reads (e.text ++ rest) e rest) :
    ReadsElements ([','].intercalate (itemTexts (d :: ds)) ++ ']' :: rest) (d :: ds) rest := by
  induction ds generalizing d with
  | nil =>
    have hd := h d (by simp) hspelled.1 (']' :: rest) (ends_cons (by decide))
    rw [itemTexts, itemTexts, List.intercalate_singleton]
    exact .last hd (expect_self (by decide))
  | cons next ds ih =>
    have hnext := ih hspelled.2 fun e he => h e (by simp [he])
    have hd := h d (by simp) hspelled.1
      (',' :: ([','].intercalate (itemTexts (next :: ds)) ++ ']' :: rest))
      (ends_cons (by decide))
    rw [itemTexts, itemTexts, List.intercalate_cons_cons]
    simp only [append_assoc, cons_append]
    exact .more hd (expect_ne (by decide)) (expect_self (by decide)) hnext

theorem readsMembers_texts {m : List StrItem × Doc} {ms : List (List StrItem × Doc)}
    (hspelled : Doc.MembersSpelled (m :: ms))
    (h : ∀ e ∈ m :: ms, e.2.Spelled → ∀ rest, Ends rest → Reads (e.2.text ++ rest) e.2 rest) :
    ReadsMembers ([','].intercalate (memberTexts (m :: ms)) ++ '}' :: rest) (m :: ms) rest := by
  induction ms generalizing m with
  | nil =>
    obtain ⟨key, d⟩ := m
    have hd := h (key, d) (by simp) hspelled.2.1 ('}' :: rest) (ends_cons (by decide))
    rw [memberTexts, memberTexts, List.intercalate_singleton, append_assoc, cons_append]
    exact .last (name_quoted hspelled.1 _) hd (expect_self (by decide))
  | cons next ms ih =>
    obtain ⟨key, d⟩ := m
    have hnext := ih hspelled.2.2 fun e he => h e (by simp [he])
    have hd := h (key, d) (by simp) hspelled.2.1
      (',' :: ([','].intercalate (memberTexts (next :: ms)) ++ '}' :: rest))
      (ends_cons (by decide))
    obtain ⟨key', d'⟩ := next
    rw [memberTexts, memberTexts, List.intercalate_cons_cons]
    simp only [append_assoc, cons_append]
    exact .more (name_quoted hspelled.1 _) hd (expect_ne (by decide)) (expect_self (by decide)) hnext

end Reads

/-- The parser reads a document from its text. -/
theorem Doc.Spelled.reads (h : d.Spelled) {rest : List Char} (hrest : Ends rest) :
    Reads (d.text ++ rest) d rest := by
  induction d using Doc.induct generalizing rest with
  | null => exact .scalar (lead_scalar (by decide) (by decide) (by decide) (by decide)) rfl
  | bool b =>
    cases b with
    | false => exact .scalar (lead_scalar (by decide) (by decide) (by decide) (by decide)) rfl
    | true => exact .scalar (lead_scalar (by decide) (by decide) (by decide) (by decide)) rfl
  | number lit => exact reads_number h hrest
  | string items => exact .string rfl (lexString_quoted h rest)
  | array items ih =>
    cases items with
    | nil => exact .emptyArray rfl (expect_self (by decide))
    | cons d ds =>
      obtain ⟨c, text, htext, hblank, hclose, -⟩ := h.1.text_eq
      have helements := readsElements_texts rest h ih
      have hopen : ∃ text', [','].intercalate (itemTexts (d :: ds)) = c :: text' := by
        cases ds <;> simp [itemTexts, htext, List.intercalate_cons_cons]
      obtain ⟨text', htext'⟩ := hopen
      have hnone : expect ']' ([','].intercalate (itemTexts (d :: ds)) ++ ']' :: rest) = none := by
        rw [htext']
        exact expect_ne ⟨hblank, hclose⟩
      rw [Doc.text, append_assoc]
      exact .array rfl hnone helements
  | object ms ih =>
    cases ms with
    | nil => exact .emptyObject rfl (expect_self (by decide))
    | cons m ms =>
      have hmembers := readsMembers_texts rest h ih
      have hopen : ∃ text, [','].intercalate (memberTexts (m :: ms)) = '"' :: text := by
        cases ms <;> simp [memberTexts, quoted, List.intercalate_cons_cons]
      obtain ⟨text, htext⟩ := hopen
      have hnone : expect '}' ([','].intercalate (memberTexts (m :: ms)) ++ '}' :: rest) =
          none := by
        rw [htext]
        exact expect_ne (by decide)
      rw [Doc.text, append_assoc]
      exact .object rfl hnone hmembers

/-- The text of a document is a text of the document. -/
theorem Doc.Spelled.parse_text (h : d.Spelled) : parse d.text = some d := by
  have hreads := h.reads ends_nil
  rw [List.append_nil] at hreads
  exact parse_eq_some.mpr ⟨[], hreads, rfl⟩

end Json
