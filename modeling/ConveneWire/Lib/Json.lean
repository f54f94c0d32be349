import Mathlib.Data.List.TakeWhile
import Mathlib.Data.Rat.Defs
import Mathlib.Algebra.Order.Field.Rat
import ConveneWire.Lib.Utf16

/-! # JSON texts

The syntax of RFC 8259 as a recursive-descent parser over Unicode text, for
programs whose platform parser is taken as given. A document keeps what readers
of the text differ on: how a number and each element of a string were spelled,
the order of members, and repeated names. Only whitespace is dropped. -/

namespace Json

open Utf16 (isHigh isLow pair encode_cons decode)
open Option (isSome_map bind_eq_bind bind_eq_some_iff some map_eq_some_iff map_some)

/-- One element of a string: a character, written as itself or by a short escape, or the UTF-16
code unit of a `\u` escape. -/
inductive StrItem where
  | char (c : Char)
  | unit (u : Fin 0x10000)
  deriving DecidableEq, Repr

/-- A number as spelled: digits, an optional fraction and an optional exponent with its marker
and sign. -/
structure NumberLit where
  negative : Bool
  whole : List Char
  fraction : List Char
  exponent : Option (Char × List Char × List Char)
  deriving DecidableEq, Repr

inductive Doc where
  | null
  | bool (b : Bool)
  | number (lit : NumberLit)
  | string (items : List StrItem)
  | array (items : List Doc)
  | object (members : List (List StrItem × Doc))

/-- Induction over a document, with the hypothesis for every element and every member. -/
@[elab_as_elim, induction_eliminator]
theorem Doc.induct {P : Doc → Prop} (null : P .null) (bool : ∀ b, P (.bool b))
    (number : ∀ lit, P (.number lit)) (string : ∀ items, P (.string items))
    (array : ∀ items, (∀ d ∈ items, P d) → P (.array items))
    (object : ∀ members, (∀ m ∈ members, P m.2) → P (.object members)) (d : Doc) : P d :=
  @Doc.rec P (fun ds => ∀ d ∈ ds, P d) (fun ms => ∀ m ∈ ms, P m.2) (fun m => P m.2)
    null bool number string array object
    (by simp) (fun _ _ hd hds => List.forall_mem_cons.mpr ⟨hd, hds⟩)
    (by simp) (fun _ _ hm hms => List.forall_mem_cons.mpr ⟨hm, hms⟩)
    (fun _ _ h => h) d

/-! ## Numbers -/

namespace NumberLit

def exponentText : Option (Char × List Char × List Char) → List Char
  | none => []
  | some (marker, sign, digits) => marker :: sign ++ digits

variable (lit : NumberLit)

def raw : List Char :=
  (if lit.negative then ['-'] else []) ++ lit.whole ++
    (if lit.fraction = [] then [] else '.' :: lit.fraction) ++ exponentText lit.exponent

/-- The power of ten the literal names. -/
def scale : Int :=
  match lit.exponent with
  | none => 0
  | some (_, sign, digits) =>
    if sign = ['-'] then -(Nat.ofDigitChars 10 digits 0 : Int) else Nat.ofDigitChars 10 digits 0

/-- All digits of the literal, read as one number. -/
def significand : Nat := Nat.ofDigitChars 10 (lit.whole ++ lit.fraction) 0

/-- The exact magnitude of the literal. -/
def magnitude : ℚ :=
  lit.significand * (10 : ℚ) ^ (lit.scale - lit.fraction.length)

/-- The exact value of the literal. -/
def value : ℚ := if lit.negative then -lit.magnitude else lit.magnitude

end NumberLit

def lexWhole : List Char → Option (List Char × List Char)
  | '0' :: rest => some (['0'], rest)
  | text =>
    let whole := text.takeWhile Char.isDigit
    if whole = [] then none else some (whole, text.dropWhile Char.isDigit)

def lexFraction : List Char → List Char × List Char
  | '.' :: rest =>
    let fraction := rest.takeWhile Char.isDigit
    if fraction = [] then ([], '.' :: rest) else (fraction, rest.dropWhile Char.isDigit)
  | text => ([], text)

def lexSign : List Char → List Char × List Char
  | '+' :: rest => (['+'], rest)
  | '-' :: rest => (['-'], rest)
  | text => ([], text)

def lexExponent : List Char → Option (Char × List Char × List Char) × List Char
  | [] => (none, [])
  | marker :: rest =>
    if marker = 'e' ∨ marker = 'E' then
      let (sign, after) := lexSign rest
      let digits := after.takeWhile Char.isDigit
      if digits = [] then (none, marker :: rest)
      else (some (marker, sign, digits), after.dropWhile Char.isDigit)
    else (none, marker :: rest)

def lexMinus : List Char → Bool × List Char
  | '-' :: rest => (true, rest)
  | text => (false, text)

/-- The longest number the text begins with. -/
def lexNumber (text : List Char) : Option (NumberLit × List Char) := do
  let (negative, text) := lexMinus text
  let (whole, text) ← lexWhole text
  let (fraction, text) := lexFraction text
  let (exponent, text) := lexExponent text
  some (⟨negative, whole, fraction, exponent⟩, text)

/-! ## Strings -/

def hexDigit (c : Char) : Option (Fin 16) :=
  if h : 0x30 ≤ c.toNat ∧ c.toNat ≤ 0x39 then some ⟨c.toNat - 0x30, by omega⟩
  else if h : 0x61 ≤ c.toNat ∧ c.toNat ≤ 0x66 then some ⟨c.toNat - 0x57, by omega⟩
  else if h : 0x41 ≤ c.toNat ∧ c.toNat ≤ 0x46 then some ⟨c.toNat - 0x37, by omega⟩
  else none

def hexUnit (a b c d : Char) : Option (Fin 0x10000) := do
  let a ← hexDigit a
  let b ← hexDigit b
  let c ← hexDigit c
  let d ← hexDigit d
  some ⟨((a.val * 16 + b.val) * 16 + c.val) * 16 + d.val, by omega⟩

def shortEscape : Char → Option Char
  | '"' => some '"'
  | '\\' => some '\\'
  | '/' => some '/'
  | 'b' => some '\x08'
  | 'f' => some '\x0c'
  | 'n' => some '\n'
  | 'r' => some '\r'
  | 't' => some '\t'
  | _ => none

/-- The rest of a string whose opening quote was read. -/
def lexString : List Char → Option (List StrItem × List Char)
  | [] => none
  | c :: rest =>
    if c = '"' then some ([], rest)
    else if c = '\\' then
      match rest with
      | 'u' :: a :: b :: c :: d :: rest => do
        let u ← hexUnit a b c d
        let (items, rest) ← lexString rest
        some (.unit u :: items, rest)
      | c :: rest => do
        let e ← shortEscape c
        let (items, rest) ← lexString rest
        some (.char e :: items, rest)
      | [] => none
    else if c.toNat < 0x20 then none
    else do
      let (items, rest) ← lexString rest
      some (.char c :: items, rest)

/-- The UTF-16 code units a string stands for. -/
def units (items : List StrItem) : List Nat :=
  items.flatMap fun
    | .char c => Utf16.units c
    | .unit u => [u.val]

/-- Every escaped surrogate is one half of an escaped pair. -/
def paired : List StrItem → Bool
  | [] => true
  | .char _ :: rest => paired rest
  | .unit u :: rest =>
    if isHigh u then
      match rest with
      | .unit v :: rest => isLow v && paired rest
      | _ => false
    else !Utf16.isLow u && paired rest

/-- The characters of a string, with U+FFFD for a surrogate that is not half of a pair. -/
def runes : List StrItem → List Char
  | [] => []
  | .char c :: rest => c :: runes rest
  | .unit u :: rest =>
    if isHigh u || isLow u then
      match rest with
      | .unit v :: rest =>
        if isHigh u && isLow v then pair u v :: runes rest
        else '\uFFFD' :: runes (.unit v :: rest)
      | rest => '\uFFFD' :: runes rest
    else Char.ofNat u :: runes rest

variable {items : List StrItem}

/-- Without stray surrogates the two readings of a string agree. -/
theorem encode_runes (h : paired items = true) : Utf16.encode (runes items) = units items := by
  fun_induction paired items with
  | case1 => rfl
  | case2 c rest ih =>
    rw [runes, encode_cons, ih h]
    rfl
  | case3 u hhigh v rest ih =>
    obtain ⟨hlow, hrest⟩ := Bool.and_eq_true_iff.mp h
    rw [runes.eq_def]
    simp only [hhigh, hlow, Bool.true_or, Bool.and_self, if_true]
    rw [encode_cons, Utf16.units_pair hhigh hlow, ih hrest]
    rfl
  | case4 => cases h
  | case5 u rest hhigh ih =>
    obtain ⟨hlow, hrest⟩ := Bool.and_eq_true_iff.mp h
    have hhigh : isHigh u = false := by simpa using hhigh
    have hlow : isLow u = false := by simpa using hlow
    rw [runes.eq_def]
    simp only [hhigh, hlow, Bool.or_self, Bool.false_eq_true, if_false]
    rw [encode_cons, Utf16.units_ofNat u.isLt hhigh hlow, ih hrest]
    rfl

/-- No code unit of a character continues a pair. -/
theorem decode_high_char {u : Nat} (hu : isHigh u = true) (c : Char) (us : List Nat) :
    decode (u :: (Utf16.units c ++ us)) = none := by
  have hfirst : ∃ v vs, Utf16.units c = v :: vs ∧ isLow v = false := by
    by_cases h : c.toNat < 0x10000
    · exact ⟨c.toNat, [], Utf16.units_bmp h, Utf16.isLow_toNat c⟩
    obtain ⟨hhigh, -, -⟩ := Utf16.pair_units (Nat.le_of_not_lt h)
    refine ⟨_, _, if_neg h, ?_⟩
    by_contra hlow
    rw [Bool.not_eq_false] at hlow
    rw [Utf16.not_high_of_low hlow] at hhigh
    cases hhigh
  obtain ⟨v, vs, hunits, hlow⟩ := hfirst
  rw [hunits, List.cons_append, Utf16.decode.eq_def]
  simp [hu, hlow]

/-- Stray surrogates are what makes the code units of a string ill formed. -/
theorem isWellFormed_units (items : List StrItem) :
    Utf16.isWellFormed (units items) = paired items := by
  have hchar : ∀ c rest, units (.char c :: rest) = Utf16.units c ++ units rest := fun _ _ => rfl
  have hunit : ∀ (u : Fin 0x10000) rest, units (.unit u :: rest) = u.val :: units rest :=
    fun _ _ => rfl
  unfold Utf16.isWellFormed
  fun_induction paired items with
  | case1 => rfl
  | case2 c rest ih =>
    rw [hchar, Utf16.decode_units_append, isSome_map, ih]
  | case3 u hhigh v rest ih =>
    rw [hunit, hunit, Utf16.decode.eq_def]
    simp only [hhigh, if_true]
    split
    · rename_i hlow
      rw [isSome_map, ih, hlow, Bool.true_and]
    · rename_i hlow
      simp [hlow]
  | case4 u rest hhigh hnot =>
    rw [hunit]
    cases rest with
    | nil =>
      rw [Utf16.decode.eq_def]
      simp [hhigh, units]
    | cons item rest =>
      cases item with
      | char c =>
        rw [hchar, decode_high_char hhigh]
        rfl
      | unit v => exact absurd rfl (hnot v rest)
  | case5 u rest hhigh ih =>
    rw [hunit, Utf16.decode.eq_def]
    simp only [hhigh, Bool.false_eq_true, if_false]
    split
    · rename_i hlow
      simp [hlow]
    · rename_i hlow
      rw [isSome_map, ih]
      simp [hlow]

/-! ## Values -/

def isBlank (c : Char) : Bool := c = ' ' || c = '\t' || c = '\n' || c = '\r'

def skipBlank (text : List Char) : List Char := text.dropWhile isBlank

/-- What follows the character `c`, if it comes next. -/
def expect (c : Char) (text : List Char) : Option (List Char) :=
  match skipBlank text with
  | next :: rest => if next = c then some rest else none
  | [] => none

/-- A literal name or a number. -/
def scalar : List Char → Option (Doc × List Char)
  | 'n' :: 'u' :: 'l' :: 'l' :: rest => some (.null, rest)
  | 't' :: 'r' :: 'u' :: 'e' :: rest => some (.bool true, rest)
  | 'f' :: 'a' :: 'l' :: 's' :: 'e' :: rest => some (.bool false, rest)
  | text => (lexNumber text).map fun (lit, rest) => (.number lit, rest)

/-- How a value begins. -/
inductive Lead where
  | string (rest : List Char)
  | array (rest : List Char)
  | object (rest : List Char)
  | scalar (text : List Char)

def lead (text : List Char) : Lead :=
  match skipBlank text with
  | '"' :: rest => .string rest
  | '[' :: rest => .array rest
  | '{' :: rest => .object rest
  | text => .scalar text

/-- The name of a member with its colon. -/
def name (text : List Char) : Option (List StrItem × List Char) := do
  let rest ← expect '"' text
  let (key, rest) ← lexString rest
  let rest ← expect ':' rest
  some (key, rest)

mutual

/-- One value at the front of the text. -/
def value : Nat → List Char → Option (Doc × List Char)
  | 0, _ => none
  | fuel + 1, text =>
    match lead text with
    | .string rest => (lexString rest).map fun (items, rest) => (.string items, rest)
    | .array rest =>
      match expect ']' rest with
      | some rest => some (.array [], rest)
      | none => (elements fuel rest).map fun (items, rest) => (.array items, rest)
    | .object rest =>
      match expect '}' rest with
      | some rest => some (.object [], rest)
      | none => (members fuel rest).map fun (members, rest) => (.object members, rest)
    | .scalar text => scalar text

/-- The elements of a nonempty array, up to its closing bracket. -/
def elements : Nat → List Char → Option (List Doc × List Char)
  | 0, _ => none
  | fuel + 1, text => do
    let (d, rest) ← value fuel text
    match expect ']' rest with
    | some rest => some ([d], rest)
    | none =>
      let rest ← expect ',' rest
      let (ds, rest) ← elements fuel rest
      some (d :: ds, rest)

/-- The members of a nonempty object, up to its closing brace. -/
def members : Nat → List Char → Option (List (List StrItem × Doc) × List Char)
  | 0, _ => none
  | fuel + 1, text => do
    let (key, rest) ← name text
    let (d, rest) ← value fuel rest
    match expect '}' rest with
    | some rest => some ([(key, d)], rest)
    | none =>
      let rest ← expect ',' rest
      let (ms, rest) ← members fuel rest
      some ((key, d) :: ms, rest)

end

/-- A whole text. -/
def parse (text : List Char) : Option Doc := do
  let (d, rest) ← value (2 * text.length + 1) text
  if skipBlank rest = [] then some d else none

/-! ## What the parts of a value consume -/

theorem skipBlank_length (text : List Char) : (skipBlank text).length ≤ text.length :=
  (List.dropWhile_sublist _).length_le

variable {text rest : List Char} {c : Char} {key : List StrItem} {lit : NumberLit} {d : Doc}

theorem expect_eq_some : expect c text = some rest ↔ skipBlank text = c :: rest := by
  unfold expect
  split
  · rename_i next after heq
    rw [heq]
    split
    · rename_i h
      simp [h]
    · rename_i h
      simp [h]
  · rename_i heq
    simp [heq]

theorem expect_length (h : expect c text = some rest) : rest.length < text.length := by
  have hlen := skipBlank_length text
  rw [expect_eq_some.mp h, List.length_cons] at hlen
  exact hlen

/-- The grammar of the rest of a string: the text, its elements, and what follows the closing
quote. -/
inductive StringText : List Char → List StrItem → List Char → Prop
  | close {rest : List Char} : StringText ('"' :: rest) [] rest
  | unit {a b c d : Char} {u : Fin 0x10000} {text rest : List Char} {items : List StrItem}
      (hex : hexUnit a b c d = some u) (more : StringText text items rest) :
      StringText ('\\' :: 'u' :: a :: b :: c :: d :: text) (.unit u :: items) rest
  | short {c e : Char} {text rest : List Char} {items : List StrItem}
      (escape : shortEscape c = some e) (more : StringText text items rest) :
      StringText ('\\' :: c :: text) (.char e :: items) rest
  | char {c : Char} {text rest : List Char} {items : List StrItem} (quote : c ≠ '"')
      (backslash : c ≠ '\\') (control : ¬ c.toNat < 0x20) (more : StringText text items rest) :
      StringText (c :: text) (.char c :: items) rest

theorem StringText.of_lexString (h : lexString text = some (items, rest)) :
    StringText text items rest := by
  fun_induction lexString text generalizing items with
  | case1 => cases h
  | case2 => cases h; exact .close
  | case3 a b c d rest' _ ih =>
    simp only [bind_eq_bind, bind_eq_some_iff] at h
    obtain ⟨u, hu, ⟨items', rest''⟩, hrec, heq⟩ := h
    cases heq
    exact .unit hu (ih hrec)
  | case4 c rest' _ _ ih =>
    simp only [bind_eq_bind, bind_eq_some_iff] at h
    obtain ⟨e, he, ⟨items', rest''⟩, hrec, heq⟩ := h
    cases heq
    exact .short he (ih hrec)
  | case5 => cases h
  | case6 => cases h
  | case7 c rest' hquote hback hcontrol ih =>
    simp only [bind_eq_bind, bind_eq_some_iff] at h
    obtain ⟨⟨items', rest''⟩, hrec, heq⟩ := h
    cases heq
    exact .char hquote hback hcontrol (ih hrec)

theorem StringText.lexString (h : StringText text items rest) :
    lexString text = some (items, rest) := by
  have hquote : ¬ '\\' = '"' := by decide
  induction h with
  | close => rw [Json.lexString.eq_def]; simp
  | unit hex more ih => rw [Json.lexString.eq_def]; simp [hquote, hex, ih]
  | @short c e text rest items escape more ih =>
    -- A short escape is never the letter that begins a code unit.
    have hu : c ≠ 'u' := by rintro rfl; cases escape
    rw [Json.lexString.eq_def]
    simp only [hquote, if_false, if_true]
    split
    · rename_i heq
      cases heq
      exact absurd rfl hu
    · rename_i heq
      cases heq
      simp [escape, ih]
    · rename_i heq
      cases heq
  | char quote backslash control more ih =>
    rw [Json.lexString.eq_def]
    simp [quote, backslash, control, ih]

theorem lexString_eq_some : lexString text = some (items, rest) ↔ StringText text items rest :=
  ⟨.of_lexString, StringText.lexString⟩

theorem StringText.length (h : StringText text items rest) : rest.length < text.length := by
  induction h with
  | close => simp
  | unit | short | char => simp only [List.length_cons]; omega

theorem StringText.append {text rest : List Char} (h : StringText text items rest)
    (more : List Char) : StringText (text ++ more) items (rest ++ more) := by
  induction h with
  | close => exact .close
  | unit hex _ ih => exact .unit hex ih
  | short escape _ ih => exact .short escape ih
  | char quote backslash control _ ih => exact .char quote backslash control ih

theorem name_eq_some :
    name text = some (key, rest) ↔ ∃ quoted after, expect '"' text = some quoted ∧
      lexString quoted = some (key, after) ∧ expect ':' after = some rest := by
  simp only [name, bind_eq_bind, bind_eq_some_iff, some.injEq, Prod.mk.injEq, Prod.exists]
  constructor
  · rintro ⟨quoted, hquoted, key', after, hkey, rest', hcolon, rfl, rfl⟩
    exact ⟨quoted, after, hquoted, hkey, hcolon⟩
  · rintro ⟨quoted, after, hquoted, hkey, hcolon⟩
    exact ⟨quoted, hquoted, key, after, hkey, rest, hcolon, rfl, rfl⟩

theorem name_length (h : name text = some (key, rest)) : rest.length < text.length := by
  obtain ⟨quoted, after, hquoted, hkey, hcolon⟩ := name_eq_some.mp h
  have hlexed := (StringText.of_lexString hkey).length
  have hopened := expect_length hquoted
  have hclosed := expect_length hcolon
  omega

section Lead

variable {text rest : List Char}

theorem lead_eq_string : lead text = .string rest ↔ skipBlank text = '"' :: rest := by
  unfold lead
  split <;> simp_all

theorem lead_eq_array : lead text = .array rest ↔ skipBlank text = '[' :: rest := by
  unfold lead
  split <;> simp_all

theorem lead_eq_object : lead text = .object rest ↔ skipBlank text = '{' :: rest := by
  unfold lead
  split <;> simp_all

theorem skipBlank_of_lead_scalar (h : lead text = .scalar rest) : skipBlank text = rest := by
  unfold lead at h
  split at h <;> cases h
  rfl

theorem length_of_skipBlank (h : skipBlank text = c :: rest) : rest.length < text.length := by
  have hlen := skipBlank_length text
  rw [h, List.length_cons] at hlen
  exact hlen

end Lead

/-! ## The spelling of a number -/

/-- What the grammar asks of the parts of a number. -/
structure NumberLit.Valid (lit : NumberLit) : Prop where
  nonempty : lit.whole ≠ []
  whole : ∀ c ∈ lit.whole, c.isDigit = true
  fraction : ∀ c ∈ lit.fraction, c.isDigit = true
  exponent : ∀ marker sign digits, lit.exponent = some (marker, sign, digits) →
    (marker = 'e' ∨ marker = 'E') ∧ (sign = [] ∨ sign = ['+'] ∨ sign = ['-']) ∧
      digits ≠ [] ∧ ∀ c ∈ digits, c.isDigit = true

theorem lexMinus_text {negative : Bool} (h : lexMinus text = (negative, rest)) :
    text = (if negative then ['-'] else []) ++ rest := by
  unfold lexMinus at h
  split at h <;> cases h <;> rfl

theorem lexWhole_text {whole : List Char} (h : lexWhole text = some (whole, rest)) :
    text = whole ++ rest ∧ whole ≠ [] ∧ ∀ c ∈ whole, c.isDigit = true := by
  unfold lexWhole at h
  split at h
  · cases h
    exact ⟨rfl, by simp, by simp⟩
  dsimp only at h
  split at h
  · cases h
  · rename_i hne
    cases h
    exact ⟨List.takeWhile_append_dropWhile.symm, hne, fun c hc => List.mem_takeWhile_imp hc⟩

theorem lexFraction_text {fraction : List Char} (h : lexFraction text = (fraction, rest)) :
    text = (if fraction = [] then [] else '.' :: fraction) ++ rest ∧
      ∀ c ∈ fraction, c.isDigit = true := by
  unfold lexFraction at h
  split at h
  · dsimp only at h
    split at h
    · cases h
      exact ⟨rfl, by simp⟩
    rename_i hne
    cases h
    rw [if_neg hne, List.cons_append, List.takeWhile_append_dropWhile]
    exact ⟨rfl, fun c hc => List.mem_takeWhile_imp hc⟩
  · cases h
    exact ⟨rfl, by simp⟩

theorem lexSign_text {sign : List Char} (h : lexSign text = (sign, rest)) :
    text = sign ++ rest ∧ (sign = [] ∨ sign = ['+'] ∨ sign = ['-']) := by
  unfold lexSign at h
  split at h <;> cases h <;> simp

theorem lexExponent_text {exponent : Option (Char × List Char × List Char)}
    (h : lexExponent text = (exponent, rest)) :
    text = NumberLit.exponentText exponent ++ rest ∧
      ∀ marker sign digits, exponent = some (marker, sign, digits) →
        (marker = 'e' ∨ marker = 'E') ∧ (sign = [] ∨ sign = ['+'] ∨ sign = ['-']) ∧
          digits ≠ [] ∧ ∀ c ∈ digits, c.isDigit = true := by
  unfold lexExponent at h
  split at h
  · cases h
    exact ⟨rfl, nofun⟩
  rename_i marker after
  split at h
  · rename_i hmarker
    cases hsign : lexSign after with
    | mk sign digits =>
      simp only [hsign] at h
      obtain ⟨hafter, hsigns⟩ := lexSign_text hsign
      split at h
      · cases h
        exact ⟨rfl, nofun⟩
      rename_i hne
      cases h
      refine ⟨?_, ?_⟩
      · simp only [NumberLit.exponentText, List.cons_append, List.append_assoc,
          List.takeWhile_append_dropWhile]
        rw [← hafter]
      · rintro marker' sign' digits' ⟨⟩
        exact ⟨hmarker, hsigns, hne, fun c hc => List.mem_takeWhile_imp hc⟩
  · cases h
    exact ⟨rfl, nofun⟩

/-- A number is exactly the text it was read from. -/
theorem lexNumber_text {text rest : List Char} (h : lexNumber text = some (lit, rest)) :
    text = lit.raw ++ rest ∧ lit.Valid := by
  unfold lexNumber at h
  cases hminus : lexMinus text with
  | mk negative afterMinus =>
    simp only [hminus, bind_eq_bind, bind_eq_some_iff, Prod.exists] at h
    obtain ⟨whole, afterWhole, hwhole, heq⟩ := h
    cases hfraction : lexFraction afterWhole with
    | mk fraction afterFraction =>
      cases hexponent : lexExponent afterFraction with
      | mk exponent afterExponent =>
        simp only [hfraction, hexponent, some.injEq, Prod.mk.injEq] at heq
        obtain ⟨rfl, rfl⟩ := heq
        obtain ⟨htext, hne, hdigits⟩ := lexWhole_text hwhole
        obtain ⟨hftext, hfdigits⟩ := lexFraction_text hfraction
        obtain ⟨hetext, hevalid⟩ := lexExponent_text hexponent
        refine ⟨?_, hne, hdigits, hfdigits, hevalid⟩
        rw [lexMinus_text hminus, htext, hftext, hetext]
        simp only [NumberLit.raw, List.append_assoc]

/-- A number is not the start of a string. -/
theorem NumberLit.Valid.ne_quote (h : lit.Valid) : ∀ c ∈ lit.raw, c ≠ '"' := by
  have hdigit : ∀ c : Char, c.isDigit = true → c ≠ '"' := by
    rintro c hc rfl
    cases hc
  intro c hc
  simp only [raw, List.mem_append] at hc
  rcases hc with ((hc | hc) | hc) | hc
  · split at hc
    · rw [List.mem_singleton.mp hc]
      decide
    · cases hc
  · exact hdigit c (h.whole c hc)
  · split at hc
    · cases hc
    · rcases List.mem_cons.mp hc with rfl | hc
      · decide
      · exact hdigit c (h.fraction c hc)
  · cases hexponent : lit.exponent with
    | none => simp [hexponent, exponentText] at hc
    | some parts =>
      obtain ⟨marker, sign, digits⟩ := parts
      obtain ⟨hmarker, hsign, -, hdigits⟩ := h.exponent marker sign digits hexponent
      simp only [hexponent, exponentText, List.cons_append, List.mem_cons, List.mem_append] at hc
      rcases hc with rfl | hc | hc
      · rcases hmarker with rfl | rfl <;> decide
      · rcases hsign with rfl | rfl | rfl
        · cases hc
        · rw [List.mem_singleton.mp hc]
          decide
        · rw [List.mem_singleton.mp hc]
          decide
      · exact hdigit c (hdigits c hc)

theorem scalar_length (h : scalar text = some (d, rest)) : rest.length < text.length := by
  unfold scalar at h
  split at h
  · cases h
    simp only [List.length_cons]
    omega
  · cases h
    simp only [List.length_cons]
    omega
  · cases h
    simp only [List.length_cons]
    omega
  · obtain ⟨⟨lit, after⟩, hlex, heq⟩ := map_eq_some_iff.mp h
    cases heq
    obtain ⟨htext, hvalid⟩ := lexNumber_text hlex
    have hpos := List.length_pos_iff.mpr hvalid.nonempty
    rw [htext]
    simp only [NumberLit.raw, List.length_append]
    omega

/-! ## Parses, with the fuel out of the way -/

/-- What every successful parse satisfies, by its rules: one for each way a value, the elements
of an array and the members of an object can be read. -/
theorem parse_induction {V : List Char → Doc → List Char → Prop}
    {E : List Char → List Doc → List Char → Prop}
    {M : List Char → List (List StrItem × Doc) → List Char → Prop}
    (string : ∀ {text quoted rest items}, lead text = .string quoted →
      lexString quoted = some (items, rest) → V text (.string items) rest)
    (scalar : ∀ {text found rest d}, lead text = .scalar found →
      Json.scalar found = some (d, rest) → V text d rest)
    (emptyArray : ∀ {text inner rest}, lead text = .array inner → expect ']' inner = some rest →
      V text (.array []) rest)
    (array : ∀ {text inner rest items}, lead text = .array inner → expect ']' inner = none →
      E inner items rest → V text (.array items) rest)
    (emptyObject : ∀ {text inner rest}, lead text = .object inner → expect '}' inner = some rest →
      V text (.object []) rest)
    (object : ∀ {text inner rest ms}, lead text = .object inner → expect '}' inner = none →
      M inner ms rest → V text (.object ms) rest)
    (lastElement : ∀ {text after rest d}, V text d after → expect ']' after = some rest →
      E text [d] rest)
    (moreElements : ∀ {text after next rest d ds}, V text d after → expect ']' after = none →
      expect ',' after = some next → E next ds rest → E text (d :: ds) rest)
    (lastMember : ∀ {text found after rest key d}, name text = some (key, found) →
      V found d after → expect '}' after = some rest → M text [(key, d)] rest)
    (moreMembers : ∀ {text found after next rest key d ms}, name text = some (key, found) →
      V found d after → expect '}' after = none → expect ',' after = some next →
      M next ms rest → M text ((key, d) :: ms) rest) (fuel : Nat) :
    (∀ text d rest, value fuel text = some (d, rest) → V text d rest) ∧
    (∀ text ds rest, elements fuel text = some (ds, rest) → E text ds rest) ∧
    (∀ text ms rest, members fuel text = some (ms, rest) → M text ms rest) := by
  induction fuel with
  | zero => exact ⟨nofun, nofun, nofun⟩
  | succ fuel ih =>
    obtain ⟨hvalue, helements, hmembers⟩ := ih
    refine ⟨?_, ?_, ?_⟩
    · intro text d rest h
      rw [value] at h
      cases hlead : lead text with
      | string quoted =>
        simp only [hlead] at h
        obtain ⟨⟨items, after⟩, hlex, heq⟩ := map_eq_some_iff.mp h
        cases heq
        exact string hlead hlex
      | array inner =>
        simp only [hlead] at h
        cases hclose : expect ']' inner with
        | some after =>
          simp only [hclose] at h
          cases h
          exact emptyArray hlead hclose
        | none =>
          simp only [hclose] at h
          obtain ⟨⟨items, after⟩, hitems, heq⟩ := map_eq_some_iff.mp h
          cases heq
          exact array hlead hclose (helements _ _ _ hitems)
      | object inner =>
        simp only [hlead] at h
        cases hclose : expect '}' inner with
        | some after =>
          simp only [hclose] at h
          cases h
          exact emptyObject hlead hclose
        | none =>
          simp only [hclose] at h
          obtain ⟨⟨ms, after⟩, hms, heq⟩ := map_eq_some_iff.mp h
          cases heq
          exact object hlead hclose (hmembers _ _ _ hms)
      | scalar found =>
        simp only [hlead] at h
        exact scalar hlead h
    · intro text ds rest h
      rw [elements] at h
      obtain ⟨⟨d, after⟩, hd, h⟩ := bind_eq_some_iff.mp h
      cases hclose : expect ']' after with
      | some last =>
        simp only [hclose] at h
        cases h
        exact lastElement (hvalue _ _ _ hd) hclose
      | none =>
        simp only [hclose] at h
        obtain ⟨next, hnext, h⟩ := bind_eq_some_iff.mp h
        obtain ⟨⟨ds', last⟩, hds, heq⟩ := bind_eq_some_iff.mp h
        cases heq
        exact moreElements (hvalue _ _ _ hd) hclose hnext (helements _ _ _ hds)
    · intro text ms rest h
      rw [members] at h
      obtain ⟨⟨key, found⟩, hname, h⟩ := bind_eq_some_iff.mp h
      obtain ⟨⟨d, after⟩, hd, h⟩ := bind_eq_some_iff.mp h
      cases hclose : expect '}' after with
      | some last =>
        simp only [hclose] at h
        cases h
        exact lastMember hname (hvalue _ _ _ hd) hclose
      | none =>
        simp only [hclose] at h
        obtain ⟨next, hnext, h⟩ := bind_eq_some_iff.mp h
        obtain ⟨⟨ms', last⟩, hms, heq⟩ := bind_eq_some_iff.mp h
        cases heq
        exact moreMembers hname (hvalue _ _ _ hd) hclose hnext (hmembers _ _ _ hms)

/-- A value is at the front of the text: the parser finds it once it may take two steps for each
character, and however many more. -/
structure Reads (text : List Char) (d : Doc) (rest : List Char) : Prop where
  parses : ∀ fuel, 2 * text.length + 1 ≤ fuel → value fuel text = some (d, rest)
  consumes : rest.length < text.length

structure ReadsElements (text : List Char) (ds : List Doc) (rest : List Char) : Prop where
  parses : ∀ fuel, 2 * text.length + 2 ≤ fuel → elements fuel text = some (ds, rest)
  consumes : rest.length < text.length

structure ReadsMembers (text : List Char) (ms : List (List StrItem × Doc)) (rest : List Char) :
    Prop where
  parses : ∀ fuel, 2 * text.length + 2 ≤ fuel → members fuel text = some (ms, rest)
  consumes : rest.length < text.length

section Reads

variable {text quoted inner found after next rest : List Char} {items : List StrItem} {d : Doc}
  {ds : List Doc} {key : List StrItem} {ms : List (List StrItem × Doc)}

theorem Reads.string (hlead : lead text = .string quoted)
    (hlex : lexString quoted = some (items, rest)) : Reads text (.string items) rest := by
  refine ⟨fun | fuel + 1, hfuel => ?_, ?_⟩
  · rw [value]
    simp only [hlead, hlex, map_some]
  · exact (StringText.of_lexString hlex).length.trans (length_of_skipBlank (lead_eq_string.mp hlead))

theorem Reads.scalar (hlead : lead text = .scalar found)
    (hscalar : Json.scalar found = some (d, rest)) : Reads text d rest := by
  refine ⟨fun | fuel + 1, hfuel => ?_, ?_⟩
  · rw [value]
    simp only [hlead, hscalar]
  · have hshort := skipBlank_length text
    rw [skipBlank_of_lead_scalar hlead] at hshort
    exact (scalar_length hscalar).trans_le hshort

theorem Reads.emptyArray (hlead : lead text = .array inner) (hclose : expect ']' inner = some rest) :
    Reads text (.array []) rest := by
  refine ⟨fun | fuel + 1, hfuel => ?_,
    (expect_length hclose).trans (length_of_skipBlank (lead_eq_array.mp hlead))⟩
  rw [value]
  simp only [hlead, hclose]

theorem Reads.array (hlead : lead text = .array inner) (hopen : expect ']' inner = none)
    (hitems : ReadsElements inner ds rest) : Reads text (.array ds) rest := by
  have hshort := length_of_skipBlank (lead_eq_array.mp hlead)
  refine ⟨fun | fuel + 1, hfuel => ?_, hitems.consumes.trans hshort⟩
  rw [value]
  simp only [hlead, hopen, hitems.parses fuel (by omega), map_some]

theorem Reads.emptyObject (hlead : lead text = .object inner)
    (hclose : expect '}' inner = some rest) : Reads text (.object []) rest := by
  refine ⟨fun | fuel + 1, hfuel => ?_,
    (expect_length hclose).trans (length_of_skipBlank (lead_eq_object.mp hlead))⟩
  rw [value]
  simp only [hlead, hclose]

theorem Reads.object (hlead : lead text = .object inner) (hopen : expect '}' inner = none)
    (hms : ReadsMembers inner ms rest) : Reads text (.object ms) rest := by
  have hshort := length_of_skipBlank (lead_eq_object.mp hlead)
  refine ⟨fun | fuel + 1, hfuel => ?_, hms.consumes.trans hshort⟩
  rw [value]
  simp only [hlead, hopen, hms.parses fuel (by omega), map_some]

theorem ReadsElements.last (hd : Reads text d after) (hclose : expect ']' after = some rest) :
    ReadsElements text [d] rest := by
  refine ⟨fun | fuel + 1, hfuel => ?_, (expect_length hclose).trans hd.consumes⟩
  rw [elements]
  simp [hd.parses fuel (by omega), hclose]

theorem ReadsElements.more (hd : Reads text d after) (hopen : expect ']' after = none)
    (hcomma : expect ',' after = some next) (hds : ReadsElements next ds rest) :
    ReadsElements text (d :: ds) rest := by
  have hshort := (expect_length hcomma).trans hd.consumes
  refine ⟨fun | fuel + 1, hfuel => ?_, hds.consumes.trans hshort⟩
  rw [elements]
  simp [hd.parses fuel (by omega), hopen, hcomma, hds.parses fuel (by omega)]

theorem ReadsMembers.last (hname : name text = some (key, found)) (hd : Reads found d after)
    (hclose : expect '}' after = some rest) : ReadsMembers text [(key, d)] rest := by
  have hshort := name_length hname
  refine ⟨fun | fuel + 1, hfuel => ?_, (expect_length hclose).trans (hd.consumes.trans hshort)⟩
  rw [members]
  simp [hname, hd.parses fuel (by omega), hclose]

theorem ReadsMembers.more (hname : name text = some (key, found)) (hd : Reads found d after)
    (hopen : expect '}' after = none) (hcomma : expect ',' after = some next)
    (hms : ReadsMembers next ms rest) : ReadsMembers text ((key, d) :: ms) rest := by
  have hname_short := name_length hname
  have hshort := (expect_length hcomma).trans (hd.consumes.trans hname_short)
  refine ⟨fun | fuel + 1, hfuel => ?_, hms.consumes.trans hshort⟩
  rw [members]
  simp [hname, hd.parses fuel (by omega), hopen, hcomma, hms.parses fuel (by omega)]

/-- Whatever fuel a value was found with, the fuel of `parse` is enough. -/
theorem Reads.of_value {fuel : Nat} (h : value fuel text = some (d, rest)) : Reads text d rest :=
  (parse_induction Reads.string Reads.scalar Reads.emptyArray Reads.array Reads.emptyObject
    Reads.object ReadsElements.last ReadsElements.more ReadsMembers.last ReadsMembers.more fuel).1
    text d rest h

end Reads

theorem parse_eq_some : parse text = some d ↔ ∃ rest, Reads text d rest ∧ skipBlank rest = [] := by
  simp only [parse, bind_eq_bind, bind_eq_some_iff, Prod.exists]
  constructor
  · rintro ⟨found, rest, hvalue, hend⟩
    split at hend
    · rename_i hblank
      cases hend
      exact ⟨rest, .of_value hvalue, hblank⟩
    · cases hend
  · rintro ⟨rest, hreads, hblank⟩
    exact ⟨d, rest, hreads.parses _ le_rfl, if_pos hblank⟩

end Json
