import ConveneWire.Lib.Json

/-! # Scanning a text for its strings

Checks of escapes often run over the text itself, before or beside the parser.
What such a scan decides about a JSON text is a property of the document. -/

namespace Json

mutual

/-- Every string and every name of the document is free of stray surrogates. -/
def Doc.paired : Doc → Bool
  | .string items => Json.paired items
  | .array items => Doc.itemsPaired items
  | .object ms => Doc.membersPaired ms
  | .null | .bool _ | .number _ => true

def Doc.itemsPaired : List Doc → Bool
  | [] => true
  | d :: ds => d.paired && Doc.itemsPaired ds

def Doc.membersPaired : List (List StrItem × Doc) → Bool
  | [] => true
  | (key, d) :: ms => Json.paired key && d.paired && Doc.membersPaired ms

end

variable {d : Doc}

section Scan

variable {scan : List Char → Bool} {text rest : List Char}
  (hplain : ∀ c text, c ≠ '"' → scan (c :: text) = scan text)
include hplain

theorem scan_dropWhile {p : Char → Bool} (hp : ∀ c, p c = true → c ≠ '"') (text : List Char) :
    scan (text.dropWhile p) = scan text := by
  induction text with
  | nil => rfl
  | cons c text ih =>
    by_cases hc : p c = true
    · rw [List.dropWhile_cons_of_pos hc, ih, hplain c text (hp c hc)]
    · rw [List.dropWhile_cons_of_neg hc]

theorem scan_skipBlank (text : List Char) : scan (skipBlank text) = scan text := by
  refine scan_dropWhile hplain ?_ text
  rintro c hc rfl
  cases hc

theorem scan_expect {c : Char} (hc : c ≠ '"') (h : expect c text = some rest) :
    scan text = scan rest := by
  rw [← scan_skipBlank hplain text, expect_eq_some.mp h, hplain c rest hc]

theorem scan_append (front : List Char) (h : ∀ c ∈ front, c ≠ '"') :
    scan (front ++ rest) = scan rest := by
  induction front with
  | nil => rfl
  | cons c front ih =>
    rw [List.cons_append, hplain c _ (h c (by simp)), ih fun c hc => h c (by simp [hc])]

theorem scan_scalar (h : scalar text = some (d, rest)) : scan text = (d.paired && scan rest) := by
  unfold scalar at h
  split at h
  · cases h
    exact scan_append hplain ['n', 'u', 'l', 'l'] (by simp)
  · cases h
    exact scan_append hplain ['t', 'r', 'u', 'e'] (by simp)
  · cases h
    exact scan_append hplain ['f', 'a', 'l', 's', 'e'] (by simp)
  · obtain ⟨⟨lit, after⟩, hlex, heq⟩ := Option.map_eq_some_iff.mp h
    cases heq
    obtain ⟨htext, hvalid⟩ := lexNumber_text hlex
    rw [htext, scan_append hplain _ hvalid.ne_quote]
    rfl

/-- A scan that passes over everything but strings, and takes a string by its elements, decides
whether all strings of the text are free of stray surrogates. -/
theorem scan_value (hstring : ∀ {text items rest}, StringText text items rest →
      scan ('"' :: text) = (paired items && scan rest)) {fuel : Nat}
    (h : value fuel text = some (d, rest)) : scan text = (d.paired && scan rest) := by
  have hname : ∀ {text key rest}, name text = some (key, rest) →
      scan text = (paired key && scan rest) := by
    intro text key rest h
    obtain ⟨quoted, after, hquoted, hkey, hcolon⟩ := name_eq_some.mp h
    rw [← scan_skipBlank hplain, expect_eq_some.mp hquoted, hstring (.of_lexString hkey),
      scan_expect hplain (by decide) hcolon]
  refine (parse_induction (V := fun text d rest => scan text = (d.paired && scan rest))
    (E := fun text ds rest => scan text = (Doc.itemsPaired ds && scan rest))
    (M := fun text ms rest => scan text = (Doc.membersPaired ms && scan rest))
    ?_ ?_ ?_ ?_ ?_ ?_ ?_ ?_ ?_ ?_ fuel).1 _ _ _ h
  · intro text quoted rest items hlead hlex
    rw [← scan_skipBlank hplain, lead_eq_string.mp hlead, hstring (.of_lexString hlex)]
    rfl
  · intro text found rest d hlead hscalar
    rw [← scan_skipBlank hplain, skipBlank_of_lead_scalar hlead, scan_scalar hplain hscalar]
  · intro text inner rest hlead hclose
    rw [← scan_skipBlank hplain, lead_eq_array.mp hlead, hplain _ _ (by decide),
      scan_expect hplain (by decide) hclose]
    rfl
  · intro text inner rest items hlead _ hitems
    rw [← scan_skipBlank hplain, lead_eq_array.mp hlead, hplain _ _ (by decide), hitems]
    rfl
  · intro text inner rest hlead hclose
    rw [← scan_skipBlank hplain, lead_eq_object.mp hlead, hplain _ _ (by decide),
      scan_expect hplain (by decide) hclose]
    rfl
  · intro text inner rest ms hlead _ hms
    rw [← scan_skipBlank hplain, lead_eq_object.mp hlead, hplain _ _ (by decide), hms]
    rfl
  · intro text after rest d hd hclose
    rw [hd, scan_expect hplain (by decide) hclose, Doc.itemsPaired, Doc.itemsPaired, Bool.and_true]
  · intro text after next rest d ds hd _ hcomma hds
    rw [hd, scan_expect hplain (by decide) hcomma, hds, Doc.itemsPaired, Bool.and_assoc]
  · intro text found after rest key d hkey hd hclose
    rw [hname hkey, hd, scan_expect hplain (by decide) hclose, Doc.membersPaired,
      Doc.membersPaired, Bool.and_true, Bool.and_assoc]
  · intro text found after next rest key d ms hkey hd _ hcomma hms
    rw [hname hkey, hd, scan_expect hplain (by decide) hcomma, hms, Doc.membersPaired,
      Bool.and_assoc, Bool.and_assoc]

end Scan

/-! ## Scans that look for stray surrogates -/

/-- How a scan for stray surrogates behaves on a JSON text: `inside` a string and `outside`. On
texts that are no JSON it may do anything. -/
structure EscapeScan (inside outside : List Char → Bool) : Prop where
  finish : outside [] = true
  plain : ∀ c text, c ≠ '"' → outside (c :: text) = outside text
  quote : ∀ text, outside ('"' :: text) = inside text
  close : ∀ text, inside ('"' :: text) = outside text
  char : ∀ c text, c ≠ '"' → c ≠ '\\' → ¬ c.toNat < 0x20 → inside (c :: text) = inside text
  short : ∀ letter e text, shortEscape letter = some e →
    inside ('\\' :: letter :: text) = inside text
  /-- A high surrogate takes the escape after it along. -/
  pair : ∀ {a b c d a' b' c' d' : Char} {u v : Fin 0x10000} (text : List Char),
    hexUnit a b c d = some u → Utf16.isHigh u = true → hexUnit a' b' c' d' = some v →
    inside ('\\' :: 'u' :: a :: b :: c :: d :: '\\' :: 'u' :: a' :: b' :: c' :: d' :: text) =
      (Utf16.isLow v && inside text)
  lone : ∀ {a b c d : Char} {u : Fin 0x10000} (text : List Char),
    hexUnit a b c d = some u → Utf16.isHigh u = true →
    (∀ rest, text ≠ '\\' :: 'u' :: rest) →
    inside ('\\' :: 'u' :: a :: b :: c :: d :: text) = false
  other : ∀ {a b c d : Char} {u : Fin 0x10000} (text : List Char),
    hexUnit a b c d = some u → Utf16.isHigh u = false →
    inside ('\\' :: 'u' :: a :: b :: c :: d :: text) = (!Utf16.isLow u && inside text)

namespace EscapeScan

variable {inside outside : List Char → Bool}

theorem string (scan : EscapeScan inside outside) {text rest : List Char} {items : List StrItem}
    (h : StringText text items rest) : inside text = (paired items && outside rest) := by
  fun_induction paired items generalizing text with
  | case1 =>
    cases h
    rw [scan.close, Bool.true_and]
  | case2 c items ih =>
    cases h with
    | short escape more => rw [scan.short _ _ _ escape, ih more]
    | char quote backslash control more => rw [scan.char _ _ quote backslash control, ih more]
  | case3 u hhigh v items ih =>
    cases h with
    | unit hex more =>
      cases more with
      | unit hex' more' => rw [scan.pair _ hex hhigh hex', ih more', Bool.and_assoc]
  | case4 u items hhigh hnot =>
    cases h with
    | unit hex more =>
      rw [scan.lone _ hex hhigh, Bool.false_and]
      -- What follows a lone high surrogate is not another code unit.
      rintro rest rfl
      cases more with
      | unit hex' more' => exact absurd rfl (hnot _ _)
      | short escape more' => cases escape
      | char quote backslash control more' => exact backslash rfl
  | case5 u items hhigh ih =>
    cases h with
    | unit hex more =>
      rw [scan.other _ hex (Bool.eq_false_iff.mpr hhigh), ih more, Bool.and_assoc]

/-- On a JSON text such a scan is the check of its strings. -/
theorem parse (scan : EscapeScan inside outside) {text : List Char} (h : Json.parse text = some d) :
    outside text = d.paired := by
  obtain ⟨rest, hreads, hblank⟩ := parse_eq_some.mp h
  have hvalue := scan_value scan.plain (fun hstring => by rw [scan.quote, scan.string hstring])
    (hreads.parses _ le_rfl)
  rw [hvalue, ← scan_skipBlank scan.plain rest, hblank, scan.finish, Bool.and_true]

end EscapeScan

end Json
