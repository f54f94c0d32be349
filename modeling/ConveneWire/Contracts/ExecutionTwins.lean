import ConveneWire.Contracts.ExecutionBounds
import ConveneWire.Lib.JsonScan

/-! # The two canonical encoders agree

For a document both sides accept, every string, number and member is written the
same way. Strings meet in their UTF-16 code units: JavaScript reads units, Go
reads characters, and without stray surrogates one is the encoding of the other
(`Json.encode_runes`). Numbers meet in the exact value of the literal. -/

namespace ConveneWire.Contracts

open Json
open ExecutionValidation (canonicalValue canonicalItems canonicalMembers sortKeys stringifyNumber
  joined canonicalExecutionDocument)
open ExecutionRuntime (appendExecutionRune appendExecutionString appendExecutionNumber
  appendExecutionJSON appendItems appendMembers sortNames escapesValid Tidy ItemsTidy MembersTidy hexDigits canonicalExecutionJSON)
open JsValue (ofMembers ofDoc ofDocs)

/-! ## Strings -/

theorem hexChar_eq {n : Nat} (h : n < 16) : hexDigits.getD n '0' = hexChar n := by
  have hall : ∀ n < 16, hexDigits.getD n '0' = hexChar n := by decide +kernel
  exact hall n h

theorem stringifyChar_eq (c : Char) : stringifyChar c = appendExecutionRune c := by
  unfold stringifyChar appendExecutionRune
  by_cases hquote : c = '"'
  · subst hquote
    decide
  by_cases hback : c = '\\'
  · subst hback
    decide
  by_cases hb : c = '\x08'
  · subst hb
    decide
  by_cases ht : c = '\t'
  · subst ht
    decide
  by_cases hn : c = '\n'
  · subst hn
    decide
  by_cases hf : c = '\x0c'
  · subst hf
    decide
  by_cases hr : c = '\r'
  · subst hr
    decide
  simp only [hquote, hback, hb, ht, hn, hf, hr, if_false, or_self]
  split
  · rename_i hcontrol
    -- A control character has two hexadecimal digits.
    rw [hexChar_eq (by omega), hexChar_eq (by omega), Nat.div_eq_of_lt (show c.toNat < 4096 by omega),
      Nat.div_eq_of_lt (show c.toNat < 256 by omega),
      Nat.mod_eq_of_lt (show c.toNat / 16 < 16 by omega)]
    rfl
  · rfl

theorem stringifyString_encode (s : List Char) :
    stringifyString (Utf16.encode s) = appendExecutionString s := by
  unfold stringifyString appendExecutionString
  rw [Utf16.decode_encode, Option.getD_some]
  congr 2
  exact List.flatMap_congr fun c _ => stringifyChar_eq c

/-! ## Numbers -/

theorem magnitude_nonneg (lit : NumberLit) : 0 ≤ lit.magnitude := by
  unfold NumberLit.magnitude
  exact mul_nonneg (Nat.cast_nonneg _) (zpow_nonneg (by norm_num) _)

variable {text : List Char}

/-- What Go writes for a number, JavaScript writes too. -/
theorem stringifyNumber_round {lit : NumberLit} (h : appendExecutionNumber lit = some text) :
    stringifyNumber (Binary64.round lit.negative lit.magnitude) = text := by
  unfold appendExecutionNumber at h
  dsimp only at h
  split at h
  · cases h
  rename_i hint
  split at h
  · cases h
  rename_i hsafe
  cases h
  have hden : lit.value.den = 1 := by
    by_contra hne
    exact hint (.inl hne)
  have hvalue : lit.value = lit.value.num := (Rat.den_eq_one_iff _).mp hden |>.symm
  have hmag : lit.magnitude = (lit.value.num.natAbs : ℚ) := by
    have habs : |lit.value| = lit.magnitude := by
      unfold NumberLit.value
      split
      · rw [abs_neg, abs_of_nonneg (magnitude_nonneg lit)]
      · rw [abs_of_nonneg (magnitude_nonneg lit)]
    rw [← habs, hvalue, Rat.num_intCast, Nat.cast_natAbs, Int.cast_abs]
  have hbound : (lit.value.num.natAbs : ℤ) ≤ Binary64.maxSafeInteger := by
    simp only [ExecutionRuntime.maxSafeJSONInteger, not_or, not_lt, gt_iff_lt] at hsafe
    unfold Binary64.maxSafeInteger
    omega
  have hsign : (if lit.negative then -(lit.value.num.natAbs : ℤ) else lit.value.num.natAbs) =
      lit.value.num := by
    have hsigned : (lit.value.num : ℚ) =
        if lit.negative then -(lit.value.num.natAbs : ℚ) else lit.value.num.natAbs := by
      rw [← hvalue, ← hmag]
      rfl
    apply (Int.cast_inj (α := ℚ)).mp
    rw [hsigned]
    split <;> simp
  unfold stringifyNumber
  rw [hmag, Binary64.round_natCast hbound, Option.getD_some, hsign]

/-! ## Escapes -/

theorem shortEscape_mem {c e : Char} (h : shortEscape c = some e) :
    c ∈ ['"', '\\', '/', 'b', 'f', 'n', 'r', 't'] := by
  unfold shortEscape at h
  split at h
  case h_9 => cases h
  all_goals decide

/-- `jsonStringsHaveValidUnicodeEscapes` looks for stray surrogates. -/
theorem escapeScan_escapesValid : EscapeScan (escapesValid true) (escapesValid false) where
  finish := rfl
  plain c text hc := by
    rw [ExecutionRuntime.escapesValid.eq_def]
    simp only [beq_eq_false_iff_ne.mpr hc]
  quote text := by
    rw [ExecutionRuntime.escapesValid.eq_def]
    simp
  close text := by
    rw [ExecutionRuntime.escapesValid.eq_def]
    simp
  char c text hquote hback hcontrol := by
    rw [ExecutionRuntime.escapesValid.eq_def]
    simp [hquote, hback, hcontrol]
  short letter e text escape := by
    rw [ExecutionRuntime.escapesValid.eq_def]
    have hu : letter ≠ 'u' := by rintro rfl; cases escape
    simp only [ne_eq, not_true_eq_false, if_false, if_neg (show ¬ '\\' = '"' by decide)]
    split
    · rename_i heq
      cases heq
      exact absurd rfl hu
    · rename_i heq
      cases heq
      rw [if_pos (shortEscape_mem escape)]
    · rename_i heq
      cases heq
  pair text hex hhigh hex' := by
    rw [ExecutionRuntime.escapesValid.eq_def]
    simp only [hex, hex', hhigh, if_true, ne_eq, not_true_eq_false, if_false,
      if_neg (show ¬ '\\' = '"' by decide)]
    split <;> simp_all
  lone text hex hhigh hnot := by
    rw [ExecutionRuntime.escapesValid.eq_def]
    simp only [hex, hhigh, if_true, ne_eq, not_true_eq_false, if_false,
      if_neg (show ¬ '\\' = '"' by decide)]
    split
    · exact absurd rfl (hnot _)
    · rfl
  other text hex hhigh := by
    rw [ExecutionRuntime.escapesValid.eq_def]
    simp only [hex, hhigh, Bool.false_eq_true, ne_eq, not_true_eq_false, if_false,
      if_neg (show ¬ '\\' = '"' by decide)]
    split <;> simp_all

/-- On a JSON text the check of escapes is the check of its strings. -/
theorem escapesValid_text {d : Doc} (h : parse text = some d) :
    ExecutionRuntime.jsonStringsHaveValidUnicodeEscapes text = d.paired :=
  escapeScan_escapesValid.parse h

/-! ## Values -/

theorem GoValue.ofMembers_names (ms : List (List StrItem × Doc)) :
    (GoValue.ofMembers ms).map Prod.fst = ms.map fun m => runes m.1 := by
  induction ms with
  | nil => rfl
  | cons m ms ih =>
    obtain ⟨key, d⟩ := m
    simp only [GoValue.ofMembers, List.map_cons, ih]

variable {ms : List (List StrItem × Doc)}

theorem JsValue.ofMembers_names (h : Doc.membersPaired ms = true) :
    (ofMembers ms).map Prod.fst = (ms.map fun m => runes m.1).map Utf16.encode := by
  induction ms with
  | nil => rfl
  | cons m ms ih =>
    obtain ⟨key, d⟩ := m
    simp only [Doc.membersPaired, Bool.and_eq_true] at h
    simp only [ofMembers, List.map_cons, ih h.2, encode_runes h.1.1]

/-- With names that differ as text, both sides keep every member. -/
theorem assignAll_ofMembers (hpaired : Doc.membersPaired ms = true)
    (hnames : (ms.map fun m => runes m.1).Nodup) :
    assignAll (GoValue.ofMembers ms) = GoValue.ofMembers ms ∧
      assignAll (ofMembers ms) = ofMembers ms := by
  constructor
  · exact assignAll_of_nodup (by rwa [GoValue.ofMembers_names])
  · refine assignAll_of_nodup ?_
    rw [JsValue.ofMembers_names hpaired]
    exact hnames.map fun _ _ => Utf16.encode_injective

variable {α : Type}

theorem sortKeys_map {β : Type} (f : α → β) (entries : List (List Nat × α)) :
    sortKeys (entries.map fun m => (m.1, f m.2)) = (sortKeys entries).map fun m => (m.1, f m.2) := by
  unfold sortKeys
  symm
  apply List.map_insertionSort
  intro a _ b _
  rfl

theorem mem_sortKeys {entries : List (List Nat × α)} {m : List Nat × α} :
    m ∈ sortKeys entries ↔ m ∈ entries := List.mem_insertionSort _

theorem perm_sortKeys (entries : List (List Nat × α)) :
    (sortKeys entries).Perm entries := List.perm_insertionSort _ _

theorem sortKeys_sortKeys (entries : List (List Nat × α)) :
    sortKeys (sortKeys entries) = sortKeys entries := by
  have htotal : Std.Total fun a b : List Nat × α => a.1 ≤ b.1 := ⟨fun a b => le_total a.1 b.1⟩
  have htrans : IsTrans (List Nat × α) fun a b => a.1 ≤ b.1 := ⟨fun _ _ _ => le_trans⟩
  exact (List.pairwise_insertionSort (fun a b : List Nat × α => a.1 ≤ b.1) entries).insertionSort_eq

theorem sortKeys_encode (entries : List (List Char × α)) :
    sortKeys (entries.map fun e => (Utf16.encode e.1, e.2)) =
      (sortNames entries).map fun e => (Utf16.encode e.1, e.2) := by
  unfold sortKeys sortNames
  symm
  apply List.map_insertionSort
  intro a _ b _
  rfl

/-- What Go writes for a document, JavaScript writes too. -/
def RendersAlike (d : Doc) : Prop :=
  d.paired = true → Tidy d → ∀ text, appendExecutionJSON (GoValue.ofDoc d) = some text →
    canonicalValue (ofDoc d) = text

theorem canonicalItems_ofDocs {items : List Doc} (h : ∀ d ∈ items, RendersAlike d)
    (hpaired : Doc.itemsPaired items = true) (htidy : ItemsTidy items) {texts : List (List Char)}
    (hwritten : appendItems (GoValue.ofDocs items) = some texts) :
    canonicalItems (ofDocs items) = texts := by
  induction items generalizing texts with
  | nil =>
    cases hwritten
    rfl
  | cons d ds ih =>
    simp only [Doc.itemsPaired, Bool.and_eq_true] at hpaired
    simp only [GoValue.ofDocs, appendItems, Option.bind_eq_bind, Option.bind_eq_some_iff,
      Option.some.injEq] at hwritten
    obtain ⟨text, htext, rest, hrest, rfl⟩ := hwritten
    simp only [ofDocs, canonicalItems, h d (by simp) hpaired.1 htidy.1 text htext,
      ih (fun d hd => h d (by simp [hd])) hpaired.2 htidy.2 hrest]

theorem canonicalMembers_ofMembers (h : ∀ m ∈ ms, RendersAlike m.2)
    (hpaired : Doc.membersPaired ms = true) (htidy : MembersTidy ms)
    {entries : List (List Char × List Char)}
    (hwritten : appendMembers (GoValue.ofMembers ms) = some entries) :
    canonicalMembers (ofMembers ms) = entries.map fun e => (Utf16.encode e.1, e.2) := by
  induction ms generalizing entries with
  | nil =>
    cases hwritten
    rfl
  | cons m ms ih =>
    obtain ⟨key, d⟩ := m
    simp only [Doc.membersPaired, Bool.and_eq_true] at hpaired
    simp only [GoValue.ofMembers, appendMembers, Option.bind_eq_bind] at hwritten
    split at hwritten
    · cases hwritten
    simp only [Option.bind_eq_some_iff, Option.some.injEq] at hwritten
    obtain ⟨text, htext, rest, hrest, rfl⟩ := hwritten
    have hd : canonicalValue (ofDoc d) = text :=
      h (key, d) (by simp) hpaired.1.2 htidy.1 text htext
    simp only [ofMembers, canonicalMembers, List.map_cons, hd,
      ih (fun m hm => h m (by simp [hm])) hpaired.2 htidy.2 hrest, encode_runes hpaired.1.1]

theorem rendersAlike (d : Doc) : RendersAlike d := by
  induction d using Doc.induct with
  | null | bool =>
    intro _ _ text h
    cases h
    rfl
  | number lit =>
    intro _ _ text h
    exact stringifyNumber_round h
  | string items =>
    intro hpaired _ text h
    cases h
    simp only [ofDoc, canonicalValue]
    rw [← encode_runes hpaired, stringifyString_encode]
  | array items ih =>
    intro hpaired htidy text h
    simp only [GoValue.ofDoc, appendExecutionJSON, Option.bind_eq_bind, Option.bind_eq_some_iff,
      Option.some.injEq] at h
    obtain ⟨texts, htexts, rfl⟩ := h
    simp only [ofDoc, canonicalValue, joined, canonicalItems_ofDocs ih hpaired htidy htexts]
  | object ms ih =>
    intro hpaired htidy text h
    obtain ⟨hgo, hjs⟩ := assignAll_ofMembers hpaired htidy.1
    simp only [GoValue.ofDoc, hgo, appendExecutionJSON, Option.bind_eq_bind,
      Option.bind_eq_some_iff, Option.some.injEq] at h
    obtain ⟨entries, hentries, rfl⟩ := h
    simp only [ofDoc, hjs, canonicalValue, joined,
      canonicalMembers_ofMembers ih hpaired htidy.2 hentries, sortKeys_encode, List.map_map]
    congr 3
    refine List.map_congr_left fun e _ => ?_
    simp only [Function.comp_apply, stringifyString_encode]

/-! ## Documents -/

/-- What `CanonicalExecutionJSON` has checked of a document it encodes. -/
theorem canonicalExecutionJSON_eq_some {source encoded : ByteArray}
    (h : canonicalExecutionJSON source = some encoded) :
    ∃ text d out, Utf8.decode source = some text ∧ parse text = some d ∧ d.paired = true ∧
      Tidy d ∧ appendExecutionJSON (GoValue.ofDoc d) = some out ∧ encoded = Utf8.encode out := by
  simp only [canonicalExecutionJSON, ExecutionRuntime.executionJSONValue,
    Option.bind_eq_bind, Option.bind_eq_some_iff, Option.some.injEq] at h
  obtain ⟨value, hvalue, out, hout, rfl⟩ := h
  split at hvalue
  · cases hvalue
  split at hvalue
  · cases hvalue
  rename_i text htext
  split at hvalue
  · cases hvalue
  rename_i hchecks
  simp only [not_or, Bool.not_eq_false] at hchecks
  obtain ⟨hescapes, hbounds⟩ := hchecks
  simp only [Option.bind_eq_some_iff] at hvalue
  obtain ⟨value', hdecode, _, _, _, _, hsize⟩ := hvalue
  split at hsize
  · cases hsize
  cases hsize
  simp only [ExecutionRuntime.decodeSingleJSONValue, Option.map_eq_some_iff] at hdecode
  obtain ⟨d, hd, rfl⟩ := hdecode
  rw [escapesValid_text hd] at hescapes
  rw [ExecutionRuntime.bridgeJSONWithinResourceBounds, hd] at hbounds
  obtain ⟨-, -, -, htidy⟩ := (ExecutionRuntime.tokensWithinBounds_tokens d).mp hbounds
  exact ⟨text, d, out, htext, hd, hescapes, htidy, hout, rfl⟩

/-- A document that both encoders accept has one canonical form. -/
theorem canonical_encodings_agree {source typescript go : ByteArray}
    (hts : canonicalExecutionDocument source = .ok typescript)
    (hgo : canonicalExecutionJSON source = some go) : typescript = go := by
  obtain ⟨text, d, out, htext, hd, hpaired, htidy, hout, rfl⟩ :=
    canonicalExecutionJSON_eq_some hgo
  have hparsed : (Utf8.decode source).bind jsonParse = some (ofDoc d) := by
    simp [htext, jsonParse, hd]
  simp only [canonicalExecutionDocument, hparsed] at hts
  obtain ⟨encoded, hencoded, hbytes⟩ := Transactional.bind_ok hts
  cases hbytes
  obtain ⟨-, -, rfl⟩ := ExecutionValidation.canonicalExecutionJSON_eq_ok.mp hencoded
  rw [rendersAlike d hpaired htidy out hout]

/-- A name outside the basic plane next to one that follows it in UTF-16 order only, an escape,
and two spellings of integers. -/
def spelledSource : ByteArray :=
  Utf8.encode "\x7b\"\uffee\" : [1e2, \"\\u0041\"], \"\\ud83d\\ude00\": 1.0\x7d".toList

def spelledCanonical : ByteArray :=
  Utf8.encode "\x7b\"😀\":1,\"\uffee\":[100,\"A\"]\x7d".toList

theorem spelled_source_agrees :
    ∃ typescript go, canonicalExecutionDocument spelledSource = .ok typescript ∧
      canonicalExecutionJSON spelledSource = some go ∧ go = spelledCanonical ∧ typescript = go := by
  have hts : canonicalExecutionDocument spelledSource = .ok spelledCanonical := by decide +kernel
  have hgo : canonicalExecutionJSON spelledSource = some spelledCanonical := by decide +kernel
  exact ⟨_, _, hts, hgo, rfl, canonical_encodings_agree hts hgo⟩

end ConveneWire.Contracts
