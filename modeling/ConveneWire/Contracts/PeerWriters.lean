import Mathlib.Data.List.GetD
import ConveneWire.Contracts.PeerReaders

/-! # The two Peer JSON writers write the same text

Both writers append piece by piece and give up when the output grows past the
limit. Pieces can be joined before they are appended (`append_append`), so each
writer appends one text, `rendered`, or nothing. -/

namespace ConveneWire.Contracts

open Json
open Binary64 (ShortestDigits nearest decimal)
open ExecutionValidation (sortKeys)
open ExecutionRuntime (sortNames)
open PeerJson (stringifyFinite positiveToString)
open PeerContracts (formatFloat formatPositive formatF formatE respellExponent atoi canonicalJSON
  maximumJSONBytes appendText)
open JsValue
open Utf8 (size_append size size_nil)
open Option (bind_none bind_some bind_eq_bind bind_assoc)
open List (append_nil length_map cons_append append_assoc nil_append map_cons length_cons mem_map
  map_map)

/-! ## Numbers -/

section Formats

variable {digits : List Char} {n : Int}

/-- `%f` is the notation without an exponent. -/
theorem formatF_eq (hne : digits ≠ []) :
    formatF digits n =
      if (digits.length : Int) ≤ n then digits ++ List.replicate (n - digits.length).toNat '0'
      else if 0 < n then digits.take n.toNat ++ '.' :: digits.drop n.toNat
      else '0' :: '.' :: List.replicate (-n).toNat '0' ++ digits := by
  have hlength := List.length_pos_iff.mpr hne
  unfold formatF
  dsimp only
  by_cases hle : (digits.length : Int) ≤ n
  · rw [if_pos hle, if_pos (by omega), if_neg (by omega), List.take_of_length_le (by omega),
      append_nil]
  rw [if_neg hle]
  by_cases hpos : 0 < n
  · rw [if_pos hpos, if_pos hpos, if_pos (by omega),
      show (n - digits.length).toNat = 0 by omega, List.replicate_zero, append_nil]
    congr 2
    refine List.ext_getElem (by simp; omega) fun i hi _ => ?_
    simp only [length_map, List.length_range] at hi
    simp only [List.getElem_map, List.getElem_range, List.getElem_drop]
    rw [if_pos (by omega), List.getD_eq_getElem _ _ (by omega)]
    congr 1
    omega
  · rw [if_neg hpos, if_neg hpos, if_pos (by omega), List.singleton_append]
    rw [cons_append, cons_append]
    congr 2
    refine List.ext_getElem (by simp; omega) fun i hi _ => ?_
    simp only [length_map, List.length_range] at hi
    simp only [List.getElem_map, List.getElem_range]
    by_cases hlead : i < (-n).toNat
    · rw [if_neg (by omega), List.getElem_append_left (by simpa using hlead),
        List.getElem_replicate]
    rw [if_pos (by omega), List.getD_eq_getElem _ _ (by omega),
      List.getElem_append_right (by simpa using hlead)]
    simp only [List.length_replicate]
    congr 1
    omega

theorem atoi_exponent (e : Int) :
    atoi ((if e < 0 then '-' else '+') ::
      (if (Nat.toDigits 10 e.natAbs).length < 2 then '0' :: Nat.toDigits 10 e.natAbs
        else Nat.toDigits 10 e.natAbs)) = e := by
  have hvalue : Nat.ofDigitChars 10 (if (Nat.toDigits 10 e.natAbs).length < 2 then
      '0' :: Nat.toDigits 10 e.natAbs else Nat.toDigits 10 e.natAbs) 0 = e.natAbs := by
    split
    · rw [Nat.ofDigitChars_cons]
      exact Nat.ofDigitChars_toDigits (by omega) (by omega)
    · exact Nat.ofDigitChars_toDigits (by omega) (by omega)
  split
  · rw [atoi, hvalue]
    omega
  · rw [atoi, hvalue]
    omega

/-- `%e` with its exponent respelled is the notation with one. -/
theorem respellExponent_formatE (hdigits : ∀ c ∈ digits, c.isDigit = true) (hne : digits ≠ []) :
    respellExponent (formatE digits n) =
      if digits.length = 1 then
        digits ++ 'e' :: (if n - 1 < 0 then '-' else '+') :: Nat.toDigits 10 (n - 1).natAbs
      else digits.take 1 ++ '.' :: digits.drop 1 ++
        'e' :: (if n - 1 < 0 then '-' else '+') :: Nat.toDigits 10 (n - 1).natAbs := by
  have hlength := List.length_pos_iff.mpr hne
  generalize hmantissa : digits.take 1 ++ (if 1 < digits.length then '.' :: digits.drop 1 else []) =
    mantissa
  have hplain : ∀ c ∈ mantissa, decide (c ≠ 'e') = true := by
    have hdigit : ∀ c : Char, c.isDigit = true → decide (c ≠ 'e') = true := by
      rintro c hc
      rw [decide_eq_true_eq]
      rintro rfl
      cases hc
    intro c hc
    rw [← hmantissa, List.mem_append] at hc
    rcases hc with hc | hc
    · exact hdigit c (hdigits c (List.mem_of_mem_take hc))
    split at hc
    · rcases List.mem_cons.mp hc with rfl | hc
      · decide
      · exact hdigit c (hdigits c (List.mem_of_mem_drop hc))
    · cases hc
  have hexponent : ((if 0 ≤ n - 1 then ['+'] else []) ++ (toString (n - 1)).toList : List Char) =
      (if n - 1 < 0 then '-' else '+') :: Nat.toDigits 10 (n - 1).natAbs := by
    rw [toString_int_toList]
    by_cases hneg : n - 1 < 0
    · rw [if_neg (by omega), if_pos hneg, if_pos hneg]
      rfl
    · rw [if_pos (by omega), if_neg hneg, if_neg hneg]
      rfl
  unfold formatE
  dsimp only
  rw [hmantissa]
  unfold respellExponent
  dsimp only
  rw [List.takeWhile_append_of_pos hplain, List.dropWhile_append_of_pos hplain]
  simp only [List.takeWhile_cons, List.dropWhile_cons, ne_eq, not_true_eq_false, decide_false,
    Bool.false_eq_true, if_false, append_nil, List.drop_succ_cons, List.drop_zero,
    atoi_exponent, cons_append, append_assoc]
  rw [hexponent, ← hmantissa]
  by_cases hone : digits.length = 1
  · rw [if_pos hone, if_neg (by omega), append_nil, List.take_of_length_le (by omega)]
  · rw [if_neg hone, if_pos (by omega)]
    simp only [append_assoc, cons_append]

end Formats

/-- The two ranges without an exponent are the same: the decimal point falls between the sixth
place behind it and the twenty-first before it exactly for the numbers from `1e-6` to `1e21`. -/
theorem positiveToString_eq (F : ShortestDigits) {d : ℕ} {e : ℤ} (hd : 0 < d)
    (hv : 0 < nearest (decimal d e)) :
    positiveToString F (nearest (decimal d e)) = formatPositive F (nearest (decimal d e)) := by
  have hsmall : nearest (decimal 9 (-6 - 1)) < nearest (decimal 1 (-6)) := by decide +kernel
  have hlarge : nearest (decimal 9 (21 - 1)) < nearest (decimal 1 21) := by decide +kernel
  have hlow := F.lt_point_iff hd hv hsmall
  have hhigh := F.lt_point_iff hd hv hlarge
  have hwindow : (-5 ≤ F.point (nearest (decimal d e)) ∧ F.point (nearest (decimal d e)) ≤ 21) ↔
      (nearest (decimal 1 (-6)) ≤ nearest (decimal d e) ∧
        nearest (decimal d e) < nearest (decimal 1 21)) := by
    have hbelow := not_congr hhigh
    rw [not_lt, not_le] at hbelow
    rw [← hlow, ← hbelow]
    exact and_congr_left fun _ => by omega
  have hne : Nat.toDigits 10 (F.digits (nearest (decimal d e))).1 ≠ [] := Nat.toDigits_ne_nil
  have hdigits : ∀ c ∈ Nat.toDigits 10 (F.digits (nearest (decimal d e))).1, c.isDigit = true :=
    fun c hc => Nat.isDigit_of_mem_toDigits (by omega) (by omega) hc
  unfold positiveToString formatPositive
  dsimp only
  by_cases hplain : -5 ≤ F.point (nearest (decimal d e)) ∧ F.point (nearest (decimal d e)) ≤ 21
  · rw [if_pos hplain, if_pos (hwindow.mp hplain), formatF_eq hne]
  · rw [if_neg hplain, if_neg (mt hwindow.mpr hplain), respellExponent_formatE hdigits hne]

variable {lit : NumberLit}

/-- A number that is finite after rounding is plus or minus what a decimal rounds to. -/
theorem round_finite {q : ℚ} (h : Binary64.round lit.negative lit.magnitude = .finite q) :
    q = 0 ∨ ∃ d e, 0 < d ∧ 0 < nearest (decimal d e) ∧
      (q = nearest (decimal d e) ∨ q = -nearest (decimal d e)) := by
  unfold Binary64.round Binary64.zero at h
  dsimp only at h
  by_cases hzero : lit.magnitude = 0
  · rw [if_pos hzero] at h
    split at h
    · cases h
    · cases h
      exact .inl rfl
  rw [if_neg hzero] at h
  split at h
  · cases h
  split at h
  · split at h
    · cases h
    · cases h
      exact .inl rfl
  rename_i hne
  right
  have hdecimal : decimal lit.significand (lit.scale - lit.fraction.length) = lit.magnitude := rfl
  have hpos : 0 < lit.significand := by
    refine Nat.pos_of_ne_zero fun hsig => hzero ?_
    rw [← hdecimal, hsig, decimal, Nat.cast_zero, zero_mul]
  have hmagnitude : 0 < lit.magnitude := lt_of_le_of_ne (magnitude_nonneg lit) (Ne.symm hzero)
  have hnearest : 0 < nearest lit.magnitude :=
    lt_of_le_of_ne (Binary64.nearest_nonneg hmagnitude.le) (Ne.symm hne)
  refine ⟨lit.significand, lit.scale - lit.fraction.length, hpos, hdecimal ▸ hnearest, ?_⟩
  rw [hdecimal]
  cases h
  split
  · exact .inr rfl
  · exact .inl rfl

theorem formatFloat_eq (F : ShortestDigits) {q : ℚ}
    (h : Binary64.round lit.negative lit.magnitude = .finite q) :
    stringifyFinite F q = formatFloat F (.finite q) := by
  unfold stringifyFinite formatFloat
  dsimp only
  rcases round_finite h with rfl | ⟨d, e, hd, hv, rfl | rfl⟩
  · rfl
  · rw [if_neg hv.ne', if_neg hv.ne', if_neg (not_lt.mpr hv.le), if_neg (not_lt.mpr hv.le),
      positiveToString_eq F hd hv]
  · rw [if_neg (neg_ne_zero.mpr hv.ne'), if_neg (neg_ne_zero.mpr hv.ne'), if_pos (neg_lt_zero.mpr hv),
      if_pos (neg_lt_zero.mpr hv), neg_neg, positiveToString_eq F hd hv]

/-! ## What is written -/

/-- `JSON.stringify` of a number read from a literal. -/
def renderedNumber (F : ShortestDigits) (lit : NumberLit) : List Char :=
  match Binary64.round lit.negative lit.magnitude with
  | .finite q => stringifyFinite F q
  | _ => ['0']

mutual

/-- The canonical text of a document that was read. -/
def rendered (F : ShortestDigits) : Doc → List Char
  | .null => "null".toList
  | .bool b => (toString b).toList
  | .number lit => renderedNumber F lit
  | .string items => stringifyString (units items)
  | .array items => '[' :: [','].intercalate (renderedItems F items) ++ [']']
  | .object ms => '{' :: [','].intercalate ((sortKeys (renderedMembers F ms)).map fun m =>
      stringifyString m.1 ++ ':' :: m.2) ++ ['}']

def renderedItems (F : ShortestDigits) : List Doc → List (List Char)
  | [] => []
  | d :: ds => rendered F d :: renderedItems F ds

def renderedMembers (F : ShortestDigits) : List (List StrItem × Doc) → List (List Nat × List Char)
  | [] => []
  | (key, d) :: ms => (units key, rendered F d) :: renderedMembers F ms

end

/-- Texts with commas between them, and before the first unless it is the first of all. -/
def separated : Bool → List (List Char) → List Char
  | _, [] => []
  | first, text :: texts => (if first then [] else [',']) ++ text ++ separated false texts

theorem separated_true (texts : List (List Char)) :
    separated true texts = [','].intercalate texts := by
  have hmore : ∀ text texts, text ++ separated false texts = [','].intercalate (text :: texts) := by
    intro text texts
    induction texts generalizing text with
    | nil => simp [separated]
    | cons next texts ih =>
      rw [List.intercalate_cons_cons, ← ih next]
      simp [separated]
  cases texts with
  | nil => rfl
  | cons text texts => rw [← hmore, separated, if_pos rfl, nil_append]

/-! ## TypeScript -/

variable {depth : Nat} {ms : List (List StrItem × Doc)} {items : List Doc}

section TypeScript

open PeerJson (Output append comma write writeItems writeKeys memberWriters peerJsonMaximumBytes)

theorem append_append (a b : List Char) (out : Output) :
    (append a out).bind (append b) = append (a ++ b) out := by
  unfold append
  dsimp only
  rw [size_append]
  by_cases ha : out.size + size a > peerJsonMaximumBytes
  · rw [if_pos ha, if_pos (by omega), bind_none]
  rw [if_neg ha, bind_some]
  by_cases hb : out.size + size a + size b > peerJsonMaximumBytes
  · rw [if_pos hb, if_pos (by omega)]
  · rw [if_neg hb, if_neg (by omega), append_assoc, Nat.add_assoc]

theorem append_eq_none {text : List Char} {out : Output} (h : peerJsonMaximumBytes < size text) :
    append text out = none := by
  unfold append
  exact if_pos (by omega)

theorem comma_append (first : Bool) (text : List Char) (out : Output) :
    (comma first out).bind (append text) = append ((if first then [] else [',']) ++ text) out := by
  unfold comma
  cases first with
  | true => simp
  | false =>
    rw [if_neg (by decide), if_neg (by decide), append_append]

/-- The writer appends the canonical text or fails. -/
def WritesText (F : ShortestDigits) (d : Doc) : Prop :=
  ∀ depth out, accepts depth d = true →
    write F (JsValue.ofDoc d) depth out = append (rendered F d) out

variable {F : ShortestDigits}

/-- The loop of an array, with what is appended after it. -/
theorem writeItems_append (h : ∀ d ∈ items, WritesText F d)
    (haccepts : acceptsItems depth items = true) (first : Bool) (out : Output) (tail : List Char) :
    (writeItems F (ofDocs items) depth first out).bind (append tail) =
      append (separated first (renderedItems F items) ++ tail) out := by
  induction items generalizing first out with
  | nil => rfl
  | cons d ds ih =>
    simp only [acceptsItems, Bool.and_eq_true] at haccepts
    have hd := fun out => h d (by simp) depth out haccepts.1
    have hds := ih (fun d hd => h d (by simp [hd])) haccepts.2 false
    simp only [ofDocs, writeItems, bind_eq_bind, hd, bind_assoc, hds,
      append_append, comma_append, renderedItems, separated, append_assoc]

theorem memberWriters_eq (ms : List (List StrItem × Doc)) (depth : Nat) :
    memberWriters F (ofMembers ms) depth =
      (ms.map fun m => (units m.1, m.2)).map fun m => (m.1, write F (ofDoc m.2) depth) := by
  induction ms with
  | nil => rfl
  | cons m ms ih =>
    obtain ⟨key, d⟩ := m
    rw [ofMembers, memberWriters, ih]
    rfl

theorem renderedMembers_eq (ms : List (List StrItem × Doc)) :
    renderedMembers F ms =
      (ms.map fun m => (units m.1, m.2)).map fun m => (m.1, rendered F m.2) := by
  induction ms with
  | nil => rfl
  | cons m ms ih =>
    obtain ⟨key, d⟩ := m
    rw [renderedMembers, ih]
    rfl

/-- The loop over the keys of an object, with what is appended after it. -/
theorem writeKeys_append {entries : List (List Nat × Doc)}
    (h : ∀ m ∈ entries, PeerJson.unicode m.1 = true ∧
      ∀ out, write F (ofDoc m.2) depth out = append (rendered F m.2) out)
    (first : Bool) (out : Output) (tail : List Char) :
    (writeKeys (entries.map fun m => (m.1, write F (ofDoc m.2) depth)) first out).bind
        (append tail) = append (separated first (entries.map fun m =>
        stringifyString m.1 ++ ':' :: rendered F m.2) ++ tail) out := by
  induction entries generalizing first out with
  | nil => rfl
  | cons m entries ih =>
    obtain ⟨hkey, hvalue⟩ := h m (by simp)
    have hrest := ih (fun m hm => h m (by simp [hm])) false
    simp only [map_cons, writeKeys, hkey, if_true, bind_eq_bind, hvalue,
      bind_assoc, hrest, append_append, comma_append, separated, append_assoc,
      cons_append, nil_append]

theorem accepts_members {names : List (List Nat)} (h : acceptsMembers depth names ms = true) :
    ∀ m ∈ ms, paired m.1 = true ∧ accepts depth m.2 = true := by
  induction ms generalizing names with
  | nil => exact nofun
  | cons m ms ih =>
    obtain ⟨key, d⟩ := m
    simp only [acceptsMembers, Bool.and_eq_true] at h
    rw [List.forall_mem_cons]
    exact ⟨⟨h.1.1.1, h.1.2⟩, ih h.2⟩

/-- Commas alone make a list of many texts long. -/
theorem length_le_size (texts : List (List Char)) :
    texts.length ≤ size ([','].intercalate texts) + 1 := by
  have hmore : ∀ texts : List (List Char), texts.length ≤ size (separated false texts) := by
    intro texts
    induction texts with
    | nil => exact Nat.zero_le _
    | cons text texts ih =>
      have hcomma : ','.utf8Size = 1 := by decide
      simp only [separated, Bool.false_eq_true, if_false, size_append, Utf8.size_cons,
        size_nil, length_cons]
      omega
  rw [← separated_true]
  cases texts with
  | nil => exact Nat.zero_le _
  | cons text texts =>
    have := hmore texts
    simp only [separated, size_append, length_cons]
    omega

theorem length_le_size_brackets {texts : List (List Char)} {left right : Char} :
    texts.length < size (left :: [','].intercalate texts ++ [right]) := by
  have hlength := length_le_size texts
  have hleft := left.utf8Size_pos
  have hright := right.utf8Size_pos
  simp only [cons_append, Utf8.size_cons, size_append, size_nil]
  omega

theorem length_renderedItems (items : List Doc) :
    (renderedItems F items).length = (ofDocs items).length := by
  induction items with
  | nil => rfl
  | cons d ds ih => simp only [renderedItems, ofDocs, length_cons, ih]

theorem length_ofMembers (ms : List (List StrItem × Doc)) : (ofMembers ms).length = ms.length := by
  induction ms with
  | nil => rfl
  | cons m ms ih =>
    obtain ⟨key, d⟩ := m
    simp only [ofMembers, length_cons, ih]

theorem writesText (d : Doc) : WritesText F d := by
  induction d using Doc.induct with
  | null =>
    intro depth out haccepts
    exact if_neg (Nat.not_lt.mpr (accepts_depth haccepts))
  | bool b =>
    intro depth out haccepts
    exact if_neg (Nat.not_lt.mpr (accepts_depth haccepts))
  | string items =>
    intro depth out haccepts
    have hdepth := accepts_depth haccepts
    simp only [accepts, Bool.and_eq_true] at haccepts
    rw [ofDoc, write, if_neg (Nat.not_lt.mpr hdepth), unicode_eq, isWellFormed_units,
      if_pos haccepts.2]
    rfl
  | number lit =>
    intro depth out haccepts
    have hdepth := accepts_depth haccepts
    simp only [accepts, Bool.and_eq_true, finiteLit] at haccepts
    have hfinite := haccepts.2
    rw [ofDoc, rendered, renderedNumber]
    cases hround : Binary64.round lit.negative lit.magnitude with
    | finite q => exact if_neg (Nat.not_lt.mpr hdepth)
    | negativeZero => exact if_neg (Nat.not_lt.mpr hdepth)
    | infinite negative =>
      rw [hround] at hfinite
      cases hfinite
    | nan =>
      rw [hround] at hfinite
      cases hfinite
  | array items ih =>
    intro depth out haccepts
    have hdepth := accepts_depth haccepts
    simp only [accepts, Bool.and_eq_true] at haccepts
    have hitems := writeItems_append ih haccepts.2 true
    rw [ofDoc, write, rendered]
    by_cases hmany : (ofDocs items).length > peerJsonMaximumBytes
    · rw [if_pos (.inr hmany), append_eq_none]
      rw [← length_renderedItems (F := F)] at hmany
      exact hmany.trans length_le_size_brackets
    · rw [if_neg (by omega)]
      simp only [bind_eq_bind, hitems, append_append, separated_true, cons_append, nil_append]
  | object ms ih =>
    intro depth out haccepts
    have hdepth := accepts_depth haccepts
    simp only [accepts, Bool.and_eq_true] at haccepts
    have hmembers := accepts_members haccepts.2
    have hentries : ∀ m ∈ sortKeys (ms.map fun m => (units m.1, m.2)), PeerJson.unicode m.1 = true ∧
          ∀ out, write F (ofDoc m.2) (depth + 1) out = append (rendered F m.2) out := by
      intro m hm
      obtain ⟨m, hmem, rfl⟩ := mem_map.mp (mem_sortKeys.mp hm)
      refine ⟨?_, fun out => ih m hmem (depth + 1) out (hmembers m hmem).2⟩
      rw [unicode_eq, isWellFormed_units]
      exact (hmembers m hmem).1
    have hkeys := writeKeys_append hentries true
    have hwriters := sortKeys_map (fun d => write F (ofDoc d) (depth + 1))
      (ms.map fun m => (units m.1, m.2))
    have hrendered := sortKeys_map (rendered F) (ms.map fun m => (units m.1, m.2))
    rw [ofDoc, assignAll_of_accepts haccepts.2, write, rendered,
      if_neg (Nat.not_lt.mpr hdepth), memberWriters_eq, hwriters, renderedMembers_eq, hrendered,
      map_map, length_ofMembers]
    by_cases hmany : ms.length > peerJsonMaximumBytes
    · simp only [if_pos hmany]
      refine Eq.trans ?_ (append_eq_none ?_).symm
      · cases append ['{'] out <;> rfl
      · refine lt_of_lt_of_le hmany (le_trans (le_of_eq ?_) length_le_size_brackets.le)
        rw [length_map, (perm_sortKeys _).length_eq, length_map]
    · simp only [if_neg hmany, bind_eq_bind, hkeys, append_append, separated_true,
        cons_append, nil_append]
      rfl

/-- What `canonicalPeerJson` makes of a document that was read. -/
theorem canonicalPeerJson_eq {d : Doc} (h : accepts 0 d = true) :
    PeerJson.canonicalPeerJson F (ofDoc d) =
      if size (rendered F d) > peerJsonMaximumBytes then none
      else some (Utf8.encode (rendered F d)) := by
  rw [PeerJson.canonicalPeerJson, writesText d 0 _ h, append]
  simp only [Nat.zero_add, nil_append]
  split <;> rfl

end TypeScript

/-! ## Go -/

section Go

open PeerContracts (appendText commaText quote write writeSlice writeNames mapWriters
  maximumJSONBytes)

theorem appendText_appendText (a b output : List Char) :
    (appendText a output).bind (appendText b) = appendText (a ++ b) output := by
  unfold appendText
  rw [size_append]
  by_cases ha : size output + size a > maximumJSONBytes
  · rw [if_pos ha, if_pos (by omega), bind_none]
  rw [if_neg ha, bind_some, size_append]
  by_cases hb : size output + size a + size b > maximumJSONBytes
  · rw [if_pos hb, if_pos (by omega)]
  · rw [if_neg hb, if_neg (by omega), append_assoc]

theorem commaText_appendText (first : Bool) (text output : List Char) :
    (commaText first output).bind (appendText text) =
      appendText ((if first then [] else [',']) ++ text) output := by
  unfold commaText
  cases first with
  | true => simp
  | false => rw [if_neg (by decide), if_neg (by decide), appendText_appendText]

def AppendsText (F : ShortestDigits) (d : Doc) : Prop :=
  ∀ depth output, accepts depth d = true →
    write F (decoded d) output = appendText (rendered F d) output

variable {F : ShortestDigits}

theorem writeSlice_append (h : ∀ d ∈ items, AppendsText F d)
    (haccepts : acceptsItems depth items = true) (first : Bool) (output tail : List Char) :
    (writeSlice F (decodedItems items) first output).bind (appendText tail) =
      appendText (separated first (renderedItems F items) ++ tail) output := by
  induction items generalizing first output with
  | nil => rfl
  | cons d ds ih =>
    simp only [acceptsItems, Bool.and_eq_true] at haccepts
    have hd := fun output => h d (by simp) depth output haccepts.1
    have hds := ih (fun d hd => h d (by simp [hd])) haccepts.2 false
    simp only [decodedItems, writeSlice, bind_eq_bind, hd, bind_assoc, hds,
      appendText_appendText, commaText_appendText, renderedItems, separated, append_assoc]

theorem mapWriters_eq (ms : List (List StrItem × Doc)) :
    mapWriters F (decodedMembers ms) =
      (ms.map fun m => (runes m.1, m.2)).map fun m => (m.1, write F (decoded m.2)) := by
  induction ms with
  | nil => rfl
  | cons m ms ih =>
    obtain ⟨key, d⟩ := m
    rw [decodedMembers, mapWriters, ih]
    rfl

theorem writeNames_append {entries : List (List Char × Doc)}
    (h : ∀ m ∈ entries, ∀ output, write F (decoded m.2) output = appendText (rendered F m.2) output)
    (first : Bool) (output tail : List Char) :
    (writeNames (entries.map fun m => (m.1, write F (decoded m.2))) first output).bind
        (appendText tail) = appendText (separated first (entries.map fun m =>
        quote m.1 ++ ':' :: rendered F m.2) ++ tail) output := by
  induction entries generalizing first output with
  | nil => rfl
  | cons m entries ih =>
    have hvalue := h m (by simp)
    have hrest := ih (fun m hm => h m (by simp [hm])) false
    simp only [map_cons, writeNames, bind_eq_bind, hvalue, bind_assoc, hrest,
      appendText_appendText, commaText_appendText, separated, append_assoc, cons_append,
      nil_append]

theorem sortNames_map {α β : Type} (f : α → β) (entries : List (List Char × α)) :
    sortNames (entries.map fun m => (m.1, f m.2)) =
      (sortNames entries).map fun m => (m.1, f m.2) := by
  unfold sortNames
  symm
  apply List.map_insertionSort
  intro a _ b _
  rfl

/-- Names come in the same order, whichever way they are compared. -/
theorem sorted_names_agree (hpaired : ∀ m ∈ ms, paired m.1 = true) :
    ((sortNames (ms.map fun m => (runes m.1, m.2))).map fun m =>
        quote m.1 ++ ':' :: rendered F m.2) =
      (sortKeys (ms.map fun m => (units m.1, m.2))).map fun m =>
        stringifyString m.1 ++ ':' :: rendered F m.2 := by
  have hencoded : ((ms.map fun m => (runes m.1, m.2)).map fun e => (Utf16.encode e.1, e.2)) =
      ms.map fun m => (units m.1, m.2) := by
    rw [map_map]
    refine List.map_congr_left fun m hm => ?_
    simp only [Function.comp_apply, encode_runes (hpaired m hm)]
  rw [← hencoded, sortKeys_encode, map_map]
  refine List.map_congr_left fun m _ => ?_
  simp only [Function.comp_apply, stringifyString_encode, quote]

theorem appendsText (d : Doc) : AppendsText F d := by
  induction d using Doc.induct with
  | null => exact fun _ _ _ => rfl
  | bool b => exact fun _ _ _ => rfl
  | string items =>
    intro depth output haccepts
    simp only [accepts, Bool.and_eq_true] at haccepts
    rw [decoded, write, rendered, ← encode_runes haccepts.2, stringifyString_encode, quote]
  | number lit =>
    intro depth output haccepts
    simp only [accepts, Bool.and_eq_true, finiteLit] at haccepts
    have hfinite := haccepts.2
    rw [decoded, write, rendered, renderedNumber]
    cases hround : Binary64.round lit.negative lit.magnitude with
    | finite q => exact congrArg (appendText · output) (formatFloat_eq F hround).symm
    | negativeZero => rfl
    | infinite negative =>
      rw [hround] at hfinite
      cases hfinite
    | nan =>
      rw [hround] at hfinite
      cases hfinite
  | array items ih =>
    intro depth output haccepts
    simp only [accepts, Bool.and_eq_true] at haccepts
    have hitems := writeSlice_append ih haccepts.2 true
    simp only [decoded, write, rendered, bind_eq_bind, hitems, appendText_appendText,
      separated_true, cons_append, nil_append]
  | object ms ih =>
    intro depth output haccepts
    simp only [accepts, Bool.and_eq_true] at haccepts
    have hmembers := accepts_members haccepts.2
    have hentries : ∀ m ∈ sortNames (ms.map fun m => (runes m.1, m.2)), ∀ output,
        write F (decoded m.2) output = appendText (rendered F m.2) output := by
      intro m hm output
      obtain ⟨m, hmem, rfl⟩ := mem_map.mp ((List.mem_insertionSort _).mp hm)
      exact ih m hmem (depth + 1) output (hmembers m hmem).2
    have hnames := writeNames_append hentries true
    have hwriters := sortNames_map (fun d => write F (decoded d)) (ms.map fun m => (runes m.1, m.2))
    have hrendered := sortKeys_map (rendered F) (ms.map fun m => (units m.1, m.2))
    rw [decoded, write, rendered, mapWriters_eq, hwriters, renderedMembers_eq, hrendered, map_map]
    simp only [bind_eq_bind, hnames, appendText_appendText, separated_true,
      sorted_names_agree fun m hm => (hmembers m hm).1, cons_append, nil_append]
    rfl

end Go

/-! ## Peer JSON -/

end ConveneWire.Contracts
