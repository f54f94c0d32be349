import ConveneWire.Contracts.ExecutionTwins
import ConveneWire.Lib.JsonText

/-! # What the server digests and the Bridge does not

Canonical text is read back by the Go side as the document it spells. Strings,
names, numbers, bytes, depth and the count of entries pass every check there; the
totals of `bridgeJSONWithinResourceBounds` have no counterpart in
`assertPlainJSON`. -/

namespace ConveneWire.Contracts

open Json
open ExecutionValidation (canonicalValue canonicalItems canonicalMembers sortKeys stringifyNumber
  joined Totals countEntry visitString visit visitItems visitMembers maximumValues unitsOf
  maximumBytes reservedKeys)
open ExecutionRuntime (appendExecutionString appendExecutionNumber appendExecutionJSON appendItems
  appendMembers sortNames Tidy ItemsTidy MembersTidy height membersHeight itemsHeight nodes countWithinBounds executionValueWithinBounds itemsWithinBounds membersWithinBounds itemNodes memberNodes itemNumbers memberNumbers numbers jsonNumberWithinResourceBounds reservedNames canonicalExecutionJSON maxJSONTotalNodes maxJSONNumbers maxJSONDepth)
open Transactional
open GoValue
open Utf16 (isHigh_toNat decode isWellFormed encode)
open Option (bind_eq_bind bind_some some getD_some)
open List (append_nil map_cons mem_map map_map forall_mem_cons sum_cons map_congr_left map sum)

/-! ## JavaScript values -/

mutual

/-- What every JavaScript value satisfies: code units have sixteen bits, and an object has a
property once. -/
def JsValue.Lawful : JsValue → Prop
  | .string units => ∀ u ∈ units, u < 0x10000
  | .array items => JsValue.ItemsLawful items
  | .object ms => (ms.map Prod.fst).Nodup ∧ JsValue.MembersLawful ms
  | .null | .bool _ | .number _ | .other => True

def JsValue.ItemsLawful : List JsValue → Prop
  | [] => True
  | v :: vs => v.Lawful ∧ JsValue.ItemsLawful vs

def JsValue.MembersLawful : List (List Nat × JsValue) → Prop
  | [] => True
  | (key, v) :: ms => (∀ u ∈ key, u < 0x10000) ∧ v.Lawful ∧ JsValue.MembersLawful ms

end

mutual

/-- All values inside a value, itself included. -/
def JsValue.valueCount : JsValue → Nat
  | .array items => 1 + JsValue.itemsValueCount items
  | .object ms => 1 + JsValue.membersValueCount ms
  | .null | .bool _ | .number _ | .string _ | .other => 1

def JsValue.itemsValueCount : List JsValue → Nat
  | [] => 0
  | v :: vs => v.valueCount + JsValue.itemsValueCount vs

def JsValue.membersValueCount : List (List Nat × JsValue) → Nat
  | [] => 0
  | (_, v) :: ms => v.valueCount + JsValue.membersValueCount ms

end

mutual

def JsValue.numberCount : JsValue → Nat
  | .array items => JsValue.itemsNumberCount items
  | .object ms => JsValue.membersNumberCount ms
  | .number _ => 1
  | .null | .bool _ | .string _ | .other => 0

def JsValue.itemsNumberCount : List JsValue → Nat
  | [] => 0
  | v :: vs => v.numberCount + JsValue.itemsNumberCount vs

def JsValue.membersNumberCount : List (List Nat × JsValue) → Nat
  | [] => 0
  | (_, v) :: ms => v.numberCount + JsValue.membersNumberCount ms

end

/-! ## Integers and strings as they are written -/

def integerLit (n : Int) : NumberLit := ⟨n < 0, Nat.toDigits 10 n.natAbs, [], none⟩

theorem integerLit_raw (n : Int) : (integerLit n).raw = (toString n).toList := by
  unfold integerLit NumberLit.raw NumberLit.exponentText
  simp only [if_true, append_nil, decide_eq_true_eq, toString_int_toList]

theorem head_toDigits {n : Nat} (h : 0 < n) : (Nat.toDigits 10 n).head? ≠ some '0' := by
  induction n using Nat.strongRecOn with
  | ind n ih =>
    by_cases hlt : n < 10
    · rw [Nat.toDigits_of_lt_base hlt]
      have hall : ∀ n < 10, 0 < n → [Nat.digitChar n].head? ≠ some '0' := by decide
      exact hall n hlt h
    · rw [Nat.toDigits_of_base_le (by omega) (by omega),
        List.head?_append_of_ne_nil _ Nat.toDigits_ne_nil]
      exact ih (n / 10) (by omega) (by omega)

theorem integerLit_spelled (n : Int) : (integerLit n).Spelled := by
  refine ⟨⟨Nat.toDigits_ne_nil, ?_, nofun, nofun⟩, ?_⟩
  · intro c hc
    exact Nat.isDigit_of_mem_toDigits (by omega) (by omega) hc
  by_cases hzero : n.natAbs = 0
  · left
    simp only [integerLit, hzero]
    rfl
  · exact .inr (head_toDigits (by omega))

theorem integerLit_value (n : Int) : (integerLit n).value = n := by
  have hsignificand : (integerLit n).significand = n.natAbs := by
    simp only [NumberLit.significand, integerLit, append_nil]
    exact Nat.ofDigitChars_toDigits (by omega) (by omega)
  have hmagnitude : (integerLit n).magnitude = n.natAbs := by
    unfold NumberLit.magnitude
    rw [hsignificand]
    simp [NumberLit.scale, integerLit]
  unfold NumberLit.value
  rw [hmagnitude]
  simp only [integerLit, decide_eq_true_eq]
  split
  · rename_i hneg
    rw [← Int.cast_natCast, ← Int.cast_neg, show -(n.natAbs : Int) = n by omega]
  · rename_i hneg
    rw [← Int.cast_natCast, show (n.natAbs : Int) = n by omega]

/-- A character as a canonical string spells it. -/
def stringItem (c : Char) : StrItem :=
  if h : shortLetter c = none ∧ c.toNat < 0x20 then .unit ⟨c.toNat, by omega⟩ else .char c

theorem stringItem_spelled (c : Char) : (stringItem c).Spelled := by
  unfold stringItem
  split
  · trivial
  · rename_i h
    intro hnone hcontrol
    exact h ⟨hnone, hcontrol⟩

theorem stringifyChar_eq_short {c letter : Char} (h : shortLetter c = some letter) :
    stringifyChar c = ['\\', letter] := by
  unfold shortLetter at h
  split_ifs at h <;> cases h <;> subst_vars <;> decide

theorem itemText_stringItem (c : Char) : itemText (stringItem c) = stringifyChar c := by
  cases hletter : shortLetter c with
  | some letter =>
    rw [stringifyChar_eq_short hletter]
    simp only [stringItem, hletter, reduceCtorEq, false_and, dite_false, itemText]
  | none =>
    have hplain : stringifyChar c = if c.toNat < 0x20 then
        ['\\', 'u', hexChar (c.toNat / 4096), hexChar (c.toNat / 256 % 16),
          hexChar (c.toNat / 16 % 16), hexChar (c.toNat % 16)] else [c] := by
      unfold shortLetter at hletter
      unfold stringifyChar
      split_ifs at hletter
      simp_all
    rw [hplain]
    by_cases hcontrol : c.toNat < 0x20
    · simp only [stringItem, hletter, hcontrol, and_self, dite_true, itemText, if_true]
      rfl
    · simp only [stringItem, hletter, hcontrol, and_false, dite_false, itemText, if_false]

theorem stringItem_cases (c : Char) :
    stringItem c = .char c ∨ ∃ u : Fin 0x10000, stringItem c = .unit u ∧ u.val = c.toNat := by
  unfold stringItem
  split
  · exact .inr ⟨_, rfl, rfl⟩
  · exact .inl rfl

theorem runes_stringItems (s : List Char) : runes (s.map stringItem) = s := by
  induction s with
  | nil => rfl
  | cons c s ih =>
    rw [map_cons]
    rcases stringItem_cases c with h | ⟨u, h, hu⟩
    · rw [h, runes, ih]
    · rw [h, runes.eq_def]
      simp only [hu, isHigh_toNat, Utf16.isLow_toNat, Bool.or_self, Bool.false_eq_true,
        if_false, ih, Char.ofNat_toNat]

theorem paired_stringItems (s : List Char) : paired (s.map stringItem) = true := by
  induction s with
  | nil => rfl
  | cons c s ih =>
    rw [map_cons]
    rcases stringItem_cases c with h | ⟨u, h, hu⟩
    · rw [h, paired, ih]
    · rw [h, paired.eq_def]
      simp only [hu, isHigh_toNat, Utf16.isLow_toNat, Bool.false_eq_true, if_false, ih,
        Bool.not_false, Bool.and_self]

/-- The items a string of code units is written with. -/
def textItems (units : List Nat) : List StrItem := ((decode units).getD []).map stringItem

theorem quoted_textItems (units : List Nat) : quoted (textItems units) = stringifyString units := by
  unfold quoted stringifyString textItems
  rw [List.flatMap_map]
  simp only [itemText_stringItem]

theorem textItems_spelled (units : List Nat) : ∀ item ∈ textItems units, item.Spelled := by
  intro item hitem
  obtain ⟨c, -, rfl⟩ := mem_map.mp hitem
  exact stringItem_spelled c

/-- A well-formed string and its characters. -/
theorem encode_decode_getD {units : List Nat} (hbound : ∀ u ∈ units, u < 0x10000)
    (h : isWellFormed units = true) : encode ((decode units).getD []) = units := by
  obtain ⟨s, hs⟩ := Option.isSome_iff_exists.mp h
  rw [hs]
  exact Utf16.encode_decode hbound hs

/-! ## The document a canonical text spells -/

mutual

def canonicalDoc : JsValue → Doc
  | .null | .other => .null
  | .bool b => .bool b
  | .number x => .number (integerLit (x.safeInteger?.getD 0))
  | .string units => .string (textItems units)
  | .array items => .array (canonicalDocs items)
  | .object ms => .object ((sortKeys (canonicalDocMembers ms)).map fun m => (textItems m.1, m.2))

def canonicalDocs : List JsValue → List Doc
  | [] => []
  | v :: vs => canonicalDoc v :: canonicalDocs vs

def canonicalDocMembers : List (List Nat × JsValue) → List (List Nat × Doc)
  | [] => []
  | (key, v) :: ms => (key, canonicalDoc v) :: canonicalDocMembers ms

end

section

variable (ms : List (List Nat × JsValue))
include ms

theorem canonicalDocMembers_eq :
    canonicalDocMembers ms = ms.map fun m => (m.1, canonicalDoc m.2) := by
  induction ms with
  | nil => rfl
  | cons m ms ih =>
    obtain ⟨key, v⟩ := m
    rw [canonicalDocMembers, ih, map_cons]

theorem canonicalMembers_eq : canonicalMembers ms = ms.map fun m => (m.1, canonicalValue m.2) := by
  induction ms with
  | nil => rfl
  | cons m ms ih =>
    obtain ⟨key, v⟩ := m
    rw [canonicalMembers, ih, map_cons]

/-- The members of an object, in their order in the text. -/
theorem canonicalDoc_object :
    canonicalDoc (.object ms) =
      .object ((sortKeys ms).map fun m => (textItems m.1, canonicalDoc m.2)) := by
  rw [canonicalDoc, canonicalDocMembers_eq, sortKeys_map, map_map]
  rfl

end

/-! ## What `assertPlainJSON` has established -/

mutual

/-- Plain data with safe integers and well-formed strings. -/
def JsValue.Plain : JsValue → Prop
  | .null | .bool _ => True
  | .number x => x.safeInteger?.isSome = true
  | .string units => isWellFormed units = true
  | .array items => JsValue.ItemsPlain items
  | .object ms => JsValue.MembersPlain ms
  | .other => False

def JsValue.ItemsPlain : List JsValue → Prop
  | [] => True
  | v :: vs => v.Plain ∧ JsValue.ItemsPlain vs

def JsValue.MembersPlain : List (List Nat × JsValue) → Prop
  | [] => True
  | (key, v) :: ms => key ∉ reservedKeys ∧ isWellFormed key = true ∧
      v.Plain ∧ JsValue.MembersPlain ms

end
open JsValue (Lawful ItemsLawful MembersLawful valueCount numberCount itemsNumberCount ItemsPlain
  MembersPlain object array)

mutual

/-- What both sides count of a value: its values and, inside arrays and objects, a name each. -/
def entries : Doc → Nat
  | .array items => 1 + itemEntries items
  | .object ms => 1 + memberEntries ms
  | .null | .bool _ | .number _ | .string _ => 1

def itemEntries : List Doc → Nat
  | [] => 0
  | d :: ds => 1 + entries d + itemEntries ds

def memberEntries : List (List StrItem × Doc) → Nat
  | [] => 0
  | (_, d) :: ms => 1 + entries d + memberEntries ms

end

/-! ### Lists of items and members -/

variable {t totals : Totals} {items : List JsValue}

theorem ItemsLawful_iff : ItemsLawful items ↔ ∀ v ∈ items, v.Lawful := by
  induction items with
  | nil => simp [ItemsLawful]
  | cons v vs ih => rw [ItemsLawful, ih, forall_mem_cons]

variable {ms : List (List Nat × JsValue)}

theorem MembersLawful_iff : MembersLawful ms ↔ ∀ m ∈ ms, (∀ u ∈ m.1, u < 0x10000) ∧ m.2.Lawful := by
  induction ms with
  | nil => simp [MembersLawful]
  | cons m ms ih =>
    obtain ⟨key, v⟩ := m
    rw [MembersLawful, ih, forall_mem_cons, and_assoc]

theorem ItemsPlain_iff : ItemsPlain items ↔ ∀ v ∈ items, v.Plain := by
  induction items with
  | nil => simp [ItemsPlain]
  | cons v vs ih => rw [ItemsPlain, ih, forall_mem_cons]

theorem MembersPlain_iff :
    MembersPlain ms ↔ ∀ m ∈ ms, m.1 ∉ reservedKeys ∧ isWellFormed m.1 = true ∧ m.2.Plain := by
  induction ms with
  | nil => simp [MembersPlain]
  | cons m ms ih =>
    obtain ⟨key, v⟩ := m
    rw [MembersPlain, ih, forall_mem_cons, and_assoc, and_assoc]

/-- A count over members is the sum of the counts of their values. -/
theorem sum_members {κ β : Type} {f : List (κ × β) → Nat} {g : β → Nat} (hnil : f [] = 0)
    (hcons : ∀ key v ms, f ((key, v) :: ms) = g v + f ms) (ms : List (κ × β)) :
    f ms = (ms.map fun m => g m.2).sum := by
  induction ms with
  | nil => exact hnil
  | cons m ms ih => exact (hcons m.1 m.2 ms).trans (by rw [ih, map_cons, sum_cons])

theorem memberEntries_eq (ms : List (List StrItem × Doc)) :
    memberEntries ms = (ms.map fun m => 1 + entries m.2).sum :=
  sum_members (g := (1 + entries ·)) rfl (fun _ _ _ => rfl) ms

theorem membersHeight_le {ms : List (List StrItem × Doc)} {h : Nat} :
    membersHeight ms ≤ h ↔ ∀ m ∈ ms, height m.2 ≤ h := by
  induction ms with
  | nil => simp [membersHeight]
  | cons m ms ih =>
    obtain ⟨key, d⟩ := m
    rw [membersHeight, Nat.max_le, ih, forall_mem_cons]

/-! ### The visit -/

variable {depth index : Nat} {v : JsValue} {entry : List Nat} {x : Binary64.Number} {n : Int}

theorem countEntry_ok (h : countEntry depth totals = .ok t) :
    t.count = totals.count + 1 ∧ t.count ≤ maximumValues ∧ depth ≤ 24 := by
  simp only [countEntry, bind_eq_ok, require_eq_ok] at h
  obtain ⟨-, ⟨hcount, hdepth⟩, heq⟩ := h
  cases heq
  exact ⟨rfl, hcount, hdepth⟩

theorem visitString_ok {totals t : Totals} (h : visitString entry depth totals = .ok t) :
    t.count = totals.count + 1 ∧ t.count ≤ maximumValues ∧ depth ≤ 24 ∧
      isWellFormed entry = true := by
  simp only [visitString, bind_eq_ok, require_eq_ok] at h
  obtain ⟨counted, hcounted, -, -, -, hformed, heq⟩ := h
  cases heq
  obtain ⟨hcount, hmax, hdepth⟩ := countEntry_ok hcounted
  exact ⟨hcount, hmax, hdepth, hformed⟩

/-- What a visit that went through says of the value. -/
structure Visited (v : JsValue) (depth : Nat) (before after : Totals) : Prop where
  plain : v.Plain
  count : after.count = before.count + entries (canonicalDoc v)
  within : after.count ≤ maximumValues
  depth : depth + height (canonicalDoc v) ≤ 25

/-- A visit of an entry without entries of its own. -/
theorem Visited.leaf (hplain : v.Plain)
    (hcount : t.count = totals.count + 1 ∧ t.count ≤ maximumValues ∧ depth ≤ 24)
    (hentries : entries (canonicalDoc v) = 1)
    (hheight : height (canonicalDoc v) = 1) : Visited v depth totals t := by
  obtain ⟨hcount, hmax, hdepth⟩ := hcount
  exact ⟨hplain, by rw [hcount, hentries], hmax, by omega⟩

theorem visitItems_ok
    (h : ∀ v ∈ items, ∀ depth totals t, visit v depth totals = .ok t → Visited v depth totals t)
    (hvisit : visitItems items index depth totals = .ok t) (hcount : totals.count ≤ maximumValues)
    (hdepth : depth ≤ 25) :
    ItemsPlain items ∧ t.count = totals.count + itemEntries (canonicalDocs items) ∧
      t.count ≤ maximumValues ∧ depth + itemsHeight (canonicalDocs items) ≤ 25 := by
  induction items generalizing index totals with
  | nil =>
    cases hvisit
    exact ⟨trivial, rfl, hcount, hdepth⟩
  | cons v vs ih =>
    simp only [visitItems, bind_eq_ok] at hvisit
    obtain ⟨named, hnamed, valued, hvalued, hrest⟩ := hvisit
    obtain ⟨hname, -, -, -⟩ := visitString_ok hnamed
    have hv := h v (by simp) _ _ _ hvalued
    obtain ⟨hplain, hrestCount, hmax, hheight⟩ :=
      ih (fun v hv => h v (by simp [hv])) hrest hv.within
    have hvCount := hv.count
    have hvDepth := hv.depth
    refine ⟨⟨hv.plain, hplain⟩, ?_, hmax, ?_⟩
    · simp only [canonicalDocs, itemEntries]
      omega
    · simp only [canonicalDocs, itemsHeight]
      omega

theorem visitMembers_ok
    (h : ∀ m ∈ ms, ∀ depth totals t, visit m.2 depth totals = .ok t → Visited m.2 depth totals t)
    (hvisit : visitMembers ms depth totals = .ok t) (hcount : totals.count ≤ maximumValues) :
    MembersPlain ms ∧
      t.count = totals.count + (ms.map fun m => 1 + entries (canonicalDoc m.2)).sum ∧
      t.count ≤ maximumValues ∧ ∀ m ∈ ms, depth + height (canonicalDoc m.2) ≤ 25 := by
  induction ms generalizing totals with
  | nil =>
    cases hvisit
    exact ⟨trivial, rfl, hcount, nofun⟩
  | cons m ms ih =>
    obtain ⟨key, v⟩ := m
    simp only [visitMembers, bind_eq_ok, require_eq_ok] at hvisit
    obtain ⟨-, hreserved, named, hnamed, valued, hvalued, hrest⟩ := hvisit
    obtain ⟨hname, -, -, hformed⟩ := visitString_ok hnamed
    have hv : Visited v _ _ _ := h (key, v) (by simp) _ _ _ hvalued
    obtain ⟨hplain, hrestCount, hmax, hheight⟩ :=
      ih (fun m hm => h m (by simp [hm])) hrest hv.within
    have hvCount := hv.count
    refine ⟨⟨hreserved, hformed, hv.plain, hplain⟩, ?_, hmax, ?_⟩
    · rw [map_cons, sum_cons]
      show _ = totals.count + (1 + entries (canonicalDoc v) + _)
      omega
    · rw [forall_mem_cons]
      exact ⟨hv.depth, hheight⟩

theorem visit_ok (v : JsValue) :
    ∀ depth totals t, visit v depth totals = .ok t → Visited v depth totals t := by
  induction v with
  | null | bool =>
    intro depth totals t h
    exact .leaf trivial (countEntry_ok h) rfl rfl
  | number x =>
    intro depth totals t h
    simp only [visit, bind_eq_ok, require_eq_ok] at h
    obtain ⟨counted, hcounted, -, hsafe, heq⟩ := h
    cases heq
    exact .leaf hsafe (countEntry_ok hcounted) rfl rfl
  | string units =>
    intro depth totals t h
    obtain ⟨hcount, hmax, hdepth, hformed⟩ := visitString_ok h
    exact .leaf hformed ⟨hcount, hmax, hdepth⟩ rfl rfl
  | array items ih =>
    intro depth totals t h
    simp only [visit, bind_eq_ok, require_eq_ok] at h
    obtain ⟨counted, hcounted, -, -, hitems⟩ := h
    obtain ⟨hcount, hmax, hdepth⟩ := countEntry_ok hcounted
    obtain ⟨hplain, htotal, hwithin, hheight⟩ := visitItems_ok ih hitems hmax (by omega)
    refine ⟨hplain, ?_, hwithin, ?_⟩
    · simp only [canonicalDoc, entries]
      omega
    · simp only [canonicalDoc, height]
      omega
  | object ms ih =>
    intro depth totals t h
    simp only [visit, bind_eq_ok] at h
    obtain ⟨counted, hcounted, hmembers⟩ := h
    obtain ⟨hcount, hmax, hdepth⟩ := countEntry_ok hcounted
    obtain ⟨hplain, htotal, hwithin, hheight⟩ := visitMembers_ok ih hmembers hmax
    refine ⟨hplain, ?_, hwithin, ?_⟩
    · -- The text has the members in another order.
      have hperm := ((perm_sortKeys ms).map fun m => 1 + entries (canonicalDoc m.2)).sum_eq
      rw [canonicalDoc_object, entries, memberEntries_eq, map_map]
      simp only [Function.comp_def, hperm]
      omega
    have hle : membersHeight
        ((sortKeys ms).map fun m => (textItems m.1, canonicalDoc m.2)) ≤ 24 - depth := by
      rw [membersHeight_le]
      intro m hm
      obtain ⟨m, hmem, rfl⟩ := mem_map.mp hm
      have := hheight m (mem_sortKeys.mp hmem)
      dsimp only
      omega
    rw [canonicalDoc_object, height]
    omega
  | other =>
    intro depth totals t h
    simp only [visit, bind_eq_ok] at h
    obtain ⟨-, -, h⟩ := h
    cases h

/-! ## The Go side on canonical text -/

section Bounds

variable (depth count : Nat)

theorem countWithinBounds_of_le (hdepth : depth + 1 ≤ 25) (hcount : count + 1 ≤ 30000) :
    countWithinBounds depth count = some (count + 1) := by
  unfold countWithinBounds
  rw [if_neg (by omega)]

/-- Go counts the same entries, names included. -/
def CountsEntries (d : Doc) : Prop :=
  ∀ depth count, Tidy d → depth + height d ≤ 25 → count + entries d ≤ 30000 →
    executionValueWithinBounds (GoValue.ofDoc d) depth count =
      some (count + entries d)

theorem height_pos (d : Doc) : 1 ≤ height d := by
  cases d <;> simp [height]

theorem itemsWithinBounds_ofDocs {items : List Doc} (h : ∀ d ∈ items, CountsEntries d)
    (htidy : ItemsTidy items) (hdepth : depth + itemsHeight items ≤ 25)
    (hcount : count + itemEntries items ≤ 30000) :
    itemsWithinBounds (ofDocs items) depth count = some (count + itemEntries items) := by
  induction items generalizing count with
  | nil => rfl
  | cons d ds ih =>
    have hpos := height_pos d
    simp only [itemsHeight] at hdepth
    simp only [itemEntries] at hcount
    have hd := h d (by simp) depth (count + 1) htidy.1 (by omega) (by omega)
    have hds := ih (count + 1 + entries d) (fun d hd => h d (by simp [hd])) htidy.2 (by omega)
      (by omega)
    simp only [ofDocs, itemsWithinBounds, countWithinBounds_of_le depth count (by omega) (by omega),
      bind_eq_bind, bind_some, hd, hds, itemEntries, some.injEq]
    omega

theorem membersWithinBounds_ofMembers {ms : List (List StrItem × Doc)}
    (h : ∀ m ∈ ms, CountsEntries m.2) (htidy : MembersTidy ms)
    (hdepth : depth + membersHeight ms ≤ 25) (hcount : count + memberEntries ms ≤ 30000) :
    membersWithinBounds (ofMembers ms) depth count = some (count + memberEntries ms) := by
  induction ms generalizing count with
  | nil => rfl
  | cons m ms ih =>
    obtain ⟨key, d⟩ := m
    have hpos := height_pos d
    simp only [membersHeight] at hdepth
    simp only [memberEntries] at hcount
    have hd : CountsEntries d := h (key, d) (by simp)
    replace hd := hd depth (count + 1) htidy.1 (by omega) (by omega)
    have hms := ih (count + 1 + entries d) (fun m hm => h m (by simp [hm])) htidy.2 (by omega)
      (by omega)
    simp only [ofMembers, membersWithinBounds,
      countWithinBounds_of_le depth count (by omega) (by omega),
      bind_eq_bind, bind_some, hd, hms, memberEntries, some.injEq]
    omega

theorem countsEntries (d : Doc) : CountsEntries d := by
  induction d using Doc.induct with
  | null | bool | number | string =>
    intro depth count _ hdepth hcount
    exact countWithinBounds_of_le depth count hdepth hcount
  | array items ih =>
    intro depth count htidy hdepth hcount
    simp only [height] at hdepth
    simp only [entries] at hcount
    have hitems := itemsWithinBounds_ofDocs (depth + 1) (count + 1) ih htidy (by omega)
      (by omega)
    simp only [ofDoc, executionValueWithinBounds,
      countWithinBounds_of_le depth count (by omega) (by omega),
      bind_eq_bind, bind_some, hitems, entries, Nat.add_assoc]
  | object ms ih =>
    intro depth count htidy hdepth hcount
    simp only [height] at hdepth
    simp only [entries] at hcount
    have hkept : assignAll (ofMembers ms) = ofMembers ms :=
      assignAll_of_nodup (by rw [ofMembers_names]; exact htidy.1)
    have hmembers := membersWithinBounds_ofMembers (depth + 1) (count + 1) ih htidy.2
      (by omega) (by omega)
    simp only [ofDoc, hkept, executionValueWithinBounds,
      countWithinBounds_of_le depth count (by omega) (by omega),
      bind_eq_bind, bind_some, hmembers, entries, Nat.add_assoc]

end Bounds

/-- What the document of a canonical text has to do with the value it was written for. -/
structure Writes (v : JsValue) (d : Doc) : Prop where
  spelled : d.Spelled
  text : d.text = canonicalValue v
  paired : d.paired = true
  tidy : Tidy d
  nodes : nodes d = v.valueCount
  numbers : numbers d = v.numberCount
  append : appendExecutionJSON (GoValue.ofDoc d) = some (canonicalValue v)

theorem safeInteger_bound (h : x.safeInteger? = some n) : |n| ≤ Binary64.maxSafeInteger := by
  unfold Binary64.Number.safeInteger? at h
  split at h
  · split at h
    · rename_i hsafe
      cases h
      exact hsafe.2
    · cases h
  · cases h
    decide
  · cases h
  · cases h

theorem integerLit_tidy (h : |n| ≤ Binary64.maxSafeInteger) :
    jsonNumberWithinResourceBounds (integerLit n) = true := by
  unfold Binary64.maxSafeInteger at h
  obtain ⟨hlow, hhigh⟩ := abs_le.mp h
  have hdigits : (Nat.toDigits 10 n.natAbs).length ≤ 16 :=
    (Nat.length_toDigits_le_iff (by omega) (by omega)).mpr (by omega)
  have hlength : (integerLit n).raw.length ≤ 17 := by
    unfold integerLit NumberLit.raw NumberLit.exponentText
    simp only [if_true, append_nil, List.length_append]
    split
    · simp only [List.length_singleton]
      omega
    · simp only [List.length_nil]
      omega
  unfold jsonNumberWithinResourceBounds ExecutionRuntime.maxJSONNumberLexemeLength
  rw [if_neg (by omega)]
  rfl

theorem appendExecutionNumber_integerLit (h : |n| ≤ Binary64.maxSafeInteger) :
    appendExecutionNumber (integerLit n) = some (toString n).toList := by
  unfold Binary64.maxSafeInteger at h
  obtain ⟨hlow, hhigh⟩ := abs_le.mp h
  have hden : (integerLit n).value.den = 1 := by rw [integerLit_value, Rat.den_intCast]
  have hnum : (integerLit n).value.num = n := by rw [integerLit_value, Rat.num_intCast]
  unfold appendExecutionNumber ExecutionRuntime.maxSafeJSONInteger
  dsimp only
  rw [if_neg (by rw [hden, hnum]; omega), if_neg (by rw [hnum]; omega), hnum]

theorem writes_number (h : x.safeInteger?.isSome = true) :
    Writes (.number x) (canonicalDoc (.number x)) := by
  obtain ⟨n, hn⟩ := Option.isSome_iff_exists.mp h
  have hbound := safeInteger_bound hn
  simp only [canonicalDoc, hn, getD_some]
  have htext : canonicalValue (.number x) = (toString n).toList := by
    simp only [canonicalValue, stringifyNumber, hn, getD_some]
  exact ⟨integerLit_spelled n, (integerLit_raw n).trans htext.symm, rfl, integerLit_tidy hbound,
    rfl, rfl, (appendExecutionNumber_integerLit hbound).trans (congrArg some htext.symm)⟩

variable {units : List Nat}

theorem appendExecutionString_decode (hbound : ∀ u ∈ units, u < 0x10000)
    (h : isWellFormed units = true) :
    appendExecutionString (runes (textItems units)) = stringifyString units := by
  rw [textItems, runes_stringItems, ← stringifyString_encode, encode_decode_getD hbound h]

theorem writes_string (hbound : ∀ u ∈ units, u < 0x10000) (h : isWellFormed units = true) :
    Writes (.string units) (canonicalDoc (.string units)) :=
  ⟨textItems_spelled units, quoted_textItems units, paired_stringItems _, trivial, rfl, rfl,
    congrArg some (appendExecutionString_decode hbound h)⟩

theorem writes_items (h : ∀ v ∈ items, Writes v (canonicalDoc v)) :
    Doc.ItemsSpelled (canonicalDocs items) ∧
      Doc.itemTexts (canonicalDocs items) = canonicalItems items ∧
      Doc.itemsPaired (canonicalDocs items) = true ∧ ItemsTidy (canonicalDocs items) ∧
      itemNodes (canonicalDocs items) = JsValue.itemsValueCount items ∧
      itemNumbers (canonicalDocs items) = itemsNumberCount items ∧
      appendItems (ofDocs (canonicalDocs items)) = some (canonicalItems items) := by
  induction items with
  | nil => exact ⟨trivial, rfl, rfl, trivial, rfl, rfl, rfl⟩
  | cons v vs ih =>
    have hv := h v (by simp)
    obtain ⟨hspelled, htexts, hpaired, htidy, hnodes, hnumbers, happend⟩ :=
      ih fun v hv => h v (by simp [hv])
    refine ⟨⟨hv.spelled, hspelled⟩, ?_, ?_, ⟨hv.tidy, htidy⟩, ?_, ?_, ?_⟩
    · simp only [canonicalDocs, Doc.itemTexts, canonicalItems, hv.text, htexts]
    · simp only [canonicalDocs, Doc.itemsPaired, hv.paired, hpaired, Bool.and_self]
    · simp only [canonicalDocs, itemNodes, JsValue.itemsValueCount, hv.nodes, hnodes]
    · simp only [canonicalDocs, itemNumbers, itemsNumberCount, hv.numbers, hnumbers]
    · simp only [canonicalDocs, ofDocs, appendItems, canonicalItems, hv.append, happend,
        bind_eq_bind, bind_some]

theorem writes_array (h : ∀ v ∈ items, Writes v (canonicalDoc v)) :
    Writes (.array items) (canonicalDoc (.array items)) := by
  obtain ⟨hspelled, htexts, hpaired, htidy, hnodes, hnumbers, happend⟩ := writes_items h
  refine ⟨hspelled, ?_, hpaired, htidy, ?_, hnumbers, ?_⟩
  · simp only [canonicalDoc, Doc.text, canonicalValue, joined, htexts]
  · simp only [canonicalDoc, nodes, valueCount, hnodes]
  · simp only [canonicalDoc, ofDoc, appendExecutionJSON, happend, bind_eq_bind,
      bind_some, canonicalValue, joined]

/-! ### Objects -/

section Members

variable {ms : List (List Nat × JsValue)}

/-- Members in some order, as the document of the text has them. -/
def docMembers (ms : List (List Nat × JsValue)) : List (List StrItem × Doc) :=
  ms.map fun m => (textItems m.1, canonicalDoc m.2)

theorem writes_members (h : ∀ m ∈ ms, Writes m.2 (canonicalDoc m.2)) :
    Doc.MembersSpelled (docMembers ms) ∧ Doc.memberTexts (docMembers ms) =
        (ms.map fun m => stringifyString m.1 ++ ':' :: canonicalValue m.2) ∧
      Doc.membersPaired (docMembers ms) = true ∧ MembersTidy (docMembers ms) := by
  induction ms with
  | nil => exact ⟨trivial, rfl, rfl, trivial⟩
  | cons m ms ih =>
    have hm := h m (by simp)
    have hkey : paired (textItems m.1) = true := paired_stringItems _
    obtain ⟨hspelled, htexts, hpaired, htidy⟩ := ih fun m hm => h m (by simp [hm])
    unfold docMembers at htexts hpaired ⊢
    refine ⟨⟨textItems_spelled m.1, hm.spelled, hspelled⟩, ?_, ?_, hm.tidy, htidy⟩
    · rw [map_cons, Doc.memberTexts, htexts, map_cons, quoted_textItems, hm.text]
    · rw [map_cons, Doc.membersPaired, hm.paired, hkey, hpaired]
      rfl

/-- The characters of a name. -/
def keyText (key : List Nat) : List Char := (decode key).getD []

theorem runes_docMembers (ms : List (List Nat × JsValue)) :
    ((docMembers ms).map fun m => runes m.1) = ms.map fun m => keyText m.1 := by
  unfold docMembers
  rw [map_map]
  exact map_congr_left fun m _ => runes_stringItems _

/-- Names that differ in their code units differ as text. -/
theorem nodup_docMembers (hlawful : MembersLawful ms) (hplain : MembersPlain ms)
    (hnames : (ms.map Prod.fst).Nodup) : ((docMembers ms).map fun m => runes m.1).Nodup := by
  rw [runes_docMembers]
  have hencoded : (ms.map fun m => keyText m.1).map encode = ms.map Prod.fst := by
    rw [map_map]
    refine map_congr_left fun m hm => ?_
    exact encode_decode_getD (MembersLawful_iff.mp hlawful m hm).1
      (MembersPlain_iff.mp hplain m hm).2.1
  rw [← hencoded] at hnames
  exact hnames.of_map

theorem keyText_not_reserved {key : List Nat} (hbound : ∀ u ∈ key, u < 0x10000)
    (hformed : isWellFormed key = true) (h : key ∉ reservedKeys) : keyText key ∉ reservedNames := by
  intro hreserved
  have hmem := List.mem_map_of_mem (f := encode) hreserved
  rw [keyText, encode_decode_getD hbound hformed] at hmem
  exact h hmem

theorem appendMembers_docMembers (h : ∀ m ∈ ms, Writes m.2 (canonicalDoc m.2))
    (hlawful : ∀ m ∈ ms, (∀ u ∈ m.1, u < 0x10000) ∧ m.2.Lawful)
    (hplain : ∀ m ∈ ms, m.1 ∉ reservedKeys ∧ isWellFormed m.1 = true ∧ m.2.Plain) :
    appendMembers (ofMembers (docMembers ms)) =
      some (ms.map fun m => (keyText m.1, canonicalValue m.2)) := by
  induction ms with
  | nil => rfl
  | cons m ms ih =>
    have hm : appendExecutionJSON (ofDoc (canonicalDoc m.2)) = some (canonicalValue m.2) :=
      (h m (by simp)).append
    have hms := ih (fun m hm => h m (by simp [hm])) (fun m hm => hlawful m (by simp [hm]))
      fun m hm => hplain m (by simp [hm])
    have hkey := keyText_not_reserved (hlawful m (by simp)).1 (hplain m (by simp)).2.1
      (hplain m (by simp)).1
    have hrunes : runes (textItems m.1) = keyText m.1 := runes_stringItems _
    unfold docMembers at hms ⊢
    simp only [map_cons, ofMembers, appendMembers, hrunes, if_neg hkey, hm, hms,
      bind_eq_bind, bind_some]

/-- Go sorts the names of a canonical text into the order they have. -/
theorem sortNames_written (hlawful : MembersLawful ms) (hplain : MembersPlain ms) :
    ((sortNames ((sortKeys ms).map fun m => (keyText m.1, canonicalValue m.2))).map fun e =>
        appendExecutionString e.1 ++ ':' :: e.2) =
      (sortKeys ms).map fun m => stringifyString m.1 ++ ':' :: canonicalValue m.2 := by
  have hencoded : (((sortKeys ms).map fun m => (keyText m.1, canonicalValue m.2)).map fun e =>
      (encode e.1, e.2)) = (sortKeys ms).map fun m => (m.1, canonicalValue m.2) := by
    rw [map_map]
    refine map_congr_left fun m hm => ?_
    have hmem := mem_sortKeys.mp hm
    simp only [Function.comp_apply, keyText,
      encode_decode_getD (MembersLawful_iff.mp hlawful m hmem).1
        (MembersPlain_iff.mp hplain m hmem).2.1]
  have hsorted := sortKeys_encode ((sortKeys ms).map fun m => (keyText m.1, canonicalValue m.2))
  rw [hencoded, sortKeys_map, sortKeys_sortKeys] at hsorted
  have hrendered := congrArg (map fun m : List Nat × List Char =>
    stringifyString m.1 ++ ':' :: m.2) hsorted
  simp only [map_map, Function.comp_def, stringifyString_encode] at hrendered ⊢
  exact hrendered.symm

theorem writes_object (h : ∀ m ∈ ms, Writes m.2 (canonicalDoc m.2))
    (hlawful : (object ms).Lawful) (hplain : (object ms).Plain) :
    Writes (.object ms) (canonicalDoc (.object ms)) := by
  obtain ⟨hnames, hlawful⟩ := hlawful
  have hperm := perm_sortKeys ms
  have hwrites : ∀ m ∈ sortKeys ms, Writes m.2 (canonicalDoc m.2) :=
    fun m hm => h m (mem_sortKeys.mp hm)
  have hlawful' : MembersLawful (sortKeys ms) :=
    MembersLawful_iff.mpr fun m hm => MembersLawful_iff.mp hlawful m (mem_sortKeys.mp hm)
  have hplain' : MembersPlain (sortKeys ms) :=
    MembersPlain_iff.mpr fun m hm => MembersPlain_iff.mp hplain m (mem_sortKeys.mp hm)
  have hnodup := nodup_docMembers hlawful' hplain' ((hperm.map Prod.fst).nodup_iff.mpr hnames)
  have htext : canonicalValue (.object ms) = '{' :: [','].intercalate ((sortKeys ms).map fun m =>
      stringifyString m.1 ++ ':' :: canonicalValue m.2) ++ ['}'] := by
    rw [canonicalValue, joined, canonicalMembers_eq, sortKeys_map, map_map]
    rfl
  rw [canonicalDoc_object]
  obtain ⟨hspelled, htexts, hpaired, htidy⟩ := writes_members hwrites
  refine ⟨hspelled, ?_, hpaired, ⟨hnodup, htidy⟩, ?_, ?_, ?_⟩
  · rw [htext, Doc.text]
    exact congrArg (fun texts => '{' :: [','].intercalate texts ++ ['}']) htexts
  · rw [nodes, valueCount, sum_members (f := memberNodes) rfl fun _ _ _ => rfl,
      sum_members (f := JsValue.membersValueCount) rfl fun _ _ _ => rfl,
      ← (hperm.map fun m => m.2.valueCount).sum_eq, map_map]
    exact congrArg (1 + ·.sum) (map_congr_left fun m hm => (hwrites m hm).nodes)
  · rw [numbers, numberCount, sum_members (f := memberNumbers) rfl fun _ _ _ => rfl,
      sum_members (f := JsValue.membersNumberCount) rfl fun _ _ _ => rfl,
      ← (hperm.map fun m => m.2.numberCount).sum_eq, map_map]
    exact congrArg sum (map_congr_left fun m hm => (hwrites m hm).numbers)
  · have hkept : assignAll (ofMembers (docMembers (sortKeys ms))) =
        ofMembers (docMembers (sortKeys ms)) :=
      assignAll_of_nodup (by rw [ofMembers_names]; exact hnodup)
    have happend := appendMembers_docMembers hwrites (MembersLawful_iff.mp hlawful')
      (MembersPlain_iff.mp hplain')
    unfold docMembers at hkept happend
    simp only [ofDoc, hkept, appendExecutionJSON, happend, bind_eq_bind, bind_some]
    rw [htext, ← sortNames_written hlawful hplain]

end Members

theorem writes_canonicalDoc (hlawful : v.Lawful) (hplain : v.Plain) :
    Writes v (canonicalDoc v) := by
  induction v with
  | null => exact ⟨trivial, rfl, rfl, trivial, rfl, rfl, rfl⟩
  | bool b => exact ⟨trivial, rfl, rfl, trivial, rfl, rfl, rfl⟩
  | number x => exact writes_number hplain
  | string units => exact writes_string hlawful hplain
  | array items ih =>
    exact writes_array fun v hv =>
      ih v hv (ItemsLawful_iff.mp hlawful v hv) (ItemsPlain_iff.mp hplain v hv)
  | object ms ih =>
    exact writes_object (fun m hm => ih m hm (MembersLawful_iff.mp hlawful.2 m hm).2
      (MembersPlain_iff.mp hplain m hm).2.2) hlawful hplain
  | other => exact hplain.elim

/-! ## Inclusion -/

/-- Of a text the server wrote, the Bridge checks nothing new but its two totals. -/
theorem canonical_text_read {text : List Char} (hlawful : v.Lawful)
    (h : ExecutionValidation.canonicalExecutionJSON v = .ok text) :
    canonicalExecutionJSON (Utf8.encode text) =
      if v.valueCount ≤ maxJSONTotalNodes ∧
          v.numberCount ≤ maxJSONNumbers then some (Utf8.encode text)
      else none := by
  obtain ⟨⟨totals, hvisit⟩, hsize, rfl⟩ := ExecutionValidation.canonicalExecutionJSON_eq_ok.mp h
  have hvisited := visit_ok v 0 _ _ hvisit
  have hw := writes_canonicalDoc hlawful hvisited.plain
  have hparse : parse (canonicalValue v) = some (canonicalDoc v) := by
    rw [← hw.text]
    exact hw.spelled.parse_text
  have hescapes := escapesValid_text hparse
  rw [hw.paired] at hescapes
  have hheight := hvisited.depth
  have hcount := hvisited.count
  have hwithin := hvisited.within
  unfold maximumValues at hwithin
  unfold maximumBytes at hsize
  have hcounted := countsEntries (canonicalDoc v) 0 0 hw.tidy hheight (by omega)
  have hbounds := ExecutionRuntime.tokensWithinBounds_tokens (canonicalDoc v)
  rw [hw.nodes, hw.numbers] at hbounds
  simp only [canonicalExecutionJSON, ExecutionRuntime.executionJSONValue,
    Utf8.size_encode, Utf8.decode_encode, hescapes, ExecutionRuntime.bridgeJSONWithinResourceBounds,
    hparse, Bool.true_eq_false, false_or]
  rw [if_neg (show ¬ Utf8.size (canonicalValue v) > 512 <<< 10 by omega)]
  split
  · rename_i hrejected
    rw [if_neg, bind_eq_bind, Option.bind_none]
    rintro ⟨hnodes, hnumbers⟩
    rw [hbounds.mpr ⟨hnodes, hnumbers, by unfold maxJSONDepth; omega, hw.tidy⟩]
      at hrejected
    cases hrejected
  · rename_i haccepted
    obtain ⟨hnodes, hnumbers, -, -⟩ := hbounds.mp (by simpa using haccepted)
    rw [if_pos ⟨hnodes, hnumbers⟩]
    simp only [ExecutionRuntime.decodeSingleJSONValue, hparse, Option.map_some, hcounted, hw.append,
      bind_eq_bind, bind_some]
    rw [if_neg (show ¬ Utf8.size (canonicalValue v) > 512 <<< 10 by omega)]
    simp only [bind_some, hw.append]

/-- Canonical text is a normal form: it spells one document, which is read back from it,
and encoding what `JSON.parse` reads gives the text again. -/
theorem canonical_text_normal {v : JsValue} {text : List Char} (hlawful : v.Lawful)
    (h : ExecutionValidation.canonicalExecutionJSON v = .ok text) :
    (canonicalDoc v).text = text ∧ parse text = some (canonicalDoc v) ∧
      (jsonParse text).map canonicalValue = some text := by
  obtain ⟨⟨_, hvisit⟩, -, rfl⟩ := ExecutionValidation.canonicalExecutionJSON_eq_ok.mp h
  have hw := writes_canonicalDoc hlawful (visit_ok v 0 _ _ hvisit).plain
  have hparse := hw.spelled.parse_text
  rw [hw.text] at hparse
  have hagain := rendersAlike _ hw.paired hw.tidy _ hw.append
  exact ⟨hw.text, hparse, by simp [jsonParse, hparse, hagain]⟩

theorem canonical_text_normal_array :
    parse "[null,true]".toList = some (.array [.null, .bool true]) :=
  (canonical_text_normal (v := .array [.null, .bool true]) ⟨trivial, trivial, trivial⟩ rfl).2.1

/-! ### An array with one number too many -/

theorem byteLength_ascii {s : List Char} (h : ∀ c ∈ s, c.toNat < 0x80) :
    byteLength (encode s) = s.length := by
  induction s with
  | nil => rfl
  | cons c s ih =>
    have hc := h c (by simp)
    rw [Utf16.encode_cons, Utf16.units_bmp (by omega), List.singleton_append, byteLength.eq_def]
    simp only [isHigh_toNat, Bool.false_eq_true, if_false, if_pos hc,
      ih fun c hc => h c (by simp [hc]), List.length_cons]
    omega

theorem byteLength_index (h : index < 10000) : byteLength (unitsOf (toString index)) ≤ 4 := by
  have hdigits : (toString index).toList = Nat.toDigits 10 index := by
    rw [Nat.toString_eq_ofList_toDigits, String.toList_ofList]
  unfold unitsOf
  rw [hdigits, byteLength_ascii]
  · exact (Nat.length_toDigits_le_iff (by omega) (by omega)).mpr h
  intro c hc
  have hdigit := Nat.isDigit_of_mem_toDigits (by omega) (by omega) hc
  simp only [Char.isDigit, Bool.and_eq_true, decide_eq_true_eq] at hdigit
  have hle : c.toNat ≤ '9'.toNat := hdigit.2
  have hnine : '9'.toNat = 57 := rfl
  omega

theorem countEntry_of_le (depth : Nat) (totals : Totals) (hdepth : depth ≤ 24)
    (hcount : totals.count + 1 ≤ maximumValues) :
    countEntry depth totals = .ok ⟨totals.count + 1, totals.textSize⟩ := by
  unfold countEntry
  simp only [Transactional.require, if_pos (And.intro hcount hdepth)]
  rfl

theorem visitString_of_le (depth : Nat) (totals : Totals) (hdepth : depth ≤ 24)
    (hcount : totals.count + 1 ≤ maximumValues)
    (hbytes : totals.textSize + byteLength entry ≤ maximumBytes)
    (hformed : isWellFormed entry = true) : visitString entry depth totals =
      .ok ⟨totals.count + 1, totals.textSize + byteLength entry⟩ := by
  unfold visitString
  rw [countEntry_of_le depth totals hdepth hcount]
  simp only [Transactional.require, bind, Except.bind, if_pos hbytes, if_pos hformed]
  rfl

def zeros (n : Nat) : List JsValue := List.replicate n (.number (.finite 0))

theorem visitItems_zeros (n index : Nat) (totals : Totals) (hindex : index + n ≤ 10000)
    (hcount : totals.count + 2 * n ≤ maximumValues)
    (hbytes : totals.textSize + 4 * n ≤ maximumBytes) :
    ∃ t, visitItems (zeros n) index 1 totals = .ok t := by
  induction n generalizing index totals with
  | zero => exact ⟨totals, rfl⟩
  | succ n ih =>
    have hlength := byteLength_index (show index < 10000 by omega)
    have hformed : isWellFormed (unitsOf (toString index)) = true := by
      unfold isWellFormed unitsOf
      rw [Utf16.decode_encode]
      rfl
    have hname := visitString_of_le 1 totals (by omega) (by omega) (by omega) hformed
    rw [zeros, List.replicate_succ, visitItems]
    generalize unitsOf (toString index) = key at hlength hname ⊢
    obtain ⟨t, ht⟩ := ih (index + 1) ⟨totals.count + 1 + 1, totals.textSize + byteLength key⟩
      (by omega) (by dsimp only; omega) (by dsimp only; omega)
    have hvisit : visit (.number (.finite 0)) 1
        ⟨totals.count + 1, totals.textSize + byteLength key⟩ =
        .ok ⟨totals.count + 1 + 1, totals.textSize + byteLength key⟩ := by
      rw [visit, countEntry_of_le _ _ (by omega) (by dsimp only; omega)]
      rfl
    refine ⟨t, ?_⟩
    simp only [hname, bind, Except.bind, hvisit]
    exact ht

theorem size_joined_zeros (n : Nat) : Utf8.size (joined (canonicalItems (zeros n))) ≤ 2 * n := by
  induction n with
  | zero => decide
  | succ n ih =>
    have hzero : canonicalValue (.number (.finite 0)) = ['0'] := by decide +kernel
    cases n with
    | zero =>
      simp [zeros, canonicalItems, hzero, joined]
      decide
    | succ n =>
      simp only [zeros, List.replicate_succ, canonicalItems, hzero, joined,
        List.intercalate_cons_cons, Utf8.size_append, Utf8.size_cons, Utf8.size_nil] at ih ⊢
      have hsize : '0'.utf8Size = 1 ∧ ','.utf8Size = 1 := by decide
      omega

theorem zeros_encoded {n : Nat} (h : n ≤ 10000) :
    ExecutionValidation.canonicalExecutionJSON (.array (zeros n)) =
      .ok (canonicalValue (.array (zeros n))) := by
  refine ExecutionValidation.canonicalExecutionJSON_eq_ok.mpr ⟨?_, ?_, rfl⟩
  · obtain ⟨t, ht⟩ := visitItems_zeros n 0 ⟨1, 0⟩ (by omega)
      (by dsimp only [maximumValues]; omega)
      (by dsimp only [maximumBytes]; omega)
    refine ⟨t, ?_⟩
    rw [visit, countEntry_of_le _ _ (by omega) (by decide)]
    simp only [Transactional.require, bind, Except.bind]
    rw [if_pos]
    · exact ht
    · rw [zeros, List.length_replicate, maximumValues]
      omega
  · have hsize := size_joined_zeros n
    simp only [canonicalValue, Utf8.size_append, Utf8.size_cons, Utf8.size_nil]
    have hbracket : '['.utf8Size = 1 ∧ ']'.utf8Size = 1 := by decide
    unfold maximumBytes
    omega

theorem numberCount_zeros (n : Nat) : itemsNumberCount (zeros n) = n := by
  induction n with
  | zero => rfl
  | succ n ih =>
    rw [zeros, List.replicate_succ, itemsNumberCount, numberCount]
    rw [zeros] at ih
    omega

theorem zeros_lawful (n : Nat) : ItemsLawful (zeros n) := by
  rw [ItemsLawful_iff]
  intro v hv
  rw [List.eq_of_mem_replicate hv]
  trivial

end ConveneWire.Contracts
