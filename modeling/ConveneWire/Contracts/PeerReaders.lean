import ConveneWire.Contracts.ExecutionTwins
import ConveneWire.Contracts.PeerJson

/-! # The two Peer JSON readers accept the same texts

Each reader is the grammar of `Json.parse` followed by one check on the document,
`accepts`. The TypeScript reader goes wrong as soon as it meets what the check
refuses, the Go reader only after the whole text was found valid. -/

namespace ConveneWire.Contracts

open Json
open PeerJson (unicode scanString primitive isFinite readItems readMembers peerJsonMaximumDepth)
open PeerContracts
open JsValue (ofMembers ofDoc ofDocs)
open Utf16 (isHigh isLow encode)
open Option (isSome_map isSome_none map_eq_some_iff bind_eq_bind map_some bind_some getD_some)

/-! ## What is checked of a document -/

def finiteLit (lit : NumberLit) : Bool := isFinite (.number (Binary64.round lit.negative lit.magnitude))

mutual

/-- Depth, paired surrogates, distinct names and finite numbers, of a value at some depth. -/
def accepts : Nat → Doc → Bool
  | depth, .null | depth, .bool _ => depth ≤ peerJsonMaximumDepth
  | depth, .number lit => depth ≤ peerJsonMaximumDepth && finiteLit lit
  | depth, .string items => depth ≤ peerJsonMaximumDepth && paired items
  | depth, .array items => depth ≤ peerJsonMaximumDepth && acceptsItems (depth + 1) items
  | depth, .object ms => depth ≤ peerJsonMaximumDepth && acceptsMembers (depth + 1) [] ms

def acceptsItems : Nat → List Doc → Bool
  | _, [] => true
  | depth, d :: ds => accepts depth d && acceptsItems depth ds

/-- With the names that were there before. -/
def acceptsMembers : Nat → List (List Nat) → List (List StrItem × Doc) → Bool
  | _, _, [] => true
  | depth, names, (key, d) :: ms =>
    paired key && decide (units key ∉ names) && accepts depth d &&
      acceptsMembers depth (names ++ [units key]) ms

end

variable {depth : Nat} {ms : List (List StrItem × Doc)} {names : List (List Nat)} {c : Char}

theorem acceptsMembers_nodup (hnames : names.Nodup)
    (h : acceptsMembers depth names ms = true) : (names ++ (ofMembers ms).map Prod.fst).Nodup := by
  induction ms generalizing names with
  | nil => simpa [ofMembers] using hnames
  | cons m ms ih =>
    obtain ⟨key, d⟩ := m
    simp only [acceptsMembers, Bool.and_eq_true, decide_eq_true_eq] at h
    have hnew : (names ++ [units key]).Nodup := by
      rw [List.nodup_append]
      refine ⟨hnames, List.nodup_singleton _, fun a ha b hb => ?_⟩
      rw [List.mem_singleton.mp hb]
      rintro rfl
      exact h.1.1.2 ha
    have hrest := ih hnew h.2
    rwa [List.append_assoc] at hrest

/-- A document that passes has every member it names. -/
theorem assignAll_of_accepts (h : acceptsMembers depth [] ms = true) :
    assignAll (ofMembers ms) = ofMembers ms :=
  assignAll_of_nodup (by simpa using acceptsMembers_nodup List.nodup_nil h)

/-! ## Strings in TypeScript -/

theorem unicode_eq (us : List Nat) : unicode us = Utf16.isWellFormed us := by
  have hhigh : ∀ u, isHigh u = true ↔ 0xd800 ≤ u ∧ u ≤ 0xdbff := by simp [isHigh]
  have hlow : ∀ u, isLow u = true ↔ 0xdc00 ≤ u ∧ u ≤ 0xdfff := by simp [isLow]
  unfold Utf16.isWellFormed
  fun_induction unicode us with
  | case1 => rfl
  | case2 unit h next rest h' ih =>
    rw [Utf16.decode.eq_def]
    simp only [(hhigh unit).mpr h, (hlow next).mpr h', if_true, isSome_map, ih]
  | case3 unit h next rest h' =>
    rw [Utf16.decode.eq_def]
    simp only [(hhigh unit).mpr h, if_true, if_neg (mt (hlow next).mp h'), isSome_none]
  | case4 unit h =>
    rw [Utf16.decode.eq_def]
    simp only [(hhigh unit).mpr h, if_true, isSome_none]
  | case5 unit rest h h' =>
    rw [Utf16.decode.eq_def]
    simp only [if_neg (mt (hhigh unit).mp h), (hlow unit).mpr h', if_true, isSome_none]
  | case6 unit rest h h' ih =>
    rw [Utf16.decode.eq_def]
    simp only [if_neg (mt (hhigh unit).mp h), if_neg (mt (hlow unit).mp h'), isSome_map, ih]

theorem hexDigit_ne {n : Fin 16} (h : hexDigit c = some n) : c ≠ '"' ∧ c ≠ '\\' := by
  constructor
  · rintro rfl
    cases h
  · rintro rfl
    cases h

variable {text : List Char}

theorem scanString_char (h : c ≠ '"' ∧ c ≠ '\\') :
    scanString (c :: text) = (scanString text).map fun (body, rest) => (c :: body, rest) := by
  rw [PeerJson.scanString.eq_def]
  simp only [if_neg h.1, if_neg h.2]

theorem scanString_escape {e : Char} :
    scanString ('\\' :: e :: text) =
      (scanString text).map fun (body, rest) => ('\\' :: e :: body, rest) := by
  rw [PeerJson.scanString.eq_def]
  simp only [if_neg (show ¬ '\\' = '"' by decide), if_true]

variable {rest body : List Char} {d : Doc} {items : List StrItem}

theorem scanString_text (h : scanString text = some (body, rest)) : text = body ++ rest := by
  fun_induction scanString text generalizing body with
  | case1 => cases h
  | case2 => cases h; rfl
  | case3 => cases h
  | case4 e rest' _ ih =>
    obtain ⟨⟨body', rest''⟩, hscan, heq⟩ := map_eq_some_iff.mp h
    cases heq
    rw [ih hscan]
    rfl
  | case5 c rest' _ _ ih =>
    obtain ⟨⟨body', rest''⟩, hscan, heq⟩ := map_eq_some_iff.mp h
    cases heq
    rw [ih hscan]
    rfl

theorem hexDigit_of_hexUnit {a b d : Char} {u : Fin 0x10000} (h : hexUnit a b c d = some u) :
    (∃ n, hexDigit a = some n) ∧ (∃ n, hexDigit b = some n) ∧ (∃ n, hexDigit c = some n) ∧
      ∃ n, hexDigit d = some n := by
  simp only [hexUnit, bind_eq_bind, Option.bind_eq_some_iff] at h
  obtain ⟨na, ha, nb, hb, nc, hc, nd, hd, -⟩ := h
  exact ⟨⟨na, ha⟩, ⟨nb, hb⟩, ⟨nc, hc⟩, ⟨nd, hd⟩⟩

/-- The loop of `string` finds the end of a string. -/
theorem scanString_of_text (h : StringText text items rest) :
    ∃ body, scanString text = some (body, rest) ∧ StringText body items [] := by
  induction h with
  | @close rest => exact ⟨['"'], by rw [PeerJson.scanString.eq_def]; simp, .close⟩
  | unit hex more ih =>
    obtain ⟨body, hscan, htext⟩ := ih
    obtain ⟨⟨_, ha⟩, ⟨_, hb⟩, ⟨_, hc⟩, ⟨_, hd⟩⟩ := hexDigit_of_hexUnit hex
    rw [scanString_escape, scanString_char (hexDigit_ne ha), scanString_char (hexDigit_ne hb),
      scanString_char (hexDigit_ne hc), scanString_char (hexDigit_ne hd), hscan]
    exact ⟨_, rfl, .unit hex htext⟩
  | short escape more ih =>
    obtain ⟨body, hscan, htext⟩ := ih
    rw [scanString_escape, hscan]
    exact ⟨_, rfl, .short escape htext⟩
  | char quote backslash control more ih =>
    obtain ⟨body, hscan, htext⟩ := ih
    rw [scanString_char ⟨quote, backslash⟩, hscan]
    exact ⟨_, rfl, .char quote backslash control htext⟩

theorem parse_quoted (h : StringText body items []) : parse ('"' :: body) = some (.string items) :=
  parse_eq_some.mpr ⟨[], .string rfl (lexString_eq_some.mpr h), rfl⟩

theorem stringText_of_parse (h : parse ('"' :: body) = some d) :
    ∃ items rest, StringText body items rest := by
  obtain ⟨rest, hreads, -⟩ := parse_eq_some.mp h
  have hvalue := hreads.parses _ le_rfl
  have hlead : lead ('"' :: body) = .string body := rfl
  rw [value] at hvalue
  simp only [hlead] at hvalue
  obtain ⟨⟨items, rest'⟩, hlex, -⟩ := map_eq_some_iff.mp hvalue
  exact ⟨items, rest', StringText.of_lexString hlex⟩

/-- `string` takes the strings of the grammar that have no stray surrogate. -/
theorem string_eq (text : List Char) :
    PeerJson.string text = (lexString text).bind fun p =>
      if paired p.1 then some (units p.1, p.2) else none := by
  unfold PeerJson.string
  cases hlex : lexString text with
  | some p =>
    obtain ⟨items, rest⟩ := p
    obtain ⟨body, hscan, hbody⟩ := scanString_of_text (StringText.of_lexString hlex)
    simp only [hscan, jsonParse, parse_quoted hbody, ofDoc, map_some,
      bind_eq_bind, bind_some, unicode_eq, isWellFormed_units]
  | none =>
    cases hscan : scanString text with
    | none => rfl
    | some p =>
      obtain ⟨body, rest⟩ := p
      have hnone : parse ('"' :: body) = none := by
        by_contra hsome
        obtain ⟨d, hd⟩ := Option.ne_none_iff_exists'.mp hsome
        obtain ⟨items, more, htext⟩ := stringText_of_parse hd
        have hwhole := lexString_eq_some.mpr (htext.append rest)
        rw [← scanString_text hscan, hlex] at hwhole
        cases hwhole
      simp only [jsonParse, hnone, Option.map_none, bind_eq_bind, bind_some, Option.bind_none]

/-! ## The TypeScript reader -/

theorem accepts_depth (h : accepts depth d = true) : depth ≤ peerJsonMaximumDepth := by
  cases d <;> simp only [accepts, Bool.and_eq_true, decide_eq_true_eq] at h
  case null | bool => exact h
  all_goals exact h.1

theorem accepts_scalar (h : scalar text = some (d, rest))
    (hdepth : depth ≤ peerJsonMaximumDepth) : accepts depth d = isFinite (ofDoc d) := by
  unfold scalar at h
  split at h
  · cases h
    simp [accepts, hdepth, ofDoc, isFinite]
  · cases h
    simp [accepts, hdepth, ofDoc, isFinite]
  · cases h
    simp [accepts, hdepth, ofDoc, isFinite]
  · obtain ⟨⟨lit, after⟩, -, heq⟩ := map_eq_some_iff.mp h
    cases heq
    simp [accepts, hdepth, ofDoc, finiteLit]

theorem primitive_eq (hdepth : depth ≤ peerJsonMaximumDepth) (text : List Char) :
    primitive text = (scalar text).bind fun p =>
      if accepts depth p.1 then some (ofDoc p.1, p.2) else none := by
  unfold primitive
  cases hscalar : scalar text with
  | none => rfl
  | some p =>
    obtain ⟨d, rest⟩ := p
    simp only [bind_eq_bind, bind_some, accepts_scalar hscalar hdepth]

/-- Each function of the reader is the matching one of the grammar and the check. The check may
refuse earlier than the grammar would, which comes to the same. -/
theorem read_eq (fuel : Nat) :
    (∀ depth text, PeerJson.read fuel depth text = (value fuel text).bind fun p =>
      if accepts depth p.1 then some (ofDoc p.1, p.2) else none) ∧
    (∀ depth text, readItems fuel depth text = (elements fuel text).bind fun p =>
      if acceptsItems (depth + 1) p.1 then some (ofDocs p.1, p.2) else none) ∧
    (∀ depth result text, readMembers fuel depth result text = (members fuel text).bind fun p =>
      if acceptsMembers (depth + 1) (result.map Prod.fst) p.1 then
        some (result ++ ofMembers p.1, p.2) else none) := by
  induction fuel with
  | zero => exact ⟨fun _ _ => rfl, fun _ _ => rfl, fun _ _ _ => rfl⟩
  | succ fuel ih =>
    obtain ⟨hread, hitems, hmembers⟩ := ih
    refine ⟨fun depth text => ?_, fun depth text => ?_, fun depth result text => ?_⟩
    · rw [PeerJson.read, value]
      split
      · rename_i hdeep
        symm
        rw [Option.bind_eq_none_iff]
        intro p _
        rw [if_neg fun h => absurd (accepts_depth h) (by omega)]
      rename_i hshallow
      have hdepth : depth ≤ peerJsonMaximumDepth := by omega
      cases lead text with
      | string rest =>
        simp only [string_eq]
        cases lexString rest with
        | none => rfl
        | some p =>
          simp only [bind_some, map_some, accepts, hdepth, decide_true, Bool.true_and]
          split <;> rfl
      | array rest =>
        dsimp only
        cases expect ']' rest with
        | some rest =>
          simp [accepts, acceptsItems, hdepth, ofDoc, ofDocs]
        | none =>
          simp only [hitems]
          cases elements fuel rest with
          | none => rfl
          | some p =>
            simp only [bind_some, map_some, accepts, hdepth, decide_true, Bool.true_and]
            split <;> rfl
      | object rest =>
        dsimp only
        cases expect '}' rest with
        | some rest =>
          simp [accepts, acceptsMembers, hdepth, ofDoc, ofMembers, assignAll]
        | none =>
          simp only [hmembers]
          cases members fuel rest with
          | none => rfl
          | some p =>
            simp only [bind_some, map_some, accepts, hdepth, decide_true,
              Bool.true_and, List.map_nil, List.nil_append]
            split
            · rename_i haccepts
              simp only [map_some, ofDoc, assignAll_of_accepts haccepts]
            · rfl
      | scalar found => exact primitive_eq hdepth found
    · rw [readItems, elements]
      simp only [hread, bind_eq_bind]
      cases value fuel text with
      | none => rfl
      | some p =>
        obtain ⟨d, after⟩ := p
        simp only [bind_some]
        cases hclose : expect ']' after with
        | some last =>
          cases haccepts : accepts (depth + 1) d <;>
            simp [hclose, acceptsItems, haccepts, ofDocs]
        | none =>
          cases hcomma : expect ',' after with
          | none => cases accepts (depth + 1) d <;> simp [hclose, hcomma]
          | some next =>
            cases helements : elements fuel next with
            | none => cases accepts (depth + 1) d <;> simp [hclose, hcomma, hitems, helements]
            | some p =>
              cases haccepts : accepts (depth + 1) d with
              | false => simp [helements, acceptsItems, haccepts]
              | true =>
                simp only [if_true, bind_some, hclose, hcomma, hitems, helements,
                  acceptsItems, haccepts, Bool.true_and]
                split <;> rfl
    · rw [readMembers, members, name]
      simp only [string_eq, hread, bind_eq_bind, Option.bind_assoc]
      cases expect '"' text with
      | none => rfl
      | some quoted =>
        simp only [bind_some]
        cases lexString quoted with
        | none => rfl
        | some p =>
          obtain ⟨key, colon⟩ := p
          simp only [bind_some]
          cases hcolon : expect ':' colon with
          | none => cases paired key <;> simp [hcolon]
          | some found =>
            simp only [bind_some]
            cases hvalue : value fuel found with
            | none => cases paired key <;> simp [hcolon, hvalue]
            | some p =>
              obtain ⟨d, after⟩ := p
              simp only [bind_some]
              -- What the check says of this member decides, whatever follows it.
              cases hmember : paired key && decide (units key ∉ result.map Prod.fst) &&
                  accepts (depth + 1) d with
              | false =>
                refine Eq.trans (b := none) ?_ (Eq.symm ?_)
                · cases hpaired : paired key with
                  | false => simp
                  | true =>
                    by_cases hold : units key ∈ result.map Prod.fst
                    · simp [hcolon, hold]
                    · have hrefused : accepts (depth + 1) d = false := by
                        simpa [hpaired, hold] using hmember
                      simp [hcolon, hold, hvalue, hrefused]
                · have hrefused : ∀ ms, acceptsMembers (depth + 1) (result.map Prod.fst)
                      ((key, d) :: ms) = false := by
                    intro ms
                    rw [acceptsMembers, hmember, Bool.false_and]
                  cases hclose : expect '}' after with
                  | some last => simp [hrefused]
                  | none =>
                    cases hcomma : expect ',' after with
                    | none => simp
                    | some next => cases hnext : members fuel next <;> simp [hnext, hrefused]
              | true =>
                simp only [Bool.and_eq_true, decide_eq_true_eq] at hmember
                obtain ⟨⟨hpaired, hnew⟩, haccepts⟩ := hmember
                simp only [hpaired, if_true, bind_some, hcolon, if_neg hnew, hvalue, haccepts]
                cases hclose : expect '}' after with
                | some last =>
                  simp [acceptsMembers, hpaired, hnew, haccepts, ofMembers]
                | none =>
                  dsimp only
                  cases expect ',' after with
                  | none => rfl
                  | some next =>
                    simp only [bind_some, hmembers]
                    cases members fuel next with
                    | none => rfl
                    | some p =>
                      simp only [bind_some, acceptsMembers, hpaired, haccepts,
                        Bool.true_and, decide_eq_true hnew, List.map_append, List.map_cons,
                        List.map_nil, ofMembers, List.append_assoc, List.singleton_append]

/-- `parsePeerJson` is the grammar with one check. -/
theorem parsePeerJson_eq (input : ByteArray) :
    PeerJson.parsePeerJson input =
      if input.size > PeerJson.peerJsonMaximumBytes then none
      else ((Utf8.decode input).bind parse).bind fun d =>
        if accepts 0 d then some (ofDoc d) else none := by
  unfold PeerJson.parsePeerJson
  split
  · rfl
  rename_i hsize
  cases hdecode : Utf8.decode input with
  | none => rfl
  | some source =>
    have hsource : Utf8.size source = input.size := by
      rw [Utf8.decode_eq_some.mp hdecode, Utf8.size_encode]
    dsimp only
    rw [hsource, if_neg hsize, (read_eq _).1]
    simp only [bind_some, parse, bind_eq_bind]
    cases value (2 * source.length + 1) source with
    | none => rfl
    | some p =>
      by_cases hblank : skipBlank p.2 = []
      · cases haccepts : accepts 0 p.1 <;> simp [hblank, haccepts]
      · cases haccepts : accepts 0 p.1 <;> simp [hblank, haccepts]

/-! ## The Go reader -/

mutual

/-- What `ParseJSON` returns for a document it accepts: numbers are parsed. -/
def decoded : Doc → GoValue
  | .null => .nil
  | .bool b => .bool b
  | .number lit => .float (Binary64.round lit.negative lit.magnitude)
  | .string items => .string (runes items)
  | .array items => .slice (decodedItems items)
  | .object ms => .map (decodedMembers ms)

def decodedItems : List Doc → List GoValue
  | [] => []
  | d :: ds => decoded d :: decodedItems ds

def decodedMembers : List (List StrItem × Doc) → List (List Char × GoValue)
  | [] => []
  | (key, d) :: ms => (runes key, decoded d) :: decodedMembers ms

end

/-- The first token of a value opens or is the value. -/
theorem tokens_eq_cons (d : Doc) :
    ∃ token rest, tokens d = token :: rest ∧ token ≠ .closeArray ∧ token ≠ .closeObject := by
  cases d with
  | null | bool | number | string => exact ⟨_, _, rfl, nofun, nofun⟩
  | array | object => exact ⟨_, _, rfl, nofun, nofun⟩

/-- The reader on the tokens of one value, with fuel enough for them. -/
def ReadsTokens (d : Doc) : Prop :=
  ∀ fuel depth rest, d.paired = true → 2 * (tokens d).length ≤ fuel →
    PeerContracts.read fuel depth (tokens d ++ rest) =
      if accepts depth d then some (decoded d, rest) else none

theorem readArray_eq {items : List Doc} (h : ∀ d ∈ items, ReadsTokens d)
    (hpaired : Doc.itemsPaired items = true) (fuel depth : Nat) (rest : List Token)
    (hfuel : 2 * (itemTokens items).length + 1 ≤ fuel) :
    readArray fuel depth (itemTokens items ++ .closeArray :: rest) =
      if acceptsItems (depth + 1) items then some (decodedItems items, rest) else none := by
  induction items generalizing fuel with
  | nil =>
    obtain ⟨fuel, rfl⟩ := Nat.exists_eq_add_of_le' (show 1 ≤ fuel by omega)
    rfl
  | cons d ds ih =>
    obtain ⟨fuel, rfl⟩ := Nat.exists_eq_add_of_le' (show 1 ≤ fuel by omega)
    simp only [Doc.itemsPaired, Bool.and_eq_true] at hpaired
    simp only [itemTokens, List.length_append] at hfuel
    obtain ⟨token, tail, htokens, hclose, -⟩ := tokens_eq_cons d
    have hpos : 1 ≤ (tokens d).length := by simp [htokens]
    have hd := h d (by simp) fuel (depth + 1) (itemTokens ds ++ .closeArray :: rest) hpaired.1
      (by omega)
    have hds := ih (fun d hd => h d (by simp [hd])) hpaired.2 fuel (by omega)
    have hstep : readArray (fuel + 1) depth (tokens d ++ (itemTokens ds ++ .closeArray :: rest)) =
          (read fuel (depth + 1) (tokens d ++ (itemTokens ds ++ .closeArray :: rest))).bind fun p =>
            (readArray fuel depth p.2).bind fun q => some (p.1 :: q.1, q.2) := by
      rw [htokens, readArray]
      · rfl
      · rintro rest' heq
        exact hclose (List.cons.inj heq).1
    rw [itemTokens, List.append_assoc, hstep, hd]
    cases haccepts : accepts (depth + 1) d with
    | false => simp [acceptsItems, haccepts]
    | true =>
      simp only [if_true, bind_some, hds, acceptsItems, haccepts, Bool.true_and]
      split <;> rfl

theorem readObject_eq (h : ∀ m ∈ ms, ReadsTokens m.2) (hpaired : Doc.membersPaired ms = true)
    (fuel depth : Nat) (object : List (List Char × GoValue)) (rest : List Token)
    (hfuel : 2 * (memberTokens ms).length + 1 ≤ fuel) :
    readObject fuel depth object (memberTokens ms ++ .closeObject :: rest) =
      if acceptsMembers (depth + 1) (object.map fun m => encode m.1) ms then
        some (object ++ decodedMembers ms, rest) else none := by
  induction ms generalizing fuel object with
  | nil =>
    obtain ⟨fuel, rfl⟩ := Nat.exists_eq_add_of_le' (show 1 ≤ fuel by omega)
    simp [memberTokens, readObject, acceptsMembers, decodedMembers]
  | cons m ms ih =>
    obtain ⟨key, d⟩ := m
    obtain ⟨fuel, rfl⟩ := Nat.exists_eq_add_of_le' (show 1 ≤ fuel by omega)
    simp only [Doc.membersPaired, Bool.and_eq_true] at hpaired
    simp only [memberTokens, List.length_cons, List.length_append] at hfuel
    have hd : ReadsTokens d := h (key, d) (by simp)
    replace hd := hd fuel (depth + 1) (memberTokens ms ++ .closeObject :: rest) hpaired.1.2
      (by omega)
    have hms := ih (fun m hm => h m (by simp [hm])) hpaired.2 fuel
      (object ++ [(runes key, decoded d)]) (by omega)
    -- Names differ as text when they differ in their code units.
    have hname : runes key ∈ object.map Prod.fst ↔ units key ∈ object.map fun m => encode m.1 := by
      rw [← encode_runes hpaired.1.1]
      simp only [List.mem_map]
      constructor
      · rintro ⟨m, hm, hkey⟩
        exact ⟨m, hm, by rw [hkey]⟩
      · rintro ⟨m, hm, hkey⟩
        exact ⟨m, hm, Utf16.encode_injective hkey⟩
    rw [memberTokens, List.cons_append, List.append_assoc, readObject]
    by_cases hold : runes key ∈ object.map Prod.fst
    · rw [if_pos hold, acceptsMembers, if_neg (by simp [hname.mp hold])]
    rw [if_neg hold, hd]
    have hnew : decide (units key ∉ object.map fun m => encode m.1) = true :=
      decide_eq_true (mt hname.mpr hold)
    cases haccepts : accepts (depth + 1) d with
    | false => simp [acceptsMembers, haccepts]
    | true =>
      simp only [if_true, bind_eq_bind, bind_some, hms, acceptsMembers, haccepts,
        hnew, hpaired.1.1, Bool.true_and, List.map_append, List.map_cons, List.map_nil,
        encode_runes hpaired.1.1, decodedMembers, List.append_assoc, List.singleton_append]

/-- Below the depth limit neither side looks at the value. -/
theorem ReadsTokens.of_shallow
    (h : ∀ fuel depth rest, depth ≤ peerJsonMaximumDepth → d.paired = true →
      2 * (tokens d).length ≤ fuel + 1 →
      read (fuel + 1) depth (tokens d ++ rest) =
        if accepts depth d then some (decoded d, rest) else none) : ReadsTokens d := by
  intro fuel depth rest hpaired hfuel
  obtain ⟨token, tail, htokens, -⟩ := tokens_eq_cons d
  have hpos : 1 ≤ (tokens d).length := by simp [htokens]
  obtain ⟨fuel, rfl⟩ := Nat.exists_eq_add_of_le' (show 1 ≤ fuel by omega)
  by_cases hdepth : depth ≤ peerJsonMaximumDepth
  · exact h fuel depth rest hdepth hpaired hfuel
  · rw [read.eq_def, if_neg (mt accepts_depth hdepth)]
    exact if_pos (Nat.lt_of_not_le hdepth)

theorem readsTokens (d : Doc) : ReadsTokens d := by
  induction d using Doc.induct with
  | null =>
    refine .of_shallow fun fuel depth rest hdepth _ _ => ?_
    rw [accepts, if_pos (decide_eq_true hdepth), read.eq_def]
    exact if_neg (Nat.not_lt.mpr hdepth)
  | bool b =>
    refine .of_shallow fun fuel depth rest hdepth _ _ => ?_
    rw [accepts, if_pos (decide_eq_true hdepth), read.eq_def]
    exact if_neg (Nat.not_lt.mpr hdepth)
  | string items =>
    refine .of_shallow fun fuel depth rest hdepth hpaired _ => ?_
    rw [accepts, show paired items = true from hpaired, Bool.and_true,
      if_pos (decide_eq_true hdepth), read.eq_def]
    exact if_neg (Nat.not_lt.mpr hdepth)
  | number lit =>
    refine .of_shallow fun fuel depth rest hdepth _ _ => ?_
    rw [accepts, decide_eq_true hdepth, Bool.true_and, finiteLit, read.eq_def]
    refine (if_neg (Nat.not_lt.mpr hdepth)).trans ?_
    simp only [tokens, List.singleton_append, decoded]
    cases Binary64.round lit.negative lit.magnitude <;> rfl
  | array items ih =>
    refine .of_shallow fun fuel depth rest hdepth hpaired hfuel => ?_
    simp only [tokens, List.length_cons, List.length_append, List.length_nil] at hfuel
    have hitems := readArray_eq ih hpaired fuel depth rest (by omega)
    rw [accepts, decide_eq_true hdepth, Bool.true_and, read.eq_def]
    refine (if_neg (Nat.not_lt.mpr hdepth)).trans ?_
    simp only [tokens, List.cons_append, List.append_assoc, List.nil_append, hitems]
    split <;> rfl
  | object ms ih =>
    refine .of_shallow fun fuel depth rest hdepth hpaired hfuel => ?_
    simp only [tokens, List.length_cons, List.length_append, List.length_nil] at hfuel
    have hmembers := readObject_eq ih hpaired fuel depth [] rest (by omega)
    rw [accepts, decide_eq_true hdepth, Bool.true_and, read.eq_def]
    refine (if_neg (Nat.not_lt.mpr hdepth)).trans ?_
    simp only [tokens, List.cons_append, List.append_assoc, List.nil_append, hmembers, List.map_nil]
    split <;> rfl

/-! ### Escapes -/

/-- The loop of `ParseJSON` before the decoder looks for stray surrogates. -/
theorem escapeScan_escapesPaired : EscapeScan (escapesPaired true) (escapesPaired false) where
  finish := rfl
  plain c text hc := by
    rw [escapesPaired.eq_def]
    simp only [beq_eq_false_iff_ne.mpr hc]
  quote text := by
    rw [escapesPaired.eq_def]
    simp
  close text := by
    rw [escapesPaired.eq_def]
    simp
  char c text hquote hback _ := by
    rw [escapesPaired.eq_def]
    simp [hquote, hback]
  short letter e text escape := by
    rw [escapesPaired.eq_def]
    have hu : letter ≠ 'u' := by rintro rfl; cases escape
    simp only [ne_eq, not_true_eq_false, if_false, if_neg (show ¬ '\\' = '"' by decide)]
    split
    · rename_i heq
      cases heq
      exact absurd rfl hu
    · rename_i heq
      cases heq
      rfl
    · rename_i heq
      cases heq
  pair text hex hhigh hex' := by
    rw [escapesPaired.eq_def]
    simp only [isHigh, Bool.and_eq_true, decide_eq_true_eq] at hhigh
    simp only [hex, hex', hhigh, and_self, if_true, ne_eq, not_true_eq_false, if_false,
      if_neg (show ¬ '\\' = '"' by decide), map_some, getD_some, isLow]
    split
    · rename_i hout
      symm
      simp only [Bool.and_eq_false_iff, decide_eq_false_iff_not]
      omega
    · rename_i hin
      simp only [not_or, not_lt, gt_iff_lt] at hin
      simp [hin.1, hin.2]
  lone text hex hhigh hnot := by
    rw [escapesPaired.eq_def]
    simp only [isHigh, Bool.and_eq_true, decide_eq_true_eq] at hhigh
    simp only [hex, hhigh, and_self, if_true, ne_eq, not_true_eq_false, if_false,
      if_neg (show ¬ '\\' = '"' by decide), map_some, getD_some]
    split
    · exact absurd rfl (hnot _)
    · rfl
  other {_ _ _ _ u} text hex hhigh := by
    rw [escapesPaired.eq_def]
    simp only [isHigh, Bool.and_eq_false_iff, decide_eq_false_iff_not, ← not_and_or] at hhigh
    simp only [hex, hhigh, ne_eq, not_true_eq_false, if_false,
      if_neg (show ¬ '\\' = '"' by decide), map_some, getD_some]
    split
    · rename_i hlow
      simp [isLow, hlow.1, hlow.2]
    rename_i hlow
    have hnot : isLow u = false := by
      simpa only [isLow, Bool.and_eq_false_iff, decide_eq_false_iff_not, ← not_and_or]
        using hlow
    rw [hnot]
    rfl

theorem itemsPaired_of_accepts {items : List Doc}
    (h : ∀ d ∈ items, ∀ depth, accepts depth d = true → d.paired = true)
    (haccepts : acceptsItems depth items = true) : Doc.itemsPaired items = true := by
  induction items with
  | nil => rfl
  | cons d ds ih =>
    simp only [acceptsItems, Bool.and_eq_true] at haccepts
    rw [Doc.itemsPaired, h d (by simp) depth haccepts.1,
      ih (fun d hd => h d (by simp [hd])) haccepts.2, Bool.and_self]

theorem membersPaired_of_accepts
    (h : ∀ m ∈ ms, ∀ depth, accepts depth m.2 = true → m.2.paired = true)
    (haccepts : acceptsMembers depth names ms = true) : Doc.membersPaired ms = true := by
  induction ms generalizing names with
  | nil => rfl
  | cons m ms ih =>
    obtain ⟨key, d⟩ := m
    simp only [acceptsMembers, Bool.and_eq_true] at haccepts
    have hd : d.paired = true := h (key, d) (by simp) depth haccepts.1.2
    rw [Doc.membersPaired, haccepts.1.1.1, hd, ih (fun m hm => h m (by simp [hm])) haccepts.2,
      Bool.and_self, Bool.and_self]

theorem paired_of_accepts (d : Doc) : ∀ depth, accepts depth d = true → d.paired = true := by
  induction d using Doc.induct with
  | null | bool | number => exact fun _ _ => rfl
  | string items =>
    intro depth h
    exact (Bool.and_eq_true_iff.mp h).2
  | array items ih =>
    intro depth h
    exact itemsPaired_of_accepts ih (Bool.and_eq_true_iff.mp h).2
  | object ms ih =>
    intro depth h
    exact membersPaired_of_accepts ih (Bool.and_eq_true_iff.mp h).2

/-- `ParseJSON` is the same grammar with the same check. -/
theorem parseJSON_eq (data : ByteArray) :
    parseJSON data =
      if data.size > maximumJSONBytes then none
      else ((Utf8.decode data).bind parse).bind fun d =>
        if accepts 0 d then some (decoded d) else none := by
  unfold parseJSON
  split
  · rfl
  cases Utf8.decode data with
  | none => rfl
  | some text =>
    dsimp only
    rw [bind_some]
    cases hparse : parse text with
    | none => rfl
    | some d =>
      have hread := readsTokens d (2 * (tokens d).length + 1) 0 []
      rw [List.append_nil] at hread
      dsimp only
      rw [bind_some, escapeScan_escapesPaired.parse hparse]
      cases hpaired : d.paired with
      | false =>
        rw [if_pos rfl, if_neg]
        intro haccepts
        rw [paired_of_accepts d 0 haccepts] at hpaired
        cases hpaired
      | true =>
        rw [if_neg (by decide), hread hpaired (by omega)]
        cases accepts 0 d <;> rfl

end ConveneWire.Contracts
