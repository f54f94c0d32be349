import Mathlib.Data.List.Lex
import ConveneWire.Contracts.Values
import ConveneWire.Lib.Program

/-! # Canonical execution JSON, twice

`canonicalExecutionJSON` of `execution-validation.mjs` and its Go twin
`CanonicalExecutionJSON`, with the checks each makes first. -/

namespace ConveneWire.Contracts

open Json
open Transactional (require bind_eq_ok require_eq_ok)

/-! ## TypeScript -/

namespace ExecutionValidation

def maximumBytes : Nat := 512 * 1024

def maximumValues : Nat := 30000

/-- The two running totals of `assertPlainJSON`. -/
structure Totals where
  count : Nat
  textSize : Nat
  deriving DecidableEq, Repr

/-- The first line of `visit`: the entry is counted. -/
def countEntry (depth : Nat) (totals : Totals) : Except String Totals := do
  let totals := { totals with count := totals.count + 1 }
  require (totals.count ≤ maximumValues ∧ depth ≤ 24) "PLAN_RESOURCE_LIMIT"
  pure totals

/-- `visit` of a string, which is also how names of properties are visited. -/
def visitString (entry : List Nat) (depth : Nat) (totals : Totals) : Except String Totals := do
  let totals ← countEntry depth totals
  let totals := { totals with textSize := totals.textSize + byteLength entry }
  require (totals.textSize ≤ maximumBytes) "PLAN_RESOURCE_LIMIT"
  require (Utf16.isWellFormed entry) "PLAN_INVALID_UNICODE"
  pure totals

def unitsOf (text : String) : List Nat := Utf16.encode text.toList

/-- Names that would reach a prototype. -/
def reservedKeys : List (List Nat) :=
  [unitsOf "__proto__", unitsOf "constructor", unitsOf "prototype"]

mutual

/-- `visit` inside `assertPlainJSON`. -/
def visit : JsValue → Nat → Totals → Except String Totals
  | .null, depth, totals | .bool _, depth, totals => countEntry depth totals
  | .number x, depth, totals => do
    let totals ← countEntry depth totals
    require x.safeInteger?.isSome "PLAN_NON_JSON_VALUE"
    pure totals
  | .string entry, depth, totals => visitString entry depth totals
  | .array items, depth, totals => do
    let totals ← countEntry depth totals
    require (items.length ≤ maximumValues) "PLAN_RESOURCE_LIMIT"
    visitItems items 0 (depth + 1) totals
  | .object members, depth, totals => do
    let totals ← countEntry depth totals
    visitMembers members (depth + 1) totals
  | .other, depth, totals => do
    let _ ← countEntry depth totals
    .error "PLAN_NON_JSON_VALUE"

/-- The index properties of an array are visited like the names of an object. -/
def visitItems : List JsValue → Nat → Nat → Totals → Except String Totals
  | [], _, _, totals => pure totals
  | v :: rest, index, depth, totals => do
    let totals ← visitString (unitsOf (toString index)) depth totals
    let totals ← visit v depth totals
    visitItems rest (index + 1) depth totals

def visitMembers : List (List Nat × JsValue) → Nat → Totals → Except String Totals
  | [], _, totals => pure totals
  | (key, v) :: rest, depth, totals => do
    require (key ∉ reservedKeys) "PLAN_NON_JSON_VALUE"
    let totals ← visitString key depth totals
    let totals ← visit v depth totals
    visitMembers rest depth totals

end

def assertPlainJSON (value : JsValue) : Except String Unit := do
  let _ ← visit value 0 ⟨0, 0⟩
  pure ()

/-- `JSON.stringify` of a number that passed `assertPlainJSON`. -/
def stringifyNumber (x : Binary64.Number) : List Char :=
  (toString (x.safeInteger?.getD 0)).toList

def joined (texts : List (List Char)) : List Char := [','].intercalate texts

/-- Entries of an object by the code units of their names. -/
def sortKeys {α : Type} (entries : List (List Nat × α)) : List (List Nat × α) :=
  entries.insertionSort fun a b => a.1 ≤ b.1

mutual

def canonicalValue : JsValue → List Char
  | .array items => '[' :: joined (canonicalItems items) ++ [']']
  | .object members =>
    '{' :: joined ((sortKeys (canonicalMembers members)).map fun (key, text) =>
      stringifyString key ++ ':' :: text) ++ ['}']
  | .null => "null".toList
  | .bool b => (toString b).toList
  | .number x => stringifyNumber x
  | .string units => stringifyString units
  -- `assertPlainJSON` has refused everything else.
  | .other => []

def canonicalItems : List JsValue → List (List Char)
  | [] => []
  | v :: rest => canonicalValue v :: canonicalItems rest

def canonicalMembers : List (List Nat × JsValue) → List (List Nat × List Char)
  | [] => []
  | (key, v) :: rest => (key, canonicalValue v) :: canonicalMembers rest

end

def canonicalExecutionJSON (value : JsValue) : Except String (List Char) := do
  assertPlainJSON value
  let encoded := canonicalValue value
  require (Utf8.size encoded ≤ maximumBytes) "PLAN_RESOURCE_LIMIT"
  pure encoded

theorem canonicalExecutionJSON_eq_ok {value : JsValue} {encoded : List Char} :
    canonicalExecutionJSON value = .ok encoded ↔ (∃ totals, visit value 0 ⟨0, 0⟩ = .ok totals) ∧
        Utf8.size (canonicalValue value) ≤ maximumBytes ∧ canonicalValue value = encoded := by
  simp only [canonicalExecutionJSON, assertPlainJSON, bind_eq_ok, require_eq_ok]
  constructor
  · rintro ⟨-, ⟨totals, hvisit, -⟩, -, hsize, hencoded⟩
    cases hencoded
    exact ⟨⟨totals, hvisit⟩, hsize, rfl⟩
  · rintro ⟨⟨totals, hvisit⟩, hsize, rfl⟩
    exact ⟨(), ⟨totals, hvisit, rfl⟩, (), hsize, rfl⟩

/-- The document route: UTF-8 text, `JSON.parse`, `canonicalExecutionJSON`. -/
def canonicalExecutionDocument (source : ByteArray) : Except String ByteArray :=
  match (Utf8.decode source).bind jsonParse with
  | none => .error "SyntaxError"
  | some value => do
    let encoded ← canonicalExecutionJSON value
    pure (Utf8.encode encoded)

end ExecutionValidation

/-! ## Go -/

namespace ExecutionRuntime

def maxSafeJSONInteger : Int := 9007199254740991

def maxJSONNumberLexemeLength : Nat := 256

def maxJSONNumberExponentMagnitude : Nat := 512

def maxJSONDepth : Nat := 64

def maxJSONTotalNodes : Nat := 8192

def maxJSONNumbers : Nat := 4096

/-- The loop of `jsonStringsHaveValidUnicodeEscapes`, with the code units of escapes as
`jsonEscapedCodeUnit` reads them. It walks over bytes; every byte it looks for is ASCII, so
characters serve as well. -/
def escapesValid : Bool → List Char → Bool
  | inString, [] => !inString
  | false, c :: rest => escapesValid (c == '"') rest
  | true, c :: rest =>
    if c = '"' then escapesValid false rest
    else if c ≠ '\\' then
      if c.toNat < 0x20 then false else escapesValid true rest
    else
      match rest with
      | 'u' :: a :: b :: c :: d :: rest =>
        match hexUnit a b c d with
        | none => false
        | some codeUnit =>
          if Utf16.isHigh codeUnit then
            match rest with
            | '\\' :: 'u' :: a :: b :: c :: d :: rest =>
              match hexUnit a b c d with
              | none => false
              | some low => if Utf16.isLow low then escapesValid true rest else false
            | _ => false
          else if Utf16.isLow codeUnit then false
          else escapesValid true rest
      | escape :: rest =>
        if escape ∈ ['"', '\\', '/', 'b', 'f', 'n', 'r', 't'] then escapesValid true rest
        else false
      | [] => false

def jsonStringsHaveValidUnicodeEscapes (source : List Char) : Bool := escapesValid false source

def jsonNumberWithinResourceBounds (lit : NumberLit) : Bool :=
  if lit.raw.length > maxJSONNumberLexemeLength then false
  else
    match lit.exponent with
    | none => true
    | some (_, _, digits) =>
      let exponent := digits.dropWhile (· = '0')
      if exponent = [] then true
      else if exponent.length > 3 then false
      else Nat.ofDigitChars 10 exponent 0 ≤ maxJSONNumberExponentMagnitude

structure JsonContainerState where
  object : Bool
  expectingKey : Bool
  keys : List (List Char)
  deriving DecidableEq

structure BoundsState where
  containers : List JsonContainerState
  totalNodes : Nat
  numberCount : Nat
  rootValues : Nat
  deriving DecidableEq

section

variable (s : BoundsState)

/-- A value starts: it is the root, an element, or the value of a member. -/
def BoundsState.enter : BoundsState :=
  match s.containers with
  | [] => { s with rootValues := s.rootValues + 1 }
  | parent :: outer =>
    if parent.object then { s with containers := { parent with expectingKey := true } :: outer }
    else s

/-- The limits on nodes and depth, and what the token itself adds. -/
def BoundsState.admit (token : Token) : Option BoundsState :=
  let s := { s with totalNodes := s.totalNodes + 1 }
  if s.totalNodes > maxJSONTotalNodes ∨ s.containers.length + 1 > maxJSONDepth then none
  else
    match token with
    | .number lit =>
      let s := { s with numberCount := s.numberCount + 1 }
      if s.numberCount > maxJSONNumbers ∨ jsonNumberWithinResourceBounds lit = false then none
      else some s
    | .openObject => some { s with containers := ⟨true, true, []⟩ :: s.containers }
    | .openArray => some { s with containers := ⟨false, false, []⟩ :: s.containers }
    | .closeObject | .closeArray => none
    | .null | .bool _ | .string _ => some s

/-- A closing delimiter. -/
def BoundsState.close (object : Bool) : Option BoundsState :=
  match s.containers with
  | [] => none
  | current :: outer =>
    if object ≠ current.object ∨ (current.object = true ∧ current.expectingKey = false) then none
    else some { s with containers := outer }

/-- One turn of the loop of `bridgeJSONWithinResourceBounds`. -/
def BoundsState.step (token : Token) : Option BoundsState :=
  match token with
  | .closeObject => s.close true
  | .closeArray => s.close false
  | token =>
    match s.containers with
    | parent :: outer =>
      if parent.object = true ∧ parent.expectingKey = true then
        match token with
        | .string key =>
          if key ∈ parent.keys then none
          else some { s with
            containers := { parent with keys := key :: parent.keys, expectingKey := false } :: outer }
        | _ => none
      else s.enter.admit token
    | [] => s.enter.admit token

end

/-- `bridgeJSONWithinResourceBounds` over the tokens of a text. -/
def tokensWithinBounds (stream : List Token) : Bool :=
  match stream.foldlM BoundsState.step ⟨[], 0, 0, 0⟩ with
  | none => false
  | some s => s.rootValues = 1 && s.containers.isEmpty

/-- The decoder reports an error, or more than one root, for a text that is not one value. -/
def bridgeJSONWithinResourceBounds (source : List Char) : Bool :=
  match parse source with
  | none => false
  | some d => tokensWithinBounds (tokens d)

def decodeSingleJSONValue (source : List Char) : Option GoValue := (parse source).map GoValue.ofDoc

/-- The entry of `executionValueWithinBounds`, and all of it for a string. -/
def countWithinBounds (depth count : Nat) : Option Nat :=
  if depth > 24 ∨ count + 1 > 30000 then none else some (count + 1)

mutual

def executionValueWithinBounds : GoValue → Nat → Nat → Option Nat
  | .slice items, depth, count => do
    let count ← countWithinBounds depth count
    itemsWithinBounds items (depth + 1) count
  | .map members, depth, count => do
    let count ← countWithinBounds depth count
    membersWithinBounds members (depth + 1) count
  | .nil, depth, count | .bool _, depth, count | .string _, depth, count
  | .number _, depth, count | .float _, depth, count => countWithinBounds depth count

def itemsWithinBounds : List GoValue → Nat → Nat → Option Nat
  | [], _, count => some count
  | v :: rest, depth, count => do
    let count ← countWithinBounds depth count
    let count ← executionValueWithinBounds v depth count
    itemsWithinBounds rest depth count

def membersWithinBounds : List (List Char × GoValue) → Nat → Nat → Option Nat
  | [], _, count => some count
  | (_, v) :: rest, depth, count => do
    let count ← countWithinBounds depth count
    let count ← executionValueWithinBounds v depth count
    membersWithinBounds rest depth count

end

def hexDigits : List Char := "0123456789abcdef".toList

/-- One rune in `appendExecutionString`. -/
def appendExecutionRune (r : Char) : List Char :=
  if r = '"' ∨ r = '\\' then ['\\', r]
  else if r = '\x08' then ['\\', 'b']
  else if r = '\x0c' then ['\\', 'f']
  else if r = '\n' then ['\\', 'n']
  else if r = '\r' then ['\\', 'r']
  else if r = '\t' then ['\\', 't']
  else if r.toNat < 0x20 then
    ['\\', 'u', '0', '0', hexDigits.getD (r.toNat / 16) '0', hexDigits.getD (r.toNat % 16) '0']
  else [r]

def appendExecutionString (value : List Char) : List Char :=
  '"' :: value.flatMap appendExecutionRune ++ ['"']

/-- The number case of `appendExecutionJSON`, with `big.Rat` exact. -/
def appendExecutionNumber (lit : NumberLit) : Option (List Char) :=
  let number := lit.value
  if number.den ≠ 1 ∨ ¬ (-(2 : Int) ^ 63 ≤ number.num ∧ number.num < 2 ^ 63) then none
  else if number.num < -maxSafeJSONInteger ∨ number.num > maxSafeJSONInteger then none
  else some (toString number.num).toList

def reservedNames : List (List Char) :=
  ["__proto__".toList, "constructor".toList, "prototype".toList]

/-- Members by the UTF-16 encoding of their names. -/
def sortNames {α : Type} (entries : List (List Char × α)) : List (List Char × α) :=
  entries.insertionSort fun a b => Utf16.encode a.1 ≤ Utf16.encode b.1

mutual

def appendExecutionJSON : GoValue → Option (List Char)
  | .nil => some "null".toList
  | .bool b => some (toString b).toList
  | .string s => some (appendExecutionString s)
  | .number lit => appendExecutionNumber lit
  | .float _ => none
  | .slice items => do
    let texts ← appendItems items
    some ('[' :: [','].intercalate texts ++ [']'])
  | .map members => do
    let entries ← appendMembers members
    some ('{' :: [','].intercalate ((sortNames entries).map fun (key, text) =>
      appendExecutionString key ++ ':' :: text) ++ ['}'])

def appendItems : List GoValue → Option (List (List Char))
  | [] => some []
  | v :: rest => do
    let text ← appendExecutionJSON v
    let texts ← appendItems rest
    some (text :: texts)

def appendMembers : List (List Char × GoValue) → Option (List (List Char × List Char))
  | [] => some []
  | (key, v) :: rest => do
    if key ∈ reservedNames then none
    else
      let text ← appendExecutionJSON v
      let entries ← appendMembers rest
      some ((key, text) :: entries)

end

def executionJSONValue (source : ByteArray) : Option GoValue :=
  if source.size > 512 <<< 10 then none
  else
    match Utf8.decode source with
    | none => none
    | some text =>
      if jsonStringsHaveValidUnicodeEscapes text = false ∨
          bridgeJSONWithinResourceBounds text = false then none
      else do
        let value ← decodeSingleJSONValue text
        let _ ← executionValueWithinBounds value 0 0
        let check ← appendExecutionJSON value
        if Utf8.size check > 512 <<< 10 then none else some value

def canonicalExecutionJSON (source : ByteArray) : Option ByteArray := do
  let value ← executionJSONValue source
  let output ← appendExecutionJSON value
  some (Utf8.encode output)

end ExecutionRuntime

end ConveneWire.Contracts
