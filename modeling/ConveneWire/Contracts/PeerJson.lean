import ConveneWire.Contracts.ExecutionJson
import ConveneWire.Lib.Shortest

/-! # Peer JSON, twice

`parsePeerJson` and `canonicalPeerJson` of `peer-json.mjs`, and `ParseJSON` and
`CanonicalJSON` of the Go template. Both platforms print numbers with the same
shortest digits (`Binary64.ShortestDigits`); how the digits become text is
modelled on each side as its platform defines it. -/

namespace ConveneWire.Contracts

open Json
open Binary64 (Number ShortestDigits)

/-! ## TypeScript -/

namespace PeerJson

def peerJsonMaximumBytes : Nat := 1048576

def peerJsonMaximumDepth : Nat := 64

/-- The loop of `unicode`. -/
def unicode : List Nat → Bool
  | [] => true
  | unit :: rest =>
    if 0xd800 ≤ unit ∧ unit ≤ 0xdbff then
      match rest with
      | next :: rest => if 0xdc00 ≤ next ∧ next ≤ 0xdfff then unicode rest else false
      | [] => false
    else if 0xdc00 ≤ unit ∧ unit ≤ 0xdfff then false
    else unicode rest

/-- The loop of `string`: what stands after the opening quote, up to the closing one. -/
def scanString : List Char → Option (List Char × List Char)
  | [] => none
  | c :: rest =>
    if c = '"' then some ([c], rest)
    else if c = '\\' then
      match rest with
      | [] => none
      | e :: rest => (scanString rest).map fun (body, rest) => (c :: e :: body, rest)
    else (scanString rest).map fun (body, rest) => (c :: body, rest)

def string (text : List Char) : Option (List Nat × List Char) := do
  let (body, rest) ← scanString text
  match jsonParse ('"' :: body) with
  | some (.string units) => if unicode units then some (units, rest) else none
  | _ => none

/-- `Number.isFinite` of what `JSON.parse` made of a primitive. -/
def isFinite : JsValue → Bool
  | .number (.infinite _) | .number .nan => false
  | _ => true

/-- The expression for primitives is the grammar of literal names and numbers. -/
def primitive (text : List Char) : Option (JsValue × List Char) := do
  let (d, rest) ← scalar text
  let value := JsValue.ofDoc d
  if isFinite value then some (value, rest) else none

mutual

/-- `read` of `parsePeerJson`: `lead` is `space` and a look at the next character, `expect` is
`space` and a character to pass over. -/
def read : Nat → Nat → List Char → Option (JsValue × List Char)
  | 0, _, _ => none
  | fuel + 1, depth, text =>
    if depth > peerJsonMaximumDepth then none
    else
      match lead text with
      | .string rest => (string rest).map fun (units, rest) => (.string units, rest)
      | .array rest =>
        match expect ']' rest with
        | some rest => some (.array [], rest)
        | none => (readItems fuel depth rest).map fun (items, rest) => (.array items, rest)
      | .object rest =>
        match expect '}' rest with
        | some rest => some (.object [], rest)
        | none => (readMembers fuel depth [] rest).map fun (result, rest) => (.object result, rest)
      | .scalar text => primitive text

/-- The loop of an array. -/
def readItems : Nat → Nat → List Char → Option (List JsValue × List Char)
  | 0, _, _ => none
  | fuel + 1, depth, text => do
    let (value, rest) ← read fuel (depth + 1) text
    match expect ']' rest with
    | some rest => some ([value], rest)
    | none => do
      let rest ← expect ',' rest
      let (items, rest) ← readItems fuel depth rest
      some (value :: items, rest)

/-- The loop of an object, with the properties it has so far. -/
def readMembers : Nat → Nat → List (List Nat × JsValue) → List Char →
    Option (List (List Nat × JsValue) × List Char)
  | 0, _, _, _ => none
  | fuel + 1, depth, result, text => do
    let rest ← expect '"' text
    let (key, rest) ← string rest
    let rest ← expect ':' rest
    if key ∈ result.map Prod.fst then none
    else do
      let (value, rest) ← read fuel (depth + 1) rest
      let result := result ++ [(key, value)]
      match expect '}' rest with
      | some rest => some (result, rest)
      | none => do
        let rest ← expect ',' rest
        readMembers fuel depth result rest

end

/-- `parsePeerJson` of bytes, with the default options. -/
def parsePeerJson (input : ByteArray) : Option JsValue :=
  if input.size > peerJsonMaximumBytes then none
  else
    match Utf8.decode input with
    | none => none
    | some source =>
      if Utf8.size source > peerJsonMaximumBytes then none
      else
        match read (2 * source.length + 1) 0 source with
        | none => none
        | some (value, rest) => if skipBlank rest = [] then some value else none

/-- The `chunks` and the `size` of `canonicalPeerJson`. -/
structure Output where
  chunks : List Char
  size : Nat

def append (text : List Char) (out : Output) : Option Output :=
  let size := out.size + Utf8.size text
  if size > peerJsonMaximumBytes then none else some ⟨out.chunks ++ text, size⟩

/-- `Number::toString` of a positive number. -/
def positiveToString (F : ShortestDigits) (v : ℚ) : List Char :=
  let digits := Nat.toDigits 10 (F.digits v).1
  let k : Int := digits.length
  let n := F.point v
  if -5 ≤ n ∧ n ≤ 21 then
    if k ≤ n then digits ++ List.replicate (n - k).toNat '0'
    else if 0 < n then digits.take n.toNat ++ '.' :: digits.drop n.toNat
    else '0' :: '.' :: List.replicate (-n).toNat '0' ++ digits
  else
    let e := n - 1
    let exponent := 'e' :: (if e < 0 then '-' else '+') :: Nat.toDigits 10 e.natAbs
    if digits.length = 1 then digits ++ exponent
    else digits.take 1 ++ '.' :: digits.drop 1 ++ exponent

/-- `JSON.stringify` of a finite number. -/
def stringifyFinite (F : ShortestDigits) (q : ℚ) : List Char :=
  if q = 0 then ['0']
  else if q < 0 then '-' :: positiveToString F (-q)
  else positiveToString F q

def comma (first : Bool) (out : Output) : Option Output :=
  if first then some out else append [','] out

/-- The loop over sorted keys, each with the rest of what `write` does for it. -/
def writeKeys : List (List Nat × (Output → Option Output)) → Bool → Output → Option Output
  | [], _, out => some out
  | (key, writeValue) :: rest, first, out => do
    let out ← comma first out
    if unicode key then do
      let out ← append (stringifyString key) out
      let out ← append [':'] out
      let out ← writeValue out
      writeKeys rest false out
    else none

mutual

/-- `write` of `canonicalPeerJson`. Trees have no cycle for `active` to find. -/
def write (F : ShortestDigits) : JsValue → Nat → Output → Option Output
  | .null, depth, out =>
    if depth > peerJsonMaximumDepth then none else append "null".toList out
  | .bool b, depth, out =>
    if depth > peerJsonMaximumDepth then none else append (toString b).toList out
  | .string units, depth, out =>
    if depth > peerJsonMaximumDepth then none
    else if unicode units then append (stringifyString units) out
    else none
  | .number (.finite q), depth, out =>
    if depth > peerJsonMaximumDepth then none else append (stringifyFinite F q) out
  | .number .negativeZero, depth, out =>
    if depth > peerJsonMaximumDepth then none else append (stringifyFinite F 0) out
  | .number (.infinite _), _, _ | .number .nan, _, _ | .other, _, _ => none
  | .array items, depth, out =>
    if depth > peerJsonMaximumDepth ∨ items.length > peerJsonMaximumBytes then none
    else do
      let out ← append ['['] out
      let out ← writeItems F items (depth + 1) true out
      append [']'] out
  | .object members, depth, out =>
    if depth > peerJsonMaximumDepth then none
    else do
      let out ← append ['{'] out
      if members.length > peerJsonMaximumBytes then none
      else do
        let out ← writeKeys (ExecutionValidation.sortKeys (memberWriters F members (depth + 1)))
          true out
        append ['}'] out

def writeItems (F : ShortestDigits) : List JsValue → Nat → Bool → Output → Option Output
  | [], _, _, out => some out
  | v :: rest, depth, first, out => do
    let out ← comma first out
    let out ← write F v depth out
    writeItems F rest depth false out

def memberWriters (F : ShortestDigits) : List (List Nat × JsValue) → Nat →
    List (List Nat × (Output → Option Output))
  | [], _ => []
  | (key, v) :: rest, depth => (key, write F v depth) :: memberWriters F rest depth

end

def canonicalPeerJson (F : ShortestDigits) (value : JsValue) : Option ByteArray :=
  (write F value 0 ⟨[], 0⟩).map fun out => Utf8.encode out.chunks

end PeerJson

/-! ## Go -/

namespace PeerContracts

def maximumJSONBytes : Nat := 1048576

def maximumJSONDepth : Nat := 64

/-- The loop of `ParseJSON` over escapes, inside a string or not. It runs on a valid text only, so
the bytes it reads ahead are there. -/
def escapesPaired : Bool → List Char → Bool
  | _, [] => true
  | false, c :: rest => escapesPaired (c == '"') rest
  | true, c :: rest =>
    if c = '"' then escapesPaired false rest
    else if c ≠ '\\' then escapesPaired true rest
    else
      match rest with
      | 'u' :: a :: b :: c :: d :: rest =>
        let n := ((hexUnit a b c d).map Fin.val).getD 0
        if 0xd800 ≤ n ∧ n ≤ 0xdbff then
          match rest with
          | '\\' :: 'u' :: a :: b :: c :: d :: rest =>
            match hexUnit a b c d with
            | none => false
            | some next =>
              if next.val < 0xdc00 ∨ next.val > 0xdfff then false else escapesPaired true rest
          | _ => false
        else if 0xdc00 ≤ n ∧ n ≤ 0xdfff then false
        else escapesPaired true rest
      | _ :: rest => escapesPaired true rest
      | [] => true

mutual

/-- `read` of `ParseJSON`, over the tokens of the decoder. -/
def read : Nat → Nat → List Token → Option (GoValue × List Token)
  | 0, _, _ => none
  | fuel + 1, depth, stream =>
    if depth > maximumJSONDepth then none
    else
      match stream with
      | .openObject :: rest =>
        (readObject fuel depth [] rest).map fun (object, rest) => (.map object, rest)
      | .openArray :: rest =>
        (readArray fuel depth rest).map fun (array, rest) => (.slice array, rest)
      | .number lit :: rest =>
        match Binary64.round lit.negative lit.magnitude with
        | .infinite _ | .nan => none
        | number => some (.float number, rest)
      | .null :: rest => some (.nil, rest)
      | .bool b :: rest => some (.bool b, rest)
      | .string s :: rest => some (.string s, rest)
      | .closeObject :: _ | .closeArray :: _ | [] => none

/-- `decoder.More` is false at a closing delimiter, which is then taken. -/
def readObject : Nat → Nat → List (List Char × GoValue) → List Token →
    Option (List (List Char × GoValue) × List Token)
  | 0, _, _, _ => none
  | fuel + 1, depth, object, stream =>
    match stream with
    | .closeObject :: rest => some (object, rest)
    | .string key :: rest =>
      if key ∈ object.map Prod.fst then none
      else do
        let (item, rest) ← read fuel (depth + 1) rest
        readObject fuel depth (object ++ [(key, item)]) rest
    | _ => none

def readArray : Nat → Nat → List Token → Option (List GoValue × List Token)
  | 0, _, _ => none
  | fuel + 1, depth, stream =>
    match stream with
    | .closeArray :: rest => some ([], rest)
    | stream => do
      let (item, rest) ← read fuel (depth + 1) stream
      let (array, rest) ← readArray fuel depth rest
      some (item :: array, rest)

end

/-- `json.Valid` and the tokens of the decoder both follow the grammar of `parse`. -/
def parseJSON (data : ByteArray) : Option GoValue :=
  if data.size > maximumJSONBytes then none
  else
    match Utf8.decode data with
    | none => none
    | some text =>
      match parse text with
      | none => none
      | some d =>
        if escapesPaired false text = false then none
        else
          match read (2 * (tokens d).length + 1) 0 (tokens d) with
          | some (result, []) => some result
          | _ => none

def appendText (text : List Char) (output : List Char) : Option (List Char) :=
  if Utf8.size output + Utf8.size text > maximumJSONBytes then none else some (output ++ text)

/-- The same switch as in `appendExecutionString`. -/
def quote (s : List Char) : List Char := ExecutionRuntime.appendExecutionString s

/-- `%f` with the fewest digits: `digits` and the position of the decimal point. -/
def formatF (digits : List Char) (point : Int) : List Char :=
  let precision := (digits.length - point).toNat
  (if 0 < point then digits.take point.toNat ++ List.replicate (point - digits.length).toNat '0'
    else ['0']) ++
  (if 0 < precision then
    '.' :: (List.range precision).map fun i : Nat =>
      if 0 ≤ point + i ∧ point + i < digits.length then digits.getD (point + i).toNat '0' else '0'
    else [])

/-- `%e` with the fewest digits and at least two for the exponent. -/
def formatE (digits : List Char) (point : Int) : List Char :=
  let exponent := point - 1
  let shown := Nat.toDigits 10 exponent.natAbs
  digits.take 1 ++ (if 1 < digits.length then '.' :: digits.drop 1 else []) ++
    'e' :: (if exponent < 0 then '-' else '+') :: (if shown.length < 2 then '0' :: shown else shown)

def atoi : List Char → Int
  | '-' :: digits => -(Nat.ofDigitChars 10 digits 0 : Int)
  | '+' :: digits => Nat.ofDigitChars 10 digits 0
  | digits => Nat.ofDigitChars 10 digits 0

/-- The exponent as ECMAScript writes it. -/
def respellExponent (s : List Char) : List Char :=
  let mantissa := s.takeWhile (· ≠ 'e')
  let exponent := atoi ((s.dropWhile (· ≠ 'e')).drop 1)
  mantissa ++ 'e' :: (if 0 ≤ exponent then ['+'] else []) ++ (toString exponent).toList

/-- `strconv.FormatFloat` with the fewest digits, for a positive number. -/
def formatPositive (F : ShortestDigits) (v : ℚ) : List Char :=
  let digits := Nat.toDigits 10 (F.digits v).1
  if Binary64.nearest (Binary64.decimal 1 (-6)) ≤ v ∧
      v < Binary64.nearest (Binary64.decimal 1 21) then formatF digits (F.point v)
  else respellExponent (formatE digits (F.point v))

/-- The `float64` case of `write`, where only finite numbers arrive. -/
def formatFloat (F : ShortestDigits) : Number → List Char
  | .finite q =>
    if q = 0 then ['0']
    else if q < 0 then '-' :: formatPositive F (-q)
    else formatPositive F q
  | .negativeZero => ['0']
  | .infinite _ | .nan => []

def commaText (first : Bool) (output : List Char) : Option (List Char) :=
  if first then some output else appendText [','] output

/-- The loop over sorted keys. -/
def writeNames : List (List Char × (List Char → Option (List Char))) → Bool → List Char →
    Option (List Char)
  | [], _, output => some output
  | (key, writeItem) :: rest, first, output => do
    let output ← commaText first output
    let output ← appendText (quote key ++ [':']) output
    let output ← writeItem output
    writeNames rest false output

mutual

/-- `write` of `CanonicalJSON`. -/
def write (F : ShortestDigits) : GoValue → List Char → Option (List Char)
  | .nil, output => appendText "null".toList output
  | .bool b, output => appendText (toString b).toList output
  | .string s, output => appendText (quote s) output
  | .float x, output => appendText (formatFloat F x) output
  | .number _, _ => none
  | .slice items, output => do
    let output ← appendText ['['] output
    let output ← writeSlice F items true output
    appendText [']'] output
  | .map members, output => do
    let output ← appendText ['{'] output
    let output ← writeNames (ExecutionRuntime.sortNames (mapWriters F members)) true output
    appendText ['}'] output

def writeSlice (F : ShortestDigits) : List GoValue → Bool → List Char → Option (List Char)
  | [], _, output => some output
  | v :: rest, first, output => do
    let output ← commaText first output
    let output ← write F v output
    writeSlice F rest false output

def mapWriters (F : ShortestDigits) : List (List Char × GoValue) →
    List (List Char × (List Char → Option (List Char)))
  | [] => []
  | (key, v) :: rest => (key, write F v) :: mapWriters F rest

end

def canonicalJSON (F : ShortestDigits) (data : ByteArray) : Option ByteArray := do
  let value ← parseJSON data
  let output ← write F value []
  some (Utf8.encode output)

end PeerContracts

end ConveneWire.Contracts
