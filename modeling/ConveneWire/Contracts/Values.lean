import Mathlib.Data.List.Sort
import ConveneWire.Lib.Binary64
import ConveneWire.Lib.Json
import ConveneWire.Lib.Utf8

/-! # JSON data in JavaScript and in Go

What the two platforms make of a JSON text: the values of `JSON.parse` on one
side, those of `encoding/json` with its token stream on the other. Names of
members are compared by code units in JavaScript and as text in Go. -/

namespace ConveneWire.Contracts

open Json

-- named once, so that every function that looks a name up refers to the same proof
scoped instance lawfulUnits : LawfulBEq (List Nat) := inferInstance
scoped instance lawfulText : LawfulBEq (List Char) := inferInstance

/-! ## JavaScript -/

/-- A JavaScript value. `other` is everything that is not plain data: functions, symbols, class
instances, accessors, sparse arrays, cycles. Own properties are listed in any order. -/
inductive JsValue where
  | null
  | bool (b : Bool)
  | number (x : Binary64.Number)
  | string (units : List Nat)
  | array (items : List JsValue)
  | object (members : List (List Nat × JsValue))
  | other

@[elab_as_elim, induction_eliminator]
theorem JsValue.induct {P : JsValue → Prop} (null : P .null) (bool : ∀ b, P (.bool b))
    (number : ∀ x, P (.number x)) (string : ∀ units, P (.string units))
    (array : ∀ items, (∀ v ∈ items, P v) → P (.array items))
    (object : ∀ members, (∀ m ∈ members, P m.2) → P (.object members)) (other : P .other)
    (v : JsValue) : P v :=
  @JsValue.rec P (fun vs => ∀ v ∈ vs, P v) (fun ms => ∀ m ∈ ms, P m.2) (fun m => P m.2)
    null bool number string array object other
    (by simp) (fun _ _ hv hvs => List.forall_mem_cons.mpr ⟨hv, hvs⟩)
    (by simp) (fun _ _ hm hms => List.forall_mem_cons.mpr ⟨hm, hms⟩)
    (fun _ _ h => h) v

/-- Assignment to a property: a name that is there keeps its place. -/
def assign {κ α : Type} [DecidableEq κ] (members : List (κ × α)) (m : κ × α) : List (κ × α) :=
  if m.1 ∈ members.map Prod.fst then members.map fun old => if old.1 = m.1 then m else old
  else members ++ [m]

/-- Properties assigned one after the other. -/
def assignAll {κ α : Type} [DecidableEq κ] (members : List (κ × α)) : List (κ × α) :=
  members.foldl assign []

mutual

/-- `JSON.parse`, from the syntax of the text on. -/
def JsValue.ofDoc : Doc → JsValue
  | .null => .null
  | .bool b => .bool b
  | .number lit => .number (Binary64.round lit.negative lit.magnitude)
  | .string items => .string (units items)
  | .array items => .array (JsValue.ofDocs items)
  | .object members => .object (assignAll (JsValue.ofMembers members))

def JsValue.ofDocs : List Doc → List JsValue
  | [] => []
  | d :: ds => JsValue.ofDoc d :: JsValue.ofDocs ds

def JsValue.ofMembers : List (List StrItem × Doc) → List (List Nat × JsValue)
  | [] => []
  | (key, d) :: ms => (units key, JsValue.ofDoc d) :: JsValue.ofMembers ms

end

def jsonParse (text : List Char) : Option JsValue := (parse text).map JsValue.ofDoc

def hexChar (n : Nat) : Char := Nat.digitChar n

/-- One character in `JSON.stringify` of a string. -/
def stringifyChar (c : Char) : List Char :=
  if c = '\x08' then ['\\', 'b']
  else if c = '\t' then ['\\', 't']
  else if c = '\n' then ['\\', 'n']
  else if c = '\x0c' then ['\\', 'f']
  else if c = '\r' then ['\\', 'r']
  else if c = '"' then ['\\', '"']
  else if c = '\\' then ['\\', '\\']
  else if c.toNat < 0x20 then
    ['\\', 'u', hexChar (c.toNat / 4096), hexChar (c.toNat / 256 % 16), hexChar (c.toNat / 16 % 16),
      hexChar (c.toNat % 16)]
  else [c]

/-- `JSON.stringify` of a string without lone surrogates. -/
def stringifyString (units : List Nat) : List Char :=
  '"' :: ((Utf16.decode units).getD []).flatMap stringifyChar ++ ['"']

/-- `Buffer.byteLength` of a string. A lone surrogate is written as U+FFFD. -/
def byteLength : List Nat → Nat
  | [] => 0
  | u :: rest =>
    if Utf16.isHigh u then
      match rest with
      | v :: rest => if Utf16.isLow v then 4 + byteLength rest else 3 + byteLength (v :: rest)
      | [] => 3
    else (if u < 0x80 then 1 else if u < 0x800 then 2 else 3) + byteLength rest

/-! ## Go -/

/-- A value of `encoding/json`: numbers are kept as spelled with `UseNumber`. -/
inductive GoValue where
  | nil
  | bool (b : Bool)
  | string (s : List Char)
  | number (lit : NumberLit)
  | float (x : Binary64.Number)
  | slice (items : List GoValue)
  | map (members : List (List Char × GoValue))

mutual

/-- `Decoder.Decode` with `UseNumber`, from the syntax of the text on. -/
def GoValue.ofDoc : Doc → GoValue
  | .null => .nil
  | .bool b => .bool b
  | .number lit => .number lit
  | .string items => .string (runes items)
  | .array items => .slice (GoValue.ofDocs items)
  | .object members => .map (assignAll (GoValue.ofMembers members))

def GoValue.ofDocs : List Doc → List GoValue
  | [] => []
  | d :: ds => GoValue.ofDoc d :: GoValue.ofDocs ds

def GoValue.ofMembers : List (List StrItem × Doc) → List (List Char × GoValue)
  | [] => []
  | (key, d) :: ms => (runes key, GoValue.ofDoc d) :: GoValue.ofMembers ms

end

/-- `json.Token`: colons and commas are not reported. -/
inductive Token where
  | openArray | closeArray | openObject | closeObject
  | null
  | bool (b : Bool)
  | number (lit : NumberLit)
  | string (s : List Char)
  deriving DecidableEq

mutual

/-- The tokens `Decoder.Token` reports for a value. -/
def tokens : Doc → List Token
  | .null => [.null]
  | .bool b => [.bool b]
  | .number lit => [.number lit]
  | .string items => [.string (runes items)]
  | .array items => .openArray :: (itemTokens items ++ [.closeArray])
  | .object members => .openObject :: (memberTokens members ++ [.closeObject])

def itemTokens : List Doc → List Token
  | [] => []
  | d :: ds => tokens d ++ itemTokens ds

def memberTokens : List (List StrItem × Doc) → List Token
  | [] => []
  | (key, d) :: ms => .string (runes key) :: (tokens d ++ memberTokens ms)

end

/-! ## Integers as text -/

theorem toString_int_toList (n : Int) :
    (toString n).toList = (if n < 0 then ['-'] else []) ++ Nat.toDigits 10 n.natAbs := by
  rw [Int.toString_eq_repr, Int.repr_eq_if]
  split
  · rw [if_neg (by omega), show n.natAbs = n.toNat by omega]
    simp [Nat.repr]
  · rw [if_pos (by omega), String.toList_append, show n.natAbs = (-n).toNat by omega]
    simp [Nat.repr]

/-! ## Members without repeated names -/

section Assign

variable {κ α : Type} [DecidableEq κ]

variable {members : List (κ × α)}

theorem foldl_assign :
    ∀ {start : List (κ × α)}, ((start ++ members).map Prod.fst).Nodup →
      members.foldl assign start = start ++ members := by
  induction members with
  | nil => simp
  | cons m rest ih =>
    intro start h
    have hnew : m.1 ∉ start.map Prod.fst := by
      rw [List.map_append, List.nodup_append] at h
      intro hmem
      exact h.2.2 m.1 hmem m.1 (by simp) rfl
    rw [List.foldl_cons, assign, if_neg hnew, ih (by simpa using h), List.append_assoc,
      List.singleton_append]

theorem assignAll_of_nodup (h : (members.map Prod.fst).Nodup) : assignAll members = members := by
  rw [assignAll, foldl_assign (by simpa using h), List.nil_append]

end Assign

end ConveneWire.Contracts
