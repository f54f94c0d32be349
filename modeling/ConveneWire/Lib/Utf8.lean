import Mathlib.Algebra.GroupWithZero.Nat
import Mathlib.Data.List.Basic

/-! # UTF-8

Byte strings as encodings of text. `decode` is the strict decoder: it gives the
characters of a valid encoding and nothing for any other bytes. -/

namespace Utf8

def decode (bytes : ByteArray) : Option (List Char) := (String.fromUTF8? bytes).map String.toList

def encode (text : List Char) : ByteArray := (String.ofList text).toByteArray

/-- The bytes a text takes. -/
def size (text : List Char) : Nat := (text.map Char.utf8Size).sum

theorem encode_eq (text : List Char) : encode text = text.utf8Encode := String.toByteArray_ofList

variable {text : List Char}

theorem decode_eq_some {bytes : ByteArray} : decode bytes = some text ↔ bytes = encode text := by
  rw [encode_eq]
  constructor
  · intro h
    obtain ⟨s, hs, rfl⟩ := Option.map_eq_some_iff.mp h
    unfold String.fromUTF8? at hs
    split at hs
    · cases hs
      rw [String.utf8Encode_toList]
      rfl
    · cases hs
  · rintro rfl
    have hvalid : text.utf8Encode.IsValidUTF8 := .intro text rfl
    have hstring : String.fromUTF8 text.utf8Encode hvalid = String.ofList text :=
      String.toByteArray_inj.mp String.toByteArray_ofList.symm
    rw [decode, String.fromUTF8?, dif_pos hvalid, hstring, Option.map_some, String.toList_ofList]

@[simp] theorem decode_encode (text : List Char) : decode (encode text) = some text :=
  decode_eq_some.mpr rfl

theorem size_encode (text : List Char) : (encode text).size = size text := by
  simp [encode_eq, List.utf8Encode, size, List.length_flatMap]

@[simp] theorem size_nil : size [] = 0 := rfl

@[simp] theorem size_cons {c : Char} : size (c :: text) = c.utf8Size + size text := by
  simp [size]

@[simp] theorem size_append {s t : List Char} : size (s ++ t) = size s + size t := by
  simp [size]

end Utf8
