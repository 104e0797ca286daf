import Mathlib.Data.List.Basic

/-!
# UTF-8 bytes of Rust strings

`str::bytes` and `String::from_utf8` on lists of bytes: they are inverse, and a
newline's byte is part of no other character.
-/

namespace RustStr

def bytes (s : String) : List UInt8 := s.toUTF8.data.toList

def fromUtf8 (bytes : List UInt8) : Option String := String.fromUTF8? bytes.toByteArray

theorem bytes_eq (s : String) : bytes s = s.toList.flatMap String.utf8EncodeChar := by
  rw [bytes, String.toUTF8_eq_toByteArray, ← String.utf8Encode_toList, List.utf8Encode,
    List.data_toByteArray]

theorem bytes_ofList (cs : List Char) :
    bytes (String.ofList cs) = cs.flatMap String.utf8EncodeChar := by
  rw [bytes_eq, String.toList_ofList]

theorem bytes_ofList_append (cs ds : List Char) :
    bytes (String.ofList (cs ++ ds)) = bytes (String.ofList cs) ++ bytes (String.ofList ds) := by
  rw [bytes_ofList, bytes_ofList, bytes_ofList, List.flatMap_append]

@[simp] theorem bytes_empty : bytes "" = [] := by
  rw [bytes_eq, String.toList_empty, List.flatMap_nil]

theorem fromUtf8_bytes (s : String) : fromUtf8 (bytes s) = some s := by
  have whole : (bytes s).toByteArray = s.toByteArray := by
    rw [bytes_eq, ← String.utf8Encode_toList, List.utf8Encode]
  rw [fromUtf8, whole, String.fromUTF8?, dif_pos s.isValidUTF8]
  rfl

theorem ten_ne_ofNat {n : Nat} (other : n ≠ 10) (small : n < 256) :
    (10 : UInt8) ≠ UInt8.ofNat n := by
  intro same
  have value := congrArg UInt8.toNat same
  rw [UInt8.toNat_ofNat', Nat.mod_eq_of_lt small] at value
  exact other value.symm

/-- Every byte of a character outside ASCII has its high bit set. -/
theorem newline_not_mem_utf8EncodeChar {c : Char} (other : c ≠ '\n') :
    10 ∉ String.utf8EncodeChar c := by
  have value : c.val.toNat ≠ 10 := by
    intro same
    exact other (Char.ext (UInt32.toNat_inj.mp same))
  unfold String.utf8EncodeChar
  simp only
  split
  · rw [List.mem_singleton]
    exact ten_ne_ofNat value (by omega)
  · split
    · simp only [List.mem_cons, List.not_mem_nil, or_false, not_or]
      exact ⟨ten_ne_ofNat (by omega) (by omega), ten_ne_ofNat (by omega) (by omega)⟩
    · split
      · simp only [List.mem_cons, List.not_mem_nil, or_false, not_or]
        exact ⟨ten_ne_ofNat (by omega) (by omega), ten_ne_ofNat (by omega) (by omega),
          ten_ne_ofNat (by omega) (by omega)⟩
      · simp only [List.mem_cons, List.not_mem_nil, or_false, not_or]
        exact ⟨ten_ne_ofNat (by omega) (by omega), ten_ne_ofNat (by omega) (by omega),
          ten_ne_ofNat (by omega) (by omega), ten_ne_ofNat (by omega) (by omega)⟩

end RustStr
