import Mathlib.Data.List.Basic

/-!
A byte below 128 stands in the bytes of a text exactly where its character stands in the text
(`mem_utf8_iff`), so a text can be searched for an ASCII character byte by byte.
-/

namespace Text

def utf8 (s : String) : List UInt8 := s.toByteArray.data.toList

def ofUtf8? (bytes : List UInt8) : Option String := String.fromUTF8? ⟨bytes.toArray⟩

theorem utf8_eq (s : String) : utf8 s = s.toList.flatMap String.utf8EncodeChar := by
  rw [utf8, ← String.utf8Encode_toList, List.utf8Encode]
  simp

theorem ofUtf8?_utf8 (s : String) : ofUtf8? (utf8 s) = some s :=
  dif_pos s.isValidUTF8

theorem utf8_ofUtf8? {bytes : List UInt8} {s : String} (read : ofUtf8? bytes = some s) : utf8 s = bytes := by
  unfold ofUtf8? String.fromUTF8? at read
  split at read
  · obtain rfl := Option.some.inj read
    rfl
  · cases read

theorem utf8_injective {s t : String} (same : utf8 s = utf8 t) : s = t := by
  have read := ofUtf8?_utf8 s
  rw [same, ofUtf8?_utf8] at read
  exact (Option.some.inj read).symm

@[simp] theorem utf8_eq_nil {s : String} : utf8 s = [] ↔ s = "" :=
  ⟨fun empty => utf8_injective (empty.trans rfl), fun empty => empty ▸ rfl⟩

theorem ne_ofNat {b : UInt8} (ascii : b.toNat < 128) {n : Nat} (high : 128 ≤ n) (fits : n < 256) :
    b ≠ UInt8.ofNat n := by
  intro same
  have value : b.toNat = n := by rw [same, UInt8.toNat_ofNat']; omega
  omega

theorem mem_utf8EncodeChar {b : UInt8} (ascii : b.toNat < 128) (c : Char) :
    b ∈ String.utf8EncodeChar c ↔ c.toNat = b.toNat := by
  -- only a character below 128 has a byte below 128: its own
  have number : c.toNat = c.val.toNat := rfl
  rw [number]
  unfold String.utf8EncodeChar
  dsimp only
  split
  · rename_i one
    rw [List.mem_singleton]
    constructor
    · intro same
      rw [same, UInt8.toNat_ofNat']
      omega
    · intro same
      rw [same, UInt8.ofNat_toNat]
  · rename_i wide
    apply iff_of_false _ (by omega)
    have lead (n : Nat) := ne_ofNat ascii (n := n)
    split
    · simp only [List.mem_cons, List.not_mem_nil, or_false, not_or]
      exact ⟨lead _ (by omega) (by omega), lead _ (by omega) (by omega)⟩
    · split
      · simp only [List.mem_cons, List.not_mem_nil, or_false, not_or]
        exact ⟨lead _ (by omega) (by omega), lead _ (by omega) (by omega), lead _ (by omega) (by omega)⟩
      · simp only [List.mem_cons, List.not_mem_nil, or_false, not_or]
        exact ⟨lead _ (by omega) (by omega), lead _ (by omega) (by omega), lead _ (by omega) (by omega),
          lead _ (by omega) (by omega)⟩

/-- An ASCII byte stands for its character, and for nothing else. -/
theorem mem_utf8_iff {b : UInt8} (ascii : b.toNat < 128) (s : String) :
    b ∈ utf8 s ↔ ∃ c ∈ s.toList, c.toNat = b.toNat := by
  rw [utf8_eq, List.mem_flatMap]
  simp only [mem_utf8EncodeChar ascii]

end Text
