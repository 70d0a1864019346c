import Mathlib.Algebra.Group.Nat.Defs
import ProductTemplates.Digest.Blake3

/-! What the bytes fed to a digest tell: a number of fixed width and a text can be read back, and
the bytes that end a name or a path do not occur in a name. -/
namespace ProductTemplates.Digest

theorem length_littleEndian (count n : Nat) : (littleEndian count n).length = count := by
  induction count generalizing n with
  | zero => rfl
  | succ count ih => rw [littleEndian, List.length_cons, ih]

theorem littleEndian_inj {count m n : Nat} (hm : m < 256 ^ count) (hn : n < 256 ^ count)
    (same : littleEndian count m = littleEndian count n) : m = n := by
  induction count generalizing m n with
  | zero => simp_all
  | succ count ih =>
    obtain ⟨low, high⟩ := List.cons.inj same
    have digit : m % 256 = n % 256 := by
      simpa using congrArg UInt8.toNat low
    rw [Nat.pow_succ] at hm hn
    have := ih (Nat.div_lt_of_lt_mul (by omega)) (Nat.div_lt_of_lt_mul (by omega)) high
    omega

theorem toList_loop (bytes : ByteArray) (i : Nat) (done : List UInt8) :
    ByteArray.toList.loop bytes i done = done.reverse ++ bytes.data.toList.drop i := by
  fun_induction ByteArray.toList.loop bytes i done with
  | case1 i done h ih =>
    have inside : i < bytes.data.toList.length := h
    rw [ih, List.drop_eq_getElem_cons inside, List.reverse_cons, List.append_assoc,
      List.singleton_append, ByteArray.get!, getElem!_pos bytes.data i h, Array.getElem_toList]
  | case2 i done h =>
    have past : bytes.data.toList.length ≤ i := Nat.le_of_not_lt h
    rw [List.drop_eq_nil_of_le past, List.append_nil]

theorem utf8_eq (text : String) :
    text.toUTF8.toList = text.toList.flatMap String.utf8EncodeChar := by
  rw [ByteArray.toList, toList_loop]
  obtain ⟨cs, rfl⟩ := text.exists_eq_ofList
  simp [List.utf8Encode]

theorem utf8_append (s t : String) :
    (s ++ t).toUTF8.toList = s.toUTF8.toList ++ t.toUTF8.toList := by
  simp only [utf8_eq, String.toList_append, List.flatMap_append]

theorem utf8_inj {s t : String} (same : s.toUTF8.toList = t.toUTF8.toList) : s = t := by
  rw [ByteArray.toList, ByteArray.toList, toList_loop, toList_loop] at same
  apply String.toByteArray_inj.1
  apply ByteArray.ext
  exact Array.toList_inj.1 (by simpa using same)

theorem fromUTF8?_utf8 (text : String) :
    String.fromUTF8? ⟨text.toUTF8.toList.toArray⟩ = some text := by
  have bytes : (⟨text.toUTF8.toList.toArray⟩ : ByteArray) = text.toUTF8 := by
    apply ByteArray.ext
    rw [ByteArray.toList, toList_loop, List.reverse_nil, List.nil_append, List.drop_zero,
      Array.toArray_toList]
  have valid : text.toUTF8.IsValidUTF8 := text.isValidUTF8
  rw [bytes, String.fromUTF8?, dif_pos valid]
  rfl

/-- The encoding of a character has no byte as large as 248, and a byte below 128 only as itself. -/
theorem mem_utf8EncodeChar {c : Char} {byte : UInt8} (h : byte ∈ String.utf8EncodeChar c) :
    byte.toNat < 248 ∧ (byte.toNat < 128 → c.toNat = byte.toNat) := by
  have small : c.val.toNat < 0x110000 := by
    rcases c.valid with low | ⟨-, high⟩
    · exact Nat.lt_trans low (by decide)
    · exact high
  unfold String.utf8EncodeChar at h
  simp only at h
  split at h
  · obtain rfl := List.mem_singleton.1 h
    rw [UInt8.toNat_ofNat', Char.toNat]
    omega
  · suffices large : 128 ≤ byte.toNat ∧ byte.toNat < 248 from ⟨large.2, by omega⟩
    split at h
    · simp only [List.mem_cons, List.not_mem_nil, or_false] at h
      rcases h with rfl | rfl <;> rw [UInt8.toNat_ofNat'] <;> omega
    · split at h
      · simp only [List.mem_cons, List.not_mem_nil, or_false] at h
        rcases h with rfl | rfl | rfl <;> rw [UInt8.toNat_ofNat'] <;> omega
      · simp only [List.mem_cons, List.not_mem_nil, or_false] at h
        rcases h with rfl | rfl | rfl | rfl <;> rw [UInt8.toNat_ofNat'] <;> omega

theorem ff_not_mem_utf8 (text : String) : 0xFF ∉ text.toUTF8.toList := by
  rw [utf8_eq, List.mem_flatMap]
  rintro ⟨c, -, inside⟩
  exact absurd (mem_utf8EncodeChar inside).1 (by decide)

/-- An ASCII character shows in the encoding of a text only where it stands in the text. -/
theorem not_mem_utf8 {text : String} {c : Char} (h : c ∉ text.toList) {byte : UInt8}
    (ascii : byte.toNat < 128) (same : c.toNat = byte.toNat) : byte ∉ text.toUTF8.toList := by
  rw [utf8_eq, List.mem_flatMap]
  rintro ⟨d, member, inside⟩
  have again : d.toNat = c.toNat := same ▸ (mem_utf8EncodeChar inside).2 ascii
  exact h (Char.toNat_inj.1 again ▸ member)

theorem mem_blake3 {bytes : List UInt8} {c : Char} (h : c ∈ (blake3 bytes).toList) :
    ∃ n < 16, c = Nat.digitChar n := by
  rw [blake3, String.toList_ofList, List.mem_flatMap] at h
  obtain ⟨word, -, h⟩ := h
  obtain ⟨byte, -, h⟩ := List.mem_flatMap.1 h
  have small := byte.toNat_lt
  rw [hexByte, List.mem_cons, List.mem_singleton] at h
  rcases h with rfl | rfl
  · exact ⟨_, by omega, rfl⟩
  · exact ⟨_, by omega, rfl⟩

theorem length_blake3 (bytes : List UInt8) : (blake3 bytes).length = 64 := by
  have hex (n : UInt32) : ((littleEndian 4 n.toNat).flatMap hexByte).length = 8 := rfl
  have words (ws : List UInt32) :
      (ws.flatMap fun w => (littleEndian 4 w.toNat).flatMap hexByte).length = 8 * ws.length := by
    induction ws with
    | nil => rfl
    | cons w rest ih =>
      rw [List.flatMap_cons, List.length_append, hex, ih, List.length_cons]
      omega
  rw [blake3, String.length_ofList, words, Vector.length_toList]

end ProductTemplates.Digest
