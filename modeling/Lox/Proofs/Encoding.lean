import Lox.CommandLine.Folder

/-!
# The bytes of a text

A text is encoded character by character. An ASCII character is encoded by its own code, and no
other character has such a code among its bytes. So what ends a line can be looked for among the
bytes of a text as well as among its characters.

## Main definitions

* `bytesOf`: the bytes of a text

## Main results

* `bytesOf_eq_flatMap`: the bytes of a text, character by character
* `toNat_eq_of_mem_utf8EncodeChar`: a byte below 128 is the code of its character
* `decode_bytesOf`, `exists_bytesOf`: what is decoded is the bytes of a text
-/

namespace Lox.CommandLine

/-- The loop that lists bytes has listed those before its index. -/
theorem toList_loop_eq {bytes : ByteArray} {done rest : List UInt8}
    (h : bytes.data.toList = done.reverse ++ rest) :
    ByteArray.toList.loop bytes done.length done = bytes.data.toList := by
  have hsize : bytes.size = done.length + rest.length := by
    rw [← ByteArray.size_data, ← Array.length_toList, h, List.length_append, List.length_reverse]
  induction rest generalizing done with
  | nil =>
    rw [ByteArray.toList.loop, if_neg (by simp [hsize]), h, List.append_nil]
  | cons b rest ih =>
    have hb : bytes.get! done.length = b := by
      have hget : bytes.data[done.length]? = some b := by
        rw [← Array.getElem?_toList, h, List.getElem?_append_right (by simp)]
        simp
      rw [ByteArray.get!, getElem!_def, hget]
    rw [ByteArray.toList.loop, if_pos (by simp [hsize]), hb]
    have next : bytes.data.toList = (b :: done).reverse ++ rest := by simp [h]
    exact ih next (by rw [hsize, List.length_cons, List.length_cons]; omega)

theorem toList_eq_data_toList (bytes : ByteArray) : bytes.toList = bytes.data.toList := by
  have start : bytes.data.toList = List.reverse [] ++ bytes.data.toList := rfl
  exact toList_loop_eq start

/-- The bytes of a text. -/
def bytesOf (text : String) : List UInt8 := text.toUTF8.toList

/-- **The bytes of a text**, character by character. -/
theorem bytesOf_eq_flatMap (text : String) :
    bytesOf text = text.toList.flatMap String.utf8EncodeChar := by
  obtain ⟨cs, rfl⟩ : ∃ cs, text = String.ofList cs := ⟨_, String.ofList_toList.symm⟩
  rw [bytesOf, toList_eq_data_toList, String.toList_ofList]
  exact List.toList_data_toByteArray

/-- **A byte below 128 is the code of its character.** All bytes of an encoding by several bytes are
above. -/
theorem toNat_eq_of_mem_utf8EncodeChar {b : UInt8} {c : Char} (h : b ∈ String.utf8EncodeChar c)
    (hb : b.toNat < 128) : c.toNat = b.toNat := by
  have hv : c.toNat = c.val.toNat := rfl
  unfold String.utf8EncodeChar at h
  dsimp only at h
  split at h
  · rw [List.mem_singleton.mp h, UInt8.toNat_ofNat']
    omega
  · split at h
    · simp only [List.mem_cons, List.not_mem_nil, or_false] at h
      rcases h with rfl | rfl <;> rw [UInt8.toNat_ofNat'] at hb <;> omega
    · split at h
      · simp only [List.mem_cons, List.not_mem_nil, or_false] at h
        rcases h with rfl | rfl | rfl <;> rw [UInt8.toNat_ofNat'] at hb <;> omega
      · simp only [List.mem_cons, List.not_mem_nil, or_false] at h
        rcases h with rfl | rfl | rfl | rfl <;> rw [UInt8.toNat_ofNat'] at hb <;> omega

/-- The bytes of a text are decoded again. -/
theorem decode_bytesOf (text : String) : decode ⟨(bytesOf text).toArray⟩ = .ok text := by
  rw [bytesOf, toList_eq_data_toList, Array.toArray_toList]
  exact decode_toUTF8 text

/-- Only the bytes of a text are decoded to it. -/
theorem eq_toUTF8_of_decode {bytes : ByteArray} {text : String} (h : decode bytes = .ok text) :
    bytes = text.toUTF8 := by
  by_cases hv : bytes.IsValidUTF8
  · have hbytes : bytes = (String.fromUTF8 bytes hv).toUTF8 := rfl
    rw [hbytes, decode_toUTF8] at h
    rw [← Except.ok.inj h, ← hbytes]
  · cases (decode_of_not_isValidUTF8 hv).symm.trans h

theorem exists_bytesOf {bytes : List UInt8} (h : ByteArray.IsValidUTF8 ⟨bytes.toArray⟩) :
    ∃ text, bytesOf text = bytes := by
  refine ⟨String.fromUTF8 ⟨bytes.toArray⟩ h, ?_⟩
  rw [bytesOf, toList_eq_data_toList]
  rfl

end Lox.CommandLine
