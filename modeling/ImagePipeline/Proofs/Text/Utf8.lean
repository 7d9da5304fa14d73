/-! The bytes that a text is written in. They tell texts apart, and only the character zero has
the byte zero among them. -/
namespace ImagePipeline.Text

theorem byteList_loop (bytes : ByteArray) (i : Nat) (front : List UInt8) :
    ByteArray.toList.loop bytes i front = front.reverse ++ bytes.data.toList.drop i := by
  fun_induction ByteArray.toList.loop bytes i front with
  | case1 i front inside ih =>
    have here : i < bytes.data.toList.length := inside
    have byte : bytes.get! i = bytes.data[i] := getElem!_pos bytes.data i inside
    rw [ih, List.drop_eq_getElem_cons here, byte, List.reverse_cons, List.append_assoc,
      List.singleton_append, Array.getElem_toList]
  | case2 i front outside =>
    rw [List.drop_eq_nil_of_le (Nat.le_of_not_lt outside), List.append_nil]

theorem byteList_eq (bytes : ByteArray) : bytes.toList = bytes.data.toList := by
  rw [ByteArray.toList, byteList_loop, List.drop_zero, List.reverse_nil, List.nil_append]

/-- The bytes of a text are those of its characters in turn. -/
theorem toUTF8_toList (s : String) : s.toUTF8.toList = s.toList.flatMap String.utf8EncodeChar := by
  have bytes : s.toByteArray = (s.toList.flatMap String.utf8EncodeChar).toByteArray :=
    s.utf8Encode_toList.symm
  rw [byteList_eq, String.toUTF8_eq_toByteArray, bytes, List.toList_data_toByteArray]

theorem toUTF8_toList_inj {s t : String} : s.toUTF8.toList = t.toUTF8.toList ↔ s = t := by
  rw [byteList_eq, byteList_eq, Array.toList_inj, ← ByteArray.ext_iff, String.toUTF8_eq_toByteArray,
    String.toUTF8_eq_toByteArray, String.toByteArray_inj]

theorem zero_eq_ofNat_iff {n : Nat} : 0 = UInt8.ofNat n ↔ n % 256 = 0 := by
  rw [← UInt8.toNat_inj, UInt8.toNat_ofNat']
  exact eq_comm

/-- The bytes of a longer character all have their highest bit. -/
theorem zero_mem_utf8EncodeChar {c : Char} (zero : 0 ∈ String.utf8EncodeChar c) : c = '\x00' := by
  revert zero
  fun_cases String.utf8EncodeChar c with
  | case1 value short =>
    rw [List.mem_singleton, zero_eq_ofNat_iff]
    intro zero
    have least : c.val.toNat = 0 := by omega
    exact Char.ext (UInt32.toNat_inj.mp least)
  | case2 | case3 | case4 =>
    simp only [List.mem_cons, List.not_mem_nil, or_false, zero_eq_ofNat_iff]
    intro zero
    omega

theorem zero_not_mem_toUTF8 {s : String} (plain : '\x00' ∉ s.toList) : 0 ∉ s.toUTF8.toList := by
  rw [toUTF8_toList]
  intro member
  obtain ⟨c, among, zero⟩ := List.mem_flatMap.mp member
  exact plain (zero_mem_utf8EncodeChar zero ▸ among)

end ImagePipeline.Text
