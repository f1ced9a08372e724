import ZhiyanRag.Base

/-!
# Characters of identifiers

The patterns of identifiers are checked on UTF-8 bytes. An ASCII character is one byte, so an
identifier has no ASCII character outside its pattern (`notMem_identifier`), and no other characters
(`isAscii_identifier`).
-/

namespace ZhiyanRag

theorem utf8Bytes_eq (s : String) :
    utf8Bytes s = s.toList.utf8Encode.data.toList.map (·.toNat) := by
  unfold utf8Bytes
  rw [← String.toByteArray_ofList, String.ofList_toList]

/-- The bytes of a text that starts with an ASCII character. -/
theorem utf8Encode_ascii_cons {c : Char} (hc : c.toNat < 128) (cs : List Char) :
    (c :: cs).utf8Encode.data.toList.map (·.toNat) = c.toNat ::
      cs.utf8Encode.data.toList.map (·.toNat) := by
  have hsize : c.utf8Size = 1 := by
    rw [Char.utf8Size_eq_one_iff, UInt32.le_iff_toNat_le]
    show c.toNat ≤ 127
    omega
  have hbyte : c.toUInt8.toNat = c.toNat := by
    show c.val.toUInt8.toNat = c.toNat
    rw [UInt32.toNat_toUInt8]
    exact Nat.mod_eq_of_lt (show c.toNat < 2 ^ 8 by omega)
  rw [List.utf8Encode_cons, List.utf8Encode_singleton, String.utf8EncodeChar_eq_singleton hsize]
  simp [hbyte]

theorem utf8Bytes_ofList {cs : List Char} (h : ∀ c ∈ cs, c.toNat < 128) :
    utf8Bytes (String.ofList cs) = cs.map Char.toNat := by
  rw [utf8Bytes_eq, String.toList_ofList]
  induction cs with
  | nil => rfl
  | cons c cs ih =>
    rw [utf8Encode_ascii_cons (h c List.mem_cons_self),
      ih fun d hd => h d (List.mem_cons_of_mem _ hd), List.map_cons]

/-- An ASCII character of a string is one of its bytes. -/
theorem mem_utf8Bytes {s : String} {c : Char} (h : c ∈ s.toList) (hc : c.toNat < 128) :
    c.toNat ∈ utf8Bytes s := by
  rw [utf8Bytes_eq]
  generalize s.toList = cs at h
  induction cs with
  | nil => cases h
  | cons d cs ih =>
    rcases List.mem_cons.mp h with rfl | h
    · rw [utf8Encode_ascii_cons hc]
      exact List.mem_cons_self
    · rw [List.utf8Encode_cons, ByteArray.data_append, Array.toList_append, List.map_append]
      exact List.mem_append_right _ (ih h)

/-- An ASCII character that is none of `[A-Za-z0-9._:-]` is in no identifier. -/
theorem notMem_identifier {c : Char} (hascii : c.toNat < 128) (hc : isIdChar c.toNat = false)
    (id : ContractId) : c ∉ id.val.toList := by
  intro h
  have hpattern := id.property
  have hmem := mem_utf8Bytes h hascii
  unfold contractIdPattern at hpattern
  cases hbytes : utf8Bytes id.val with
  | nil => rw [hbytes] at hmem; cases hmem
  | cons b bs =>
    rw [hbytes] at hmem hpattern
    simp only [Bool.and_eq_true] at hpattern
    obtain ⟨⟨hstart, -⟩, hrest⟩ := hpattern
    rcases List.mem_cons.mp hmem with heq | hmem
    · unfold isIdChar at hc
      rw [heq, hstart] at hc
      cases hc
    · rw [List.all_eq_true.mp hrest _ hmem] at hc
      cases hc

theorem utf8Bytes_injective : Function.Injective utf8Bytes := by
  intro s t h
  have hbytes := List.map_injective_iff.mpr (fun _ _ => UInt8.toNat_inj.mp) h
  exact String.toByteArray_inj.mp (ByteArray.ext (Array.toList_inj.mp hbytes))

/-- A text whose bytes are ASCII is the text of these bytes. -/
theorem ascii_of_utf8Bytes {s : String} (h : ∀ b ∈ utf8Bytes s, b < 128) {c : Char}
    (hc : c ∈ s.toList) : c.toNat < 128 := by
  have hascii : ∀ b < 128, (Char.ofNat b).toNat = b := by decide
  have htoNat : ∀ b ∈ utf8Bytes s, (Char.ofNat b).toNat = b := fun b hb => hascii b (h b hb)
  have htext : s = String.ofList ((utf8Bytes s).map Char.ofNat) := by
    apply utf8Bytes_injective
    rw [utf8Bytes_ofList, List.map_map]
    · exact (List.map_id _).symm.trans (List.map_congr_left fun b hb => (htoNat b hb).symm)
    · intro c hc
      obtain ⟨b, hb, rfl⟩ := List.mem_map.mp hc
      rw [htoNat b hb]
      exact h b hb
  rw [htext, String.toList_ofList] at hc
  obtain ⟨b, hb, rfl⟩ := List.mem_map.mp hc
  rw [htoNat b hb]
  exact h b hb

theorem isIdChar_lt {b : Nat} (h : isIdChar b = true) : b < 128 := by
  simp only [isIdChar, isIdStart, isLower, isUpper, isDigit, Bool.or_eq_true, Bool.and_eq_true,
    decide_eq_true_eq, beq_iff_eq] at h
  omega

theorem isAscii_identifier (id : ContractId) {c : Char} (hc : c ∈ id.val.toList) :
    c.toNat < 128 := by
  refine ascii_of_utf8Bytes (fun b hb => ?_) hc
  have hpattern := id.property
  unfold contractIdPattern at hpattern
  cases hbytes : utf8Bytes id.val with
  | nil =>
    rw [hbytes] at hb
    cases hb
  | cons first rest =>
    rw [hbytes] at hb hpattern
    simp only [Bool.and_eq_true] at hpattern
    obtain ⟨⟨hstart, -⟩, hrest⟩ := hpattern
    rcases List.mem_cons.mp hb with rfl | hb
    · exact isIdChar_lt (by unfold isIdChar; rw [hstart]; rfl)
    · exact isIdChar_lt (List.all_eq_true.mp hrest _ hb)

/-- An identifier has no white space to strip. -/
theorem stripWhitespace_identifier {s : String} (h : contractIdPattern s = true) :
    stripWhitespace s = s := by
  have hnone : ∀ c ∈ s.toList, isWhiteSpace c = false := by
    intro c hc
    have hascii := isAscii_identifier ⟨s, h⟩ hc
    have hnot : ∀ n < 128, isWhiteSpace (Char.ofNat n) = true → isIdChar n = false := by decide
    cases hspace : isWhiteSpace c with
    | false => rfl
    | true =>
      refine absurd hc (notMem_identifier hascii (hnot c.toNat hascii ?_) ⟨s, h⟩)
      rw [Char.ofNat_toNat]
      exact hspace
  unfold stripWhitespace
  rw [if_neg]
  intro hends
  rcases (Bool.or_eq_true _ _).mp hends with hends | hends
  · obtain ⟨c, hc, hspace⟩ := (Option.any_eq_true _ _).mp hends
    rw [hnone c (List.mem_of_head? hc)] at hspace
    cases hspace
  · obtain ⟨c, hc, hspace⟩ := (Option.any_eq_true _ _).mp hends
    rw [hnone c (List.mem_of_getLast? hc)] at hspace
    cases hspace

theorem coerceContractId_of_identifier {field s : String} (h : contractIdPattern s = true) :
    coerceContractId field s = .ok s := by
  unfold coerceContractId
  rw [stripWhitespace_identifier h, if_pos h]

end ZhiyanRag
