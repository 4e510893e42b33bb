import AmountPad.Session.Transcript

/-!
# Lines as bytes

A line is decoded to the text that it encodes.  A line feed or a carriage return
among the bytes is one among the characters, so a line without line feeds stays in
one piece, and dropping a carriage return drops a blank.
-/

namespace AmountPad.Session

/-- A line is decoded to the text that it encodes. -/
theorem decode?_eq_some_iff {line : List UInt8} {text : Text} :
    decode? line = some text ↔ encode text = line := by
  have bytes : (⟨line.toArray⟩ : ByteArray) = line.toByteArray :=
    ByteArray.ext List.data_toByteArray.symm
  rw [decode?, bytes]
  simp only [String.fromUTF8?, Option.map_eq_some_iff]
  constructor
  · rintro ⟨string, read, rfl⟩
    split at read
    · cases read
      apply List.toByteArray_inj.mp
      exact String.utf8Encode_toList
    · cases read
  · intro encoded
    have bytesEq : line.toByteArray = text.utf8Encode :=
      (congrArg List.toByteArray encoded).symm
    have valid : line.toByteArray.IsValidUTF8 := ⟨text, bytesEq⟩
    refine ⟨String.ofList text, ?_, String.toList_ofList⟩
    rw [dif_pos valid]
    apply congrArg
    apply String.toByteArray_inj.mp
    rw [String.toByteArray_ofList]
    exact bytesEq

theorem decode?_encode (text : Text) : decode? (encode text) = some text :=
  decode?_eq_some_iff.mpr rfl

/-- Where the byte of a character of one byte is found, the character is. -/
theorem eq_of_mem_utf8EncodeChar {c d : Char} {byte : UInt8}
    (single : String.utf8EncodeChar d = [byte]) (member : byte ∈ String.utf8EncodeChar c) :
    c = d := by
  obtain ⟨index, bound, byteEq⟩ := List.mem_iff_getElem.mp member
  -- A byte that stands for a character by itself never goes on with another one.
  have isFirst : byte.IsUTF8FirstByte := by
    have first := @UInt8.isUTF8FirstByte_getElem_zero_utf8EncodeChar d
    simpa only [single, List.getElem_cons_zero] using first
  rw [← byteEq, UInt8.isUTF8FirstByte_getElem_utf8EncodeChar] at isFirst
  subst isFirst
  have front : String.utf8EncodeChar c =
      String.utf8EncodeChar d ++ (String.utf8EncodeChar c).tail := by
    rw [single, ← byteEq, List.singleton_append,
      ← List.head_eq_getElem_zero String.utf8EncodeChar_ne_nil, List.cons_head_tail]
  have decodedSelf : (String.utf8EncodeChar c).toByteArray.utf8DecodeChar? 0 = some c := by
    rw [← List.utf8Encode_singleton]
    exact List.utf8DecodeChar?_utf8Encode_singleton
  have decodedOther : (String.utf8EncodeChar c).toByteArray.utf8DecodeChar? 0 = some d := by
    rw [front, List.toByteArray_append]
    exact ByteArray.utf8DecodeChar?_utf8EncodeChar_append
  exact Option.some.inj (decodedSelf.symm.trans decodedOther)

/-- A text without a line feed has none among its bytes. -/
theorem lineFeed_notMem_encode {text : Text} (oneLine : '\n' ∉ text) :
    lineFeed ∉ encode text := by
  intro member
  obtain ⟨c, inText, inChar⟩ := List.mem_flatMap.mp member
  have single : String.utf8EncodeChar '\n' = [lineFeed] := by decide
  rw [eq_of_mem_utf8EncodeChar single inChar] at inText
  exact oneLine inText

theorem encode_append (first second : Text) :
    encode (first ++ second) = encode first ++ encode second :=
  List.flatMap_append

theorem encode_singleton (c : Char) : encode [c] = String.utf8EncodeChar c :=
  List.flatMap_singleton _ _

/-- What is encoded with a carriage return at its end has one at its end. -/
theorem exists_of_encode_eq_append {text : Text} {line : List UInt8}
    (encoded : encode text = line ++ [carriageReturn]) : ∃ front, encode front = line := by
  have single : String.utf8EncodeChar '\r' = [carriageReturn] := by decide
  rcases List.eq_nil_or_concat text with rfl | ⟨front, c, rfl⟩
  · simp [encode] at encoded
  · rw [List.concat_eq_append, encode_append, encode_singleton] at encoded
    have last := congrArg List.getLast? encoded
    rw [List.getLast?_append_of_ne_nil _ String.utf8EncodeChar_ne_nil,
      List.getLast?_concat] at last
    have isReturn := eq_of_mem_utf8EncodeChar single (List.mem_of_getLast? last)
    rw [isReturn, single] at encoded
    exact ⟨front, List.append_cancel_right encoded⟩

/-- A carriage return behind a line is one behind its text. -/
theorem decode?_append_carriageReturn (line : List UInt8) :
    decode? (line ++ [carriageReturn]) = (decode? line).map (· ++ ['\r']) := by
  cases decoded : decode? line with
  | some text =>
      rw [Option.map_some, decode?_eq_some_iff, encode_append,
        decode?_eq_some_iff.mp decoded]
      rfl
  | none =>
      rw [Option.map_none, Option.eq_none_iff_forall_ne_some]
      intro text found
      obtain ⟨front, encoded⟩ := exists_of_encode_eq_append (decode?_eq_some_iff.mp found)
      rw [decode?_eq_some_iff.mpr encoded] at decoded
      cases decoded

/-- Dropping a carriage return leaves the keys of a line. -/
theorem map_keys_decode?_dropReturn (line : List UInt8) :
    (decode? (dropReturn line)).map keys = (decode? line).map keys := by
  unfold dropReturn
  split
  · rename_i isReturn
    obtain ⟨front, rfl⟩ := List.getLast?_eq_some_iff.mp isReturn
    have blank : ∀ text, keys (text ++ ['\r']) = keys text := by
      intro text
      have isBlankReturn : isBlank '\r' = true := by decide
      simp [keys, isBlankReturn]
    rw [List.dropLast_concat, decode?_append_carriageReturn, Option.map_map]
    exact congrArg (Option.map · (decode? front)) (funext fun text => (blank text).symm)
  · rfl

end AmountPad.Session
