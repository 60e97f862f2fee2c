import ObjectFile.Proofs.Stream
/-!
# Texts one behind another

A text stands behind its length in bytes, so it is read without a look at what it is made of:
its bytes may be those of markers or of numbers, and they need not be those of characters.
Texts that are written one behind another are read back one after another, and the bytes of a
text that is ill-formed are taken just as those of any other (`Reader.serve_texts`).

The text that is read has the very bytes that stand there just if these are well-formed
(`Utf8.encode_decode_iff`).
-/

namespace ObjectFile

open Grammar (Text Sequence)

/-- What is read has the bytes it was read from just if these are well-formed. -/
theorem Utf8.encode_decode_iff {p : List UInt8} :
    encode (decode p) = p ↔ p.toByteArray.IsValidUTF8 := by
  constructor
  · intro h
    refine ⟨(decode p).toList, ?_⟩
    rw [List.utf8Encode, ← Utf8.encode, h]
  · rintro ⟨cs, hcs⟩
    have hp : p = encode (String.ofList cs) := by
      have hdata := congrArg ByteArray.data hcs
      rw [List.utf8Encode, List.data_toByteArray, List.data_toByteArray] at hdata
      rw [encode, String.toList_ofList]
      exact List.toArray_inj hdata
    rw [hp, decode_encode]

namespace Grammar

/-- Any bytes behind their number are a word of a text. -/
theorem text_payload {p : List UInt8} (h : p.length < 2 ^ 63) :
    Text (Varint.encode (Int64.ofNat p.length) ++ p) (Utf8.decode p) :=
  ⟨p, rfl, inOrder_cons (length_encode h) (inOrder_last rfl)⟩

theorem sequence_encodeText {texts : List String}
    (h : ∀ t ∈ texts, (Utf8.encode t).length < 2 ^ 63) :
    Sequence Text (texts.flatMap Varint.encodeText) texts :=
  sequence_flatMap fun t ht => text_encodeText (h t ht)

end Grammar

namespace Reader

variable {r : Reader} {n : Nat} {w : List UInt8} {rest : List Signal} {texts : List String}

theorem Stands.perform_text {t : String} (hr : r.Stands none n (w.map .byte ++ rest))
    (hw : Text w t) :
    ∃ u, r.perform .text = (.ok (.text t), u) ∧ u.Stands none (n + w.length) rest := by
  rw [← Parser.accepts_text] at hw
  exact hr.attempt_of_decides (Parser.Decides.map hw Reply.text)

/-- Texts that are written one behind another are read back, whatever follows them: all bytes
that were written are taken and none behind them.  Any bytes at all that stand behind their
number are read as a text, and just these bytes and the number are taken; the text has the same
bytes just if they are well-formed.

The bound on lengths is that on all texts and lists in memory. -/
theorem serve_texts (hsize : ∀ t ∈ texts, (Utf8.encode t).length < 2 ^ 63)
    (hr : r.Stands none n ((texts.flatMap Varint.encodeText).map .byte ++ rest)) :
    (r.serve (List.replicate texts.length .text)).map Prod.fst =
        texts.map (fun t => .ok (.text t)) ∧
      (r.after (List.replicate texts.length .text)).Stands none
        (n + (texts.flatMap Varint.encodeText).length) rest ∧
      ∀ (p : List UInt8) (u : Reader) (k : Nat) (later : List Signal), p.length < 2 ^ 63 →
        u.Stands none k ((Varint.encode (Int64.ofNat p.length) ++ p).map .byte ++ later) →
        ∃ t v, u.perform .text = (.ok (.text t), v) ∧
          v.Stands none (k + ((Varint.encode (Int64.ofNat p.length)).length + p.length)) later ∧
          t = Utf8.decode p ∧ (Utf8.encode t = p ↔ p.toByteArray.IsValidUTF8) := by
  obtain ⟨hanswers, hafter⟩ :=
    serve_sequence (Grammar.sequence_encodeText hsize) hr Stands.perform_text
  refine ⟨hanswers, hafter, fun p u k later hp hu => ?_⟩
  obtain ⟨v, hv, hstands⟩ := hu.perform_text (Grammar.text_payload hp)
  rw [List.length_append] at hstands
  exact ⟨_, v, hv, hstands, rfl, Utf8.encode_decode_iff⟩

/-- Characters of two, three and four bytes, in deliveries that cut the second of them, no
characters at all, and bytes that no text has, behind which a marker stands. -/
theorem serve_texts_cut :
    let texts := ["é€😀", "", "go19ld"]
    let bytes := texts.flatMap Varint.encodeText
    let r := ofEvents
      [.data (bytes.take 4), .failure .interrupted "", .data (bytes.drop 4 ++ [0xFF])]
    let p : List UInt8 := [0xFF, 0xC3, 0xFE]
    let u := ofEvents [.data (0x06 :: p ++ [0xFF])]
    ((∀ t ∈ texts, (Utf8.encode t).length < 2 ^ 63) ∧
      r.Stands none 0 (bytes.map .byte ++ [.byte 0xFF]) ∧ bytes.length = 18) ∧
    ((r.serve (List.replicate 3 .text)).map Prod.fst = texts.map (fun t => .ok (.text t)) ∧
      (r.after (List.replicate 3 .text)).Stands none 18 [.byte 0xFF]) ∧
    ∃ t v, u.perform .text = (.ok (.text t), v) ∧ v.Stands none 4 [.byte 0xFF] ∧
      Utf8.encode t ≠ p := by
  intro texts bytes r p u
  have hsize : ∀ t ∈ texts, (Utf8.encode t).length < 2 ^ 63 := by decide +kernel
  have hr : r.Stands none 0 (bytes.map .byte ++ [.byte 0xFF]) := ⟨rfl, rfl, by decide +kernel⟩
  have hlength : bytes.length = 18 := by decide +kernel
  obtain ⟨hanswers, hafter, hpayload⟩ := serve_texts hsize hr
  rw [hlength] at hafter
  have hu : u.Stands none 0 ((Varint.encode (Int64.ofNat p.length) ++ p).map .byte ++ [.byte 0xFF]) :=
    ⟨rfl, rfl, by decide +kernel⟩
  have htaken : 0 + ((Varint.encode (Int64.ofNat p.length)).length + p.length) = 4 := by
    decide +kernel
  obtain ⟨t, v, ht, hv, -, hvalid⟩ := hpayload p u 0 _ (by decide) hu
  rw [htaken] at hv
  have hinvalid : ¬ p.toByteArray.IsValidUTF8 := by
    rw [← ByteArray.validateUTF8_eq_true_iff]
    decide +kernel
  exact ⟨⟨hsize, hr, hlength⟩, ⟨hanswers, hafter⟩, t, v, ht, hv, mt hvalid.1 hinvalid⟩

end Reader

end ObjectFile
