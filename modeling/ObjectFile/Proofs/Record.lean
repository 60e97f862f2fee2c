import ObjectFile.Proofs.Number
/-!
# Records

The parsers of records accept exactly the words of records.  Each of these parsers reads one
field after another and puts them together at the end, so each proof goes through the fields
in the order of the file (`Parser.accepts_field`), and compares at the end what was put
together with the record.
-/

namespace ObjectFile

/-- Number 1 is that of executable symbols. -/
theorem Symbol.Kind.isText_iff {kind : Symbol.Kind} : kind.isText = true ↔ kind.toByte = 1 := by
  rw [isText, decide_eq_true_iff]
  constructor
  · rintro rfl
    rfl
  · intro h
    rw [← ofByte_toByte kind, h]
    rfl

namespace Parser

open Grammar (Number Counted InOrder)

variable {α β : Type}

/-! ## Fields -/

/-- A parser that reads a field of `b` first and goes on with what is left of the parts
accepts the words of these parts one behind another.  The condition `C` says which of the
fields before are those of `b`. -/
theorem accepts_field {p : Parser α} {g : α → Parser β} [p.Firm] [∀ a, (g a).Firm]
    {item : List UInt8 → α → Prop} {field : α} {parts : List (List UInt8 → Prop)} {C : Prop}
    {w : List UInt8} {b : β} (hp : p.Accepts = item)
    (hg : ∀ a v, (g a).Accepts v b ↔ (C ∧ field = a) ∧ InOrder parts v) :
    (p >>= g).Accepts w b ↔ C ∧ InOrder ((item · field) :: parts) w := by
  subst hp
  rw [accepts_bind]
  constructor
  · rintro ⟨u, v, a, rfl, hu, hga⟩
    obtain ⟨⟨hC, rfl⟩, hv⟩ := (hg a v).1 hga
    exact ⟨hC, u, v, rfl, hu, hv⟩
  · rintro ⟨hC, u, v, rfl, hu, hv⟩
    exact ⟨u, v, field, rfl, hu, (hg field v).2 ⟨⟨hC, rfl⟩, hv⟩⟩

/-- When all fields are read there is nothing left. -/
theorem accepts_fields_end {a b : α} {C : Prop} {w : List UInt8} (h : b = a ↔ C) :
    (pure a : Parser α).Accepts w b ↔ C ∧ InOrder [] w := by
  rw [accepts_pure, h, and_comm]
  rfl

theorem accepts_octet : byte.Accepts = fun w b => w = [b] :=
  funext fun _ => funext fun _ => propext accepts_byte

/-! ## Lists -/

instance (item : Parser α) [item.Steady] : (counted item).Steady := by
  unfold counted
  infer_instance

/-- A list has as many items as the number in front of it says. -/
theorem accepts_counted {item : Parser α} [item.Steady] {words : List UInt8 → α → Prop}
    (h : item.Accepts = words) : (counted item).Accepts = Counted words := by
  subst h
  ext w as
  simp only [counted, accepts_bind, accepts_varint, accepts_replicate]
  constructor
  · rintro ⟨u, v, count, rfl, hu, hlen, hv⟩
    exact ⟨count, hlen, u, v, rfl, hu, v, [], by simp, hv, rfl⟩
  · rintro ⟨count, hlen, u, _, rfl, hu, v, _, rfl, hv, rfl⟩
    exact ⟨u, _, count, rfl, hu, hlen, by simpa using hv⟩

/-! ## References, relocations, variables and inlined calls -/

instance : reference.Steady := by
  unfold reference
  infer_instance

theorem accepts_reference : reference.Accepts = Grammar.Reference := by
  ext w r
  rw [Grammar.Reference, ← true_and (InOrder _ w), reference]
  refine accepts_field accepts_text fun name _ => ?_
  refine accepts_field accepts_varint fun version _ => ?_
  refine accepts_fields_end ?_
  cases r
  simp

instance : relocation.Steady := by
  unfold relocation
  infer_instance

theorem accepts_relocation : relocation.Accepts = Grammar.Relocation := by
  ext w r
  rw [Grammar.Relocation, ← true_and (InOrder _ w), relocation]
  refine accepts_field accepts_varint fun offset _ => ?_
  refine accepts_field accepts_varint fun size _ => ?_
  refine accepts_field accepts_varint fun code _ => ?_
  refine accepts_field accepts_varint fun addend _ => ?_
  refine accepts_field accepts_varint fun target _ => ?_
  refine accepts_fields_end ?_
  obtain ⟨_, _, ⟨_⟩, _, _⟩ := r
  simp [and_assoc]

instance : localVariable.Steady := by
  unfold localVariable
  infer_instance

theorem accepts_localVariable : localVariable.Accepts = Grammar.Local := by
  ext w l
  rw [Grammar.Local, ← true_and (InOrder _ w), localVariable]
  refine accepts_field accepts_varint fun id _ => ?_
  refine accepts_field accepts_varint fun offset _ => ?_
  refine accepts_field accepts_varint fun variableKind _ => ?_
  refine accepts_field accepts_varint fun type _ => ?_
  refine accepts_fields_end ?_
  cases l
  simp [and_assoc]

instance : inlinedCall.Steady := by
  unfold inlinedCall
  infer_instance

theorem accepts_inlinedCall : inlinedCall.Accepts = Grammar.InlinedCall := by
  ext w c
  rw [Grammar.InlinedCall, ← true_and (InOrder _ w), inlinedCall]
  refine accepts_field accepts_varint fun parent _ => ?_
  refine accepts_field accepts_varint fun file _ => ?_
  refine accepts_field accepts_varint fun line _ => ?_
  refine accepts_field accepts_varint fun callee _ => ?_
  refine accepts_fields_end ?_
  cases c
  simp [and_assoc]

/-! ## Functions -/

instance : functionData.Steady := by
  unfold functionData
  infer_instance

theorem accepts_functionData : functionData.Accepts = Grammar.FunctionData := by
  ext w data
  simp only [functionData, accepts_bind, accepts_varint, accepts_replicate,
    accepts_pure]
  constructor
  · rintro ⟨u, _, count, rfl, hu, v, _, ids, rfl, ⟨hids, hv⟩, x, _, offsets, rfl,
      ⟨hoffsets, hx⟩, rfl, rfl⟩
    have hfst : (ids.zip offsets).map Prod.fst = ids := List.map_fst_zip (by omega)
    have hsnd : (ids.zip offsets).map Prod.snd = offsets := List.map_snd_zip (by omega)
    refine ⟨count, by simp [hids, hoffsets], u, _, rfl, hu, v, _, rfl, ?_, x, [], rfl, ?_, rfl⟩
    · rwa [hfst]
    · rwa [hsnd]
  · rintro ⟨count, hlen, u, _, rfl, hu, v, _, rfl, hv, x, _, rfl, hx, rfl⟩
    have hdata : data = (data.map Prod.fst).zip (data.map Prod.snd) :=
      List.zip_of_prod rfl rfl
    exact ⟨u, _, count, rfl, hu, v, _, data.map Prod.fst, rfl, ⟨by simpa using hlen, hv⟩,
      x, [], data.map Prod.snd, rfl, ⟨by simpa using hlen, hx⟩, rfl, hdata⟩

instance : functionRecord.Steady := by
  unfold functionRecord
  infer_instance

theorem accepts_functionRecord : functionRecord.Accepts = Grammar.FunctionRecord := by
  ext w f
  rw [Grammar.FunctionRecord, ← true_and (InOrder _ w), functionRecord]
  refine accepts_field accepts_varint fun args _ => ?_
  refine accepts_field accepts_varint fun frame _ => ?_
  refine accepts_field accepts_varint fun flags _ => ?_
  refine accepts_field accepts_varint fun noSplit _ => ?_
  refine accepts_field (accepts_counted accepts_localVariable) fun locals _ => ?_
  refine accepts_field accepts_varint fun stackMapSize _ => ?_
  refine accepts_field accepts_varint fun fileTableSize _ => ?_
  refine accepts_field accepts_varint fun lineTableSize _ => ?_
  refine accepts_field accepts_varint fun inlineTableSize _ => ?_
  refine accepts_field (accepts_counted accepts_varint) fun auxTableSizes _ => ?_
  refine accepts_field accepts_functionData fun data _ => ?_
  refine accepts_field (accepts_counted accepts_varint) fun fileIds _ => ?_
  refine accepts_field (accepts_counted accepts_inlinedCall) fun inlined _ => ?_
  refine accepts_fields_end ?_
  cases f
  simp [and_assoc]

/-! ## Symbols -/

instance (c : Prop) [Decidable c] (p : c → Parser α) (q : ¬ c → Parser α) [∀ h, (p h).Steady]
    [∀ h, (q h).Steady] : (dite c p q).Steady := by
  split <;> infer_instance

instance : symbolRecord.Steady := by
  unfold symbolRecord
  infer_instance

/-- What follows the relocations: the kind decides whether there is a function part. -/
theorem accepts_functionPart {kind : Symbol.Kind} {id flags size type dataSize : Int64}
    {relocations : List Relocation} {r : SymbolRecord} {v : List UInt8} :
    (if h : kind.isText then do
        let f ← functionRecord
        return { kind, id, flags, size, type, dataSize, relocations
                 function := some f, textual := h.symm }
      else
        return { kind, id, flags, size, type, dataSize, relocations
                 function := none, textual := by simpa using h }
        : Parser SymbolRecord).Accepts v r ↔
      (r.kind = kind ∧ r.id = id ∧ r.flags = flags ∧ r.size = size ∧ r.type = type ∧
        r.dataSize = dataSize ∧ r.relocations = relocations) ∧
        Grammar.FunctionPart v r.function := by
  constructor
  · intro h
    split at h
    case isTrue htext =>
      simp only [accepts_bind, accepts_functionRecord, accepts_pure] at h
      obtain ⟨u, _, f, rfl, hf, rfl, rfl⟩ := h
      rw [List.append_nil]
      exact ⟨⟨rfl, rfl, rfl, rfl, rfl, rfl, rfl⟩, hf⟩
    case isFalse hother =>
      obtain ⟨rfl, rfl⟩ := accepts_pure.1 h
      exact ⟨⟨rfl, rfl, rfl, rfl, rfl, rfl, rfl⟩, rfl⟩
  · rintro ⟨⟨rfl, rfl, rfl, rfl, rfl, rfl, rfl⟩, hv⟩
    obtain ⟨kind, id, flags, size, type, dataSize, relocations, function, textual⟩ := r
    cases function with
    | none =>
      have hother : ¬ kind.isText = true := by simpa using textual.symm
      rw [dif_neg hother]
      exact accepts_pure.2 ⟨hv, rfl⟩
    | some f =>
      have htext : kind.isText = true := by simpa using textual.symm
      rw [dif_pos htext]
      simp only [accepts_bind, accepts_functionRecord, accepts_pure]
      exact ⟨v, [], f, by simp, hv, rfl, rfl⟩

theorem accepts_symbolRecord : symbolRecord.Accepts = Grammar.SymbolRecord := by
  ext w r
  have hfunction : r.function.isSome ↔ r.kind.toByte = 1 := by
    rw [r.textual, Symbol.Kind.isText_iff]
  rw [Grammar.SymbolRecord, iff_true_intro hfunction]
  refine accepts_field accepts_octet fun number _ => ?_
  refine accepts_field accepts_varint fun id _ => ?_
  refine accepts_field accepts_varint fun flags _ => ?_
  refine accepts_field accepts_varint fun size _ => ?_
  refine accepts_field accepts_varint fun type _ => ?_
  refine accepts_field accepts_varint fun dataSize _ => ?_
  refine accepts_field (accepts_counted accepts_relocation) fun relocations v => ?_
  -- what has been read is the number, where the record has the kind
  have hkind : r.kind = .ofByte number ↔ r.kind.toByte = number := by
    constructor
    · intro h
      rw [h, Symbol.Kind.toByte_ofByte]
    · rintro rfl
      rw [Symbol.Kind.ofByte_toByte]
  rw [accepts_functionPart, hkind]
  simp [InOrder, and_assoc]

/-! ## The data segment -/

instance : segmentHead.Steady := by
  unfold segmentHead
  infer_instance

theorem accepts_segmentHead : segmentHead.Accepts = Grammar.SegmentHead := by
  ext w head
  rw [Grammar.SegmentHead, ← true_and (InOrder _ w), segmentHead]
  refine accepts_field accepts_length fun size _ => ?_
  refine accepts_field accepts_varint fun relocations _ => ?_
  refine accepts_field accepts_varint fun tables _ => ?_
  refine accepts_field accepts_varint fun locals _ => ?_
  refine accepts_field accepts_varint fun functionData _ => ?_
  refine accepts_field accepts_varint fun files _ => ?_
  refine accepts_fields_end ?_
  obtain ⟨_, _, _, _, _, _⟩ := head
  simp [and_assoc]

end Parser

end ObjectFile
