import ObjectFile.Proofs.Answers
import ObjectFile.Proofs.Writing
/-!
# Numbers one behind another

A number says itself where it ends.  So numbers that are written one behind another are read
back one after another, whatever follows them, and what follows is left (`Reader.serve_numbers`,
`Reader.serve_encode`).

A number has many words, of up to ten bytes.  None of them is shorter than the one that is
written (`Grammar.length_encode_le`), as the groups of a word have to have room for the number.
-/

namespace ObjectFile

open Grammar (base128 zigzag Groups Number Numbers Sequence)

namespace Grammar

variable {w : List UInt8} {v : Int64}

/-- Different unsigned numbers stand for different signed ones. -/
theorem zigzag_injective : Function.Injective zigzag := by
  intro m n h
  rw [zigzag, zigzag] at h
  split at h <;> split at h <;> omega

theorem groups_encode (v : Int64) : Groups 10 (Varint.encode v) := (number_encode v).1

/-- No word of a number is shorter than the one that is written. -/
theorem length_encode_le (h : Number w v) : (Varint.encode v).length ≤ w.length := by
  obtain ⟨hgroups, hvalue⟩ := h
  have hword : (Zigzag.encode v).toNat = base128 w % 2 ^ 64 :=
    zigzag_injective (by rw [Zigzag.zigzag_toNat_encode, hvalue])
  -- the groups of the word have room for what it denotes, and no more groups are written
  have hroom : (Zigzag.encode v).toNat < 128 ^ w.length :=
    calc (Zigzag.encode v).toNat = base128 w % 2 ^ 64 := hword
      _ ≤ base128 w := Nat.mod_le _ _
      _ < 128 ^ w.length := base128_lt w
  obtain ⟨front, last, rfl, -⟩ := hgroups
  exact Varint.length_encodeWord_le (by simp) hroom

end Grammar

namespace Reader

variable {α : Type} {r t : Reader} {n : Nat} {w : List UInt8} {rest : List Signal} {v : Int64}
  {values : List Int64}

/-! ## One number -/

theorem Stands.perform_varint (hr : r.Stands none n (w.map .byte ++ rest)) (hw : Number w v) :
    ∃ t, r.perform .varint = (.ok (.integer v), t) ∧ t.Stands none (n + w.length) rest := by
  rw [← Parser.accepts_varint] at hw
  exact hr.attempt_of_decides (Parser.Decides.map hw Reply.integer)

/-- An attempt that succeeds has taken bytes that the parser accepts. -/
theorem accepts_of_attempt {p : Parser α} [p.Firm] {a : α} (h : r.attempt p = (.ok a, t)) :
    ∃ w, p.Accepts w a ∧ t.consumed = r.consumed + w.length ∧
      r.input.signals = w.map .byte ++ t.input.signals := by
  have hr : r.failure = none := by
    cases hfailure : r.failure with
    | none => rfl
    | some first =>
      rw [attempt_of_failure hfailure] at h
      cases h
  obtain ⟨out, i, hrun⟩ : ∃ out i, p.run r.input = (out, i) := ⟨_, _, rfl⟩
  rw [attempt_of_run hr hrun] at h
  cases h
  obtain ⟨w, hw, haccepts⟩ := Parser.accepts_of_run hrun
  exact ⟨w, haccepts, Parser.consumed_of_run hrun hw, hw⟩

/-- A number has been read from a word of it. -/
theorem number_of_perform (h : r.perform .varint = (.ok (.integer v), t)) :
    ∃ w, Number w v ∧ t.consumed = r.consumed + w.length ∧
      r.input.signals = w.map .byte ++ t.input.signals := by
  obtain ⟨w, hw, hconsumed, hsignals⟩ := accepts_of_attempt h
  obtain ⟨a, ha, hv⟩ := Parser.accepts_map.1 hw
  cases hv
  rw [Parser.accepts_varint] at ha
  exact ⟨w, ha, hconsumed, hsignals⟩

/-! ## Many numbers -/

/-- Words are read one after another, and what follows is left, by a request that reads one of
them. -/
theorem serve_sequence {item : List UInt8 → α → Prop} {reply : α → Reply} {request : Request}
    {as : List α} (hw : Sequence item w as) (hr : r.Stands none n (w.map .byte ++ rest))
    (hrequest : ∀ {u : Reader} {n : Nat} {w : List UInt8} {rest : List Signal} {a : α},
      u.Stands none n (w.map .byte ++ rest) → item w a →
      ∃ t, u.perform request = (.ok (reply a), t) ∧ t.Stands none (n + w.length) rest) :
    (r.serve (List.replicate as.length request)).map Prod.fst = as.map (fun a => .ok (reply a)) ∧
      (r.after (List.replicate as.length request)).Stands none (n + w.length) rest := by
  induction hw generalizing r n with
  | nil => exact ⟨rfl, hr⟩
  | @cons w later a as head tail ih =>
    rw [List.map_append, List.append_assoc] at hr
    obtain ⟨t, ht, hstands⟩ := hrequest hr head
    obtain ⟨hanswers, hafter⟩ := ih hstands
    rw [List.length_cons, List.replicate_succ, serve_cons, after_cons, ht, List.map_cons,
      List.map_cons, hanswers, List.length_append, ← Nat.add_assoc]
    exact ⟨rfl, hafter⟩

/-- Words of numbers are read one after another. -/
theorem serve_numbers (hw : Numbers w values) (hr : r.Stands none n (w.map .byte ++ rest)) :
    (r.serve (List.replicate values.length .varint)).map Prod.fst =
        values.map (fun v => .ok (.integer v)) ∧
      (r.after (List.replicate values.length .varint)).Stands none (n + w.length) rest :=
  serve_sequence hw hr Stands.perform_varint

/-- Numbers that are written one behind another are read back, whatever follows them: all bytes
that were written are taken and none behind them.  What is written for a number is one to ten
bytes, of which all but the last have their high bit set, and the number is read from no fewer
bytes. -/
theorem serve_encode
    (hr : r.Stands none n ((values.flatMap Varint.encode).map .byte ++ rest)) :
    (r.serve (List.replicate values.length .varint)).map Prod.fst =
        values.map (fun v => .ok (.integer v)) ∧
      (r.after (List.replicate values.length .varint)).Stands none
        (n + (values.flatMap Varint.encode).length) rest ∧
      ∀ v, Groups 10 (Varint.encode v) ∧
        ∀ u t : Reader, u.perform .varint = (.ok (.integer v), t) →
          u.consumed + (Varint.encode v).length ≤ t.consumed ∧
            (Varint.encode v).length ≤ u.input.unread.length := by
  obtain ⟨hanswers, hafter⟩ := serve_numbers (Grammar.numbers_writeNumbers values) hr
  refine ⟨hanswers, hafter, fun v => ⟨Grammar.groups_encode v, fun u t h => ?_⟩⟩
  obtain ⟨w, hw, hconsumed, hsignals⟩ := number_of_perform h
  have hshortest := Grammar.length_encode_le hw
  rw [hconsumed, Input.unread_of_signals hsignals, List.length_append]
  omega

/-- The numbers of the greatest magnitude and two short ones, in deliveries that cut them. -/
theorem serve_encode_extremes :
    let values : List Int64 := [Int64.minValue, 0, Int64.maxValue, -65]
    let bytes := values.flatMap Varint.encode
    let r : Reader := ofEvents [.data (bytes.take 7), .data (bytes.drop 7 ++ [0x80]), .endOfData]
    r.Stands none 0 (bytes.map .byte ++ [.byte 0x80, .endOfData]) ∧ bytes.length = 23 ∧
      (r.serve (List.replicate 4 .varint)).map Prod.fst =
        values.map (fun v => .ok (.integer v)) ∧
      (r.after (List.replicate 4 .varint)).Stands none 23 [.byte 0x80, .endOfData] := by
  intro values bytes r
  have hr : r.Stands none 0 (bytes.map .byte ++ [.byte 0x80, .endOfData]) :=
    ⟨rfl, rfl, by decide +kernel⟩
  have hlength : bytes.length = 23 := by decide +kernel
  obtain ⟨hanswers, hafter, -⟩ := serve_encode hr
  rw [hlength] at hafter
  exact ⟨hr, hlength, hanswers, hafter⟩

end Reader

end ObjectFile
