import ObjectFile.Proofs.Prefix
import ObjectFile.Proofs.Rejection
/-!
# Faults tell what was read

A fault describes the bytes that have been taken when it is met, so it can be checked against
them.  Most faults are about the last bytes taken, wherever they stand in the file
(`Fault.SeenIn`), and what is so of a fault behind some bytes is so whatever was taken before
them (`Fault.SeenIn.append`).  So it is enough to look at the places where a parser rejects
bytes: a parser is *truthful* if it rejects bytes only with faults that can be seen at their
end (`Parser.Truthful`), and every combinator keeps parsers truthful.

Two faults are about where the reading has come to as well.  A wrong version stands right
behind the first magic word, and data that are too short have been taken to their end.
-/

namespace ObjectFile

open Envelope

/-- The bytes end with what the fault tells of. -/
def Fault.SeenIn (w : List UInt8) : Fault → Prop
  | .wrongFooter footer => footer <:+ w ∧ footer.length = closing.length ∧ footer ≠ closing
  | .strayMarker _ marker => [marker] <:+ w ∧ marker ≠ recordMarker ∧ marker ≠ endMarker
  | .longNumber => ∃ u, u <:+ w ∧ u.length = 10 ∧ ∀ b ∈ u, 0x80 ≤ b
  | .negativeLength _ value => (∃ u, u <:+ w ∧ Grammar.Number u value) ∧ value < 0
  | .wrongVersion _ | .truncated _ | .noHeader | .device _ _ => False

/-- What the fault tells of the data `s`, of which the bytes `c` were taken. -/
def Fault.Tells (s c : List UInt8) : Fault → Prop
  | .truncated consumed => consumed = s.length ∧ c = s
  | .noHeader => ¬ opening <:+: s ∧ c = s
  | .wrongVersion v =>
    (∃ head noise, Grammar.Opening head noise ∧ c = head ++ [v]) ∧ v ≠ currentVersion
  | .device _ _ => False
  | fault => fault.SeenIn c

namespace Fault.SeenIn

variable {fault : Fault} {s u v w : List UInt8}

/-- A fault is seen behind whatever was taken before. -/
theorem append (h : fault.SeenIn v) (u : List UInt8) : fault.SeenIn (u ++ v) := by
  have hsuffix {x : List UInt8} (hx : x <:+ v) : x <:+ u ++ v :=
    hx.trans (List.suffix_append u v)
  cases fault with
  | wrongFooter footer => exact ⟨hsuffix h.1, h.2⟩
  | strayMarker part marker => exact ⟨hsuffix h.1, h.2⟩
  | longNumber =>
    obtain ⟨x, hx, hhigh⟩ := h
    exact ⟨x, hsuffix hx, hhigh⟩
  | negativeLength what value =>
    obtain ⟨⟨x, hx, hnumber⟩, hneg⟩ := h
    exact ⟨⟨x, hsuffix hx, hnumber⟩, hneg⟩
  | _ => exact h.elim

theorem tells (h : fault.SeenIn w) : fault.Tells s w := by
  cases fault with
  | wrongFooter _ | strayMarker _ _ | longNumber | negativeLength _ _ => exact h
  | _ => exact h.elim

end Fault.SeenIn

namespace Parser

variable {α β : Type}

/-- A parser that rejects bytes only with a fault that can be seen at their end. -/
class Truthful (p : Parser α) : Prop extends p.Firm where
  seenIn : ∀ {w fault}, p.Decides w (.error fault) → fault.SeenIn w

/-! ## Combinators -/

instance (a : α) : (pure a : Parser α).Truthful := ⟨fun h => absurd h decides_pure_error⟩

instance (n : Nat) : (take n).Truthful := ⟨fun h => absurd h decides_take_error⟩

instance (n : Nat) : (block n).Truthful := by
  rw [block_eq_take]
  infer_instance

instance : byte.Truthful := ⟨fun h => absurd h decides_byte_error⟩

instance (p : Parser α) (g : α → Parser β) [hp : p.Truthful] [hg : ∀ a, (g a).Truthful] :
    (p >>= g).Truthful := by
  refine ⟨fun h => ?_⟩
  obtain h | ⟨u, v, a, rfl, -, hv⟩ := decides_bind_error.1 h
  · exact hp.seenIn h
  · exact ((hg a).seenIn hv).append u

instance (p : Parser α) (f : α → β) [p.Truthful] : (f <$> p).Truthful :=
  inferInstanceAs (p >>= fun a => pure (f a)).Truthful

instance (c : Prop) [Decidable c] (p : c → Parser α) (q : ¬ c → Parser α)
    [∀ h, (p h).Truthful] [∀ h, (q h).Truthful] : (dite c p q).Truthful := by
  split <;> infer_instance

instance (n : Nat) (p : Parser α) [p.Steady] [p.Truthful] : (replicate n p).Truthful := by
  induction n with
  | zero => exact inferInstanceAs (pure [] : Parser (List α)).Truthful
  | succ n ih =>
    rw [replicate_succ]
    infer_instance

/-! ## Numbers and text -/

instance : uvarint.Truthful := by
  refine ⟨fun {w _} h => ?_⟩
  obtain ⟨rfl, hlen, hhigh⟩ := decides_uvarint_error.1 h
  exact ⟨w, List.suffix_rfl, hlen, hhigh⟩

instance : varint.Truthful :=
  inferInstanceAs (uvarint >>= fun word => pure (Zigzag.decode word)).Truthful

instance (what : String) : (length what).Truthful := by
  refine ⟨fun h => ?_⟩
  obtain h | ⟨u, v, value, rfl, hu, hv⟩ := decides_bind_error.1 h
  · exact Truthful.seenIn h
  · split at hv
    · rename_i hneg
      obtain ⟨rfl, rfl⟩ := decides_fail_error.1 hv
      rw [accepts_varint] at hu
      exact ⟨⟨u, by simp, hu⟩, hneg⟩
    · exact absurd hv decides_pure_error

instance : text.Truthful := by
  unfold text
  infer_instance

/-! ## Records and tables -/

instance (item : Parser α) [item.Steady] [item.Truthful] : (counted item).Truthful := by
  unfold counted
  infer_instance

instance : reference.Truthful := by
  unfold reference
  infer_instance

instance : relocation.Truthful := by
  unfold relocation
  infer_instance

instance : localVariable.Truthful := by
  unfold localVariable
  infer_instance

instance : inlinedCall.Truthful := by
  unfold inlinedCall
  infer_instance

instance : functionData.Truthful := by
  unfold functionData
  infer_instance

instance : functionRecord.Truthful := by
  unfold functionRecord
  infer_instance

instance : symbolRecord.Truthful := by
  unfold symbolRecord
  infer_instance

instance : segmentHead.Truthful := by
  unfold segmentHead
  infer_instance

theorem seenIn_of_tableFrom {part : Section} {item : Parser α} [item.Steady] [item.Truthful]
    {got : List α} {w : List UInt8} {fault : Fault}
    (h : (tableFrom part item got).Decides w (.error fault)) : fault.SeenIn w := by
  rw [tableFrom_eq] at h
  obtain ⟨marker, v, rfl, hv⟩ := decides_byte_bind_error.1 h
  split at hv
  · -- the record is rejected, or the rest of the table, which is shorter
    obtain hv | ⟨x, y, a, rfl, -, hy⟩ := decides_bind_error.1 hv
    · exact (Truthful.seenIn hv).append [marker]
    · exact (seenIn_of_tableFrom hy).append (marker :: x)
  · rename_i hrecord
    split at hv
    · exact absurd hv decides_pure_error
    · rename_i hend
      obtain ⟨rfl, rfl⟩ := decides_fail_error.1 hv
      exact ⟨List.suffix_rfl, hrecord, hend⟩
termination_by w.length
decreasing_by
  subst_vars
  simp only [List.length_cons, List.length_append]
  omega

instance (part : Section) (item : Parser α) [item.Steady] [item.Truthful] :
    (table part item).Truthful := by
  rw [table_eq]
  exact ⟨seenIn_of_tableFrom⟩

/-! ## The envelope -/

/-- The header is found or missing, but never wrong. -/
theorem decides_header_error {w : List UInt8} {fault : Fault} :
    ¬ header.Decides w (.error fault) := by
  intro h
  by_cases hw : opening <:+: w
  · obtain ⟨u, r, rfl, hu, hfirst⟩ := exists_first_infix hw (by decide)
    cases (h.unique (accepts_header_of_first hu hfirst)).2
  · exact h.not_stops (stops_header hw)

instance : header.Truthful := ⟨fun h => absurd h decides_header_error⟩

theorem decides_names_error {count : Nat} {w : List UInt8} {fault : Fault} :
    ¬ (names count).Decides w (.error fault) := by
  induction w generalizing count with
  | nil =>
    rw [names_eq, decides_byte_bind_error]
    rintro ⟨b, v, hw, -⟩
    cases hw
  | cons c w ih =>
    rw [names_eq, decides_byte_bind_error]
    rintro ⟨b, v, hw, hv⟩
    cases hw
    split at hv
    · exact decides_pure_error hv
    · exact ih hv

instance : dependencies.Truthful := by
  rw [dependencies_eq]
  exact ⟨fun h => absurd h decides_names_error⟩

instance : footer.Truthful := by
  refine ⟨fun h => ?_⟩
  obtain h | ⟨u, v, bytes, rfl, hu, hv⟩ := decides_bind_error.1 h
  · exact absurd h decides_take_error
  · obtain ⟨hlen, rfl⟩ := accepts_take.1 hu
    split at hv
    · exact absurd hv decides_pure_error
    · rename_i hfooter
      obtain ⟨rfl, rfl⟩ := decides_fail_error.1 hv
      exact ⟨by simp, hlen, hfooter⟩

/-- A version is rejected for what it is. -/
theorem decides_version_error {w : List UInt8} {fault : Fault} :
    version.Decides w (.error fault) ↔
      ∃ v, w = [v] ∧ v ≠ currentVersion ∧ fault = .wrongVersion v := by
  rw [version, decides_byte_bind_error]
  constructor
  · rintro ⟨v, _, rfl, h⟩
    split at h
    · exact absurd h decides_pure_error
    · rename_i hv
      obtain ⟨rfl, rfl⟩ := decides_fail_error.1 h
      exact ⟨v, rfl, hv, rfl⟩
  · rintro ⟨v, rfl, hv, rfl⟩
    refine ⟨v, [], rfl, ?_⟩
    rw [if_neg hv]
    exact decides_fail _

end Parser

/-! ## Object files -/

namespace Session

theorem Step.truthful_of_ne (c : Contents) {st : Step} (h : st ≠ .version) :
    (st.parser c).Truthful := by
  cases st with
  | version => exact absurd rfl h
  | _ =>
    unfold Step.parser
    infer_instance

theorem truthful_of_notMem (c : Contents) {steps : List Step} (h : .version ∉ steps) :
    (parser c steps).Truthful := by
  induction steps generalizing c with
  | nil => exact inferInstanceAs (pure c : Parser Contents).Truthful
  | cons st steps ih =>
    rw [List.mem_cons, not_or] at h
    have := Step.truthful_of_ne c (Ne.symm h.1)
    have (c : Contents) := ih c h.2
    exact inferInstanceAs (st.parser c >>= fun c => parser c steps).Truthful

end Session

namespace Object

/-- When bytes are rejected as an object file, the fault tells what they are. -/
theorem tells_of_decides {s w : List UInt8} {fault : Fault}
    (h : parser.Decides w (.error fault)) : fault.Tells s w := by
  let rest (c : Session.Contents) := Session.parser c (Session.pipeline.drop 2)
  have (c : Session.Contents) : (rest c).Truthful := Session.truthful_of_notMem c (by decide)
  have hsplit : parser = (Session.Step.header.parser {} >>= fun c =>
      Session.Step.version.parser c >>= rest) := rfl
  rw [hsplit] at h
  obtain h | ⟨head, v, c, rfl, hhead, h⟩ := Parser.decides_bind_error.1 h
  · exact absurd (Parser.decides_map_error.1 h) Parser.decides_header_error
  · obtain h | ⟨x, y, c', rfl, -, h⟩ := Parser.decides_bind_error.1 h
    · -- the one fault that is not seen at the end: what is wrong is where the byte stands
      obtain ⟨b, rfl, hb, rfl⟩ := Parser.decides_version_error.1 (Parser.decides_map_error.1 h)
      obtain ⟨_, hopening, -⟩ := Parser.accepts_map.1 hhead
      obtain ⟨noise, hnoise⟩ := Parser.accepts_header.1 hopening
      exact ⟨⟨head, noise, hnoise, rfl⟩, hb⟩
    · exact (((Parser.Truthful.seenIn h).append x).append head).tells

/-- When the reading of bytes fails, the fault tells what the bytes taken are: that they are
all there were and too few, or without a magic word, or which of them are wrong and how.
There is no header just if the magic word does not occur. -/
theorem fault_tells (s : List UInt8) :
    (s.take (ofBytes s).2).length = (ofBytes s).2 ∧
    ((ofBytes s).1 = .error .noHeader ↔ ¬ opening <:+: s) ∧
    ∀ fault, (ofBytes s).1 = .error fault → fault.Tells s (s.take (ofBytes s).2) := by
  have htells (fault : Fault) (h : (ofBytes s).1 = .error fault) :
      fault.Tells s (s.take (ofBytes s).2) := by
    obtain ⟨f, hf, hs⟩ | ⟨w, r, out, rfl, hw⟩ := onlineAt_all s
    · obtain ⟨hout, hconsumed⟩ := hs.run_ofBytes
      rw [ofBytes_eq, hout] at h
      rw [ofBytes_eq, hconsumed, List.take_length]
      obtain ⟨-, rfl⟩ | ⟨hnone, rfl⟩ := hf
      · cases h
        exact ⟨rfl, rfl⟩
      · cases h
        exact ⟨hnone, rfl⟩
    · obtain ⟨hout, hconsumed⟩ := hw.run_ofBytes r
      rw [ofBytes_eq, hout] at h
      rw [ofBytes_eq, hconsumed, List.take_left]
      cases out with
      | ok c => cases h
      | error first =>
        cases h
        exact tells_of_decides hw
  refine ⟨?_, ⟨fun h => (htells _ h).1, fun h => ?_⟩, htells⟩
  · rw [List.length_take, Nat.min_eq_left (consumed_le s)]
  · rw [ofBytes_eq, (stops_of_notInfix h).run_ofBytes.1]
    rfl

/-- The name of a reference that is to have -1 bytes, in the middle of the data. -/
theorem fault_tells_negative :
    let s : List UInt8 := [0x2A] ++ opening ++ [1, 0, 0xFE, 0x81, 0x00, 0xFF]
    ofBytes s = (.error (.negativeLength "string" (-1)), 14) ∧
      ∃ u, u <:+ s.take 14 ∧ Grammar.Number u (-1) := by
  intro s
  have hread : ofBytes s = (.error (.negativeLength "string" (-1)), 14) := by decide +kernel
  obtain ⟨-, -, htells⟩ := fault_tells s
  rw [hread] at htells
  exact ⟨hread, (htells _ rfl).1⟩

end Object

end ObjectFile
