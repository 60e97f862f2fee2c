import ObjectFile.Proofs.Pipeline
/-!
# As many records as there are

A table is read record by record, and what has been read is kept when the next record cannot be
read.  So the records found are as many as stand in front, one behind another
(`Grammar.Leading`): behind the last of them there is no whole record any more, be it that the
table ends, that the data ends or that there is something else (`Parser.records_leading`).

What a parser accepts in front of some bytes is determined by the bytes.  Therefore more bytes
never take back a record that was found (`Grammar.Leading.prefix_append`).
-/

namespace ObjectFile

namespace Grammar

variable {α : Type} {item : List UInt8 → α → Prop} {s r v v' : List UInt8} {as bs : List α}

/-- At the front of the bytes `s` stand words of these items, one behind another, and what is left
begins with no word of an item. -/
def Leading (item : List UInt8 → α → Prop) (s : List UInt8) (as : List α) (v : List UInt8) : Prop :=
  (∃ u, s = u ++ v ∧ Sequence item u as) ∧ ∀ x y a, v = x ++ y → ¬ item x a

/-- No two items have words at the front of the same bytes. -/
def Unambiguous (item : List UInt8 → α → Prop) : Prop :=
  ∀ x x' y y' a a', item x a → item x' a' → x ++ y = x' ++ y' → x = x' ∧ a = a'

theorem leading_nil (h : ∀ x y a, s = x ++ y → ¬ item x a) : Leading item s [] s :=
  ⟨⟨[], rfl, .nil⟩, h⟩

theorem Leading.cons {w : List UInt8} {a : α} (hw : item w a) (h : Leading item s as v) :
    Leading item (w ++ s) (a :: as) v := by
  obtain ⟨⟨u, rfl, hu⟩, hv⟩ := h
  exact ⟨⟨w ++ u, (List.append_assoc ..).symm, .cons hw hu⟩, hv⟩

/-- Items that stand in front of some bytes are among those that lead them, in this order. -/
theorem Sequence.prefix_of_leading (hitem : Unambiguous item) {u : List UInt8}
    (h : Sequence item u as) {rest : List UInt8} (hs : Leading item (u ++ rest) bs v') :
    as <+: bs := by
  induction h generalizing bs with
  | nil => exact List.nil_prefix
  | @cons x u a as hx _ ih =>
    obtain ⟨⟨u', hsplit, hu'⟩, hv'⟩ := hs
    rw [List.append_assoc] at hsplit
    cases hu' with
    | nil => exact absurd hx (hv' x (u ++ rest) a hsplit.symm)
    | @cons x' u' a' bs hx' hu' =>
      rw [List.append_assoc] at hsplit
      obtain ⟨rfl, rfl⟩ := hitem _ _ _ _ _ _ hx hx' hsplit
      exact List.cons_prefix_cons.2
        ⟨rfl, ih ⟨⟨u', List.append_cancel_left hsplit, hu'⟩, hv'⟩⟩

/-- More bytes take back no item. -/
theorem Leading.prefix_append (hitem : Unambiguous item) (h : Leading item s as v)
    (h' : Leading item (s ++ r) bs v') : as <+: bs := by
  obtain ⟨⟨u, rfl, hu⟩, -⟩ := h
  rw [List.append_assoc] at h'
  exact hu.prefix_of_leading hitem h'

end Grammar

open Grammar (Leading Unambiguous leading_nil)

namespace Parser

variable {α : Type} {p : Parser α} {s : List UInt8}

theorem unambiguous_accepts (p : Parser α) : Unambiguous p.Accepts := by
  intro x x' y y' a a' h h' hs
  obtain ⟨rfl, hout⟩ := Decides.unique_append h h' hs
  exact ⟨rfl, Except.ok.inj hout⟩

/-- On bytes and nothing else a parser that fails when it is stopped either accepts a front part
of them or fails, and then it accepts none. -/
theorem accepts_or_fails [hp : p.Firm] {i : Input} (hi : i.signals = s.map .byte) :
    (∃ w r a j, s = w ++ r ∧ p.Accepts w a ∧ p.run i = (.ok a, j) ∧ j.signals = r.map .byte) ∨
      (∃ fault j, p.run i = (.error fault, j)) ∧ ∀ x y a, s = x ++ y → ¬ p.Accepts x a := by
  obtain ⟨_, ⟨f, rfl⟩, hs⟩ | ⟨w, r, out, rfl, hw⟩ := hp.online s
  · obtain ⟨j, hj, -⟩ := hs.run_eq hi
    refine .inr ⟨⟨_, j, hj⟩, fun x y a hxy hx => ?_⟩
    subst hxy
    exact hs.not_decides hx
  · rw [List.map_append] at hi
    obtain ⟨j, hj, hjs, -⟩ := hw.run_eq hi
    cases out with
    | ok a => exact .inl ⟨w, r, a, j, rfl, hw, hj, hjs⟩
    | error fault =>
      refine .inr ⟨⟨fault, j, hj⟩, fun x y a hxy hx => ?_⟩
      cases (hx.unique_append hw hxy.symm).2

/-! ## What is found in a table -/

section Records

variable (part : Section) (item : Parser α)

theorem unambiguous_marked {record : List UInt8 → α → Prop} (h : Unambiguous record) :
    Unambiguous (Marked record) := by
  intro x x' y y' a a' hx hx' hs
  obtain ⟨u, rfl, hu⟩ := marked_iff.1 hx
  obtain ⟨u', rfl, hu'⟩ := marked_iff.1 hx'
  obtain ⟨rfl, rfl⟩ := h _ _ _ _ _ _ hu hu' (List.cons.inj hs).2
  exact ⟨rfl, rfl⟩

/-- No records lead bytes that begin with no marker, or with one that has no record behind it. -/
theorem leading_nil_marked {record : List UInt8 → α → Prop}
    (h : ∀ r, s = recordMarker :: r → ∀ x y a, r = x ++ y → ¬ record x a) :
    Leading (Marked record) s [] s := by
  refine leading_nil fun x y a hs hx => ?_
  obtain ⟨u, rfl, hu⟩ := marked_iff.1 hx
  exact h (u ++ y) hs u y a rfl hu

/-- A scan of records, behind those in `got`, finds all records that lead the bytes. -/
theorem scanFrom_leading [item.Steady] {s : List UInt8} {i : Input} (got : List α)
    (hi : i.signals = s.map .byte) :
    ∃ found v, (scanFrom (recordStep part item) got i).1.1 = found.reverse ++ got ∧
      Leading (Marked item.Accepts) s found v := by
  cases s with
  | nil =>
    obtain ⟨j, hj, -, -⟩ := stops_byte.run_eq hi
    rw [scanFrom_of_error hj]
    exact ⟨[], [], rfl, leading_nil_marked nofun⟩
  | cons b s =>
    obtain ⟨j, hj, hjs, -⟩ := (decides_byte b).run_eq hi
    rw [scanFrom_of_byte hj]
    by_cases hb : b = recordMarker
    · -- a record is read, and the scan goes on behind it, or there is none
      subst hb
      rw [recordStep, if_pos rfl, run_map]
      obtain ⟨w, r, a, k, rfl, hw, hk, hks⟩ | ⟨⟨fault, k, hk⟩, hnone⟩ :=
        accepts_or_fails (p := item) hjs
      · obtain ⟨found, v, hfound, hleading⟩ := scanFrom_leading (a :: got) hks
        rw [hk]
        refine ⟨a :: found, v, ?_, hleading.cons (marked_iff.2 ⟨w, rfl, hw⟩)⟩
        rw [List.reverse_cons, List.append_assoc]
        exact hfound
      · rw [hk]
        refine ⟨[], _, rfl, leading_nil_marked ?_⟩
        rintro _ ⟨⟩
        exact hnone
    · rw [recordStep, if_neg hb]
      refine ⟨[], b :: s, ?_, leading_nil_marked ?_⟩
      · by_cases hend : b = endMarker
        · rw [if_pos hend]
          rfl
        · rw [if_neg hend]
          rfl
      · rintro _ ⟨⟩
        exact absurd rfl hb
termination_by s.length

/-- The records found are all that lead the bytes. -/
theorem records_leading [item.Steady] {i : Input} (hi : i.signals = s.map .byte) :
    ∃ found outcome j v, (records part item).run i = (.ok (found, outcome), j) ∧
      Leading (Marked item.Accepts) s found v := by
  obtain ⟨found, v, hfound, hleading⟩ := scanFrom_leading part item [] hi
  have hrun : (records part item).run i = (.ok ((scanFrom (recordStep part item) [] i).1.1.reverse,
      (scanFrom (recordStep part item) [] i).1.2), (scanFrom (recordStep part item) [] i).2) := rfl
  rw [hfound, List.append_nil, List.reverse_reverse] at hrun
  exact ⟨found, _, _, v, hrun, hleading⟩

end Records

end Parser

end ObjectFile
