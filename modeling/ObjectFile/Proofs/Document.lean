import Mathlib.Data.List.Forall2
import Mathlib.Data.List.Nodup
import ObjectFile.Proofs.Rows
/-!
# What a document tells of an object

Two objects have the same document just if they agree in all but the bytes of their data, of
which the document has the number, and the numbers of kinds that are assigned to none, which are
all shown under one name (`Object.document_eq_iff`).

* Each part of a document, by itself, tells what it was made of.  Where a kind is shown by its
  name this is so up to numbers that have no name, which is what `Agrees` says.
* A function part is left out where there is none, and then nothing stands in its place.
* In all objects within a document the fields are in the order of their keys, so no key is there
  twice (`Json.Ordered`): two documents with the same fields are the same.
-/

namespace ObjectFile

/-! ## Names of kinds -/

/-- Things are told apart by names as far as they have any: all that have none are shown under
one name, which is that of no other. -/
theorem name_eq_iff_of_nameless {κ : Type} {name : κ → String} {Nameless : κ → Prop}
    {common : String} (hcommon : ∀ k, Nameless k → name k = common)
    (hother : ∀ k, ¬ Nameless k → name k ≠ common)
    (htold : ∀ k l, ¬ Nameless k → ¬ Nameless l → name k = name l → k = l) (k l : κ) :
    name k = name l ↔ k = l ∨ Nameless k ∧ Nameless l := by
  constructor
  · intro h
    by_cases hk : Nameless k <;> by_cases hl : Nameless l
    · exact .inr ⟨hk, hl⟩
    · exact absurd (h ▸ hcommon k hk) (hother l hl)
    · exact absurd (h ▸ hcommon l hl) (hother k hk)
    · exact .inl (htold k l hk hl h)
  · rintro (rfl | ⟨hk, hl⟩)
    · rfl
    · rw [hcommon k hk, hcommon l hl]

namespace Symbol.Kind

/-- A number that is assigned to no kind. -/
def Unassigned : Kind → Prop
  | unassigned _ _ => True
  | _ => False

/-- Kinds that are the same unless both have numbers that are assigned to none. -/
def Agrees (k l : Kind) : Prop := k = l ∨ k.Unassigned ∧ l.Unassigned

theorem nodup_names : (assigned.map name).Nodup ∧ "UNKNOWN" ∉ assigned.map name := by
  decide +kernel

theorem mem_assigned {k : Kind} (h : ¬ k.Unassigned) : k ∈ assigned := by
  cases k with
  | unassigned => exact absurd trivial h
  | _ => decide

theorem name_eq_iff {k l : Kind} : k.name = l.name ↔ k.Agrees l := by
  refine @name_eq_iff_of_nameless _ name Unassigned "UNKNOWN" (fun k hk => ?_) (fun k hk => ?_)
    (fun k l hk hl h => ?_) k l
  · cases k with
    | unassigned => rfl
    | _ => exact hk.elim
  · exact fun h => nodup_names.2 (h ▸ List.mem_map_of_mem (mem_assigned hk))
  · exact List.inj_on_of_nodup_map nodup_names.1 (mem_assigned hk) (mem_assigned hl) h

end Symbol.Kind

namespace Relocation.Kind

variable {k l : Kind}

/-- A number without a name. -/
def Unassigned (k : Kind) : Prop := k.code < 1 ∨ 44 < k.code

/-- Kinds that are the same unless both have numbers without a name. -/
def Agrees (k l : Kind) : Prop := k = l ∨ k.Unassigned ∧ l.Unassigned

theorem nodup_names : names.Nodup ∧ "Unknown" ∉ names := by decide +kernel

theorem unassigned_iff : k.Unassigned ↔ k.code.toInt < 1 ∨ 44 < k.code.toInt := by
  rw [Unassigned, Int64.lt_iff_toInt_lt, Int64.lt_iff_toInt_lt]
  rfl

theorem name_of_unassigned (h : k.Unassigned) : k.name = "Unknown" := by
  rw [unassigned_iff] at h
  rw [name, name?]
  split
  · rename_i hpos
    rw [Int64.lt_iff_toInt_lt, Int64.toInt_zero] at hpos
    have hlength : names.length = 44 := rfl
    rw [List.getElem?_eq_none (by omega), Option.getD_none]
  · rfl

/-- Any other number has the name at its place, which is one less. -/
theorem exists_name (h : ¬ k.Unassigned) :
    ∃ i, ∃ hi : i < names.length, k.code.toInt = i + 1 ∧ k.name = names[i] := by
  rw [unassigned_iff] at h
  have hlength : names.length = 44 := rfl
  have hpos : 0 < k.code := by
    rw [Int64.lt_iff_toInt_lt, Int64.toInt_zero]
    omega
  refine ⟨k.code.toInt.toNat - 1, by omega, by omega, ?_⟩
  rw [name, name?, if_pos hpos, List.getElem?_eq_getElem (by omega), Option.getD_some]

theorem name_eq_iff : k.name = l.name ↔ k.Agrees l := by
  refine @name_eq_iff_of_nameless _ name Unassigned _ (fun k hk => name_of_unassigned hk)
    (fun k hk h => ?_) (fun k l hk hl h => ?_) k l
  · obtain ⟨i, hi, -, hname⟩ := exists_name hk
    rw [hname] at h
    exact nodup_names.2 (h ▸ List.getElem_mem hi)
  · obtain ⟨i, hi, hcodek, hnamek⟩ := exists_name hk
    obtain ⟨j, hj, hcodel, hnamel⟩ := exists_name hl
    rw [hnamek, hnamel, nodup_names.1.getElem_inj_iff] at h
    have hcode : k.code = l.code := Int64.toInt_inj.1 (by omega)
    exact congrArg mk hcode

end Relocation.Kind

/-! ## What each part of a document tells -/

theorem Json.number_inj {m n : Int64} : Json.number m = Json.number n ↔ m = n := by
  rw [Json.number, Json.number, Json.integer.injEq, Int64.toInt_inj]

theorem Json.numbers_inj {ms ns : List Int64} : Json.numbers ms = Json.numbers ns ↔ ms = ns := by
  rw [Json.numbers, Json.numbers, Json.array.injEq,
    List.map_inj_right fun _ _ h => Json.number_inj.1 h]

theorem map_eq_map_iff {α β γ : Type} {f : α → γ} {g : β → γ} {as : List α} {bs : List β} :
    as.map f = bs.map g ↔ List.Forall₂ (fun a b => f a = g b) as bs := by
  rw [← List.forall₂_eq_eq_eq, List.forall₂_map_left_iff, List.forall₂_map_right_iff]

/-- Relocations that differ only in numbers without a name. -/
structure Relocation.Agrees (r r' : Relocation) : Prop where
  offset : r.offset = r'.offset
  size : r.size = r'.size
  kind : r.kind.Agrees r'.kind
  addend : r.addend = r'.addend
  target : r.target = r'.target

/-- Symbols that differ only in numbers of kinds that are assigned to none, their own or those of
their relocations. -/
structure Symbol.Agrees (s t : Symbol) : Prop where
  id : s.id = t.id
  kind : s.kind.Agrees t.kind
  size : s.size = t.size
  duplicateOk : s.duplicateOk = t.duplicateOk
  isLocal : s.isLocal = t.isLocal
  typeLink : s.typeLink = t.typeLink
  type : s.type = t.type
  block : s.block = t.block
  relocations : List.Forall₂ Relocation.Agrees s.relocations t.relocations
  function : s.function = t.function

/-- Objects with the same references, as much data and symbols that differ only in numbers of
kinds that are assigned to none. -/
structure Object.Agrees (o p : Object) : Prop where
  references : o.references = p.references
  length_data : o.data.length = p.data.length
  symbols : List.Forall₂ Symbol.Agrees o.symbols p.symbols

namespace Document

open Json (number_inj numbers_inj)

theorem reference_injective : Function.Injective reference := by
  rintro ⟨⟩ ⟨⟩ h
  simpa [reference, number_inj] using h

theorem block_injective : Function.Injective block := by
  rintro ⟨⟩ ⟨⟩ h
  simpa [block, number_inj, and_comm] using h

theorem localVariable_injective : Function.Injective localVariable := by
  rintro ⟨⟩ ⟨⟩ h
  simpa [localVariable, number_inj, and_comm, and_assoc, and_left_comm] using h

theorem function_injective : Function.Injective function := by
  intro f g h
  simp only [function, Json.object.injEq, List.cons.injEq, Prod.mk.injEq, true_and, and_true,
    number_inj, numbers_inj, Json.bool.injEq, Json.array.injEq, block_injective.eq_iff,
    block_injective.list_map.eq_iff, localVariable_injective.list_map.eq_iff] at h
  grind [Function]

theorem relocation_eq_iff {r r' : Relocation} : relocation r = relocation r' ↔ r.Agrees r' := by
  simp only [relocation, Json.object.injEq, List.cons.injEq, Prod.mk.injEq, true_and, and_true,
    number_inj, Json.text.injEq, Relocation.Kind.name_eq_iff]
  constructor
  · rintro ⟨haddend, htarget, hoffset, hsize, hkind⟩
    exact ⟨hoffset, hsize, hkind, haddend, htarget⟩
  · rintro ⟨hoffset, hsize, hkind, haddend, htarget⟩
    exact ⟨haddend, htarget, hoffset, hsize, hkind⟩

theorem relocations_eq_iff {rs rs' : List Relocation} :
    rs.map relocation = rs'.map relocation ↔ List.Forall₂ Relocation.Agrees rs rs' := by
  simp only [map_eq_map_iff, relocation_eq_iff]

/-- A function part stands between other fields, which are as many whether it is there or not. -/
theorem symbol_eq_iff {s t : Symbol} {m n : String} :
    symbol s m = symbol t n ↔ m = n ∧ s.Agrees t := by
  constructor
  · intro h
    rw [symbol, symbol, Json.object.injEq] at h
    obtain ⟨hfront, hback⟩ := List.append_inj' h (by simp only [List.length_cons])
    obtain ⟨hhead, hpart⟩ := List.append_inj hfront (by simp only [List.length_cons])
    simp only [List.cons.injEq, Prod.mk.injEq, true_and, and_true, number_inj, Json.bool.injEq,
      Json.array.injEq, Json.text.injEq, block_injective.eq_iff, relocations_eq_iff,
      Symbol.Kind.name_eq_iff] at hhead hback
    obtain ⟨hblock, hduplicateOk⟩ := hhead
    obtain ⟨htype, hid, hkind, hisLocal, hname, hrelocations, hsize, htypeLink⟩ := hback
    have hfunction : s.function = t.function := by
      have hmap := congrArg List.head? hpart
      rw [Option.head?_toList, Option.head?_toList] at hmap
      exact Option.map_injective (fun f g h => function_injective (Prod.mk.inj h).2) hmap
    exact ⟨hname, hid, hkind, hsize, hduplicateOk, hisLocal, htypeLink, htype, hblock,
      hrelocations, hfunction⟩
  · rintro ⟨hname, h⟩
    rw [symbol, symbol, h.block, h.duplicateOk, h.function, h.type, number_inj.2 h.id,
      Symbol.Kind.name_eq_iff.2 h.kind, h.isLocal, hname, relocations_eq_iff.2 h.relocations,
      h.size, h.typeLink]

end Document

/-! ## Fields in order -/

namespace Json

/-- The order of keys by their characters. -/
def KeyBefore (k l : String) : Prop :=
  List.Lex (fun c d : Char => c.toNat < d.toNat) k.toList l.toList

instance : DecidableRel KeyBefore := fun k l =>
  inferInstanceAs (Decidable (List.Lex (fun c d : Char => c.toNat < d.toNat) k.toList l.toList))

/-- In all objects within a document the fields are in the order of their keys, and no two of
them have one key. -/
inductive Ordered : Json → Prop where
  | bool (b : Bool) : Ordered (.bool b)
  | integer (n : Int) : Ordered (.integer n)
  | text (s : String) : Ordered (.text s)
  | array {items : List Json} (values : ∀ item ∈ items, Ordered item) : Ordered (.array items)
  | object {fields : List (String × Json)} (keys : (fields.map Prod.fst).Pairwise KeyBefore)
      (values : ∀ field ∈ fields, Ordered field.2) : Ordered (.object fields)

attribute [simp] Ordered.bool Ordered.integer Ordered.text

@[simp]
theorem Ordered.map {α : Type} {f : α → Json} (h : ∀ a, (f a).Ordered) (as : List α) :
    (Json.array (as.map f)).Ordered := by
  refine .array fun item hitem => ?_
  obtain ⟨a, -, rfl⟩ := List.mem_map.1 hitem
  exact h a

@[simp]
theorem ordered_number (n : Int64) : (number n).Ordered := .integer _

@[simp]
theorem ordered_numbers (ns : List Int64) : (numbers ns).Ordered := .map ordered_number ns

end Json

namespace Document

@[simp]
theorem ordered_reference (r : Reference) : (reference r).Ordered := by
  refine .object ?_ (by simp)
  dsimp only [List.map]
  decide +kernel

@[simp]
theorem ordered_block (b : Block) : (block b).Ordered := by
  refine .object ?_ (by simp)
  dsimp only [List.map]
  decide +kernel

@[simp]
theorem ordered_relocation (r : Relocation) : (relocation r).Ordered := by
  refine .object ?_ (by simp)
  dsimp only [List.map]
  decide +kernel

@[simp]
theorem ordered_localVariable (l : Local) : (localVariable l).Ordered := by
  refine .object ?_ (by simp)
  dsimp only [List.map]
  decide +kernel

@[simp]
theorem ordered_function (f : Function) : (function f).Ordered := by
  refine .object ?_ (by simp)
  dsimp only [List.map]
  decide +kernel

/-- The keys are in order with a function part as they are without one. -/
@[simp]
theorem ordered_symbol (s : Symbol) (name : String) : (symbol s name).Ordered := by
  refine .object ?_ ?_
  · cases s.function <;>
    · simp only [Option.map_none, Option.map_some, Option.toList_none, Option.toList_some,
        List.cons_append, List.nil_append, List.map_cons, List.map_nil]
      decide +kernel
  · cases s.function <;> simp

end Document

theorem Object.ordered_document (o : Object) (filter : Option (String → Bool)) :
    (o.document filter).Ordered := by
  rw [document_eq]
  refine .object ?_ (by simp)
  dsimp only [List.map]
  decide +kernel

/-- The document of an object has its fields in order, each key once, and two objects have the
same document just if they agree: nothing is lost but the bytes of the data and the numbers of
kinds that are assigned to none. -/
theorem Object.document_eq_iff (o p : Object) :
    (o.document none).Ordered ∧ (o.document none = p.document none ↔ o.Agrees p) := by
  refine ⟨o.ordered_document _, ?_⟩
  simp only [document_eq, selected_none, Json.object.injEq, List.cons.injEq, Prod.mk.injEq,
    true_and, and_true, Json.integer.injEq, Int.natCast_inj, Json.array.injEq,
    Document.reference_injective.list_map.eq_iff, Array.toList_inj, map_eq_map_iff,
    Document.symbol_eq_iff]
  constructor
  · rintro ⟨hlength, hreferences, hsymbols⟩
    exact ⟨hreferences, hlength, hsymbols.imp fun _ _ h => h.2⟩
  · rintro ⟨hreferences, hlength, hsymbols⟩
    refine ⟨hlength, hreferences, hsymbols.imp fun s t h => ⟨?_, h⟩⟩
    -- the name is found in the references, which are the same
    rw [nameAt, nameAt, reference?, reference?, hreferences, h.id]

end ObjectFile
