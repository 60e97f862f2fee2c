import ObjectFile.Fault
import ObjectFile.Proofs.Numeral
/-!
# The message tells the fault

All that is shown of a fault is its message, and that is enough: faults with the same message are
the same, with everything that is known about them (`Fault.message_eq_iff`).

A message consists of a heading, which belongs to the kind of fault, and of details.  No heading
is the beginning of another (`Fault.heading_eq_of_begins`), so the message tells the kind.  Two
kinds of fault have free text in their details, which may look like anything, details included.
It can still be told where it begins and ends: in front of it stands a name without a bracket, or
behind it a number, in which there is no blank.
-/

namespace ObjectFile

/-! ## Texts in parts -/

section Parts

variable {α β : Type} {a : α} {u v x y : List α}

/-- What stands in front of the last place of something, and what stands behind it, is told by
the whole. -/
theorem append_cons_inj_last (hx : a ∉ x) (hy : a ∉ y) :
    u ++ a :: x = v ++ a :: y ↔ u = v ∧ x = y := by
  have hreverse : u ++ a :: x = v ++ a :: y ↔
      x.reverse ++ a :: u.reverse = y.reverse ++ a :: v.reverse := by
    rw [← List.reverse_inj]
    simp
  rw [hreverse, append_cons_inj (by simpa using hx) (by simpa using hy), List.reverse_inj,
    List.reverse_inj, and_comm]

theorem intercalate_cons_eq (sep u : List α) (us : List (List α)) :
    sep.intercalate (u :: us) = u ++ us.flatMap (sep ++ ·) := by
  induction us generalizing u with
  | nil => simp
  | cons v us ih => simp [ih]

variable {f : β → List α} {n : Nat}

/-- Pieces that are all as long, and not empty, are told by all of them together. -/
theorem flatMap_injective (hf : Function.Injective f) (hlength : ∀ b, (f b).length = n + 1) :
    Function.Injective (List.flatMap f) := by
  have hne (b : β) : f b ≠ [] := List.ne_nil_of_length_eq_add_one (hlength b)
  intro bs cs h
  induction bs generalizing cs with
  | nil =>
    cases cs with
    | nil => rfl
    | cons c cs => simp [hne] at h
  | cons b bs ih =>
    cases cs with
    | nil => simp [hne] at h
    | cons c cs =>
      obtain ⟨hhead, htail⟩ := List.append_inj h (by rw [hlength, hlength])
      rw [hf hhead, ih htail]

/-- The same for pieces with something between them. -/
theorem intercalate_map_injective (hf : Function.Injective f) (hlength : ∀ b, (f b).length = n + 1)
    (sep : List α) : Function.Injective fun bs : List β => sep.intercalate (bs.map f) := by
  have hne (b : β) : f b ≠ [] := List.ne_nil_of_length_eq_add_one (hlength b)
  intro bs cs h
  cases bs with
  | nil =>
    cases cs with
    | nil => rfl
    | cons c cs => simp [intercalate_cons_eq, hne] at h
  | cons b bs =>
    cases cs with
    | nil => simp [intercalate_cons_eq, hne] at h
    | cons c cs =>
      simp only [List.map_cons, intercalate_cons_eq, List.flatMap_map] at h
      obtain ⟨hhead, htail⟩ := List.append_inj h (by rw [hlength, hlength])
      have hpieces : Function.Injective fun b => sep ++ f b := fun b c hbc =>
        hf (List.append_cancel_left hbc)
      have hlengths (b : β) : (sep ++ f b).length = sep.length + n + 1 := by
        rw [List.length_append, hlength, Nat.add_assoc]
      rw [hf hhead, flatMap_injective hpieces hlengths htail]

end Parts

/-! ## Names -/

theorem DeviceError.name_injective : Function.Injective name := by
  intro k l h
  have hofName := ofName?_name k
  rw [h, ofName?_name] at hofName
  exact (Option.some.inj hofName).symm

theorem DeviceError.bracket_notMem_name (kind : DeviceError) : ')' ∉ kind.name.toList := by
  cases kind <;> decide +kernel

theorem Section.name_injective : Function.Injective name := by
  intro p q h
  cases p <;> cases q <;> first | rfl | exact absurd h (by decide)

theorem Section.colon_notMem_name (part : Section) : ':' ∉ part.name.toList := by
  cases part <;> decide +kernel

namespace Fault

/-! ## Headings -/

/-- What the messages of a kind of fault begin with. -/
def heading : Fault → String
  | .truncated _ => "unexpected end of input after "
  | .noHeader => "header magic not found"
  | .wrongVersion _ => "unexpected version: "
  | .wrongFooter _ => "invalid footer: "
  | .strayMarker _ _ => "sanity check failed in "
  | .longNumber => "varint does not fit in 64 bits"
  | .negativeLength _ _ => "negative "
  | .device _ _ => "i/o error ("

/-- What a message says behind its heading. -/
def details : Fault → String
  | .truncated consumed => Numeral.natural consumed ++ " bytes"
  | .noHeader => ""
  | .wrongVersion version => Numeral.natural version.toNat
  | .wrongFooter footer => dump footer
  | .strayMarker part marker => part.name ++ (": unexpected marker " ++ Numeral.hex marker.toNat)
  | .longNumber => ""
  | .negativeLength what value => what ++ (" length: " ++ Numeral.decimal value.toInt)
  | .device kind message => kind.name ++ ("): " ++ message)

theorem message_eq (f : Fault) : f.message = f.heading ++ f.details := by
  cases f with
  | truncated => exact String.append_assoc
  | noHeader | longNumber => exact String.append_empty.symm
  | wrongVersion | wrongFooter => rfl
  | strayMarker | negativeLength | device => exact String.append_assoc.trans String.append_assoc

/-- The headings of all kinds. -/
def headings : List String :=
  [heading (.truncated 0), heading .noHeader, heading (.wrongVersion 0), heading (.wrongFooter []),
    heading (.strayMarker .references 0), heading .longNumber, heading (.negativeLength "" 0),
    heading (.device .other "")]

theorem heading_mem (f : Fault) : f.heading ∈ headings := by
  cases f <;> simp [headings, heading]

/-- No heading is the beginning of another one. -/
theorem heading_eq_of_begins {f g : Fault} (h : f.heading.toList <+: g.heading.toList) :
    f.heading = g.heading := by
  have hall : ∀ a ∈ headings, ∀ b ∈ headings, a.toList <+: b.toList → a = b := by decide +kernel
  exact hall _ f.heading_mem _ g.heading_mem h

theorem heading_eq_of_message_eq {f g : Fault} (h : f.message = g.message) :
    f.heading = g.heading := by
  have hf : f.heading.toList <+: f.message.toList := by
    rw [message_eq, String.toList_append]
    exact List.prefix_append _ _
  have hg : g.heading.toList <+: f.message.toList := by
    rw [h, message_eq, String.toList_append]
    exact List.prefix_append _ _
  obtain hle | hle := List.prefix_or_prefix_of_prefix hf hg
  · exact heading_eq_of_begins hle
  · exact (heading_eq_of_begins hle).symm

/-! ## Details -/

theorem dump_injective : Function.Injective dump := by
  intro bs cs h
  rw [dump, dump, String.append_left_inj, String.append_right_inj] at h
  have hpieces : Function.Injective fun b => (Numeral.byteHex b).toList := fun b c hbc =>
    Numeral.byteHex_injective (String.toList_injective hbc)
  have htext := congrArg String.toList h
  rw [String.toList_intercalate, String.toList_intercalate, List.map_map, List.map_map] at htext
  exact intercalate_map_injective hpieces Numeral.length_byteHex _ htext

/-- The name of the section ends before the first colon. -/
theorem strayMarker_eq_of_details_eq {p q : Section} {m n : UInt8}
    (h : (strayMarker p m).details = (strayMarker q n).details) :
    strayMarker p m = strayMarker q n := by
  have htext :
      p.name.toList ++ ':' :: (" unexpected marker ".toList ++ (Numeral.hex m.toNat).toList) =
        q.name.toList ++ ':' :: (" unexpected marker ".toList ++ (Numeral.hex n.toNat).toList) := by
    simpa [details] using congrArg String.toList h
  obtain ⟨hname, hmarker⟩ := (append_cons_inj p.colon_notMem_name q.colon_notMem_name).1 htext
  have hnumber := Numeral.hex_injective (String.toList_injective (List.append_cancel_left hmarker))
  rw [Section.name_injective (String.toList_injective hname), UInt8.toNat_inj.1 hnumber]

/-- The number begins behind the last blank. -/
theorem negativeLength_eq_of_details_eq {s t : String} {m n : Int64}
    (h : (negativeLength s m).details = (negativeLength t n).details) :
    negativeLength s m = negativeLength t n := by
  have htext : (s.toList ++ " length:".toList) ++ ' ' :: (Numeral.decimal m.toInt).toList =
      (t.toList ++ " length:".toList) ++ ' ' :: (Numeral.decimal n.toInt).toList := by
    simpa [details] using congrArg String.toList h
  obtain ⟨hwhat, hvalue⟩ := (append_cons_inj_last (Numeral.blank_notMem_decimal _)
    (Numeral.blank_notMem_decimal _)).1 htext
  have hnumber := Numeral.decimal_injective (String.toList_injective hvalue)
  rw [String.toList_injective (List.append_cancel_right hwhat), Int64.toInt_inj.1 hnumber]

/-- The name of the kind of failure ends before the first bracket. -/
theorem device_eq_of_details_eq {k l : DeviceError} {s t : String}
    (h : (device k s).details = (device l t).details) : device k s = device l t := by
  have htext : k.name.toList ++ ')' :: (": ".toList ++ s.toList) =
      l.name.toList ++ ')' :: (": ".toList ++ t.toList) := by
    simpa [details] using congrArg String.toList h
  obtain ⟨hname, hmessage⟩ := (append_cons_inj k.bracket_notMem_name l.bracket_notMem_name).1 htext
  rw [DeviceError.name_injective (String.toList_injective hname),
    String.toList_injective (List.append_cancel_left hmessage)]

/-- Within a kind, the details tell the fault. -/
theorem eq_of_details_eq {f g : Fault} (hheading : f.heading = g.heading)
    (hdetails : f.details = g.details) : f = g := by
  cases f with
  | truncated m =>
    cases g with
    | truncated n =>
      rw [Numeral.natural_injective ((String.append_left_inj _).1 hdetails)]
    | _ => simp [heading] at hheading
  | noHeader =>
    cases g with
    | noHeader => rfl
    | _ => simp [heading] at hheading
  | wrongVersion m =>
    cases g with
    | wrongVersion n => rw [UInt8.toNat_inj.1 (Numeral.natural_injective hdetails)]
    | _ => simp [heading] at hheading
  | wrongFooter bytes =>
    cases g with
    | wrongFooter bytes' => rw [dump_injective hdetails]
    | _ => simp [heading] at hheading
  | strayMarker p m =>
    cases g with
    | strayMarker q n => exact strayMarker_eq_of_details_eq hdetails
    | _ => simp [heading] at hheading
  | longNumber =>
    cases g with
    | longNumber => rfl
    | _ => simp [heading] at hheading
  | negativeLength s m =>
    cases g with
    | negativeLength t n => exact negativeLength_eq_of_details_eq hdetails
    | _ => simp [heading] at hheading
  | device k s =>
    cases g with
    | device l t => exact device_eq_of_details_eq hdetails
    | _ => simp [heading] at hheading

/-! ## Messages -/

/-- Faults are told by their messages, whatever it is that they carry: any number of bytes, any
version, footer or marker, any name and any value of a length, and any kind and message of a
failure. -/
theorem message_eq_iff (f g : Fault) : f.message = g.message ↔ f = g := by
  constructor
  · intro h
    have hheading := heading_eq_of_message_eq h
    rw [message_eq, message_eq, hheading, String.append_right_inj] at h
    exact eq_of_details_eq hheading h
  · rintro rfl
    rfl

end Fault

end ObjectFile
