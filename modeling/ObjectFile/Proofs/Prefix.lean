import ObjectFile.Proofs.Acceptance
import ObjectFile.Proofs.Writing
/-!
# Front parts

The outcome of reading bytes depends on nothing but the bytes taken, and all of these are
needed: whatever is cut off of them, reading runs out of bytes.  What is said then depends
only on whether the header is still there (`Shortfall`).

Both come of one fact, that the parser of object files either is stopped behind all bytes or
decides on a front part of them, whatever follows (`Object.shortfall_or_decided`).
-/

namespace ObjectFile

open Envelope

/-- What is said when more bytes than these are needed. -/
inductive Shortfall (s : List UInt8) : Fault → Prop where
  | truncated (h : opening <:+: s) : Shortfall s (.truncated s.length)
  | noHeader (h : ¬ opening <:+: s) : Shortfall s .noHeader

namespace Object

/-- Data without a magic word are taken to their end. -/
theorem stops_of_notInfix {s : List UInt8} (h : ¬ opening <:+: s) :
    parser.Stops s fun fault => .error (Fault.retold .noHeader fault) :=
  ((Parser.stops_header h).bind_error _).bind_error fun c =>
    Session.parser c Session.pipeline.tail

/-- The parser of object files is stopped behind all bytes, or it decides on a front part. -/
theorem onlineAt_all (s : List UInt8) :
    parser.OnlineAt
      (fun f => opening <:+: s ∧ f = .error ∨
        ¬ opening <:+: s ∧ f = fun fault => .error (Fault.retold .noHeader fault)) s := by
  let rest (c : Session.Contents) := Session.parser c Session.pipeline.tail
  have hsplit : parser = (Session.Step.header.parser {} >>= rest) := rfl
  rw [hsplit]
  -- behind the header all steps fail with the fault that stops them
  by_cases h : opening <:+: s
  · obtain ⟨w, r, rfl, hw, hfirst⟩ := exists_first_infix h (by decide)
    have hheader : (Session.Step.header.parser {}).Accepts w {} :=
      Parser.accepts_map.2 ⟨(), Parser.accepts_header_of_first hw hfirst, rfl⟩
    refine Parser.OnlineAt.bind (E := fun _ => False) (.inr ⟨w, r, _, rfl, hheader⟩) ?_ ?_
    · exact fun _ hf => hf.elim
    · intro w' r' c hr' hw'
      have : (rest c).Steady := Session.steady_of_notMem c (by decide)
      exact (Parser.Steady.online r').mono fun f hf => .inl ⟨h, hf⟩
  · exact .inl ⟨_, .inr ⟨h, rfl⟩, stops_of_notInfix h⟩

/-- Bytes are too few, or what comes of them comes of a front part of them, whatever
follows. -/
theorem shortfall_or_decided (s : List UInt8) :
    (∃ fault, Shortfall s fault ∧ ofBytes s = (.error fault, s.length)) ∨
      ∃ w r out, s = w ++ r ∧ ∀ r', ofBytes (w ++ r') = (out, w.length) := by
  obtain ⟨f, hf, hs⟩ | ⟨w, r, out, rfl, hw⟩ := onlineAt_all s
  · left
    rw [ofBytes_eq, hs.run_ofBytes.1, hs.run_ofBytes.2]
    obtain ⟨h, rfl⟩ | ⟨h, rfl⟩ := hf
    · exact ⟨_, .truncated h, rfl⟩
    · exact ⟨_, .noHeader h, rfl⟩
  · right
    refine ⟨w, r, out.map Session.Contents.object, rfl, fun r' => ?_⟩
    rw [ofBytes_eq, (hw.run_ofBytes r').1, (hw.run_ofBytes r').2]

/-- No more bytes are taken than there are. -/
theorem consumed_le (s : List UInt8) : (ofBytes s).2 ≤ s.length := by
  obtain ⟨fault, -, hs⟩ | ⟨w, r, out, rfl, hw⟩ := shortfall_or_decided s
  · exact Nat.le_of_eq (congrArg Prod.snd hs)
  · rw [hw]
    simp

/-- What comes of bytes comes of the bytes taken, and no fewer of them will do: what is
short of them is reported as too short. -/
theorem ofBytes_take (s : List UInt8) :
    ((∀ k, (ofBytes s).1 ≠ .error (.truncated k)) → (ofBytes s).1 ≠ .error .noHeader →
      ∀ t : List UInt8, t.take (ofBytes s).2 = s.take (ofBytes s).2 → ofBytes t = ofBytes s) ∧
    ∀ k < (ofBytes s).2,
      (opening <:+: s.take k → ofBytes (s.take k) = (.error (.truncated k), k)) ∧
      (¬ opening <:+: s.take k → ofBytes (s.take k) = (.error .noHeader, k)) := by
  constructor
  · intro htruncated hheader t ht
    obtain ⟨fault, hfault, hs⟩ | ⟨w, r, out, rfl, hw⟩ := shortfall_or_decided s
    -- bytes that are too few are reported as just that
    · rw [hs] at htruncated hheader
      cases hfault with
      | truncated _ => exact absurd rfl (htruncated _)
      | noHeader _ => exact absurd rfl hheader
    · rw [hw, List.take_left] at ht
      rw [← List.take_append_drop w.length t, ht, hw, hw]
  · intro k hk
    have hlength := consumed_le s
    have htake : (s.take k).length = k := by
      rw [List.length_take]
      omega
    obtain ⟨fault, hfault, hs⟩ | ⟨w, r, out, hw, hout⟩ := shortfall_or_decided (s.take k)
    · rw [htake] at hs
      cases hfault with
      | truncated h =>
        rw [htake] at hs
        exact ⟨fun _ => hs, fun h' => absurd h h'⟩
      | noHeader h => exact ⟨fun h' => absurd h' h, fun _ => hs⟩
    · -- decided on fewer than `k` bytes, the outcome of all bytes would be that one
      have hall := hout (r ++ s.drop k)
      rw [← List.append_assoc, ← hw, List.take_append_drop] at hall
      rw [hall] at hk
      have : w.length ≤ k := by
        rw [← htake, hw]
        simp
      omega

/-- A file that was written is read whatever follows, and is too short without its last byte
or with nothing but its noise. -/
theorem ofBytes_take_sample :
    ofBytes (Container.sample.word ++ [7]) = ofBytes Container.sample.word ∧
      ofBytes (Container.sample.word.take 82) = (.error (.truncated 82), 82) ∧
      ofBytes (Container.sample.word.take 2) = (.error .noHeader, 2) := by
  have hfile := Container.file_word Container.sample_wellFormed (by decide +kernel)
  have hread := ofBytes_of_file hfile []
  rw [List.append_nil] at hread
  obtain ⟨hsame, hshort⟩ := ofBytes_take Container.sample.word
  rw [hread] at hsame hshort ⊢
  refine ⟨hsame (by simp) (by simp) _ (by simp), (hshort 82 ?_).1 ?_, (hshort 2 ?_).2 ?_⟩
  all_goals decide +kernel

end Object

end ObjectFile
