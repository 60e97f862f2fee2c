import ObjectFile.Proofs.Acceptance
import ObjectFile.Proofs.Writing
/-!
# Reading what was written

Writing a container and reading it back gives the object that the container describes: the
word that was written is one of its words, and words are read (`Object.ofBytes_of_file`).
-/

namespace ObjectFile

/-- A well-formed container is read back: reading what is written of it succeeds, takes all
of it up to the end of the footer and gives the object that the container describes.  The
bound holds of all bytes in memory; without it the lengths could not be written. -/
theorem Container.ofBytes_write {c : Container} (h : c.WellFormed)
    (hsize : c.write.length < 2 ^ 63) :
    ∃ o, Object.ofBytes c.write = (.ok o, c.write.length - c.trailing.length) ∧
      c.Describes o := by
  rw [write_eq, List.length_append] at hsize
  have hfile := file_word h (by omega)
  refine ⟨c.object, ?_, describes_iff.2 rfl⟩
  rw [write_eq, Object.ofBytes_of_file hfile, List.length_append, Nat.add_sub_cancel]

theorem Container.ofBytes_write_sample :
    let o : Object :=
      { references := #[⟨"", 0⟩, ⟨"main.f", 0⟩]
        data := [0xC3, 0x90]
        symbols :=
          [{ id := 1, kind := .text, size := 2, duplicateOk := false, isLocal := true
             typeLink := true, type := -1, block := ⟨2, 0⟩
             relocations := [⟨0, 4, ⟨8⟩, 300, 1⟩]
             function := some
              { args := 8, frame := 0, leaf := true, cFunction := false, typeMethod := false
                shared := false, noSplit := true, locals := [⟨1, -8, 1, 0⟩]
                stackMap := ⟨0, 2⟩, fileTable := ⟨0, 2⟩, lineTable := ⟨0, 2⟩
                inlineTable := ⟨0, 2⟩, auxTables := [⟨0, 2⟩], dataIds := [1, 1]
                dataOffsets := [0, 64], fileIds := [1] } }] }
    sample.WellFormed ∧ sample.write.length = 84 ∧
      Object.ofBytes sample.write = (.ok o, 83) ∧ sample.Describes o := by
  intro o
  have hlength : sample.write.length = 84 := by decide +kernel
  obtain ⟨o', hread, hdescribes⟩ := ofBytes_write sample_wellFormed (by omega)
  have hrun : Object.ofBytes sample.write = (.ok o, 83) := by decide +kernel
  obtain rfl : o = o' := by simpa [hrun] using congrArg Prod.fst hread
  exact ⟨sample_wellFormed, hlength, hrun, hdescribes⟩

end ObjectFile
