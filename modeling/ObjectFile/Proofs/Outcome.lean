import ObjectFile.Command
import ObjectFile.Proofs.Acceptance
import ObjectFile.Proofs.Printing
import ObjectFile.Proofs.Writing
/-!
# What a run comes to

A run of the command reads the pattern before the file and the file before anything is printed, so
with a pattern that cannot be read, or with a fault in the file, nothing is printed.  Of an object
the whole document is printed or the whole report, unless a cell of the report needs too many
blanks: then the run breaks off, and what it comes to is neither all nor nothing
(`Command.run_outcome`).  The debug option and the setting of the log have a say in the error
output only.

All this holds for whatever libraries there are, as long as they take the arguments and can start
the log.  What a run comes to is found in three cases, each with an outcome of its own: the
pattern cannot be read, the file has a fault, the file is an object.
-/

namespace ObjectFile

/-- What comes of the contents of a file, if one can get hold of them. -/
def Object.ofContents (contents : Except Fault (List UInt8)) : Except Fault Object :=
  contents.bind fun bytes => (ofBytes bytes).1

theorem Object.fst_load (name : String) (contents : Except Fault (List UInt8)) :
    (load name contents).1 = ofContents contents := by
  cases contents <;> rfl

namespace Container

/-- A file with one symbol, which has a name. -/
def named (name : String) : Container where
  noise := []
  dependencies := []
  references := [⟨name, 0⟩]
  hints := ⟨0, 0, 0, 0, 0⟩
  data := []
  symbols :=
    [{ kind := .data, id := 1, flags := 0, size := 0, type := 0, dataSize := 0
       relocations := [], function := none, textual := rfl }]
  trailing := []

theorem ofContents_named {name : String} (h : name.utf8ByteSize < 2 ^ 63) :
    Object.ofContents (.ok (named name).word) = .ok (named name).object := by
  have hfits : (named name).Fits := by
    refine ⟨fun r hr => ?_, by simp [named], fun r hr => ?_⟩
    · rw [List.mem_singleton.1 hr, Utf8.length_encode]
      exact h
    · rw [List.mem_singleton.1 hr]
      exact ⟨by simp, by simp⟩
  have hwellFormed : (named name).WellFormed :=
    ⟨by simp [named, Envelope.opening], by simp [named]⟩
  have hread := Object.ofBytes_of_file (Container.file_word_of_fits hwellFormed hfits) []
  rw [List.append_nil] at hread
  exact congrArg Prod.fst hread

end Container

namespace Command

/-- The exit code and what is printed, leaving the error output aside. -/
def Outcome.printed (outcome : Outcome) : Nat × String := (outcome.code, outcome.stdout)

/-- The exit code and what is printed in the end. -/
def ending : Printed → Nat × String
  | .complete text => (0, text)
  | .broken text => (101, text)

/-- The log can be started with a setting, whatever level it has without one. -/
def Libraries.Starts (libraries : Libraries) (setting : Option String) : Prop :=
  ∀ debug, ∃ shows, libraries.startLog (defaultLevel debug).label setting = .ok shows

theorem indent_eq {text : String} (h : '\n' ∉ text.toList) : indent text = text := by
  have hsame : text.toList.flatMap (fun c => if c = '\n' then "\n    ".toList else [c]) =
      text.toList.flatMap fun c => [c] := by
    refine List.flatMap_congr fun c hc => if_neg ?_
    rintro rfl
    exact h hc
  rw [indent, hsame, List.flatMap_singleton', String.ofList_toList]

variable {libraries : Libraries} {setting : Option String}

/-! ## Three cases -/

section Display

variable (options : Options) {filter : Option (String → Bool)}
  {contents : Except Fault (List UInt8)}

theorem display_of_invalid (hlog : libraries.Starts setting) {why : String}
    (h : options.pattern.mapM libraries.compile = .error why) :
    display libraries options setting contents =
      ⟨1, "", complaint "invalid --filter pattern" why⟩ := by
  obtain ⟨shows, hshows⟩ := hlog options.debug
  rw [display, hshows, h]

theorem display_of_fault (hlog : libraries.Starts setting)
    (h : options.pattern.mapM libraries.compile = .ok filter) {fault : Fault}
    (hread : Object.ofContents contents = .error fault) :
    ∃ logged, display libraries options setting contents = ⟨1, "",
      logged ++ complaint ("failed to parse goobj file " ++ options.file) fault.message⟩ := by
  obtain ⟨shows, hshows⟩ := hlog options.debug
  rw [← Object.fst_load options.file] at hread
  rw [display, hshows, h]
  cases hload : Object.load options.file contents with
  | mk outcome journal =>
    obtain rfl : outcome = .error fault := by rw [← hread, hload]
    exact ⟨_, rfl⟩

theorem printed_display_of_object (hlog : libraries.Starts setting)
    (h : options.pattern.mapM libraries.compile = .ok filter) {o : Object}
    (hread : Object.ofContents contents = .ok o) :
    (display libraries options setting contents).printed = ending (print o options filter) := by
  obtain ⟨shows, hshows⟩ := hlog options.debug
  rw [← Object.fst_load options.file] at hread
  rw [display, hshows, h]
  cases hload : Object.load options.file contents with
  | mk outcome journal =>
    obtain rfl : outcome = .ok o := by rw [← hread, hload]
    cases hprint : print o options filter <;> simp only [hprint] <;> rfl

/-- Neither the debug option nor the setting has a say in what is printed. -/
theorem printed_display (hlog : libraries.Starts setting) {setting' : Option String}
    (hlog' : libraries.Starts setting') (debug : Bool) (contents : Except Fault (List UInt8)) :
    (display libraries { options with debug } setting' contents).printed =
      (display libraries options setting contents).printed := by
  cases h : options.pattern.mapM libraries.compile with
  | error why =>
    rw [display_of_invalid options hlog h, display_of_invalid { options with debug } hlog' h]
  | ok filter =>
    cases hread : Object.ofContents contents with
    | error fault =>
      obtain ⟨logged, hplain⟩ := display_of_fault options hlog h hread
      obtain ⟨logged', hgiven⟩ := display_of_fault { options with debug } hlog' h hread
      rw [hplain, hgiven]
      rfl
    | ok o =>
      rw [printed_display_of_object options hlog h hread,
        printed_display_of_object { options with debug } hlog' h hread]
      rfl

end Display

/-! ## Runs -/

variable {args : List String} {options : Options}

theorem run_of_options (h : libraries.options args = .ok options) (setting : Option String)
    (files : String → Except Fault (List UInt8)) :
    run libraries args setting files = display libraries options setting (files options.file) := by
  rw [run, h]

/-- What comes of a run whose arguments ask for a file to be displayed, if the log can be started.

* If the pattern cannot be read, the run ends with code one and prints nothing, and nothing about
  it depends on the file or on the setting.
* Otherwise, if there is a fault in the file or one cannot get hold of it, the run ends with code
  one and prints nothing, and the error output ends with a complaint that has the fault's message,
  in which only lines after the first are indented.
* Otherwise the document of the object is printed, if it was asked for, and the code is zero.
* Otherwise, if no cell of the report needs too many blanks, all of the report is printed, and the
  code is zero.
* Otherwise the code is 101, and what is printed is what stands in the report in front of the first
  cell that needs too many blanks.  This is not nothing, and it is not all of the report.

The setting of the log makes no difference to the code and to what is printed, nor does the debug
option. -/
theorem run_outcome (h : libraries.options args = .ok options) :
    (∀ why, options.pattern.mapM libraries.compile = .error why →
      ∃ outcome : Outcome, outcome.code = 1 ∧ outcome.stdout = "" ∧
        ∀ setting, libraries.Starts setting → ∀ files,
          run libraries args setting files = outcome) ∧
    (∀ filter, options.pattern.mapM libraries.compile = .ok filter →
      ∀ setting, libraries.Starts setting → ∀ files,
      match Object.ofContents (files options.file) with
      | .error fault =>
        (run libraries args setting files).printed = (1, "") ∧
          (∃ logged, (run libraries args setting files).stderr =
            logged ++ ("Error: failed to parse goobj file " ++ options.file ++
              "\n\nCaused by:\n    " ++ indent fault.message ++ "\n")) ∧
          ('\n' ∉ fault.message.toList → indent fault.message = fault.message)
      | .ok o =>
        (options.json → (run libraries args setting files).printed =
          (0, (o.document filter).pretty ++ "\n")) ∧
        (¬ options.json → o.Printable filter options.relocations →
          (run libraries args setting files).printed =
            (0, o.report filter options.relocations)) ∧
        (¬ options.json → ¬ o.Printable filter options.relocations →
          ∃ front rest, (run libraries args setting files).printed = (101, front) ∧
            o.BreaksAfter filter options.relocations front ∧
            o.report filter options.relocations = front ++ rest ∧ front ≠ "" ∧ rest ≠ "")) ∧
    ∀ args' debug, libraries.options args' = .ok { options with debug } →
      ∀ setting setting', libraries.Starts setting → libraries.Starts setting' → ∀ files,
        (run libraries args' setting' files).printed =
          (run libraries args setting files).printed := by
  refine ⟨fun why hinvalid => ?_, fun filter hfilter setting hlog files => ?_,
    fun args' debug h' setting setting' hlog hlog' files => ?_⟩
  · refine ⟨⟨1, "", complaint "invalid --filter pattern" why⟩, rfl, rfl,
      fun setting hlog files => ?_⟩
    rw [run_of_options h, display_of_invalid options hlog hinvalid]
  · rw [run_of_options h]
    split
    · rename_i fault hread
      obtain ⟨logged, houtcome⟩ := display_of_fault options hlog hfilter hread
      rw [houtcome]
      refine ⟨rfl, ⟨logged, ?_⟩, indent_eq⟩
      simp only [complaint, String.append_assoc]
      rfl
    · rename_i o hread
      rw [printed_display_of_object options hlog hfilter hread, print]
      refine ⟨fun hjson => ?_, fun hjson hprintable => ?_, fun hjson hprintable => ?_⟩
      · rw [if_pos hjson]
        rfl
      · rw [if_neg hjson]
        obtain ⟨-, hprint⟩ | ⟨hnot, -⟩ := o.printReport_eq filter options.relocations
        · rw [hprint]
          rfl
        · exact absurd hprintable hnot
      · rw [if_neg hjson]
        obtain ⟨hall, -⟩ | ⟨-, front, hbreaks, hprint⟩ :=
          o.printReport_eq filter options.relocations
        · exact absurd hall hprintable
        · obtain ⟨hfront, rest, hreport, hrest⟩ := hbreaks.proper
          rw [hprint]
          exact ⟨front, rest, rfl, hbreaks, hreport, hfront, hrest⟩
  · rw [run_of_options h, run_of_options h']
    exact printed_display options hlog hlog' debug _

/-- Libraries that take a few arguments, settings that are levels, and patterns of letters only.
Of other patterns they say what is to be said of an open parenthesis. -/
def Libraries.plain : Libraries where
  options
    | [file] => .ok ⟨file, false, none, false, false⟩
    | ["-r", file] => .ok ⟨file, true, none, false, false⟩
    | ["-r", "-d", file] => .ok ⟨file, true, none, false, true⟩
    | ["-f", pattern, file] => .ok ⟨file, false, some pattern, false, false⟩
    | _ => .error ⟨2, "", "error: unexpected argument found\n"⟩
  startLog default setting :=
    match Journal.Level.all.find? (·.label = setting.getD default) with
    | some last => .ok fun level _ _ => level.rank ≤ last.rank
    | none => .error "invalid level filter"
  compile pattern :=
    if pattern.toList.all Char.isAlpha then .ok fun name => pattern.toList <:+: name.toList
    else .error ("regex parse error:\n    " ++ pattern ++ "\n    ^\nerror: unclosed group")
  collapse := "Formatting argument out of range\n"

theorem Libraries.starts_plain : Libraries.plain.Starts none := by
  intro debug
  cases debug <;> exact ⟨_, rfl⟩

/-- A file of which the last byte is wrong, with the debug option and without it: it is read to the
end, and nothing is printed.  Of a file that is as it should be the report is printed, and nothing
if the pattern cannot be read. -/
theorem run_outcome_footer :
    let files := fun _ => .ok (Container.sample.word.dropLast ++ [0x3F])
    let whole := fun _ => .ok (Container.named "main.f").word
    (run .plain ["-r", "main.o"] none files).printed = (1, "") ∧
      (run .plain ["-r", "-d", "main.o"] (some "trace") files).printed = (1, "") ∧
      (run .plain ["-r", "main.o"] none whole).printed =
        (0, (Container.named "main.f").object.report none true) ∧
      (run .plain ["-f", "(", "main.o"] none whole).printed = (1, "") := by
  intro files whole
  have hlog := Libraries.starts_plain
  have hlog' : Libraries.plain.Starts (some "trace") := fun _ => ⟨_, rfl⟩
  obtain ⟨-, hread, hsame⟩ :=
    run_outcome (rfl : Libraries.plain.options ["-r", "main.o"] =
      .ok ⟨"main.o", true, none, false, false⟩)
  have hnothing := hread none rfl none hlog files
  have hfault : Object.ofContents (files "main.o") = .error (.wrongFooter
      (Envelope.closing.dropLast ++ [0x3F])) := by
    decide +kernel
  rw [hfault] at hnothing
  have hall := hread none rfl none hlog whole
  have hobject : Object.ofContents (whole "main.o") = .ok (Container.named "main.f").object :=
    Container.ofContents_named (by decide +kernel)
  rw [hobject] at hall
  have hprintable : (Container.named "main.f").object.Printable none true := by
    decide +kernel
  obtain ⟨hinvalid, -⟩ :=
    run_outcome (rfl : Libraries.plain.options ["-f", "(", "main.o"] =
      .ok ⟨"main.o", false, some "(", false, false⟩)
  obtain ⟨outcome, hcode, hstdout, hrun⟩ := hinvalid _ rfl
  refine ⟨hnothing.1, ?_, hall.2.1 (by decide) hprintable, ?_⟩
  · rw [← hnothing.1]
    exact hsame ["-r", "-d", "main.o"] true rfl none (some "trace") hlog hlog' files
  · rw [hrun none hlog whole]
    exact Prod.ext hcode hstdout

end Command

/-! ## A run that breaks off -/

theorem utf8ByteSize_replicate (n : Nat) :
    (String.ofList (List.replicate n 'a')).utf8ByteSize = n := by
  rw [← Utf8.length_encode, Utf8.encode, String.toList_ofList, List.flatMap_replicate,
    List.length_flatten]
  simp [Char.utf8Size]

namespace Command

/-- A run on an object with a long name, which is read without a fault, prints neither nothing nor
the report. -/
theorem run_named {name : String} (hlong : 65538 < name.utf8ByteSize)
    (hsize : name.utf8ByteSize < 2 ^ 63) {files : String → Except Fault (List UInt8)}
    (hfiles : files "main.o" = .ok (Container.named name).word) :
    let outcome := run .plain ["main.o"] none files
    Object.ofContents (files "main.o") = .ok (Container.named name).object ∧
      outcome.code = 101 ∧ outcome.stdout ≠ "" ∧
      outcome.stdout ≠ (Container.named name).object.report none false := by
  intro outcome
  have hread : Object.ofContents (files "main.o") = .ok (Container.named name).object := by
    rw [hfiles]
    exact Container.ofContents_named hsize
  have hprinted : outcome.printed = ending ((Container.named name).object.printReport none false) :=
    printed_display_of_object ⟨"main.o", false, none, false, false⟩ Libraries.starts_plain rfl hread
  have hwide : ¬ (Container.named name).object.Printable none false := by
    obtain ⟨s, hs, hid⟩ : ∃ s ∈ (Container.named name).object.symbols, s.id = 1 :=
      ⟨_, List.mem_cons_self, rfl⟩
    rw [← Object.selected_none] at hs
    refine Object.not_printable_of_long_name hs ?_ false
    rw [hid]
    exact hlong
  obtain ⟨hall, -⟩ | ⟨-, front, hbreaks, hprint⟩ :=
    (Container.named name).object.printReport_eq none false
  · exact absurd hall hwide
  · obtain ⟨hfront, rest, hreport, hrest⟩ := hbreaks.proper
    rw [hprint] at hprinted
    obtain ⟨hcode, hstdout⟩ := Prod.mk.inj hprinted
    refine ⟨hread, hcode, hstdout.trans_ne hfront, fun hall => hrest ?_⟩
    have hlist := congrArg String.toList (hstdout.symm.trans (hall.trans hreport))
    simpa [String.toList_append] using hlist

/-- A name of 65540 bytes is long enough. -/
theorem run_breaks_off :
    let name := String.ofList (List.replicate 65540 'a')
    let files : String → Except Fault (List UInt8) := fun _ => .ok (Container.named name).word
    let outcome := run .plain ["main.o"] none files
    Object.ofContents (files "main.o") = .ok (Container.named name).object ∧
      outcome.code = 101 ∧ outcome.stdout ≠ "" ∧
      outcome.stdout ≠ (Container.named name).object.report none false := by
  intro name files outcome
  have hname : name.utf8ByteSize = 65540 := utf8ByteSize_replicate 65540
  exact run_named (by omega) (by omega) rfl

end Command

end ObjectFile
