import ObjectFile.Journal
import ObjectFile.Tool.Pattern
/-!
# Which entries are shown

A filter has rules and may have a pattern.  A rule names the last level that is shown of what
some parts of the program tell, the parts being given by how their names begin; for each part
the rule with the longest such beginning counts.  A part that no rule is about is not heard.
Of what the rules let through, only entries are shown in whose wording the pattern occurs.

In writing, rules are separated by commas, and a slash stands between the rules and the
pattern.  A rule is a level (`debug`), a beginning (`readgoobj`, everything of which is shown)
or both (`readgoobj=debug`); instead of a level there may be `off`.  There are no blanks in a
beginning.
-/

namespace ObjectFile.Tool

open Journal (Level)

/-- How much is shown of what some parts of the program tell. -/
structure LogRule where
  /-- How the names of the parts begin. -/
  target : String
  /-- The last level that is shown; without one nothing is. -/
  shown : Option Level
deriving DecidableEq, Repr

/-- Rules, of which for each part of the program the most particular one counts, and a
pattern. -/
structure LogFilter where
  /-- The rules. -/
  rules : List LogRule
  /-- What has to occur in the wording of an entry. -/
  pattern : Option Pattern := none
deriving Repr

namespace LogFilter

/-- Whether a rule is about a part of the program. -/
def concerns (target : String) (rule : LogRule) : Bool :=
  rule.target.toList.isPrefixOf target.toList

/-- The rule with the longest beginning of a part's name, the first one of several. -/
def ruleFor (f : LogFilter) (target : String) : Option LogRule :=
  (f.rules.filter (concerns target)).foldl (fun best rule =>
    match best with
    | none => some rule
    | some b => if b.target.length < rule.target.length then some rule else some b) none

/-- The rule for a part of the program reaches a level. -/
def reaches (f : LogFilter) (level : Level) (target : String) : Bool :=
  match (f.ruleFor target).bind LogRule.shown with
  | some last => level.rank ≤ last.rank
  | none => false

/-- An entry is shown if the rule for the part that tells it reaches its level and the pattern
occurs in its wording. -/
def shows (f : LogFilter) (level : Level) (target message : String) : Bool :=
  f.reaches level target && f.pattern.all (·.occursIn message)

/-! ## Reading filters -/

/-- The pieces of a text between separators. -/
def split (separator : Char) : List Char → List (List Char)
  | [] => [[]]
  | c :: cs =>
    match split separator cs with
    | [] => [[c]]
    | piece :: pieces =>
      if c = separator then [] :: piece :: pieces else (c :: piece) :: pieces

/-- A text without the blanks around it. -/
def trim (cs : List Char) : List Char :=
  ((cs.dropWhile Character.isBlank).reverse.dropWhile Character.isBlank).reverse

/-- A level by its name, in letters of either case, or none at all. -/
def level? (cs : List Char) : Option (Option Level) :=
  let label := String.ofList (cs.map Char.toLower)
  if label = "off" then some none
  else (Level.all.find? (·.label = label)).map some

/-- A rule. -/
def rule? (cs : List Char) : Option LogRule :=
  match (split '=' cs).map trim with
  | [] => none
  | target :: level =>
    if target.any Character.isBlank then none
    else match level with
      | [] =>
        match level? target with
        | some shown => some ⟨"", shown⟩
        | none => some ⟨String.ofList target, some .trace⟩
      | [[]] => some ⟨String.ofList target, some .trace⟩
      | [level] => (level? level).map fun shown => ⟨String.ofList target, shown⟩
      | _ => none

/-- Rules with commas between them; nothing between two commas is no rule. -/
def rules? (cs : List Char) : Option (List LogRule) :=
  (((split ',' cs).map trim).filter (· ≠ [])).mapM rule?

/-- A filter as it is written. -/
def parse (text : String) : Option LogFilter :=
  match split '/' text.toList with
  | [rules] => (rules? rules).map ({ rules := · })
  | [rules, pattern] => do
    return { rules := ← rules? rules, pattern := some (← Pattern.parse (String.ofList pattern)) }
  | _ => none

end LogFilter

end ObjectFile.Tool
