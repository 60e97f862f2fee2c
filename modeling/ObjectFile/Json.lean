import ObjectFile.Numeral
/-!
# JSON documents

Documents made of truth values, whole numbers, texts, lists and objects, and the way they
are written: every item and every field on a line of its own, two blanks deeper than what
it is in.  The fields of an object are written in the order in which they are listed.
-/

namespace ObjectFile

/-- A document. -/
inductive Json where
  | bool (b : Bool)
  | integer (n : Int)
  | text (s : String)
  | array (items : List Json)
  | object (fields : List (String × Json))
deriving Repr

namespace Json

/-- A character within quotes. -/
def escape (c : Char) : String :=
  if c = '"' then "\\\""
  else if c = '\\' then "\\\\"
  else if c = '\x08' then "\\b"
  else if c = '\x0c' then "\\f"
  else if c = '\n' then "\\n"
  else if c = '\r' then "\\r"
  else if c = '\t' then "\\t"
  else if c.toNat < 0x20 then "\\u00" ++ Numeral.byteHex c.toNat.toUInt8
  else c.toString

/-- A text with its quotes. -/
def quote (s : String) : String := "\"" ++ String.join (s.toList.map escape) ++ "\""

/-- The blanks in front of a line at some depth. -/
def indent (depth : Nat) : String := String.ofList (List.replicate (2 * depth) ' ')

/-- Lines, one deeper than the brackets around them. -/
def bracket (depth : Nat) (left right : String) (lines : List String) : String :=
  if lines.isEmpty then left ++ right
  else
    left ++ "\n" ++ String.intercalate ",\n" (lines.map (indent (depth + 1) ++ ·)) ++
      "\n" ++ indent depth ++ right

mutual

/-- A document as it is written at some depth. -/
def render (depth : Nat) : Json → String
  | bool b => if b then "true" else "false"
  | integer n => Numeral.decimal n
  | text s => quote s
  | array items => bracket depth "[" "]" (renderItems (depth + 1) items)
  | object fields => bracket depth "\x7b" "\x7d" (renderFields (depth + 1) fields)

/-- The items of a list. -/
def renderItems (depth : Nat) : List Json → List String
  | [] => []
  | item :: items => render depth item :: renderItems depth items

/-- The fields of an object. -/
def renderFields (depth : Nat) : List (String × Json) → List String
  | [] => []
  | (key, value) :: fields =>
    (quote key ++ ": " ++ render depth value) :: renderFields depth fields

end

end Json

end ObjectFile
