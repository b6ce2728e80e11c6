import MiniPL.Decimal.Notation

/-!
# Outlines

An outline is a nested record of texts, numbers and lists. As text it has one line
for each key and each leaf, indented by two spaces a level: a leaf stands on the line
of its key, a record or a list stands below it, a level deeper. The items of a list
are marked by a dash on a line of its own. The depth may be negative: nothing is
indented before level 1.

An empty record or list has the empty text, which still takes a line below its key.
-/

namespace MiniPL

/-- What has no parts. -/
inductive Outline.Leaf
  | none
  | bool (b : Bool)
  | number (n : Int)
  | real (x : BinaryFloat)
  | text (s : String)
  deriving DecidableEq, Repr

/-- A nested record of texts, numbers and lists. -/
inductive Outline
  | leaf (l : Outline.Leaf)
  | list (items : List Outline)
  | record (fields : List (String × Outline))
  deriving Inhabited

namespace Outline

/-- How a leaf is written. -/
def Leaf.write : Leaf → String
  | none => "None"
  | bool b => if b then "True" else "False"
  | number n => toString n
  | real x => x.text
  | text s => s

/-- The space before what stands `depth` levels deep. -/
def margin (depth : Int) : String := .ofList (List.replicate (2 * depth).toNat ' ')

mutual

/-- The text of an outline that stands `depth` levels deep. -/
def render (depth : Int) : Outline → String
  | leaf l => margin depth ++ l.write
  | list items => "\n".intercalate (itemLines depth items)
  | record fields => "\n".intercalate (fieldLines depth fields)

/-- The texts of items. -/
def itemLines (depth : Int) : List Outline → List String
  | [] => []
  | item :: rest => (margin depth ++ "-") :: render (depth + 1) item :: itemLines depth rest

/-- The texts of fields. -/
def fieldLines (depth : Int) : List (String × Outline) → List String
  | [] => []
  | (key, value) :: rest =>
    match value with
    | leaf l => (margin depth ++ key ++ ": " ++ l.write) :: fieldLines depth rest
    | _ => (margin depth ++ key ++ ":") :: render (depth + 1) value :: fieldLines depth rest

end

end Outline

end MiniPL
