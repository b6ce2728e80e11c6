import MiniPL.Event
import MiniPL.Text.Encoding

/-!
# Program files

The text of a program file is that of its bytes, in UTF-8, with its lines
(`Text.fileLines`) joined by line feeds. So it does not matter how the file ends its
lines, and whether it ends the last one.
-/

namespace MiniPL

/-- The text of lines. -/
def Text.unlines (lines : List String) : String := "\n".intercalate lines

/-- The text of the program file at `path`, which holds the given bytes, if there is
    such a file. -/
def fileText (path : String) (bytes? : Option ByteArray) : Logged String :=
  match bytes? with
  | none => ⟨[], .error (.file path .missing)⟩
  | some bytes =>
    match Text.decode bytes with
    | .error offset => ⟨[], .error (.file path (.notText offset))⟩
    | .ok text =>
      let lines := Text.fileLines text
      ⟨[.loaded path lines.length], .ok (Text.unlines lines)⟩

end MiniPL
