/-!
# Reading text from bytes

Files hold text in UTF-8. Reading is strict: bytes that are not the encoding of a
text are refused, at the first place where no character can be read.
-/

namespace MiniPL.Text

/-- The offset, from `i` on, of the first byte at which no character can be read. -/
def invalidOffset (bytes : ByteArray) (i : Nat) : Nat :=
  if i < bytes.size then
    match bytes.utf8DecodeChar? i with
    | some c => invalidOffset bytes (i + c.utf8Size)
    | none => i
  else i
termination_by bytes.size - i
decreasing_by
  have := c.utf8Size_pos
  omega

/-- The text that the bytes encode, or the offset of the first byte at which no
    character can be read. -/
def decode (bytes : ByteArray) : Except Nat String :=
  match String.fromUTF8? bytes with
  | some s => .ok s
  | none => .error (invalidOffset bytes 0)

/-- The encoding of a text is read back. -/
theorem decode_toUTF8 (s : String) : decode s.toUTF8 = .ok s := by
  have h : String.fromUTF8? s.toUTF8 = some s := dif_pos s.isValidUTF8
  rw [decode, h]

end MiniPL.Text
