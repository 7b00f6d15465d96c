/-
  Places in a text by their UTF-8 byte offset. A place inside a character, or past the end, is none.
-/

namespace SourceOutline.Text

def byteSize (cs : List Char) : Nat := cs.foldr (fun c n => c.utf8Size + n) 0

/-- Cuts a text at a byte offset. -/
def splitAtByte? : Nat → List Char → Option (List Char × List Char)
  | 0, cs => some ([], cs)
  | _ + 1, [] => none
  | n + 1, c :: cs =>
    if c.utf8Size ≤ n + 1 then
      (splitAtByte? (n + 1 - c.utf8Size) cs).map fun (before, rest) => (c :: before, rest)
    else none

/-- The characters from one byte offset up to another. -/
def slice? (cs : List Char) (start stop : Nat) : Option (List Char) :=
  if stop < start then none
  else do
    let (_, rest) ← splitAtByte? start cs
    let (inside, _) ← splitAtByte? (stop - start) rest
    pure inside

end SourceOutline.Text
