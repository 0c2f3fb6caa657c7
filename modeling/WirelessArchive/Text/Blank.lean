/-!
# Blank text

Which characters count as white space.  The class is the Unicode property `White_Space`, which is
wider than the ASCII class of `Char.isWhitespace`: it also holds the no-break space, the line and
paragraph separators and the spaces of fixed width.
-/

namespace WirelessArchive.Text

/-- The characters with the Unicode property `White_Space`. -/
def isBlank (c : Char) : Bool :=
  let n := c.toNat
  (0x09 ≤ n && n ≤ 0x0D) || n == 0x20 || n == 0x85 || n == 0xA0 || n == 0x1680 ||
    (0x2000 ≤ n && n ≤ 0x200A) || n == 0x2028 || n == 0x2029 || n == 0x202F || n == 0x205F ||
    n == 0x3000

/-- A text is blank when it holds no character outside `isBlank`; the empty text is blank. -/
def isAllBlank (s : String) : Bool := s.toList.all isBlank

end WirelessArchive.Text
