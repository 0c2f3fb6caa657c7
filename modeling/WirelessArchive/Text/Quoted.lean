import WirelessArchive.Text.Invisible

/-!
# Quoted text

How a message shows a string: between double quotes, with the quote and the backslash escaped, the
usual short escapes for NUL, tab, line feed and carriage return, and every other invisible
character by its code point.
-/

namespace WirelessArchive.Text

/-- The text of one character between quotes. -/
def quotedChar (c : Char) : List Char :=
  if c = '"' then ['\\', '"']
  else if c = '\\' then ['\\', '\\']
  else if c = '\x00' then ['\\', '0']
  else if c = '\t' then ['\\', 't']
  else if c = '\n' then ['\\', 'n']
  else if c = '\r' then ['\\', 'r']
  else if isInvisible c then ['\\', 'u', '\x7b'] ++ Nat.toDigits 16 c.toNat ++ ['\x7d']
  else [c]

/-- The quoted form of a string. -/
def quoted (s : String) : String :=
  String.ofList ('"' :: (s.toList.flatMap quotedChar ++ ['"']))

example : quoted "it's \"a\"\t" = "\"it's \\\"a\\\"\\t\"" := by decide +kernel

example : quoted "é\u0301\u0001" = "\"é\\u\x7b301\x7d\\u\x7b1\x7d\"" := by decide +kernel

/-- The Hangul fillers are escaped, their neighbours are not. -/
example :
    ['\u115e', '\u115f', '\u1160', '\u1161', '\u3163', '\u3164', '\u3165', '\uff9d', '\uffa0',
      '\uffa1'].filter isInvisible = ['\u115f', '\u1160', '\u3164', '\uffa0'] := by
  decide +kernel

/-- The halfwidth sound marks stand as they are; the combining ones are escaped. -/
example :
    ['\uff9e', '\uff9f', '\u3099', '\u309a'].filter isInvisible = ['\u3099', '\u309a'] := by
  decide +kernel

end WirelessArchive.Text
