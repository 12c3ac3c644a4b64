import LineScript.Text.Unprintable

/-!
Quoted text for messages. Control characters with a letter of their own are written with it, other
unprintable characters by their code point, and the enclosing quote and the backslash are escaped.
-/

namespace LineScript.Text

/-- A character as it stands between two `quote` characters. -/
def escaped (quote c : Char) : List Char :=
  if c = '\x00' then ['\\', '0']
  else if c = '\t' then ['\\', 't']
  else if c = '\r' then ['\\', 'r']
  else if c = '\n' then ['\\', 'n']
  else if c = '\\' ∨ c = quote then ['\\', c]
  else if isUnprintable c then
    ['\\', 'u', '\x7b'] ++ Nat.toDigits 16 c.toNat ++ ['\x7d']
  else [c]

def quotedCharacter (c : Char) : String :=
  String.ofList ('\x27' :: escaped '\x27' c ++ ['\x27'])

def quotedString (content : String) : String :=
  String.ofList ('\x22' :: content.toList.flatMap (escaped '\x22') ++ ['\x22'])

end LineScript.Text
