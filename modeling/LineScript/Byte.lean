/-!
Bytes, as input, output and files hold them, and their relation to words and text.
-/

namespace LineScript

abbrev Bytes := List UInt8

/-- The low eight bits of a word. -/
def lowByte (value : Int64) : UInt8 :=
  value.toUInt64.toUInt8

/-- A byte as a word from 0 to 255. -/
def byteWord (byte : UInt8) : Int64 :=
  Int64.ofNat byte.toNat

namespace Bytes

def ofText (text : String) : Bytes :=
  text.toList.flatMap String.utf8EncodeChar

/-- The text that bytes encode in UTF-8, when they encode one. -/
def text? (bytes : Bytes) : Option String :=
  String.fromUTF8? ⟨bytes.toArray⟩

end Bytes
end LineScript
