/-!
# Text as bytes

Frames are byte lists.  A text contributes the UTF-8 bytes of its characters
in order, and bytes are read back only when the whole run is valid UTF-8.
-/

namespace Muster.Text

def utf8 (s : String) : List UInt8 :=
  s.toList.flatMap String.utf8EncodeChar

def ofUtf8? (bytes : List UInt8) : Option String :=
  String.fromUTF8? bytes.toByteArray

def decimal (n : Nat) : String :=
  String.ofList (Nat.toDigits 10 n)

/-- Texts in a row with a separator between neighbours. -/
def joined (separator : String) (texts : List String) : String :=
  separator.intercalate texts

def bracketed (texts : List String) : String :=
  "[" ++ joined ", " texts ++ "]"

end Muster.Text
