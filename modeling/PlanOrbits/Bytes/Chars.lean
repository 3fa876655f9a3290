/-!
# Bytes as characters

Programs exchange bytes, most of which are meant as characters. Here a byte is
held as the character with that code, so that texts which are no valid UTF-8 can
be cut and compared like others. `toText?` reads such a text as UTF-8 again.
-/

namespace PlanOrbits.Bytes

/-- Each byte as the character with its code. -/
def chars (bytes : List UInt8) : List Char := bytes.map fun b => Char.ofNat b.toNat

/-- The bytes of characters that stand for bytes. -/
def ofChars (cs : List Char) : List UInt8 := cs.map fun c => c.toNat.toUInt8

/-- The UTF-8 bytes of a text. -/
def ofText (text : String) : List UInt8 := text.toUTF8.data.toList

/-- The text with the given UTF-8 bytes. -/
def toText? (bytes : List UInt8) : Option String := String.fromUTF8? ⟨bytes.toArray⟩

/-- The UTF-8 bytes of a text as characters. -/
def charsOfText (text : String) : List Char := chars (ofText text)

/-- The text whose UTF-8 bytes the characters stand for. -/
def textOfChars? (cs : List Char) : Option String := toText? (ofChars cs)

end PlanOrbits.Bytes
