import GoldenRun.Text.Utf8

/-!
# Texts of octets

A program sees its arguments, its environment and its files as bytes.  Here such bytes are a text
whose characters are all below 256, one for each byte, so that they can be cut, compared and
matched like any other text and no byte is lost.
-/

namespace GoldenRun.Text

/-- The text with one character for each byte. -/
def ofOctets (bytes : Bytes) : String := String.ofList (bytes.map fun b => Char.ofNat b.toNat)

/-- The bytes of a text of octets. -/
def toOctets (text : String) : Bytes := text.toList.map fun c => UInt8.ofNat c.toNat

/-- The octets of the UTF-8 form of a text. -/
def octets (text : String) : String := ofOctets (encode text)

/-- The text of which the octets are the UTF-8 form. -/
def ofUtf8Octets (text : String) : String := decode (toOctets text)

end GoldenRun.Text
