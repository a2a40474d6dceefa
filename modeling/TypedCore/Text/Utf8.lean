import TypedCore.Word

/-!
# Text as bytes

Arguments, paths and documents are text to their user and bytes to the
machine; between the two stands UTF-8.
-/

namespace TypedCore.Text

def ofByteArray (bytes : ByteArray) : List Byte := bytes.data.toList.map UInt8.toBitVec

def toByteArray (bytes : List Byte) : ByteArray := ⟨(bytes.map UInt8.ofBitVec).toArray⟩

def toBytes (s : String) : List Byte := ofByteArray s.toUTF8

/-- The text that some bytes are, if they are well-formed. -/
def ofBytes? (bytes : List Byte) : Option String := String.fromUTF8? (toByteArray bytes)

end TypedCore.Text
