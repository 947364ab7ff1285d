/-!
# Bytes

Names, paths and file contents are finite byte strings.  Text enters this world through its UTF-8
form, `Bytes.ofText`, which is an injective monoid homomorphism: the bytes of a joined text are the
joined bytes, and the text can be told from its bytes.
-/

namespace TreePack

abbrev Bytes := List UInt8

namespace Bytes

def slash : UInt8 := 0x2F

def dot : UInt8 := 0x2E

def ofText (text : String) : Bytes :=
  text.toList.flatMap String.utf8EncodeChar

@[simp] theorem ofText_empty : ofText "" = [] := rfl

@[simp] theorem ofText_append (s t : String) :
    ofText (s ++ t) = ofText s ++ ofText t := by
  simp [ofText]

theorem ofText_injective : Function.Injective ofText := by
  intro text other hbytes
  have hencoded : text.toList.utf8Encode = other.toList.utf8Encode :=
    congrArg List.toByteArray hbytes
  rwa [String.utf8Encode_toList, String.utf8Encode_toList, String.toByteArray_inj] at hencoded

end Bytes

end TreePack
