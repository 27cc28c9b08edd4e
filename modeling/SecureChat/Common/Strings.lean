import Mathlib.Data.List.Basic

/-!
# Strings and byte sequences

A `std::string` is a sequence of `char`, which is a signed byte here; an Ice `ByteSeq` is a
sequence of unsigned bytes. Both conversions between them that the server writes with a pair of
iterators keep the length and the bits of every element.
-/

namespace SecureChat

abbrev StdString := List Int8

abbrev ByteSeq := List UInt8

def lit (text : String) : StdString :=
  text.toList.map fun c => c.toNat.toUInt8.toInt8

/-- `string(bytes.begin(), bytes.end())` -/
def ByteSeq.toStdString (bytes : ByteSeq) : StdString :=
  bytes.map UInt8.toInt8

/-- `ByteSeq(text.begin(), text.end())` -/
def StdString.toByteSeq (text : StdString) : ByteSeq :=
  text.map Int8.toUInt8

@[simp] theorem StdString.toByteSeq_toStdString (bytes : ByteSeq) :
    StdString.toByteSeq (ByteSeq.toStdString bytes) = bytes := by
  have inverse : Int8.toUInt8 ∘ UInt8.toInt8 = id := rfl
  simp [StdString.toByteSeq, ByteSeq.toStdString, inverse]

@[simp] theorem ByteSeq.toStdString_toByteSeq (text : StdString) :
    ByteSeq.toStdString (StdString.toByteSeq text) = text := by
  have inverse : UInt8.toInt8 ∘ Int8.toUInt8 = id := rfl
  simp [StdString.toByteSeq, ByteSeq.toStdString, inverse]

theorem ByteSeq.toStdString_injective : Function.Injective ByteSeq.toStdString :=
  Function.LeftInverse.injective StdString.toByteSeq_toStdString

theorem StdString.toByteSeq_injective : Function.Injective StdString.toByteSeq :=
  Function.LeftInverse.injective ByteSeq.toStdString_toByteSeq

@[simp] theorem ByteSeq.toStdString_inj {a b : ByteSeq} :
    ByteSeq.toStdString a = ByteSeq.toStdString b ↔ a = b :=
  ByteSeq.toStdString_injective.eq_iff

@[simp] theorem ByteSeq.toStdString_eq_nil {bytes : ByteSeq} :
    ByteSeq.toStdString bytes = [] ↔ bytes = [] := by
  simp [ByteSeq.toStdString]

end SecureChat
