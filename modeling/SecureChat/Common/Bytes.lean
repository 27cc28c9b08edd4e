import Mathlib.Data.List.Induction
import SecureChat.Common.Strings

/-!
# Byte sequences and byte arrays

The conversions of `sdcHelper` between the byte sequences of Ice, whose bytes are unsigned, and
the byte arrays of Qt, whose chars are signed.
-/

namespace SecureChat

abbrev QByteArray := List Int8

namespace QByteArray

def left (arr : QByteArray) (len : Nat) : QByteArray :=
  arr.take len

def mid (arr : QByteArray) (pos : Nat) : QByteArray :=
  arr.drop pos

def prepend (arr first : QByteArray) : QByteArray :=
  first ++ arr

theorem left_prepend {first : QByteArray} (arr : QByteArray) {n : Nat} (size : first.length = n) :
    (prepend arr first).left n = first := by
  subst size
  exact List.take_left

theorem mid_prepend {first : QByteArray} (arr : QByteArray) {n : Nat} (size : first.length = n) :
    (prepend arr first).mid n = arr := by
  subst size
  exact List.drop_left

end QByteArray

def bStringToByteSeq (arr : List Int8) (len : Nat) : ByteSeq :=
  (List.range len).foldl (fun vec i => vec ++ [(arr.getD i 0).toUInt8]) []

def byteSeqToByteArray (bytes : ByteSeq) : QByteArray :=
  (List.range bytes.length).foldl (fun arr i => arr.set i (bytes.getD i 0).toInt8)
    (List.replicate bytes.length 0)

def byteArraytoByteSeq (arr : QByteArray) : ByteSeq :=
  bStringToByteSeq arr arr.length

/-! ## The loops -/

private theorem push_back_loop {α : Type} (f : Nat → α) (n : Nat) :
    (List.range n).foldl (fun vec i => vec ++ [f i]) [] = (List.range n).map f := by
  induction n with
  | zero => rfl
  | succ n ih => simp [List.range_succ, ih]

private theorem assign_loop {α : Type} (f : Nat → α) {arr : List α} {n : Nat} (fits : n ≤ arr.length) :
    (List.range n).foldl (fun arr i => arr.set i (f i)) arr = (List.range n).map f ++ arr.drop n := by
  induction n with
  | zero => simp
  | succ n ih =>
      have later := ih (by omega)
      have next : (arr.drop n).set 0 (f n) = f n :: arr.drop (n + 1) := by
        rw [List.drop_eq_getElem_cons (show n < arr.length by omega), List.set_cons_zero]
      rw [List.range_succ, List.foldl_append, later]
      simp [next]

private theorem map_range_getD {α β : Type} (xs : List α) (f : α → β) (default : α) :
    (List.range xs.length).map (fun i => f (xs.getD i default)) = xs.map f := by
  apply List.ext_getElem (by simp)
  intro i here _
  have inside : i < xs.length := by simpa using here
  simp [inside]

theorem byteArraytoByteSeq_eq (arr : QByteArray) : byteArraytoByteSeq arr = StdString.toByteSeq arr := by
  rw [byteArraytoByteSeq, bStringToByteSeq, push_back_loop]
  exact map_range_getD arr Int8.toUInt8 0

theorem byteSeqToByteArray_eq (bytes : ByteSeq) : byteSeqToByteArray bytes = bytes.toStdString := by
  rw [byteSeqToByteArray, assign_loop _ (by simp), map_range_getD bytes UInt8.toInt8 0]
  simp [ByteSeq.toStdString]

@[simp] theorem length_byteSeqToByteArray (bytes : ByteSeq) :
    (byteSeqToByteArray bytes).length = bytes.length := by
  rw [byteSeqToByteArray_eq, ByteSeq.toStdString, List.length_map]

@[simp] theorem length_byteArraytoByteSeq (arr : QByteArray) :
    (byteArraytoByteSeq arr).length = arr.length := by
  rw [byteArraytoByteSeq_eq, StdString.toByteSeq, List.length_map]

@[simp] theorem byteArraytoByteSeq_byteSeqToByteArray (bytes : ByteSeq) :
    byteArraytoByteSeq (byteSeqToByteArray bytes) = bytes := by
  rw [byteArraytoByteSeq_eq, byteSeqToByteArray_eq, StdString.toByteSeq_toStdString]

@[simp] theorem byteSeqToByteArray_byteArraytoByteSeq (arr : QByteArray) :
    byteSeqToByteArray (byteArraytoByteSeq arr) = arr := by
  rw [byteArraytoByteSeq_eq, byteSeqToByteArray_eq, ByteSeq.toStdString_toByteSeq]

end SecureChat
