import SecureChat.Common.Bytes
import SecureChat.Library.Loop

/-!
# The loops over bytes

The conversions of `sdcHelper` with the types of their indices: an `int`, an `unsigned int` and an
iterator. They have no result when an index leaves its type or the bytes. As long as the size is an
`int`, they are the conversions that the rest of the development works with.
-/

namespace SecureChat.Checked
open Library

def bStringToByteSeq (arr : List Int8) (len : Int) : Option ByteSeq :=
  forLoop (fun i : Int32 => decide (i.toInt < len)) nextInt32 (fun i vec => do
    let c ← arr[i.toNatClampNeg]?
    return vec ++ [c.toUInt8]) arr.length 0 []

/-- The chars of the array and the NUL behind them. -/
def constData (arr : QByteArray) : List Int8 := arr ++ [0]

def byteArraytoByteSeq (arr : QByteArray) : Option ByteSeq :=
  bStringToByteSeq (constData arr) arr.length

def getBinaryString (bytes : ByteSeq) : Option StdString :=
  forLoop (fun it => decide (it < bytes.length)) (nextPosition bytes.length) (fun it ret => do
    let byte ← bytes[it]?
    return ret ++ [byte.toInt8]) bytes.length 0 []

section
variable (uninitialized : Nat → Int8)

def resize (size : Int32) : QByteArray := (List.range size.toNatClampNeg).map uninitialized

/-- `arr[i] = c`, which makes the array longer if it has no char at the index. -/
def assign (arr : QByteArray) (i : Nat) (c : Int8) : QByteArray :=
  (arr ++ (List.range' arr.length (i + 1 - arr.length)).map uninitialized).set i c

def byteSeqToByteArray (bytes : ByteSeq) : Option QByteArray :=
  forLoop (fun i : UInt32 => decide (i.toNat < bytes.length)) nextUInt32 (fun i arr => do
    let byte ← bytes[i.toNat]?
    return assign uninitialized arr i.toNat byte.toInt8) bytes.length 0
      (resize uninitialized (Int32.ofNat bytes.length))

end

/-! ## The results of the loops -/

theorem bStringToByteSeq_eq {arr : List Int8} {n : Nat} (fits : n < 2 ^ 31) (inside : n ≤ arr.length) :
    bStringToByteSeq arr n = some (StdString.toByteSeq (arr.take n)) := by
  obtain ⟨spare, size⟩ := Nat.exists_eq_add_of_le inside
  rw [bStringToByteSeq, size]
  refine (counts_int32 fits).run (fun k => StdString.toByteSeq (arr.take k)) (fun k before => ?_) spare
  have present : k < arr.length := by omega
  rw [Int32.toNatClampNeg_ofNat_of_lt (by omega), List.getElem?_eq_getElem present,
    List.take_succ_eq_append_getElem present, StdString.toByteSeq, StdString.toByteSeq, List.map_append]
  rfl

theorem bStringToByteSeq_too_long (arr : List Int8) {len : Int} (long : 2 ^ 31 ≤ len) :
    bStringToByteSeq arr len = none := by
  apply forLoop_endless
  intro i
  have bound := i.toInt_lt
  rw [decide_eq_true_eq]
  omega

theorem byteArraytoByteSeq_eq {arr : QByteArray} (fits : arr.length < 2 ^ 31) :
    byteArraytoByteSeq arr = some (SecureChat.byteArraytoByteSeq arr) := by
  rw [byteArraytoByteSeq, bStringToByteSeq_eq fits (by simp [constData]), constData, List.take_left,
    SecureChat.byteArraytoByteSeq_eq]

theorem getBinaryString_eq (bytes : ByteSeq) : getBinaryString bytes = some bytes.toStdString := by
  have whole : bytes.toStdString = ByteSeq.toStdString (bytes.take bytes.length) := by rw [List.take_length]
  rw [whole]
  refine (counts_position bytes.length).run (fun k => ByteSeq.toStdString (bytes.take k)) (fun k before => ?_) 0
  rw [id, List.getElem?_eq_getElem before, List.take_succ_eq_append_getElem before, ByteSeq.toStdString,
    ByteSeq.toStdString, List.map_append]
  rfl

variable (uninitialized : Nat → Int8)

theorem assign_inside {arr : QByteArray} {i : Nat} (inside : i < arr.length) (c : Int8) :
    assign uninitialized arr i c = arr.set i c := by
  have nothing : i + 1 - arr.length = 0 := by omega
  simp [assign, nothing]

theorem byteSeqToByteArray_eq {bytes : ByteSeq} (fits : bytes.length < 2 ^ 31) :
    byteSeqToByteArray uninitialized bytes = some (SecureChat.byteSeqToByteArray bytes) := by
  let state (k : Nat) : QByteArray :=
    ByteSeq.toStdString (bytes.take k) ++ ((List.range bytes.length).map uninitialized).drop k
  have initially : resize uninitialized (Int32.ofNat bytes.length) = state 0 := by
    simp [resize, state, Int32.toNatClampNeg_ofNat_of_lt fits, ByteSeq.toStdString]
  have finished : state bytes.length = SecureChat.byteSeqToByteArray bytes := by
    simp [state, SecureChat.byteSeqToByteArray_eq]
  rw [byteSeqToByteArray, initially, ← finished]
  refine (counts_uint32 (by omega)).run state (fun k before => ?_) 0
  have size : (ByteSeq.toStdString (bytes.take k)).length = k := by
    simp [ByteSeq.toStdString, Nat.min_eq_left (Nat.le_of_lt before)]
  have inside : k < (state k).length := by
    simp [state, size]
    omega
  have here : (UInt32.ofNat k).toNat = k := UInt32.toNat_ofNat_of_lt' (show k < 2 ^ 32 by omega)
  have assigned : (state k).set k bytes[k].toInt8 = state (k + 1) := by
    have left : k < ((List.range bytes.length).map uninitialized).length := by simpa using before
    simp only [state]
    rw [List.set_append_right _ _ (Nat.le_of_eq size), size, Nat.sub_self, List.drop_eq_getElem_cons left,
      List.set_cons_zero, List.take_succ_eq_append_getElem before]
    simp only [ByteSeq.toStdString, List.map_append, List.map_cons, List.map_nil, List.append_assoc,
      List.singleton_append]
  rw [here, List.getElem?_eq_getElem before, Option.bind_eq_bind, Option.bind_some,
    assign_inside uninitialized inside, assigned]
  rfl

/-- The size of a `QByteArray` is an `int`. -/
abbrev SizedArray := { arr : QByteArray // arr.length < 2 ^ 31 }

/-- Bytes and chars go through all conversions unchanged, and the index of every loop stays in its
type. -/
theorem conversions_keep_bytes {bytes : ByteSeq} (fits : bytes.length < 2 ^ 31) :
    (∃ arr text, byteSeqToByteArray uninitialized bytes = some arr ∧ getBinaryString bytes = some text ∧
      byteArraytoByteSeq arr = some bytes ∧ bStringToByteSeq text text.length = some bytes ∧ text = arr) ∧
    ∀ arr : SizedArray, ∃ same, byteArraytoByteSeq arr.val = some same ∧
      byteSeqToByteArray uninitialized same = some arr.val := by
  constructor
  · refine ⟨_, _, byteSeqToByteArray_eq uninitialized fits, getBinaryString_eq bytes, ?_, ?_, ?_⟩
    · rw [byteArraytoByteSeq_eq (by simpa using fits), byteArraytoByteSeq_byteSeqToByteArray]
    · have size : bytes.toStdString.length = bytes.length := List.length_map ..
      rw [bStringToByteSeq_eq (size ▸ fits) (Nat.le_refl _), List.take_length,
        StdString.toByteSeq_toStdString]
    · exact (SecureChat.byteSeqToByteArray_eq bytes).symm
  · intro ⟨arr, sized⟩
    refine ⟨_, byteArraytoByteSeq_eq sized, ?_⟩
    rw [byteSeqToByteArray_eq uninitialized (by simpa using sized), byteSeqToByteArray_byteArraytoByteSeq]

theorem conversions_keep_bytes_sign :
    ∃ arr text, byteSeqToByteArray (fun _ => 7) [0, 128, 255] = some arr ∧
      getBinaryString [0, 128, 255] = some text ∧ byteArraytoByteSeq arr = some [0, 128, 255] ∧
      bStringToByteSeq text text.length = some [0, 128, 255] ∧ text = arr :=
  (conversions_keep_bytes (fun _ => 7) (show ([0, 128, 255] : ByteSeq).length < 2 ^ 31 by decide)).1

end SecureChat.Checked
