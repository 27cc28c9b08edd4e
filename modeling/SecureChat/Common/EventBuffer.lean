import SecureChat.Common.FileWatcher
import SecureChat.Library.LittleEndian

/-!
# The event buffer

The inner loop of the watcher's thread, over the bytes that `read` has left in the buffer. The
kernel lays the records of a batch back to back, each a header of 16 bytes and a name that is padded
with NULs. On such a batch the loop makes the calls that the events of the batch are told with.
-/

namespace SecureChat
open Library

def EVENT_SIZE : Nat := 16
def BUF_LEN : Nat := 1024 * (EVENT_SIZE + 16)

namespace EventBuffer
variable {ε : Type}

/-- The loop fails when it reads outside of what `read` has filled, or when its fuel is used up. -/
abbrev Scan (ε α : Type) := OptionT (FileWatcher.Watch ε) α

def Scan.of {α : Type} (value : Option α) : Scan ε α := OptionT.mk (pure value)

section
variable (buffer : List UInt8) (length : Int)

def filled (i : Int) : List UInt8 :=
  if i < 0 then [] else (buffer.take length.toNat).drop i.toNat

def uint32At (i : Int) : Option UInt32 :=
  let bytes := (filled buffer length i).take 4
  if bytes.length = 4 then some (UInt32.ofNat (LittleEndian.join bytes)) else none

def cString : List UInt8 → Option StdString
  | [] => none
  | byte :: rest => if byte = 0 then some [] else (cString rest).map (byte.toInt8 :: ·)

def cStringAt (i : Int) : Option StdString := cString (filled buffer length i)

/-- `i += EVENT_SIZE + event->len`: the sum is a `size_t`, and it is converted back to `int`. -/
def advance (i : Int) (len : UInt32) : Int :=
  Int.bmod ((i + (EVENT_SIZE + len.toNat)) % 2 ^ 64) (2 ^ 32)

/-- The fields of an event are `wd`, `mask`, `cookie` and `len` of 4 bytes each, and then `name`. -/
def callbackAt (i : Int) (mask : UInt32) (e : FileEvent) : Scan ε Unit := do
  let name ← Scan.of (cStringAt buffer length (i + 16))
  OptionT.lift (FileWatcher.callback name (UInt32.has mask IN_ISDIR) e)

def handleAt (i : Int) (len : UInt32) : Scan ε Unit := do
  if len ≠ 0 then
    let mask ← Scan.of (uint32At buffer length (i + 4))
    if UInt32.has mask IN_CREATE then
      callbackAt buffer length i mask .create
    else if UInt32.has mask IN_DELETE then
      callbackAt buffer length i mask .delete
    else if UInt32.has mask IN_MODIFY then
      callbackAt buffer length i mask .modify

def scan : Nat → Int → Scan ε Int
  | 0, i => if i < length then failure else pure i
  | fuel + 1, i =>
      if i < length then do
        let len ← Scan.of (uint32At buffer length (i + 12))
        handleAt buffer length i len
        scan fuel (advance i len)
      else pure i

end

/-! ## Records -/

/-- A record as the kernel lays it out: the name ends with at least one NUL, or there is none. -/
structure Record where
  wd : UInt32
  mask : UInt32
  cookie : UInt32
  name : StdString
  padding : Nat
  noNul : 0 ∉ name
  padded : name = [] ↔ padding = 0
  oneKind : [IN_CREATE, IN_DELETE, IN_MODIFY].countP (UInt32.has mask) ≤ 1

namespace Record

def len (r : Record) : Nat := r.name.length + r.padding

def word (n : UInt32) : List UInt8 := LittleEndian.split 4 n.toNat

def bytes (r : Record) : List UInt8 :=
  word r.wd ++ word r.mask ++ word r.cookie ++ word (UInt32.ofNat r.len) ++
    StdString.toByteSeq r.name ++ List.replicate r.padding 0

def notification (r : Record) : Option Notification :=
  if r.name = [] then none
  else ([.create, .modify, .delete].find? fun e => UInt32.has r.mask e.bit).map
    fun e => ⟨r.name, UInt32.has r.mask IN_ISDIR, e⟩

def event (r : Record) : InotifyEvent where
  mask := r.mask
  len := UInt32.ofNat r.len
  name := r.name
  oneKind := r.oneKind

@[simp] theorem length_bytes (r : Record) : r.bytes.length = EVENT_SIZE + r.len := by
  simp [bytes, word, len, StdString.toByteSeq, EVENT_SIZE]
  omega

end Record

structure Batch where
  records : List Record
  fits : (records.flatMap Record.bytes).length ≤ BUF_LEN

def Batch.bytes (batch : Batch) : List UInt8 := batch.records.flatMap Record.bytes

/-! ## Reading what was laid out -/

@[simp] theorem Scan.of_some_bind {α β : Type} (value : α) (f : α → Scan ε β) :
    Scan.of (some value) >>= f = f value := rfl

theorem filled_after {buffer first rest : List UInt8} {length i k : Int} (inside : 0 ≤ i)
    (here : filled buffer length i = first ++ rest) (size : (first.length : Int) = k) :
    filled buffer length (i + k) = rest := by
  unfold filled at here ⊢
  rw [if_neg (by omega)] at here ⊢
  have position : (i + k).toNat = i.toNat + first.length := by omega
  rw [position, ← List.drop_drop, here, List.drop_left]

theorem cString_append {name : StdString} (noNul : 0 ∉ name) (rest : List UInt8) :
    cString (StdString.toByteSeq name ++ 0 :: rest) = some name := by
  induction name with
  | nil => rfl
  | cons c name ih =>
      obtain ⟨first, noNul⟩ := not_or.mp (fun h => noNul (List.mem_cons.mpr h))
      have nonzero : c.toUInt8 ≠ 0 := by
        intro zero
        exact first (congrArg UInt8.toInt8 zero).symm
      simp only [StdString.toByteSeq, List.map_cons, List.cons_append, cString, if_neg nonzero]
      rw [← StdString.toByteSeq, ih noNul]
      rfl

theorem uint32At_word {buffer : List UInt8} {length i : Int} {n : UInt32} {rest : List UInt8}
    (here : filled buffer length i = Record.word n ++ rest) : uint32At buffer length i = some n := by
  have four : (Record.word n).length = 4 := LittleEndian.length_split ..
  unfold uint32At
  rw [here, List.take_left' four]
  dsimp only
  rw [if_pos four, Record.word, LittleEndian.join_split n.toNat_lt, UInt32.ofNat_toNat]

theorem advance_eq {i : Int} {len : UInt32} (inside : 0 ≤ i) (fits : i + (EVENT_SIZE + len.toNat) ≤ BUF_LEN) :
    advance i len = i + (EVENT_SIZE + len.toNat) := by
  unfold BUF_LEN EVENT_SIZE at fits
  unfold advance EVENT_SIZE
  rw [Int.emod_eq_of_lt (by omega) (by omega)]
  exact Int.bmod_eq_of_le (by omega) (by omega)

namespace Record

theorem len_eq_zero (r : Record) : r.len = 0 ↔ r.name = [] := by
  rw [len, Nat.add_eq_zero_iff, List.length_eq_zero_iff, ← r.padded, and_self]

theorem toNat_len {r : Record} (fits : EVENT_SIZE + r.len ≤ BUF_LEN) : (UInt32.ofNat r.len).toNat = r.len := by
  unfold BUF_LEN EVENT_SIZE at fits
  rw [UInt32.toNat_ofNat', Nat.mod_eq_of_lt (by omega)]

theorem notification_event {r : Record} (fits : EVENT_SIZE + r.len ≤ BUF_LEN) :
    r.event.notification = r.notification := by
  have unnamed : r.event.len = 0 ↔ r.name = [] := by
    rw [← r.len_eq_zero, ← toNat_len fits, event, ← UInt32.toNat_inj]
    rfl
  have oneKind := r.oneKind
  unfold InotifyEvent.notification notification
  simp only [unnamed]
  by_cases empty : r.name = []
  · simp [empty]
  · cases created : UInt32.has r.mask IN_CREATE <;> cases deleted : UInt32.has r.mask IN_DELETE <;>
      cases modified : UInt32.has r.mask IN_MODIFY <;>
      simp_all [event, FileEvent.bit, List.find?]

@[simp] theorem length_word (n : UInt32) : (word n).length = 4 := LittleEndian.length_split ..

end Record

section
variable {buffer : List UInt8} {length i : Int} {r : Record} {rest : List UInt8}
  (inside : 0 ≤ i) (here : filled buffer length i = r.bytes ++ rest)
include inside here

theorem mask_at : uint32At buffer length (i + 4) = some r.mask := by
  have split : r.bytes ++ rest = Record.word r.wd ++ (Record.word r.mask ++ (Record.word r.cookie ++
      (Record.word (UInt32.ofNat r.len) ++ (StdString.toByteSeq r.name ++
        (List.replicate r.padding 0 ++ rest))))) := by simp [Record.bytes]
  exact uint32At_word (filled_after inside (here.trans split) (by simp))

theorem len_at : uint32At buffer length (i + 12) = some (UInt32.ofNat r.len) := by
  have split : r.bytes ++ rest = (Record.word r.wd ++ Record.word r.mask ++ Record.word r.cookie) ++
      (Record.word (UInt32.ofNat r.len) ++ (StdString.toByteSeq r.name ++
        (List.replicate r.padding 0 ++ rest))) := by simp [Record.bytes]
  exact uint32At_word (filled_after inside (here.trans split) (by simp))

theorem name_at (named : r.name ≠ []) : cStringAt buffer length (i + 16) = some r.name := by
  obtain ⟨more, padding⟩ := Nat.exists_eq_succ_of_ne_zero (mt r.padded.mpr named)
  have split : r.bytes ++ rest = (Record.word r.wd ++ Record.word r.mask ++ Record.word r.cookie ++
      Record.word (UInt32.ofNat r.len)) ++ (StdString.toByteSeq r.name ++
        0 :: (List.replicate more 0 ++ rest)) := by simp [Record.bytes, padding, List.replicate_succ]
  rw [cStringAt, filled_after inside (here.trans split) (by simp)]
  exact cString_append r.noNul _

theorem next_at : filled buffer length (i + (EVENT_SIZE + r.len)) = rest :=
  filled_after inside here (by simp)

theorem handleAt_record (fits : EVENT_SIZE + r.len ≤ BUF_LEN) :
    (handleAt buffer length i (UInt32.ofNat r.len) : Scan ε Unit) = OptionT.lift (FileWatcher.handle r.event) := by
  have len : r.event.len = UInt32.ofNat r.len := rfl
  have mask : r.event.mask = r.mask := rfl
  unfold handleAt FileWatcher.handle
  rw [len, mask]
  by_cases unnamed : UInt32.ofNat r.len = 0
  · simp [unnamed]
  · have named : r.name ≠ [] := by
      rw [ne_eq, ← r.len_eq_zero, ← Record.toNat_len fits]
      simpa [← UInt32.toNat_inj] using unnamed
    rw [if_pos unnamed, if_pos unnamed, mask_at inside here, Scan.of_some_bind]
    unfold callbackAt
    rw [name_at inside here named]
    cases UInt32.has r.mask IN_CREATE <;> cases UInt32.has r.mask IN_DELETE <;>
      cases UInt32.has r.mask IN_MODIFY <;> rfl

end

/-! ## The loop over a batch -/

theorem scan_records {buffer : List UInt8} {length : Int} (fits : length ≤ BUF_LEN) (spare : Nat)
    {records : List Record} {i : Int} (inside : 0 ≤ i)
    (here : filled buffer length i = records.flatMap Record.bytes)
    (ends : i + (records.flatMap Record.bytes).length = length) :
    (scan buffer length (records.length + spare) i : Scan ε Int) =
      OptionT.lift (FileWatcher.handleBatch (records.map Record.event)) >>= fun _ => pure length := by
  induction records generalizing i with
  | nil =>
      have same : i = length := by simpa using ends
      cases spare <;> simp [scan, same, FileWatcher.handleBatch]
  | cons r records ih =>
      rw [List.flatMap_cons] at here
      rw [List.flatMap_cons, List.length_append, r.length_bytes] at ends
      have more : i < length := by
        unfold EVENT_SIZE at ends
        omega
      have room : EVENT_SIZE + r.len ≤ BUF_LEN := by omega
      have next : advance i (UInt32.ofNat r.len) = i + (EVENT_SIZE + r.len) := by
        rw [advance_eq inside (by rw [Record.toNat_len room]; omega), Record.toNat_len room]
      rw [List.length_cons, Nat.add_right_comm, scan, if_pos more, len_at inside here, Scan.of_some_bind,
        handleAt_record inside here room, next,
        ih (by omega) (next_at inside here) (by push_cast at ends ⊢; omega)]
      refine OptionT.ext ?_
      simp only [OptionT.run_bind_lift, List.map_cons, FileWatcher.handleBatch, bind_assoc]

/-- Whatever follows the batch in the buffer, the loop makes exactly the calls for the records in
their order, and it ends right behind the last record. -/
theorem scan_batch (batch : Batch) (junk : List UInt8) (spare : Nat) :
    (scan (batch.bytes ++ junk) batch.bytes.length (batch.records.length + spare) 0 : Scan ε Int) =
      OptionT.lift (forM (batch.records.filterMap Record.notification) FileWatcher.tell) >>=
        fun _ => pure (batch.bytes.length : Int) := by
  have here : filled (batch.bytes ++ junk) batch.bytes.length 0 = batch.records.flatMap Record.bytes := by
    rw [filled, if_neg (Int.lt_irrefl 0), Int.toNat_natCast, List.take_left, Int.toNat_zero, List.drop_zero,
      Batch.bytes]
  have told : (batch.records.map Record.event).filterMap InotifyEvent.notification =
      batch.records.filterMap Record.notification := by
    rw [List.filterMap_map]
    refine List.filterMap_congr fun r member => ?_
    have part : r.bytes.Sublist (batch.records.flatMap Record.bytes) :=
      List.sublist_flatten_of_mem (List.mem_map_of_mem member)
    have room := Nat.le_trans part.length_le batch.fits
    rw [r.length_bytes] at room
    exact Record.notification_event room
  rw [scan_records (by exact_mod_cast batch.fits) spare (Int.le_refl 0) here (by simp [Batch.bytes]),
    FileWatcher.handleBatch_eq, told]

end EventBuffer
end SecureChat
