import SecureChat.Common.Logging
import SecureChat.Library.Collect
import SecureChat.Library.Encoding
import SecureChat.Library.Text

/-!
# The log job of the dashboard

The job takes `server.log` apart again: one item for each line, cut in two at its first ']'. The
log is written without any escaping, so a message that contains a newline or a ']' is read as
something else than one record with its message.
-/

namespace SecureChat.Dashboard
open Library

inductive RubyError where
  | argumentError
  | noMethodError
  deriving DecidableEq

structure Item where
  label : ByteSeq
  value : Option ByteSeq
  deriving DecidableEq

def newline : UInt8 := 10

def bracket : UInt8 := 93

def dots : ByteSeq := [46, 46, 46]

def max_length : Nat := 15

/-! ## Methods of Ruby's strings -/

/-- What `strip!` takes off: null, tab, line feed, vertical tab, form feed, carriage return, space. -/
def blank (b : UInt8) : Bool :=
  b = 0 || (9 ≤ b && b ≤ 13) || b = 32

/-- `strip!`, which is nil when there is nothing to take off. -/
def strip! (s : ByteSeq) : Option ByteSeq :=
  if strip blank s = s then none else some (strip blank s)

def split (s : ByteSeq) (sep : UInt8) : List ByteSeq :=
  (s.splitOn sep).rdropWhile List.isEmpty

variable (enc : Encoding)

/-! ## The job -/

def readLine (line : ByteSeq) : Except RubyError (Option Item) :=
  if enc.length line < 5 then .ok none
  else if enc.valid line then
    match split line bracket with
    | label :: value :: _ =>
        let value := if enc.length value > 71 then enc.slice value 70 ++ dots else value
        .ok (some ⟨label ++ [bracket], strip! value⟩)
    | _ => .error .noMethodError  -- there is no value, and nil has no length
  else .error .argumentError

def readLog : List ByteSeq → Except RubyError (List Item)
  | [] => .ok []
  | line :: rest => do
      let item ← readLine enc line
      let log ← readLog rest
      return item.toList ++ log

def job (file : ByteSeq) : Except RubyError (List Item) := do
  let log ← readLog enc (lines newline file)
  return log.reverse.take max_length

/-! ## One line -/

variable {enc}

theorem split_ended {v u : ByteSeq} (absent : bracket ∉ v) :
    ∃ more, split (v ++ bracket :: (u ++ [newline])) bracket =
      v :: (u ++ [newline]).takeWhile (· ≠ bracket) :: more := by
  obtain ⟨more, value⟩ := splitOn_eq_cons bracket (u ++ [newline])
  obtain ⟨parts, last, ended⟩ := splitOn_concat bracket (b := newline) (by decide) u
  refine ⟨more, ?_⟩
  rw [split, List.splitOn_append_cons_self_of_not_mem absent, ← value, ended, ← List.cons_append]
  exact List.rdropWhile_concat_neg _ _ _ (by simp)

theorem readLine_of_bracket {v u : ByteSeq} (absent : bracket ∉ v)
    (long : 5 ≤ enc.length (v ++ bracket :: (u ++ [newline])))
    (valid : enc.valid (v ++ bracket :: (u ++ [newline])) = true) :
    readLine enc (v ++ bracket :: (u ++ [newline])) =
      let value := (u ++ [newline]).takeWhile (· ≠ bracket)
      .ok (some ⟨v ++ [bracket],
        strip! (if enc.length value > 71 then enc.slice value 70 ++ dots else value)⟩) := by
  obtain ⟨more, parts⟩ := split_ended (u := u) absent
  rw [readLine, if_neg (Nat.not_lt.mpr long), if_pos valid, parts]

theorem readLine_without_bracket {line : ByteSeq} (long : 5 ≤ enc.length line) (absent : bracket ∉ line)
    (item : Option Item) : readLine enc line ≠ .ok item := by
  have whole : split line bracket = [line] ∨ split line bracket = [] := by
    rw [split, List.splitOn_eq_singleton absent, List.rdropWhile_singleton]
    split <;> simp
  rw [readLine, if_neg (Nat.not_lt.mpr long)]
  rcases whole with parts | parts <;> rw [parts] <;> split <;> simp

theorem readLine_broken {line : ByteSeq} (long : 5 ≤ enc.length line) (broken : enc.valid line = false)
    (item : Option Item) : readLine enc line ≠ .ok item := by
  rw [readLine, if_neg (Nat.not_lt.mpr long), broken]
  simp

theorem readLine_ok_iff {line text : ByteSeq} (ended : line = text ++ [newline]) :
    (∃ item, readLine enc line = .ok item) ↔
      (5 ≤ enc.length line → enc.valid line = true ∧ bracket ∈ line) := by
  by_cases long : 5 ≤ enc.length line
  · constructor
    · intro read _
      obtain ⟨item, read⟩ := read
      refine ⟨?_, ?_⟩
      · by_contra broken
        exact readLine_broken long (by simpa using broken) item read
      · by_contra absent
        exact readLine_without_bracket long absent item read
    · intro readable
      obtain ⟨valid, present⟩ := readable long
      obtain ⟨v, rest, rfl, absent⟩ := List.eq_append_cons_of_mem present
      rcases List.eq_nil_or_concat rest with rfl | ⟨u, x, rfl⟩
      · have last := (List.append_inj' ended rfl).2
        contradiction
      · rw [List.concat_eq_append, ← List.cons_append, ← List.append_assoc] at ended
        obtain rfl : x = newline := by simpa using (List.append_inj' ended rfl).2
        rw [List.concat_eq_append] at long valid ⊢
        exact ⟨_, readLine_of_bracket absent long valid⟩
  · exact ⟨fun _ long' => absurd long' long, fun _ => ⟨none, if_pos (Nat.lt_of_not_le long)⟩⟩

theorem readLine_isSome {line : ByteSeq} {item : Option Item} (read : readLine enc line = .ok item) :
    item.isSome ↔ 5 ≤ enc.length line := by
  by_cases long : 5 ≤ enc.length line
  · rw [readLine, if_neg (Nat.not_lt.mpr long)] at read
    split at read
    · split at read
      · simp only [Except.ok.injEq] at read
        simp [← read, long]
      · contradiction
    · contradiction
  · rw [readLine, if_pos (Nat.lt_of_not_le long), Except.ok.injEq] at read
    simp [← read, long]

/-! ## Many lines -/

theorem readLog_eq (ls : List ByteSeq) : readLog enc ls = ls.filterMapM (readLine enc) := by
  induction ls with
  | nil => rfl
  | cons line rest ih =>
      rw [filterMapM_cons, ← ih, readLog]
      cases readLine enc line with
      | error e => rfl
      | ok item => cases readLog enc rest <;> rfl

theorem readLog_cons (line : ByteSeq) (rest : List ByteSeq) : readLog enc (line :: rest) =
    (readLine enc line).bind fun item => (readLog enc rest).map fun log => item.toList ++ log := by
  simp only [readLog_eq, filterMapM_cons]

theorem readLog_append (first rest : List ByteSeq) : readLog enc (first ++ rest) =
    (readLog enc first).bind fun log => (readLog enc rest).map fun more => log ++ more := by
  simp only [readLog_eq, filterMapM_append]

theorem readLog_ok_iff {ls : List ByteSeq} (ended : ∀ line ∈ ls, ∃ text, line = text ++ [newline]) :
    (∃ log, readLog enc ls = .ok log) ↔
      ∀ line ∈ ls, 5 ≤ enc.length line → enc.valid line = true ∧ bracket ∈ line := by
  rw [readLog_eq, filterMapM_ok_iff]
  refine forall₂_congr fun line member => ?_
  obtain ⟨text, whole⟩ := ended line member
  exact readLine_ok_iff whole

theorem length_of_readLog {ls : List ByteSeq} {log : List Item} (read : readLog enc ls = .ok log) :
    log.length = ls.countP fun line => 5 ≤ enc.length line := by
  rw [readLog_eq] at read
  refine length_of_filterMapM (fun line item taken => ?_) read
  rw [Bool.eq_iff_iff, readLine_isSome taken, decide_eq_true_iff]

/-! ## The value of an item -/

def shortened (enc : Encoding) (s : ByteSeq) : ByteSeq :=
  if enc.length s > 70 then enc.slice s 70 ++ dots else s

theorem slice_blank {n : Nat} {b : UInt8} (ascii : b < 128) (s : ByteSeq) :
    enc.slice (b :: s) (n + 1) = b :: enc.slice s n := by
  rw [Encoding.slice, ← List.singleton_append, Encoding.pieces_append (enc.ascii b ascii)]
  rfl

theorem strip!_cut (limit : Nat) (more : ByteSeq) :
    strip! (if enc.length (32 :: more) > limit then enc.slice (32 :: more) 70 ++ dots else 32 :: more) =
      some (strip blank
        (if enc.length (32 :: more) > limit then enc.slice (32 :: more) 70 ++ dots else 32 :: more)) := by
  have blanks (s : ByteSeq) : strip! (32 :: s) = some (strip blank (32 :: s)) := by
    rw [strip!, if_neg (strip_cons_ne (by decide) s)]
  split
  · rw [slice_blank (by decide), List.cons_append, blanks]
  · exact blanks more

theorem not_mem_pieces {s : ByteSeq} (absent : bracket ∉ s) : [bracket] ∉ enc.pieces s := by
  intro member
  apply absent
  rw [← enc.flatten_pieces s]
  exact List.mem_flatten.mpr ⟨_, member, by simp⟩

theorem dots_not_blank : ∀ b ∈ dots, blank b = false := by
  simp only [dots, List.forall_mem_cons]
  exact ⟨rfl, rfl, rfl, List.forall_mem_nil _⟩

theorem three_le_length_dots (enc : Encoding) (pre post : ByteSeq) :
    3 ≤ enc.length (pre ++ dots ++ post) := by
  have first := enc.length_ascii pre (b := 46) (by decide) (46 :: 46 :: post)
  rw [enc.length_cons_ascii (by decide), enc.length_cons_ascii (by decide)] at first
  have same : pre ++ dots ++ post = pre ++ 46 :: 46 :: 46 :: post := by simp [dots]
  rw [same, first]
  omega

theorem strip_ne {v tail : ByteSeq} (valid : enc.valid (v ++ bracket :: tail) = true) (absent : bracket ∉ v)
    (early : enc.length v < 72) : strip blank v ≠ strip blank (shortened enc (v ++ bracket :: tail)) := by
  intro same
  have whole := enc.pieces_ascii v (b := bracket) (by decide) tail
  have size := enc.length_ascii v (b := bracket) (by decide) tail
  by_cases seen : enc.length v < 70
  · -- the ']' itself is kept by the value of the record
    have kept : bracket ∈ shortened enc (v ++ bracket :: tail) := by
      unfold shortened
      split
      · have taken := (mem_take_append_cons (not_mem_pieces absent) (enc.pieces tail) 70).mpr seen
        rw [List.mem_append, Encoding.slice, whole]
        exact .inl (List.mem_flatten.mpr ⟨_, taken, by simp⟩)
      · simp
    rw [← mem_strip blank (by decide), ← same, mem_strip blank (by decide)] at kept
    exact absent kept
  · -- the value of the record ends in dots, which are three more characters
    have cut : shortened enc (v ++ bracket :: tail) = enc.slice v 70 ++ dots := by
      rw [shortened, if_pos (by omega), Encoding.slice_of_le whole (by omega)]
    have validFirst : enc.valid v = true := by
      rw [enc.valid_ascii v (by decide)] at valid
      exact (Bool.and_eq_true_iff.mp valid).1
    have split := enc.slice_append v 70
    generalize ((enc.pieces v).drop 70).flatten = more at split
    have alike : strip blank (enc.slice v 70 ++ more) = strip blank (enc.slice v 70 ++ dots) := by
      rw [split, same, cut]
    obtain ⟨pre, post, rfl⟩ := eq_append_of_strip_eq (by simp [dots]) dots_not_blank alike
    have length := Encoding.length_slice_append validFirst (Nat.le_of_not_lt seen) (pre ++ dots ++ post)
    have three := three_le_length_dots enc pre post
    rw [split] at length
    omega

theorem takeWhile_before {v tail : ByteSeq} (absent : bracket ∉ v) :
    (v ++ bracket :: tail).takeWhile (· ≠ bracket) = v := by
  have others : ∀ b ∈ v, decide (b ≠ bracket) = true :=
    fun b member => decide_eq_true fun same => absent (same ▸ member)
  rw [List.takeWhile_append_of_pos others]
  simp

private theorem cut_value_iff {v tail : ByteSeq} (valid : enc.valid (32 :: v ++ bracket :: tail) = true)
    (absent : bracket ∉ 32 :: v) :
    strip! (if enc.length (32 :: v) > 71 then enc.slice (32 :: v) 70 ++ dots else 32 :: v) =
      some (strip blank (shortened enc (32 :: v ++ bracket :: tail))) ↔
    [bracket] ∉ (enc.pieces (32 :: v ++ bracket :: tail)).take 72 := by
  have whole := enc.pieces_ascii (32 :: v) (b := bracket) (by decide) tail
  have size := enc.length_ascii (32 :: v) (b := bracket) (by decide) tail
  rw [whole, mem_take_append_cons (not_mem_pieces absent), strip!_cut]
  rw [← Encoding.length, Option.some.injEq]
  by_cases early : enc.length (32 :: v) < 72
  · rw [if_neg (by omega)]
    exact iff_of_false (strip_ne valid absent early) (not_not.mpr early)
  · have cut : shortened enc (32 :: v ++ bracket :: tail) = enc.slice (32 :: v) 70 ++ dots := by
      rw [shortened, if_pos (by omega), Encoding.slice_of_le whole (by omega)]
    rw [if_pos (by omega), cut]
    exact iff_of_true rfl early

private theorem whole_value (enc : Encoding) (more : ByteSeq) :
    strip! (if enc.length (32 :: more ++ [newline]) > 71 then enc.slice (32 :: more ++ [newline]) 70 ++ dots
      else 32 :: more ++ [newline]) = some (strip blank (shortened enc (32 :: more))) := by
  have whole := enc.pieces_ascii (32 :: more) (b := newline) (by decide) []
  have size := enc.length_append_ascii (32 :: more) (t := [newline]) (List.forall_mem_singleton.mpr (by decide))
  rw [List.cons_append, strip!_cut, ← List.cons_append, Option.some.injEq]
  rw [List.length_singleton] at size
  by_cases long : enc.length (32 :: more) > 70
  · rw [if_pos (by omega), shortened, if_pos long, Encoding.slice_of_le whole (by omega)]
  · rw [if_neg (by omega), shortened, if_neg long, strip_concat (by decide)]

/-- What the job makes of the text after the severity is the value of the record exactly when no ']'
is among its first 72 characters. -/
theorem value_iff {more : ByteSeq} (valid : enc.valid (32 :: more) = true) :
    (let value := (32 :: more ++ [newline]).takeWhile (· ≠ bracket)
    strip! (if enc.length value > 71 then enc.slice value 70 ++ dots else value)) =
      some (strip blank (shortened enc (32 :: more))) ↔ [bracket] ∉ (enc.pieces (32 :: more)).take 72 := by
  dsimp only
  by_cases present : bracket ∈ more
  · obtain ⟨v, tail, rfl, absent⟩ := List.eq_append_cons_of_mem present
    have absent : bracket ∉ 32 :: v := by simpa [bracket] using absent
    have first : (32 :: v ++ bracket :: tail ++ [newline]).takeWhile (· ≠ bracket) = 32 :: v := by
      rw [List.append_assoc]
      exact takeWhile_before absent
    rw [← List.cons_append] at valid ⊢
    rw [first]
    exact cut_value_iff valid absent
  · have absent : bracket ∉ 32 :: more := by simpa [bracket] using present
    have others : ∀ b ∈ 32 :: more ++ [newline], decide (b ≠ bracket) = true := by
      intro b member
      apply decide_eq_true
      rintro rfl
      rcases List.mem_append.mp member with member | member
      · exact absent member
      · simp [bracket, newline] at member
    rw [List.takeWhile_eq_self_iff.mpr others, whole_value]
    exact iff_of_true rfl fun member => not_mem_pieces absent (List.mem_of_mem_take member)

/-! ## One record -/

def stem (c : LogCall) : ByteSeq := StdString.toByteSeq c.stem

def rest (c : LogCall) : ByteSeq := StdString.toByteSeq c.rest

def record (c : LogCall) : ByteSeq :=
  stem c ++ bracket :: (rest c ++ [newline])

def item (enc : Encoding) (c : LogCall) : Item :=
  ⟨stem c ++ [bracket], some (strip blank (shortened enc (rest c)))⟩

theorem serverLog_bytes (calls : List LogCall) :
    StdString.toByteSeq (serverLog calls) = List.replicate 6 newline ++ calls.flatMap record := by
  have bracketed : StdString.toByteSeq (lit "]") = [bracket] := rfl
  have ended : StdString.toByteSeq endl = [newline] := rfl
  have each (c : LogCall) : StdString.toByteSeq (c.stem ++ lit "]" ++ c.rest ++ endl) = record c := by
    rw [record, stem, rest, ← ended, ← List.singleton_append, ← bracketed]
    simp only [StdString.toByteSeq, List.map_append, List.append_assoc]
  rw [serverLog_eq, StdString.toByteSeq, List.map_append, List.map_flatMap]
  exact congrArg (List.replicate 6 newline ++ ·) (congrArg calls.flatMap (funext each))

variable (c : LogCall)

theorem stem_absent : newline ∉ stem c ∧ bracket ∉ stem c :=
  ⟨fun member => (c.plain_stem _ member).2.1 rfl, fun member => (c.plain_stem _ member).2.2 rfl⟩

theorem stem_length : 4 ≤ (stem c).length := by
  rw [stem, StdString.toByteSeq, List.length_map]
  exact c.length_stem

theorem length_record (enc : Encoding) (more : ByteSeq) : 5 ≤ enc.length (stem c ++ bracket :: more) := by
  have first := enc.length_append_ascii [] (t := stem c) fun b member => (c.plain_stem b member).1
  have size := enc.length_ascii (stem c) (b := bracket) (by decide) more
  have long := stem_length c
  rw [List.nil_append, Encoding.length_nil] at first
  omega

theorem rest_cons : ∃ more, rest c = 32 :: more := by
  obtain ⟨more, split⟩ := c.rest_blank
  exact ⟨StdString.toByteSeq more, by rw [rest, split]; rfl⟩

theorem newline_absent {s : ByteSeq} (absent : newline ∉ s) : newline ∉ stem c ++ bracket :: s := by
  rw [List.mem_append, List.mem_cons, not_or, not_or]
  exact ⟨(stem_absent c).1, by decide, absent⟩

theorem single_line (absent : newline ∉ rest c) : lines newline (record c) = [record c] := by
  simpa [record, lines] using lines_first (newline_absent c absent) []

theorem readRecord_iff (absent : newline ∉ rest c) :
    readLog enc (lines newline (record c)) = .ok [item enc c] ↔
      enc.valid (record c) = true ∧ [bracket] ∉ (enc.pieces (rest c)).take 72 := by
  rw [single_line c absent, readLog_cons]
  by_cases valid : enc.valid (record c) = true
  · have whole := valid
    rw [record, enc.valid_ascii _ (by decide), enc.valid_ascii _ (by decide)] at whole
    obtain ⟨more, blankFirst⟩ := rest_cons c
    have validRest : enc.valid (rest c) = true := by
      simp only [Bool.and_eq_true] at whole
      exact whole.2.1
    rw [blankFirst] at validRest
    have value := value_iff validRest
    have read := readLine_of_bracket (stem_absent c).2 (length_record c enc _) valid
    rw [← record] at read
    rw [read, blankFirst, ← value, item, blankFirst]
    simp [readLog, Except.bind, Except.map, valid]
  · have broken := readLine_broken (length_record c enc _) (Bool.eq_false_iff.mpr valid)
    cases read : readLine enc (record c) with
    | error e => simp [Except.bind, valid]
    | ok some => exact absurd read (broken some)

/-- What follows a newline in a message still ends with the place where the message was logged. -/
theorem ends_with_place {a b : ByteSeq} (split : rest c = a ++ newline :: b) :
    ∃ start place, b = start ++ place ∧ newline ∉ place ∧ 4 ≤ place.length ∧ ∀ x ∈ place, x < 128 := by
  obtain ⟨before, place, ends, plain, long⟩ := c.rest_end
  have absent : newline ∉ StdString.toByteSeq place := fun member => (plain _ member).2.1 rfl
  have whole : StdString.toByteSeq place <:+ rest c := by
    rw [rest, ends, StdString.toByteSeq, StdString.toByteSeq, List.map_append]
    exact List.suffix_append _ _
  have left : newline :: b <:+ rest c := split ▸ List.suffix_append _ _
  have suffix : StdString.toByteSeq place <:+ b := by
    rcases List.suffix_or_suffix_of_suffix whole left with inside | beyond
    · rcases List.suffix_cons_iff.mp inside with same | inside
      · exact absurd (by simp [same]) absent
      · exact inside
    · exact absurd (beyond.subset (by simp)) absent
  obtain ⟨start, rfl⟩ := suffix
  refine ⟨start, _, rfl, absent, ?_, fun x member => (plain x member).1⟩
  rw [StdString.toByteSeq, List.length_map]
  omega

/-- A newline in a message leaves two lines that are read: one starts with the header, and the
other one ends with the place where the message was logged. -/
theorem two_lines (enc : Encoding) (present : newline ∈ rest c) :
    2 ≤ (lines newline (record c)).countP fun line => 5 ≤ enc.length line := by
  obtain ⟨a, b, split, absent⟩ := List.eq_append_cons_of_mem present
  have whole : lines newline (record c) =
      (stem c ++ bracket :: a ++ [newline]) :: lines newline (b ++ [newline]) := by
    have first := lines_first (newline_absent c absent) (b ++ [newline])
    simpa [record, split] using first
  have firstLong : 5 ≤ enc.length (stem c ++ bracket :: a ++ [newline]) := by
    have long := length_record c enc (a ++ [newline])
    simpa using long
  obtain ⟨start, place, rfl, placeAbsent, long, ascii⟩ := ends_with_place c split
  obtain ⟨first, member⟩ := last_line start placeAbsent
  have lastLong : 5 ≤ enc.length (first ++ place ++ [newline]) := by
    have ascii : ∀ b ∈ place ++ [newline], b < 128 :=
      List.forall_mem_append.mpr ⟨ascii, List.forall_mem_singleton.mpr (by decide)⟩
    rw [List.append_assoc, enc.length_append_ascii first ascii, List.length_append, List.length_singleton]
    omega
  have one : 0 < (lines newline (start ++ place ++ [newline])).countP fun line => 5 ≤ enc.length line :=
    List.countP_pos_iff.mpr ⟨_, member, decide_eq_true lastLong⟩
  rw [whole, List.countP_cons, if_pos (decide_eq_true firstLong)]
  omega

/-! ## The whole log -/

omit c in
theorem lines_records (calls : List LogCall) :
    lines newline (calls.flatMap record) = calls.flatMap fun c => lines newline (record c) := by
  induction calls with
  | nil => rfl
  | cons c calls ih =>
      have first := lines_append newline (stem c ++ bracket :: rest c) (calls.flatMap record)
      rw [List.flatMap_cons, List.flatMap_cons, ← ih]
      simpa [record] using first

omit c in
theorem job_serverLog (enc : Encoding) (calls : List LogCall) :
    job enc (StdString.toByteSeq (serverLog calls)) =
      (readLog enc (calls.flatMap fun c => lines newline (record c))).map fun log =>
        log.reverse.take max_length := by
  have skipped : readLine enc [newline] = .ok none := by
    have size := enc.length_cons_ascii (b := newline) (by decide) []
    rw [readLine, if_pos (by rw [size, Encoding.length_nil]; decide)]
  have opening (n : Nat) (file : ByteSeq) : readLog enc (lines newline (List.replicate n newline ++ file)) =
      readLog enc (lines newline file) := by
    induction n with
    | zero => rfl
    | succ n ih =>
        rw [List.replicate_succ, List.cons_append, lines_newline, readLog_cons, skipped, ← ih]
        cases readLog enc (lines newline (List.replicate n newline ++ file)) <;> rfl
  rw [job, serverLog_bytes, opening, lines_records]
  cases readLog enc (calls.flatMap fun c => lines newline (record c)) <;> rfl

theorem ended_lines {line : ByteSeq} (member : line ∈ lines newline (record c)) :
    ∃ text, line = text ++ [newline] := by
  have same : record c = stem c ++ bracket :: rest c ++ [newline] := by simp [record]
  rw [same] at member
  exact ended_of_mem_lines _ member

omit c in
theorem readLog_flatMap {calls : List LogCall} {items : LogCall → List Item}
    (each : ∀ c ∈ calls, readLog enc (lines newline (record c)) = .ok (items c)) :
    readLog enc (calls.flatMap fun c => lines newline (record c)) = .ok (calls.flatMap items) := by
  induction calls with
  | nil => rfl
  | cons c calls ih =>
      obtain ⟨first, others⟩ := List.forall_mem_cons.mp each
      rw [List.flatMap_cons, readLog_append, first, ih others, List.flatMap_cons]
      rfl

/-- The job sends one item for each of the last messages, newest first: the items that it shows are
those of the messages, and none of the messages leaves more than its own item in the log. -/
structure ReadsBack (enc : Encoding) (calls : List LogCall) : Prop where
  sent : job enc (StdString.toByteSeq (serverLog calls)) =
    .ok ((calls.reverse.take max_length).map (item enc))
  one : ∀ c ∈ calls.reverse.take max_length, readLog enc (lines newline (record c)) = .ok [item enc c]

/-- Every line of the log that is long enough to be read is valid and has a ']', and in the last
messages the text after the severity has no newline and no ']' among its first 72 characters. -/
structure Readable (enc : Encoding) (calls : List LogCall) : Prop where
  lines : ∀ c ∈ calls, ∀ line ∈ lines newline (record c), 5 ≤ enc.length line →
    enc.valid line = true ∧ bracket ∈ line
  plain : ∀ c ∈ calls.reverse.take max_length,
    newline ∉ rest c ∧ [bracket] ∉ (enc.pieces (rest c)).take 72

omit c in
theorem sent_of_one {calls : List LogCall}
    (each : ∀ c ∈ calls, ∃ log, readLog enc (lines newline (record c)) = .ok log)
    (one : ∀ c ∈ calls.reverse.take max_length, readLog enc (lines newline (record c)) = .ok [item enc c]) :
    job enc (StdString.toByteSeq (serverLog calls)) =
      .ok ((calls.reverse.take max_length).map (item enc)) := by
  choose! items read using each
  have recent : (calls.reverse.take max_length).flatMap (fun c => (items c).reverse) =
      (calls.reverse.take max_length).map (item enc) := by
    rw [List.map_eq_flatMap]
    apply List.flatMap_congr
    intro c member
    have mine := read c (List.mem_reverse.mp (List.mem_of_mem_take member))
    rw [one c member, Except.ok.injEq] at mine
    rw [← mine, List.reverse_singleton]
  have log : (calls.flatMap items).reverse = (calls.reverse.take max_length).map (item enc) ++
      (calls.reverse.drop max_length).flatMap fun c => (items c).reverse := by
    rw [List.reverse_flatMap, ← recent, ← List.flatMap_append, List.take_append_drop]
    rfl
  rw [job_serverLog, readLog_flatMap read]
  apply congrArg Except.ok
  change (calls.flatMap items).reverse.take max_length = _
  rw [log]
  by_cases many : max_length ≤ calls.length
  · exact List.take_left' (by simp [many])
  · have few : calls.reverse.length ≤ max_length := by
      rw [List.length_reverse]
      omega
    rw [List.drop_of_length_le few, List.flatMap_nil, List.append_nil, List.take_of_length_le]
    simp

omit c in
theorem readsBack_iff (enc : Encoding) (calls : List LogCall) : ReadsBack enc calls ↔ Readable enc calls := by
  constructor
  · intro back
    constructor
    · have sent := back.sent
      rw [job_serverLog] at sent
      intro c member line within
      have read : ∃ log, readLog enc (calls.flatMap fun c => lines newline (record c)) = .ok log := by
        cases whole : readLog enc (calls.flatMap fun c => lines newline (record c)) with
        | error e => simp [whole, Except.map] at sent
        | ok log => exact ⟨log, rfl⟩
      refine (readLog_ok_iff ?_).mp read line (List.mem_flatMap.mpr ⟨c, member, within⟩)
      intro line member
      obtain ⟨c, _, within⟩ := List.mem_flatMap.mp member
      exact ended_lines c within
    · intro c recent
      have one := back.one c recent
      have absent : newline ∉ rest c := by
        intro present
        have count := length_of_readLog one
        have two := two_lines c enc present
        rw [List.length_singleton] at count
        omega
      exact ⟨absent, ((readRecord_iff c absent).mp one).2⟩
  · intro readable
    have one : ∀ c ∈ calls.reverse.take max_length,
        readLog enc (lines newline (record c)) = .ok [item enc c] := by
      intro c recent
      obtain ⟨absent, plain⟩ := readable.plain c recent
      have member : c ∈ calls := List.mem_reverse.mp (List.mem_of_mem_take recent)
      have line := readable.lines c member (record c) (by simp [single_line c absent]) (length_record c enc _)
      exact (readRecord_iff c absent).mpr ⟨line.1, plain⟩
    refine ⟨sent_of_one (fun c member => ?_) one, one⟩
    exact (readLog_ok_iff fun line => ended_lines c).mpr (readable.lines c member)

def registeredBracket : LogCall where
  logLine := lit "Registered a]b"
  severity := .LVL_INFO
  file := lit "src/server/AuthenticationImpl.cpp"
  line := 37
  thread_name := some .mainThread
  time := ⟨2013, 1, 5, 12, 0, 0⟩
  elapsed := 1500

theorem cuts_message_at_bracket : ¬ ReadsBack .utf8 [registeredBracket] := by
  intro claim
  have sent := claim.sent
  have single := single_line registeredBracket (by decide +kernel)
  rw [job_serverLog, List.flatMap_singleton, single] at sent
  revert sent
  decide +kernel

end SecureChat.Dashboard
