import SecureChat.Dashboard.Log

/-!
# The todo job of the dashboard

The job looks for a word without its colon, and then for the same word with the colon. It always
skips one character after the marker, and it goes on with the result of `strip!`, which is nil when
there is nothing to take off. A line where one of these goes wrong ends the job for all files.
-/

namespace SecureChat.Dashboard.Todos
open Library

abbrev Text := List Char

structure Todo where
  label : Text
  value : Text
  deriving DecidableEq

def newline : Char := '\n'

def dots : Text := "...".toList

def max_length : Nat := 7

/-! ## Methods of Ruby's strings -/

/-- What `strip!` takes off: null, tab, line feed, vertical tab, form feed, carriage return, space. -/
def blank (c : Char) : Bool :=
  c.toNat = 0 || (9 ≤ c.toNat && c.toNat ≤ 13) || c.toNat = 32

def strip! (s : Text) : Option Text :=
  if strip blank s = s then none else some (strip blank s)

def include? (s sub : Text) : Bool :=
  (index sub s).isSome

/-- `s[start, len]` -/
def slice (s : Text) (start len : Nat) : Option Text :=
  if start ≤ s.length then some ((s.drop start).take len) else none

def basename (fn : Text) : Text :=
  let path := fn.rdropWhile (· = '/')
  if path = [] then fn.take 1 else path.rtakeWhile (· ≠ '/')

/-- A method of nil is missing. -/
def present {α : Type} : Option α → Except RubyError α
  | none => .error .noMethodError
  | some a => .ok a

/-! ## The job -/

/-- What `Dir.glob` finds: `file` is the text of a regular file. -/
structure Found where
  fn : Text
  file : Option Text

def searched (fn : Text) : Bool :=
  !include? fn "dependencies".toList && !include? fn "backward.hpp".toList &&
    !include? fn "doxygen".toList && !include? fn "dashboard".toList &&
    !include? fn "build".toList && !include? fn "cmake".toList

def Found.text (found : Found) : Option Text :=
  if searched found.fn then found.file else none

def shorten (line : Text) : Text :=
  if line.length > 55 then line.take 55 ++ dots else line

def readValue (line marker : Text) (skip : Nat) : Except RubyError Text := do
  let i ← present (index marker line)
  let line ← present (slice line (i + skip) line.length)
  let line ← present (strip! line)
  return shorten line

def label (fn : Text) (lineno : Nat) : Text :=
  basename fn ++ ':' :: Nat.toDigits 10 lineno

def scanLine (fn : Text) (lineno : Nat) (line : Text) : Except RubyError (Option Todo) :=
  let push := fun value => some ⟨label fn lineno, value⟩
  if include? line "TODO".toList then (readValue line "TODO:".toList 6).map push
  else if include? line "FIXME".toList then (readValue line "FIXME:".toList 7).map push
  else if include? line "BUG".toList then (readValue line "BUG:".toList 5).map push
  else .ok none

def scanFile (fn : Text) : Nat → List Text → Except RubyError (List Todo)
  | _, [] => .ok []
  | lineno, line :: rest => do
      let lineno := lineno + 1
      let todo ← scanLine fn lineno line
      let todos ← scanFile fn lineno rest
      return todo.toList ++ todos

def Found.scan (found : Found) : Except RubyError (List Todo) :=
  match found.text with
  | some text => scanFile found.fn 0 (lines newline text)
  | none => .ok []

def scan : List Found → Except RubyError (List Todo)
  | [] => .ok []
  | found :: rest => do
      let todos ← found.scan
      let more ← scan rest
      return todos ++ more

def job (files : List Found) : Except RubyError (List Todo) := do
  let todos ← scan files
  return todos.take max_length

/-! ## What the scan is for -/

def words : List Text := ["TODO".toList, "FIXME".toList, "BUG".toList]

def marker (word : Text) : Text := word ++ [':']

def textAfter (word line : Text) : Option Text :=
  (line.tails.find? ((marker word).isPrefixOf ·)).map (·.drop (marker word).length)

def expectedValue (line : Text) : Option Text :=
  words.findSome? fun word => (textAfter word line).map fun text => shorten (strip blank text)

structure SourceLine where
  fn : Text
  lineno : Nat
  line : Text

def SourceLine.expected (l : SourceLine) : Option Todo :=
  (expectedValue l.line).map fun value => ⟨label l.fn l.lineno, value⟩

def Found.located (found : Found) : List SourceLine :=
  match found.text with
  | some text => ((lines newline text).zipIdx 1).map fun (line, lineno) => ⟨found.fn, lineno, line⟩
  | none => []

def located (files : List Found) : List SourceLine :=
  files.flatMap Found.located

/-- The scan finishes, and it has recorded the lines with a marker. -/
def Records (files : List Found) : Prop :=
  scan files = .ok ((located files).filterMap SourceLine.expected)

def padded (s : Text) : Bool :=
  s.head?.any blank || s.getLast?.any blank

/-- The line has the marker of the first word that it includes. One character and a rest follow, and
the rest starts or ends with a blank. The character is a blank too, or the value is cut and starts
with the same 55 characters without it. -/
def Scannable (line : Text) : Prop :=
  ∀ word, words.find? (include? line ·) = some word →
    ∃ c rest, textAfter word line = some (c :: rest) ∧ padded rest = true ∧
      (blank c = true ∨ 55 < (strip blank rest).length ∧
        (strip blank (c :: rest)).take 55 = (strip blank rest).take 55)

/-! ## One value -/

theorem strip!_eq_some_iff {s t : Text} : strip! s = some t ↔ padded s = true ∧ strip blank s = t := by
  have changed : padded s = true ↔ strip blank s ≠ s := by
    rw [ne_eq, strip_eq_self_iff, not_and_or, Bool.not_eq_false, Bool.not_eq_false, padded, Bool.or_eq_true]
  rw [changed, strip!]
  split
  · next same => simp [same]
  · next other => simp [other]

theorem textAfter_eq (word line : Text) :
    textAfter word line = (index (marker word) line).map fun i => line.drop (i + (marker word).length) := by
  rw [textAfter, find_tails_isPrefixOf, Option.map_map]
  congr 1
  funext i
  exact List.drop_drop

theorem slice_after {line : Text} {i : Nat} {text : Text} :
    slice line (i + 1) line.length = some text ↔ ∃ c, line.drop i = c :: text := by
  rw [slice]
  constructor
  · intro taken
    split at taken
    · next within =>
        rw [Option.some.injEq, List.take_of_length_le (by rw [List.length_drop]; omega)] at taken
        exact ⟨_, taken ▸ List.drop_eq_getElem_cons within⟩
    · contradiction
  · intro ⟨c, rest⟩
    have size := congrArg List.length rest
    rw [List.length_drop, List.length_cons] at size
    have tail : line.drop (i + 1) = text := by rw [← List.drop_drop, rest, List.drop_one, List.tail_cons]
    rw [if_pos (by omega), tail, List.take_of_length_le (by omega)]

theorem present_bind_eq_ok {α β : Type} {o : Option α} {f : α → Except RubyError β} {b : β} :
    (present o >>= f) = .ok b ↔ ∃ a, o = some a ∧ f a = .ok b := by
  cases o with
  | none => simp [present, bind, Except.bind]
  | some a => simp [present, bind, Except.bind]

theorem readValue_eq_ok_iff {word line value : Text} :
    readValue line (marker word) (word.length + 2) = .ok value ↔
      ∃ c rest, textAfter word line = some (c :: rest) ∧
        padded rest = true ∧ shorten (strip blank rest) = value := by
  have skip : word.length + 2 = (marker word).length + 1 := by simp [marker]
  simp only [readValue, present_bind_eq_ok, skip, ← Nat.add_assoc, slice_after, strip!_eq_some_iff]
  constructor
  · rintro ⟨i, found, rest, ⟨c, split⟩, _, ⟨changed, rfl⟩, same⟩
    refine ⟨c, rest, ?_, changed, Except.ok.inj same⟩
    rw [textAfter_eq, found, Option.map_some, split]
  · rintro ⟨c, rest, after, changed, same⟩
    rw [textAfter_eq] at after
    obtain ⟨i, found, split⟩ := Option.map_eq_some_iff.mp after
    exact ⟨i, found, rest, ⟨c, split⟩, _, ⟨changed, rfl⟩, congrArg Except.ok same⟩

theorem shorten_eq_iff {a b : Text} (shorter : a.length < b.length) :
    shorten a = shorten b ↔ 55 < a.length ∧ b.take 55 = a.take 55 := by
  by_cases cut : 55 < a.length
  · rw [shorten, shorten, if_pos cut, if_pos (by omega), List.append_cancel_right_eq, eq_comm]
    simp [cut]
  · refine iff_of_false (fun same => ?_) fun long => cut long.1
    have size := congrArg List.length same
    have three : dots.length = 3 := by decide
    rw [shorten, if_neg cut, shorten] at size
    split at size
    · rw [List.length_append, List.length_take, three] at size
      omega
    · omega

theorem shorten_strip_cons (c : Char) (rest : Text) :
    shorten (strip blank rest) = shorten (strip blank (c :: rest)) ↔
      (blank c = true ∨ 55 < (strip blank rest).length ∧
        (strip blank (c :: rest)).take 55 = (strip blank rest).take 55) := by
  cases isBlank : blank c with
  | true => simp [strip_cons isBlank]
  | false => simp [shorten_eq_iff (length_strip_lt isBlank rest)]

/-! ## One line -/

theorem textAfter_of_absent {word line : Text} (absent : include? line word = false) :
    textAfter word line = none := by
  rw [textAfter_eq, Option.map_eq_none_iff, Option.eq_none_iff_forall_ne_some]
  intro i found
  have inside : marker word <:+: line := index_isSome_iff.mp (by rw [found, Option.isSome_some])
  have contained : include? line word = true :=
    index_isSome_iff.mpr ((List.prefix_append word [':']).isInfix.trans inside)
  rw [absent] at contained
  contradiction

theorem expectedValue_of_find {word line text : Text} (first : words.find? (include? line ·) = some word)
    (after : textAfter word line = some text) : expectedValue line = some (shorten (strip blank text)) := by
  obtain ⟨_, earlier, later, split, absent⟩ := List.find?_eq_some_iff_append.mp first
  have none_before : earlier.findSome?
      (fun word => (textAfter word line).map fun text => shorten (strip blank text)) = none := by
    rw [List.findSome?_eq_none_iff]
    intro other member
    rw [textAfter_of_absent (by simpa using absent other member), Option.map_none]
  rw [expectedValue, split, List.findSome?_append, none_before, Option.none_or, List.findSome?_cons, after]
  rfl

theorem expectedValue_of_absent {line : Text} (absent : words.find? (include? line ·) = none) :
    expectedValue line = none := by
  rw [expectedValue, List.findSome?_eq_none_iff]
  intro word member
  have others := List.find?_eq_none.mp absent word member
  rw [textAfter_of_absent (by simpa using others), Option.map_none]

theorem scanLine_eq (fn : Text) (lineno : Nat) (line : Text) : scanLine fn lineno line =
    match words.find? (include? line ·) with
    | some word => (readValue line (marker word) (word.length + 2)).map fun value =>
        some ⟨label fn lineno, value⟩
    | none => .ok none := by
  rw [scanLine, words, List.find?_cons, List.find?_cons, List.find?_cons, List.find?_nil]
  cases include? line "TODO".toList with
  | true => rfl
  | false =>
      cases include? line "FIXME".toList with
      | true => rfl
      | false => cases include? line "BUG".toList <;> rfl

theorem scanLine_of_find {line word : Text} (first : words.find? (include? line ·) = some word) (fn : Text)
    (lineno : Nat) : scanLine fn lineno line =
      (readValue line (marker word) (word.length + 2)).map fun value => some ⟨label fn lineno, value⟩ := by
  rw [scanLine_eq, first]

theorem scanLine_of_absent {line : Text} (absent : words.find? (include? line ·) = none) (fn : Text)
    (lineno : Nat) : scanLine fn lineno line = .ok none := by
  rw [scanLine_eq, absent]

def SourceLine.scan (l : SourceLine) : Except RubyError (Option Todo) :=
  scanLine l.fn l.lineno l.line

variable {l : SourceLine}

theorem SourceLine.expected_of_after {word text : Text} (first : words.find? (include? l.line ·) = some word)
    (after : textAfter word l.line = some text) :
    l.expected = some ⟨label l.fn l.lineno, shorten (strip blank text)⟩ := by
  rw [SourceLine.expected, expectedValue_of_find first after, Option.map_some]

theorem SourceLine.scan_eq_ok_iff {word : Text} (first : words.find? (include? l.line ·) = some word)
    (todo : Option Todo) : l.scan = .ok todo ↔ ∃ c rest, textAfter word l.line = some (c :: rest) ∧
      padded rest = true ∧ some ⟨label l.fn l.lineno, shorten (strip blank rest)⟩ = todo := by
  rw [SourceLine.scan, scanLine_of_find first]
  constructor
  · intro read
    cases taken : readValue l.line (marker word) (word.length + 2) with
    | error e => simp [taken, Except.map] at read
    | ok value =>
        obtain ⟨c, rest, after, changed, rfl⟩ := readValue_eq_ok_iff.mp taken
        rw [taken] at read
        exact ⟨c, rest, after, changed, Except.ok.inj read⟩
  · intro ⟨c, rest, after, changed, same⟩
    rw [readValue_eq_ok_iff.mpr ⟨c, rest, after, changed, rfl⟩, ← same]
    rfl

theorem SourceLine.isSome_of_scan {todo : Option Todo} (read : l.scan = .ok todo) :
    todo.isSome = l.expected.isSome := by
  cases first : words.find? (include? l.line ·) with
  | none =>
      rw [SourceLine.scan, scanLine_of_absent first] at read
      rw [SourceLine.expected, expectedValue_of_absent first, ← Except.ok.inj read]
      rfl
  | some word =>
      obtain ⟨c, rest, after, _, rfl⟩ := (SourceLine.scan_eq_ok_iff first todo).mp read
      rw [SourceLine.expected_of_after first after]
      rfl

theorem SourceLine.scan_expected_iff (l : SourceLine) : l.scan = .ok l.expected ↔ Scannable l.line := by
  cases first : words.find? (include? l.line ·) with
  | none =>
      have absent : l.scan = .ok l.expected := by
        rw [SourceLine.scan, scanLine_of_absent first, SourceLine.expected, expectedValue_of_absent first]
        rfl
      refine iff_of_true absent fun word found => ?_
      rw [first] at found
      contradiction
  | some word =>
      rw [SourceLine.scan_eq_ok_iff first]
      constructor
      · intro ⟨c, rest, after, changed, same⟩ other found
        obtain rfl : word = other := Option.some.inj (first.symm.trans found)
        rw [SourceLine.expected_of_after first after, Option.some.injEq, Todo.mk.injEq, shorten_strip_cons] at same
        exact ⟨c, rest, after, changed, same.2⟩
      · intro scannable
        obtain ⟨c, rest, after, changed, same⟩ := scannable word first
        refine ⟨c, rest, after, changed, ?_⟩
        rw [SourceLine.expected_of_after first after, (shorten_strip_cons c rest).mpr same]

/-! ## All lines -/

theorem scanFile_eq (fn : Text) (lineno : Nat) (read : List Text) : scanFile fn lineno read =
    ((read.zipIdx (lineno + 1)).map fun (line, lineno) => ⟨fn, lineno, line⟩).filterMapM SourceLine.scan := by
  induction read generalizing lineno with
  | nil => rfl
  | cons line rest ih =>
      rw [List.zipIdx_cons, List.map_cons, filterMapM_cons, ← ih, scanFile, SourceLine.scan]
      dsimp only
      cases scanLine fn (lineno + 1) line with
      | error e => rfl
      | ok todo => cases scanFile fn (lineno + 1) rest <;> rfl

theorem Found.scan_eq (found : Found) : found.scan = found.located.filterMapM SourceLine.scan := by
  rw [Found.scan, Found.located]
  cases found.text with
  | none => rfl
  | some text => exact scanFile_eq found.fn 0 _

theorem scan_eq (files : List Found) : scan files = (located files).filterMapM SourceLine.scan := by
  induction files with
  | nil => rfl
  | cons found rest ih =>
      rw [scan, located, List.flatMap_cons, filterMapM_append, ← located, ← ih, ← Found.scan_eq]
      cases found.scan with
      | error e => rfl
      | ok todos => cases scan rest <;> rfl

theorem scan_ok_iff (files : List Found) : (∃ todos, scan files = .ok todos) ↔
    ∀ l ∈ located files, ∀ word, words.find? (include? l.line ·) = some word →
      ∃ c rest, textAfter word l.line = some (c :: rest) ∧
        padded rest = true := by
  rw [scan_eq, filterMapM_ok_iff]
  refine forall₂_congr fun l _ => ?_
  constructor
  · intro ⟨todo, read⟩ word first
    obtain ⟨c, rest, after, changed, _⟩ := (SourceLine.scan_eq_ok_iff first todo).mp read
    exact ⟨c, rest, after, changed⟩
  · intro marked
    cases first : words.find? (include? l.line ·) with
    | none => exact ⟨none, scanLine_of_absent first ..⟩
    | some word =>
        obtain ⟨c, rest, after, changed⟩ := marked word first
        exact ⟨_, (SourceLine.scan_eq_ok_iff first _).mpr ⟨c, rest, after, changed, rfl⟩⟩

theorem job_of_scannable {files : List Found} (scannable : ∀ l ∈ located files, Scannable l.line) :
    job files = .ok (((located files).filterMap SourceLine.expected).take max_length) := by
  have each : ∀ l ∈ located files, l.scan = .ok l.expected :=
    fun l member => l.scan_expected_iff.mpr (scannable l member)
  have recorded := (filterMapM_eq_ok_iff (fun _ _ => SourceLine.isSome_of_scan) _).mpr each
  rw [job, scan_eq, recorded]
  rfl

theorem records_iff (files : List Found) : Records files ↔ ∀ l ∈ located files, Scannable l.line := by
  rw [Records, scan_eq, filterMapM_eq_ok_iff fun _ _ => SourceLine.isSome_of_scan]
  simp only [SourceLine.scan_expected_iff]

example : scan [⟨"src/client/Chat.cpp".toList, some "\n// FIXME: reconnect\n".toList⟩] =
    .ok [⟨"Chat.cpp:2".toList, "reconnect".toList⟩] := by decide +kernel

def withoutColon : Found where
  fn := "/var/lib/jenkins/jobs/sepm/workspace/src/server/Session.cpp".toList
  file := some "  // TODO check the session\n".toList

theorem stops_without_colon : ¬ Records [withoutColon] := by
  unfold Records
  decide +kernel

end SecureChat.Dashboard.Todos
