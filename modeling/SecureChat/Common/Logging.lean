import Mathlib.Data.List.DropRight
import Mathlib.Tactic.IntervalCases
import SecureChat.Common.Strings

/-!
# Logging

`Logger::write_out` gives every sink one record for a message: a header with the time and the
severity, the message and, for a chatty sink, where it was logged. Nothing in the message is
escaped.
-/

namespace SecureChat

inductive Severity where
  | LVL_INFO | LVL_WARN | LVL_ERROR
  deriving DecidableEq

def Severity.level : Severity → Nat
  | .LVL_INFO => 1
  | .LVL_WARN => 2
  | .LVL_ERROR => 3

inductive Color where
  | RED | GREEN | BLUE | YELLOW
  deriving DecidableEq

def endl : StdString := lit "\n"

/-! ## Sinks -/

structure LogSink where
  chatty : Bool
  severity : Severity
  color : StdString → Color → StdString
  written : StdString

def LogSink.write (sink : LogSink) (s : StdString) : LogSink :=
  { sink with written := sink.written ++ s ++ endl }

/-- New content is appended to the file, with 6 new lines added at the beginning. -/
def FileSink (chatty : Bool) (level : Severity) (file : StdString) : LogSink :=
  ⟨chatty, level, fun s _ => s, file ++ lit "\n\n\n\n\n" ++ endl⟩

def colorCode : Color → StdString
  | .RED => lit "\x1b[0;31m"
  | .GREEN => lit "\x1b[0;32m"
  | .BLUE => lit "\x1b[0;34m"
  | .YELLOW => lit "\x1b[0;33m"

def OStreamSink (chatty : Bool) (level : Severity) (stream : StdString) : LogSink :=
  ⟨chatty, level, fun s c => colorCode c ++ s ++ lit "\x1b[0m", stream⟩

/-! ## The header -/

structure LocalTime where
  year : Nat
  month : Nat
  day : Nat
  hour : Nat
  minute : Nat
  second : Nat

def decimal (n : Nat) : StdString := lit (toString n)

def twoDigits (n : Nat) : StdString :=
  if n < 10 then lit "0" ++ decimal n else decimal n

/-- `"%Y-%m-%d %H:%M.%S"` -/
def time_str (t : LocalTime) : StdString :=
  decimal t.year ++ lit "-" ++ twoDigits t.month ++ lit "-" ++ twoDigits t.day ++ lit " " ++
    twoDigits t.hour ++ lit ":" ++ twoDigits t.minute ++ lit "." ++ twoDigits t.second

def signed : Int → StdString
  | .ofNat n => decimal n
  | .negSucc n => lit "-" ++ decimal (n + 1)

def padded (width : Nat) (text : StdString) : StdString :=
  List.replicate (width - text.length) 32 ++ text

inductive ThreadName where
  | mainThread
  | registered (counter : Int32)

def ThreadName.str : ThreadName → StdString
  | .mainThread => lit "MainThread"
  | .registered counter => lit "Thread" ++ signed counter.toInt

/-- A message with all that is put beside it: where it was logged, by which thread and when. -/
structure LogCall where
  logLine : StdString
  severity : Severity
  file : StdString
  line : Nat
  thread_name : Option ThreadName
  time : LocalTime
  elapsed : Int

namespace LogCall
variable (c : LogCall)

def get_logline_header (chatty : Bool) (s : LogSink) : StdString :=
  time_str c.time ++
  (if chatty then lit " - " ++ padded 7 (signed c.elapsed) ++ lit "ms " else []) ++
  match c.severity with
  | .LVL_INFO => s.color (lit "[INFO]  ") .GREEN
  | .LVL_WARN => s.color (lit "[WARN]  ") .YELLOW
  | .LVL_ERROR => s.color (lit "[ERROR] ") .RED

/-- The file name in `__FILE__`, a path that does not end in a separator. -/
def filename : StdString := c.file.rtakeWhile (· ≠ 47)

def thread : StdString :=
  match c.thread_name with
  | none => lit "???thread"
  | some name => name.str

def fileLine : StdString :=
  lit " (" ++ c.filename ++ lit ":" ++ decimal c.line ++ lit ", " ++ c.thread ++ lit ")"

end LogCall

def LogSink.receive (sink : LogSink) (c : LogCall) : LogSink :=
  if c.severity.level < sink.severity.level then sink
  else sink.write (c.get_logline_header sink.chatty sink ++ c.logLine ++
    if sink.chatty then c.fileLine else [])

def write_out (sinks : List LogSink) (c : LogCall) : List LogSink :=
  sinks.map (·.receive c)

/-- The sinks of the server: every logger has the first one, and `main` adds the second one. -/
def serverSinks : List LogSink :=
  [OStreamSink true .LVL_INFO [], FileSink true .LVL_INFO []]

/-- What a server that logs these messages leaves in a new log file. -/
def serverLog (calls : List LogCall) : StdString :=
  ((calls.foldl write_out serverSinks).getLast?.map LogSink.written).getD []

theorem write_out_each (calls : List LogCall) (sinks : List LogSink) :
    calls.foldl write_out sinks = sinks.map fun sink => calls.foldl LogSink.receive sink := by
  induction calls generalizing sinks with
  | nil => simp
  | cons c calls ih => simp [ih, write_out, Function.comp_def]

/-! ## The records of the log file -/

def Plain (s : StdString) : Prop :=
  ∀ b ∈ StdString.toByteSeq s, b < 128 ∧ b ≠ 10 ∧ b ≠ 93

instance (s : StdString) : Decidable (Plain s) := List.decidableBAll _ (StdString.toByteSeq s)

theorem Plain.append {s t : StdString} (first : Plain s) (second : Plain t) : Plain (s ++ t) := by
  unfold Plain StdString.toByteSeq
  rw [List.map_append]
  exact List.forall_mem_append.mpr ⟨first, second⟩

theorem plain_decimal (n : Nat) : Plain (decimal n) := by
  intro b member
  obtain ⟨char, within, rfl⟩ := List.mem_map.mp member
  obtain ⟨digit, printed, rfl⟩ := List.mem_map.mp within
  rw [show toString n = n.repr from rfl, Nat.toList_repr] at printed
  have isDigit := Nat.isDigit_of_mem_toDigits (by decide) (by decide) printed
  obtain ⟨least, greatest⟩ := Char.isDigit_iff_toNat.mp isDigit
  have least : 48 ≤ digit.toNat := least
  have greatest : digit.toNat ≤ 57 := greatest
  generalize digit.toNat = code at least greatest ⊢
  interval_cases code <;> decide

private theorem digit_byte {c : Char} (digit : c.isDigit) : c.toNat.toUInt8.toInt8.toInt.toNat = c.toNat := by
  obtain ⟨least, greatest⟩ := Char.isDigit_iff_toNat.mp digit
  have least : 48 ≤ c.toNat := least
  have greatest : c.toNat ≤ 57 := greatest
  generalize c.toNat = code at least greatest ⊢
  interval_cases code <;> decide

theorem decimal_injective : Function.Injective decimal := by
  intro m n same
  have digits : Nat.toDigits 10 m = Nat.toDigits 10 n := by
    have shown (k : Nat) : ((decimal k).map fun b => Char.ofNat b.toInt.toNat) = Nat.toDigits 10 k := by
      have printed : (toString k).toList = Nat.toDigits 10 k := by
        rw [show toString k = k.repr from rfl, Nat.toList_repr]
      rw [decimal, lit, printed, List.map_map]
      refine (List.map_congr_left fun c member => ?_).trans (List.map_id _)
      have digit := Nat.isDigit_of_mem_toDigits (by decide) (by decide) member
      simp only [Function.comp_apply, digit_byte digit, Char.ofNat_toNat, id]
    rw [← shown m, ← shown n, same]
  rw [← Nat.ofDigitChars_ten_toDigits (n := m), digits, Nat.ofDigitChars_ten_toDigits]

theorem minus_not_mem_decimal (n : Nat) : 45 ∉ decimal n := by
  intro member
  obtain ⟨digit, printed, minus⟩ := List.mem_map.mp member
  rw [show toString n = n.repr from rfl, Nat.toList_repr] at printed
  have isDigit := Nat.isDigit_of_mem_toDigits (by decide) (by decide) printed
  have same := digit_byte isDigit
  rw [minus] at same
  have least : 48 ≤ digit.toNat := (Char.isDigit_iff_toNat.mp isDigit).1
  rw [← same] at least
  exact absurd least (by decide)

theorem signed_injective : Function.Injective signed := by
  have apart (m n : Nat) : decimal m ≠ lit "-" ++ decimal n := fun same =>
    minus_not_mem_decimal m (same ▸ List.mem_append_left _ (List.mem_singleton.mpr rfl))
  intro x y same
  cases x with
  | ofNat m =>
      cases y with
      | ofNat n => rw [decimal_injective same]
      | negSucc n => exact absurd same (apart m (n + 1))
  | negSucc m =>
      cases y with
      | ofNat n => exact absurd same.symm (apart n (m + 1))
      | negSucc n => rw [Nat.succ_injective (decimal_injective (List.append_cancel_left same))]

theorem ThreadName.str_injective : Function.Injective ThreadName.str := by
  intro a b same
  cases a with
  | mainThread =>
      cases b with
      | mainThread => rfl
      | registered l => exact absurd (congrArg List.head? same) (by simp [ThreadName.str, lit])
  | registered k =>
      cases b with
      | mainThread => exact absurd (congrArg List.head? same) (by simp [ThreadName.str, lit])
      | registered l => rw [Int32.toInt_inj.mp (signed_injective (List.append_cancel_left same))]

theorem plain_twoDigits (n : Nat) : Plain (twoDigits n) := by
  unfold twoDigits
  split
  · exact Plain.append (by decide) (plain_decimal n)
  · exact plain_decimal n

theorem plain_signed (z : Int) : Plain (signed z) := by
  cases z with
  | ofNat n => exact plain_decimal n
  | negSucc n => exact Plain.append (by decide) (plain_decimal (n + 1))

theorem plain_padded (width : Nat) {text : StdString} (plain : Plain text) : Plain (padded width text) := by
  refine Plain.append ?_ plain
  intro b member
  obtain ⟨char, within, rfl⟩ := List.mem_map.mp member
  rw [List.eq_of_mem_replicate within]
  decide

theorem plain_time_str (t : LocalTime) : Plain (time_str t) := by
  have dash : Plain (lit "-") := by decide
  have space : Plain (lit " ") := by decide
  have colon : Plain (lit ":") := by decide
  have dot : Plain (lit ".") := by decide
  have date := ((((plain_decimal t.year).append dash).append (plain_twoDigits t.month)).append dash).append
    (plain_twoDigits t.day)
  exact (((((date.append space).append (plain_twoDigits t.hour)).append colon).append
    (plain_twoDigits t.minute)).append dot).append (plain_twoDigits t.second)

def Severity.shown : Severity → StdString
  | .LVL_INFO => lit "[INFO"
  | .LVL_WARN => lit "[WARN"
  | .LVL_ERROR => lit "[ERROR"

def Severity.gap : Severity → StdString
  | .LVL_INFO => lit "  "
  | .LVL_WARN => lit "  "
  | .LVL_ERROR => lit " "

namespace LogCall
variable (c : LogCall)

def stem : StdString :=
  time_str c.time ++ (lit " - " ++ padded 7 (signed c.elapsed) ++ lit "ms ") ++ c.severity.shown

def rest : StdString :=
  c.severity.gap ++ c.logLine ++ c.fileLine

theorem header_rest {sink : LogSink} (uncoloured : sink.color = fun s _ => s) :
    c.get_logline_header true sink ++ c.logLine ++ c.fileLine = c.stem ++ lit "]" ++ c.rest := by
  have tag : (match c.severity with
      | .LVL_INFO => lit "[INFO]  "
      | .LVL_WARN => lit "[WARN]  "
      | .LVL_ERROR => lit "[ERROR] ") = c.severity.shown ++ lit "]" ++ c.severity.gap := by
    cases c.severity <;> rfl
  simp only [get_logline_header, uncoloured, tag, stem, rest, ↓reduceIte, List.append_assoc]

theorem plain_stem : Plain c.stem := by
  have shown : Plain c.severity.shown := by
    cases c.severity <;> decide
  exact ((plain_time_str c.time).append
    ((Plain.append (by decide) (plain_padded 7 (plain_signed c.elapsed))).append (by decide))).append shown

theorem length_stem : 4 ≤ c.stem.length := by
  have dash : (lit " - ").length = 3 := rfl
  have ms : (lit "ms ").length = 3 := rfl
  simp only [stem, List.length_append, dash, ms]
  omega

theorem rest_blank : ∃ more, c.rest = 32 :: more := by
  unfold rest
  cases c.severity <;> exact ⟨_, rfl⟩

theorem plain_thread : Plain c.thread := by
  unfold thread
  rcases c.thread_name with _ | _ | counter
  · decide
  · decide
  · exact Plain.append (by decide) (plain_signed counter.toInt)

theorem str_ne_unknown (name : ThreadName) : name.str ≠ lit "???thread" := by
  intro same
  have first := congrArg List.head? same
  cases name <;> simp [ThreadName.str, lit] at first

/-- A thread without a name is shown by a text that is nobody's name. -/
theorem thread_inj {c d : LogCall} (same : c.thread = d.thread) : c.thread_name = d.thread_name := by
  unfold thread at same
  cases first : c.thread_name with
  | none =>
      cases second : d.thread_name with
      | none => rfl
      | some name =>
          simp only [first, second] at same
          exact absurd same.symm (str_ne_unknown name)
  | some name =>
      cases second : d.thread_name with
      | none =>
          simp only [first, second] at same
          exact absurd same (str_ne_unknown name)
      | some name' =>
          simp only [first, second] at same
          rw [ThreadName.str_injective same]

theorem rest_end : ∃ first last, c.rest = first ++ last ∧ Plain last ∧ 4 ≤ last.length := by
  refine ⟨c.severity.gap ++ c.logLine ++ lit " (" ++ c.filename,
    lit ":" ++ decimal c.line ++ lit ", " ++ c.thread ++ lit ")", ?_, ?_, ?_⟩
  · simp only [rest, fileLine, List.append_assoc]
  · exact ((((Plain.append (by decide) (plain_decimal c.line)).append (by decide)).append c.plain_thread).append
      (by decide))
  · have colon : (lit ":").length = 1 := rfl
    have comma : (lit ", ").length = 2 := rfl
    have bracket : (lit ")").length = 1 := rfl
    simp only [List.length_append, colon, comma, bracket]
    omega

end LogCall

theorem serverLog_eq (calls : List LogCall) :
    serverLog calls = lit "\n\n\n\n\n\n" ++ calls.flatMap fun c => c.stem ++ lit "]" ++ c.rest ++ endl := by
  have received (c : LogCall) (file : StdString) :
      (⟨true, .LVL_INFO, fun s _ => s, file⟩ : LogSink).receive c =
        ⟨true, .LVL_INFO, fun s _ => s, file ++ (c.stem ++ lit "]" ++ c.rest ++ endl)⟩ := by
    have low : ¬ c.severity.level < Severity.LVL_INFO.level := by
      cases c.severity <;> decide
    simp only [LogSink.receive, low, ↓reduceIte, LogSink.write, c.header_rest, List.append_assoc]
  have written (file : StdString) :
      (calls.foldl LogSink.receive ⟨true, .LVL_INFO, fun s _ => s, file⟩).written =
        file ++ calls.flatMap fun c => c.stem ++ lit "]" ++ c.rest ++ endl := by
    induction calls generalizing file with
    | nil => simp
    | cons c calls ih => rw [List.foldl_cons, received, ih, List.flatMap_cons, List.append_assoc]
  rw [serverLog, write_out_each]
  exact written _

end SecureChat
