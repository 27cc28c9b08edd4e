import Mathlib.Logic.Function.Basic
import SecureChat.Common.Logging
import SecureChat.Library.Machine

/-!
# Logger

A logger keeps pointers to its sinks, so that a sink which is added twice is told everything twice.
A message is put together in the stream of a printer of its own, and every sink that takes its
severity is given one line for each time that it is registered then.
-/

namespace SecureChat
open Library

/-! ## Printing -/

/-- A printer hands what has been put into its stream to a function on the state. -/
structure LogPrinter (σ : Type) where
  printer : StdString → σ → σ
  log_stream : StdString

namespace LogPrinter
variable {σ Arg : Type} (shown : Arg → StdString)

def new (printer : StdString → σ → σ) : LogPrinter σ := ⟨printer, []⟩

def copy (other : LogPrinter σ) : LogPrinter σ := ⟨other.printer, []⟩

/-- `shown` is what `<<` writes for an argument. -/
def print_impl : List Arg → LogPrinter σ → σ → σ
  | [], self => self.printer self.log_stream
  | parm1 :: parm, self => print_impl parm { self with log_stream := self.log_stream ++ shown parm1 }

def print (self : LogPrinter σ) (args : List Arg) : σ → σ := print_impl shown args self

theorem print_impl_eq (args : List Arg) (self : LogPrinter σ) :
    print_impl shown args self = self.printer (self.log_stream ++ args.flatMap shown) := by
  induction args generalizing self with
  | nil => simp [print_impl]
  | cons parm1 parm ih => simp [print_impl, ih]

end LogPrinter

/-! ## The logger -/

structure Reading where
  time : LocalTime
  elapsed : Int

/-- A call of `log` and of `print` on its result. The clock is read for every header: `clock sink n`
is what it says when the line for the sink is made that has `n` others before it. -/
structure Message (Sink Arg : Type) where
  severity : Severity
  file : StdString
  line : Nat
  args : List Arg
  thread_name : Option ThreadName
  clock : Sink → Nat → Reading

def Message.call {Sink Arg : Type} (m : Message Sink Arg) (logLine : StdString) (r : Reading) : LogCall :=
  ⟨logLine, m.severity, m.file, m.line, m.thread_name, r.time, r.elapsed⟩

structure Logger (Sink : Type) where
  sinks : List Sink
  received : Sink → List StdString

namespace Logger

inductive Call (Sink Arg : Type) where
  | addSink (s : Sink)
  | clearSinks
  | print (m : Message Sink Arg)

section
variable {Sink Arg : Type}

def addSink (s : Sink) (self : Logger Sink) : Logger Sink := { self with sinks := self.sinks ++ [s] }

def clearSinks (self : Logger Sink) : Logger Sink := { self with sinks := [] }

/-- The constructor, where `cout` is the sink that it makes. -/
def new (cout : Sink) : Logger Sink := addSink cout ⟨[], fun _ => []⟩

variable [DecidableEq Sink] (kind : Sink → LogSink) (shown : Arg → StdString)

/-- The loop of `write_out` over the sinks that are left when those in `told` have been told. -/
def tell (m : Message Sink Arg) (logLine : StdString) (told : List Sink) :
    List Sink → (Sink → List StdString) → Sink → List StdString
  | [], received => received
  | sink :: rest, received =>
      let c := m.call logLine (m.clock sink (told.count sink))
      let received := if m.severity.level < (kind sink).severity.level then received
        else Function.update received sink (received sink ++ [c.get_logline_header (kind sink).chatty (kind sink) ++
          logLine ++ if (kind sink).chatty then c.fileLine else []])
      tell m logLine (told ++ [sink]) rest received

def write_out (m : Message Sink Arg) (logLine : StdString) (self : Logger Sink) : Logger Sink :=
  { self with received := tell kind m logLine [] self.sinks self.received }

def log (m : Message Sink Arg) : LogPrinter (Logger Sink) :=
  LogPrinter.copy (LogPrinter.new (write_out kind m))

def step : Call Sink Arg → Logger Sink → Unit × Logger Sink
  | .addSink s, self => ((), addSink s self)
  | .clearSinks, self => ((), clearSinks self)
  | .print m, self => ((), (log kind m).print shown m.args self)

end

/-! ## What a sink is told -/

section
variable {Sink Arg : Type}

def Call.clears : Call Sink Arg → Bool
  | .clearSinks => true
  | _ => false

section
variable (shown : Arg → StdString)

def line (kind : LogSink) (m : Message Sink Arg) (r : Reading) : StdString :=
  let c := m.call (m.args.flatMap shown) r
  c.get_logline_header kind.chatty kind ++ m.args.flatMap shown ++ if kind.chatty then c.fileLine else []

def Call.lines (kind : LogSink) (s : Sink) (times : Nat) : Call Sink Arg → List StdString
  | .print m => if m.severity.level < kind.severity.level then []
      else (List.range times).map fun n => line shown kind m (m.clock s n)
  | _ => []

end

variable [DecidableEq Sink]

def Call.adds (s : Sink) : Call Sink Arg → Bool
  | .addSink other => other = s
  | _ => false

/-- How often the sink has been added since the sinks were cleared last. -/
def registrations (start : List Sink) (past : List (Call Sink Arg)) (s : Sink) : Nat :=
  (past.reverse.takeWhile fun call => !call.clears).countP (Call.adds s) +
    if past.any Call.clears then 0 else start.count s

variable (shown : Arg → StdString)

def heard (kind : LogSink) (start : List Sink) (s : Sink) (calls : List (Call Sink Arg)) : List StdString :=
  (entries calls).flatMap fun (past, call) => call.lines shown kind s (registrations start past s)

theorem registrations_concat (start : List Sink) (past : List (Call Sink Arg)) (call : Call Sink Arg) (s : Sink) :
    registrations start (past ++ [call]) s =
      if call.clears then 0 else registrations start past s + (call.adds s).toNat := by
  unfold registrations
  rw [List.reverse_append, List.reverse_singleton, List.singleton_append, List.any_append, List.any_cons,
    List.any_nil, Bool.or_false]
  cases call with
  | clearSinks => simp [Call.clears]
  | addSink other =>
      by_cases same : other = s <;> simp [Call.clears, Call.adds, same, Nat.add_right_comm]
  | print m => simp [Call.clears, Call.adds]

theorem heard_concat (kind : LogSink) (start : List Sink) (s : Sink) (calls : List (Call Sink Arg))
    (call : Call Sink Arg) : heard shown kind start s (calls ++ [call]) =
      heard shown kind start s calls ++ call.lines shown kind s (registrations start calls s) := by
  rw [heard, entries_concat, List.flatMap_append, List.flatMap_singleton]
  rfl

variable (kind : Sink → LogSink)

theorem tell_eq (m : Message Sink Arg) (logLine : StdString) (told sinks : List Sink)
    (received : Sink → List StdString) (s : Sink) : tell kind m logLine told sinks received s =
      received s ++ if m.severity.level < (kind s).severity.level then [] else
        (List.range' (told.count s) (sinks.count s)).map fun n =>
          let c := m.call logLine (m.clock s n)
          c.get_logline_header (kind s).chatty (kind s) ++ logLine ++ if (kind s).chatty then c.fileLine else [] := by
  induction sinks generalizing told received with
  | nil => simp [tell]
  | cons sink rest ih =>
      rw [tell, ih]
      by_cases same : sink = s
      · subst same
        by_cases low : m.severity.level < (kind sink).severity.level
        · simp [low]
        · simp [low, List.range'_succ]
      · have kept (lines : List StdString) : Function.update received sink lines s = received s :=
          Function.update_of_ne (Ne.symm same) ..
        have before : (told ++ [sink]).count s = told.count s := by simp [same]
        have after : (sink :: rest).count s = rest.count s := by simp [same]
        rw [before, after]
        split <;> simp [kept]

theorem received_step (call : Call Sink Arg) (self : Logger Sink) (s : Sink) :
    (step kind shown call self).2.received s =
      self.received s ++ call.lines shown (kind s) s (self.sinks.count s) := by
  cases call with
  | addSink other => simp [step, addSink, Call.lines]
  | clearSinks => simp [step, clearSinks, Call.lines]
  | print m =>
      rw [step, LogPrinter.print, LogPrinter.print_impl_eq]
      simp only [log, LogPrinter.copy, LogPrinter.new, write_out, List.nil_append, tell_eq, Call.lines, line,
        List.count_nil, List.range_eq_range']

theorem count_sinks (start : Logger Sink) (calls : List (Call Sink Arg)) (s : Sink) :
    (final (step kind shown) start calls).sinks.count s = registrations start.sinks calls s := by
  induction calls using List.reverseRecOn with
  | nil => simp [final, registrations]
  | append_singleton calls call ih =>
      rw [final_concat, registrations_concat, ← ih]
      cases call with
      | addSink other => by_cases same : other = s <;> simp [step, addSink, Call.clears, Call.adds, same]
      | clearSinks => rfl
      | print m =>
          rw [step, LogPrinter.print, LogPrinter.print_impl_eq]
          rfl

theorem received_eq (start : Logger Sink) (calls : List (Call Sink Arg)) (s : Sink) :
    (final (step kind shown) start calls).received s =
      start.received s ++ heard shown (kind s) start.sinks s calls := by
  induction calls using List.reverseRecOn with
  | nil => simp [final, heard]
  | append_singleton calls call ih =>
      rw [final_concat, received_step, ih, count_sinks, heard_concat, List.append_assoc]

/-! ## The other sinks -/

def Call.concerns (s : Sink) : Call Sink Arg → Bool
  | .addSink other => other = s
  | _ => true

theorem addSink_of_not_concerns {call : Call Sink Arg} {s : Sink} (foreign : call.concerns s = false) :
    ∃ other, other ≠ s ∧ call = .addSink other := by
  cases call with
  | addSink other => exact ⟨other, of_decide_eq_false foreign, rfl⟩
  | clearSinks => contradiction
  | print m => contradiction

theorem registrations_alone (start : List Sink) (calls : List (Call Sink Arg)) (s : Sink) :
    registrations (List.replicate (start.count s) s) (calls.filter (Call.concerns s)) s =
      registrations start calls s := by
  induction calls using List.reverseRecOn with
  | nil => simp [registrations]
  | append_singleton calls call ih =>
      rw [List.filter_append, List.filter_singleton, registrations_concat, ← ih]
      cases concerned : call.concerns s with
      | true => rw [cond_true, registrations_concat]
      | false =>
          obtain ⟨other, differ, rfl⟩ := addSink_of_not_concerns concerned
          simp [Call.clears, Call.adds, differ]

theorem heard_alone (kind : LogSink) (start : List Sink) (s : Sink) (calls : List (Call Sink Arg)) :
    heard shown kind (List.replicate (start.count s) s) s (calls.filter (Call.concerns s)) =
      heard shown kind start s calls := by
  induction calls using List.reverseRecOn with
  | nil => rfl
  | append_singleton calls call ih =>
      rw [List.filter_append, List.filter_singleton, heard_concat, ← ih]
      cases concerned : call.concerns s with
      | true => rw [cond_true, heard_concat, registrations_alone]
      | false =>
          obtain ⟨other, _, rfl⟩ := addSink_of_not_concerns concerned
          simp [Call.lines]

-- sinks only receive messages of at least their own level
example :
    let kind (s : Nat) : LogSink :=
      ⟨true, if s = 1 then .LVL_INFO else if s = 2 then .LVL_WARN else .LVL_ERROR, fun text _ => text, []⟩
    let test (severity : Severity) : Message Nat StdString := ⟨severity, lit "logging.cpp", 43, [lit "test"],
      some .mainThread, fun _ n => ⟨⟨2013, 1, 5, 12, 0, 0⟩, n⟩⟩
    let after := final (step kind id) (new 0)
      [.clearSinks, .addSink 1, .addSink 2, .addSink 3, .print (test .LVL_INFO), .print (test .LVL_ERROR)]
    [1, 2, 3].map (fun s => (after.received s).length) = [2, 1, 1] := by
  decide

/-! ## The log file of the server -/

variable {start : Logger Sink} {file : Sink} (fresh : start.sinks.count file = 0)
include fresh

theorem registrations_prints (messages : List (Message Sink Arg)) :
    registrations start.sinks (.addSink file :: messages.map .print) file = 1 := by
  induction messages using List.reverseRecOn with
  | nil => simp [registrations, Call.clears, Call.adds, fresh]
  | append_singleton messages m ih =>
      rw [List.map_append, List.map_singleton, ← List.cons_append, registrations_concat, ih]
      rfl

theorem heard_prints (kind : LogSink) (takesAll : kind.severity = .LVL_INFO) (messages : List (Message Sink Arg)) :
    heard shown kind start.sinks file (.addSink file :: messages.map .print) =
      messages.map fun m => line shown kind m (m.clock file 0) := by
  have low (m : Message Sink Arg) : ¬ m.severity.level < kind.severity.level := by
    rw [takesAll]
    cases m.severity <;> decide
  induction messages using List.reverseRecOn with
  | nil => rfl
  | append_singleton messages m ih =>
      rw [List.map_append, List.map_singleton, ← List.cons_append, heard_concat, ih, registrations_prints fresh,
        List.map_append, Call.lines, if_neg (low m)]
      rfl

/-- A log file that is added to a logger holds what `serverLog` says of the messages. -/
theorem written_serverLog (nothing : start.received file = []) (isFile : kind file = FileSink true .LVL_INFO [])
    (messages : List (Message Sink Arg)) :
    (((final (step kind shown) start (.addSink file :: messages.map .print)).received file).foldl
        LogSink.write (kind file)).written =
      serverLog (messages.map fun m => m.call (m.args.flatMap shown) (m.clock file 0)) := by
  have written (lines : List StdString) : ∀ sink : LogSink,
      (lines.foldl LogSink.write sink).written = sink.written ++ lines.flatMap (· ++ endl) := by
    induction lines with
    | nil => simp
    | cons line lines ih => simp [ih, LogSink.write]
  rw [received_eq, nothing, List.nil_append, isFile, heard_prints shown fresh _ rfl, written, serverLog_eq,
    List.flatMap_map, List.flatMap_map]
  have records (m : Message Sink Arg) : line shown (FileSink true .LVL_INFO []) m (m.clock file 0) =
      (m.call (m.args.flatMap shown) (m.clock file 0)).stem ++ lit "]" ++
        (m.call (m.args.flatMap shown) (m.clock file 0)).rest := LogCall.header_rest _ rfl
  simp only [records]
  rfl

end

end Logger
end SecureChat
