import SecureChat.Common.Logger
import SecureChat.Library.Monitor

/-!
# Logging from several threads

Every thread of the server logs through one logger, whose mutex is held while a message is given to
the sinks and while a thread gets or loses its name. The name is kept in thread-specific storage.
The sinks are those that `main` has added before it starts any thread.
-/

namespace SecureChat
open Library

structure LogState (Sink : Type) where
  logger : Logger Sink
  thread_name : Nat → Option ThreadName
  thread_counter : Int32

/-- The arguments of `log` and `print`, and what the clock says when the lines are made. -/
structure LogEntry (Sink Arg : Type) where
  severity : Severity
  file : StdString
  line : Nat
  args : List Arg
  clock : Sink → Nat → Reading

def LogEntry.message {Sink Arg : Type} (e : LogEntry Sink Arg) (name : Option ThreadName) : Message Sink Arg :=
  ⟨e.severity, e.file, e.line, e.args, name, e.clock⟩

inductive LogRequest (Sink : Type) where
  | getName
  | getSinks
  | write (s : Sink) (text : StdString)
  | nextCounter
  | resetName (name : ThreadName)
  | releaseName

def LogRequest.Reply {Sink : Type} : LogRequest Sink → Type
  | .getName => Option ThreadName
  | .getSinks => List Sink
  | .nextCounter => Int32
  | _ => Unit

inductive LoggerCall (Sink Arg : Type) where
  | print (e : LogEntry Sink Arg)
  | registerThread
  | removeThread

def LoggerCall.registers {Sink Arg : Type} : LoggerCall Sink Arg → Bool
  | .registerThread => true
  | _ => false

namespace LogThreads
variable {Sink Arg : Type}

abbrev Section (Sink : Type) := Program (LogRequest Sink) LogRequest.Reply

def ask (r : LogRequest Sink) : Section Sink r.Reply := Program.ask r

variable (kind : Sink → LogSink) (shown : Arg → StdString)

/-- The loop of `write_out`, which asks each sink to write its line. -/
def tellEach [DecidableEq Sink] (m : Message Sink Arg) (logLine : StdString) (told : List Sink) :
    List Sink → Section Sink Unit
  | [] => .done ()
  | sink :: rest =>
      let c := m.call logLine (m.clock sink (told.count sink))
      if m.severity.level < (kind sink).severity.level then tellEach m logLine (told ++ [sink]) rest
      else do
        ask (.write sink (c.get_logline_header (kind sink).chatty (kind sink) ++ logLine ++
          if (kind sink).chatty then c.fileLine else []))
        tellEach m logLine (told ++ [sink]) rest

/-- What is done under the mutex. -/
def body [DecidableEq Sink] : LoggerCall Sink Arg → Section Sink Unit
  | .print e => do
      let name ← ask .getName
      let sinks ← ask .getSinks
      tellEach kind (e.message name) (e.args.flatMap shown) [] sinks
  | .registerThread => do
      let counter ← ask .nextCounter
      ask (.resetName (.registered counter))
  | .removeThread => do
      let name ← ask .getName
      if Option.isSome name then
        ask .releaseName

variable [DecidableEq Sink]

def answer (thread : Nat) : (r : LogRequest Sink) → LogState Sink → r.Reply × LogState Sink
  | .getName, s => (s.thread_name thread, s)
  | .getSinks, s => (s.logger.sinks, s)
  | .write sink text, s => ((), { s with
      logger.received := Function.update s.logger.received sink (s.logger.received sink ++ [text]) })
  | .nextCounter, s => (s.thread_counter, { s with thread_counter := s.thread_counter + 1 })
  | .resetName name, s => ((), { s with thread_name := Function.update s.thread_name thread (some name) })
  | .releaseName, s => ((), { s with thread_name := Function.update s.thread_name thread none })

/-- The constructor runs on thread 0, which sets the logger up before there are other threads. -/
def new (logger : Logger Sink) : LogState Sink :=
  ⟨logger, fun thread => if thread = 0 then some .mainThread else none, 0⟩

abbrev Threads (Sink Arg : Type) :=
  Monitor (LogState Sink) (LogRequest Sink) LogRequest.Reply Unit (LoggerCall Sink Arg)

abbrev act : Monitor.Action (LoggerCall Sink Arg) → Threads Sink Arg →
    Option ((Nat × LoggerCall Sink Arg) × Unit) × Threads Sink Arg :=
  Monitor.act (fun _ => body kind shown) answer

abbrev perform : Nat × LoggerCall Sink Arg → LogState Sink → Unit × LogState Sink :=
  Monitor.perform (fun _ => body kind shown) answer

/-! ## The calls one after the other -/

theorem run_tellEach (thread : Nat) (m : Message Sink Arg) (logLine : StdString) (told sinks : List Sink)
    (s : LogState Sink) : ((tellEach kind m logLine told sinks).run (answer thread) s).2 =
      { s with logger.received := Logger.tell kind m logLine told sinks s.logger.received } := by
  induction sinks generalizing told s with
  | nil => rfl
  | cons sink rest ih =>
      unfold tellEach Logger.tell
      by_cases low : m.severity.level < (kind sink).severity.level
      · simp only [if_pos low]
        exact ih _ s
      · simp only [if_neg low]
        exact ih _ _

theorem perform_print (thread : Nat) (e : LogEntry Sink Arg) (s : LogState Sink) :
    (perform kind shown (thread, .print e) s).2 =
      { s with logger := (Logger.step kind shown (.print (e.message (s.thread_name thread))) s.logger).2 } := by
  have told := run_tellEach kind thread (e.message (s.thread_name thread)) (e.args.flatMap shown) []
    s.logger.sinks s
  rw [Logger.step, LogPrinter.print, LogPrinter.print_impl_eq]
  exact told

theorem perform_registerThread (thread : Nat) (s : LogState Sink) :
    (perform kind shown (thread, .registerThread) s).2 = { s with
      thread_counter := s.thread_counter + 1
      thread_name := Function.update s.thread_name thread (some (.registered s.thread_counter)) } := rfl

theorem perform_removeThread (thread : Nat) (s : LogState Sink) :
    (perform kind shown (thread, .removeThread) s).2 =
      { s with thread_name := Function.update s.thread_name thread none } := by
  change ((if (s.thread_name thread).isSome then ask .releaseName else pure () :
    Section Sink Unit).run (answer thread) s).2 = _
  cases name : s.thread_name thread with
  | some name => rfl
  | none =>
      have same : Function.update s.thread_name thread none = s.thread_name := by
        rw [← name, Function.update_eq_self]
      rw [same]
      rfl

/-! ## Whole lines -/

abbrev threads (logger : Logger Sink) (actions : List (Monitor.Action (LoggerCall Sink Arg))) : Threads Sink Arg :=
  final (act kind shown) (.start (new logger)) actions

/-- The calls that have given the mutex back, in the order in which they did. -/
def returned (logger : Logger Sink) (actions : List (Monitor.Action (LoggerCall Sink Arg))) :
    List (Nat × LoggerCall Sink Arg) :=
  (commits (fun output => output) (history (act kind shown) (.start (new logger)) actions)).map Prod.fst

/-- The messages with the names of their threads, each beside its thread. -/
def messages (h : List (Moment (LogState Sink) (Nat × LoggerCall Sink Arg) Unit)) :
    List (Nat × Message Sink Arg) :=
  h.filterMap fun m => match m.action with
    | (thread, .print e) => some (thread, e.message (m.before.thread_name thread))
    | _ => none

abbrev served (logger : Logger Sink) (calls : List (Nat × LoggerCall Sink Arg)) :=
  history (perform kind shown) (new logger) calls

/-- The logger after these messages, one after the other. -/
def told (logger : Logger Sink) (ms : List (Message Sink Arg)) : Logger Sink :=
  final (Logger.step kind shown) (logger) (ms.map .print)

theorem told_concat (logger : Logger Sink) (ms : List (Message Sink Arg)) (m : Message Sink Arg) :
    told kind shown logger (ms ++ [m]) = (Logger.step kind shown (.print m) (told kind shown logger ms)).2 := by
  rw [told, List.map_append, List.map_singleton, final_concat]
  rfl

/-- The messages that a call adds. -/
def LoggerCall.said (name : Option ThreadName) : LoggerCall Sink Arg → List (Message Sink Arg)
  | .print e => [e.message name]
  | .registerThread => []
  | .removeThread => []

theorem told_perform (logger : Logger Sink) (ms : List (Message Sink Arg)) (thread : Nat) (call : LoggerCall Sink Arg)
    {s : LogState Sink} (now : s.logger = told kind shown logger ms) :
    (perform kind shown (thread, call) s).2.logger =
      told kind shown logger (ms ++ LoggerCall.said (s.thread_name thread) call) := by
  cases call with
  | print e => rw [perform_print, LoggerCall.said, told_concat, now]
  | registerThread => rw [perform_registerThread, LoggerCall.said, List.append_nil, now]
  | removeThread => rw [perform_removeThread, LoggerCall.said, List.append_nil, now]

omit [DecidableEq Sink] in
theorem messages_concat (h : List (Moment (LogState Sink) (Nat × LoggerCall Sink Arg) Unit))
    (m : Moment (LogState Sink) (Nat × LoggerCall Sink Arg) Unit) :
    (messages (h ++ [m])).map Prod.snd = (messages h).map Prod.snd ++
      LoggerCall.said (m.before.thread_name m.action.1) m.action.2 := by
  rcases m with ⟨before, ⟨thread, call⟩, output, after⟩
  cases call <;> simp [messages, LoggerCall.said]

theorem logger_served (logger : Logger Sink) (calls : List (Nat × LoggerCall Sink Arg)) :
    (final (perform kind shown) (new logger) calls).logger =
      told kind shown logger ((messages (served kind shown logger calls)).map Prod.snd) := by
  refine history_rule (perform kind shown) (fun h s => s.logger =
    told kind shown logger ((messages h).map Prod.snd)) rfl ?_ calls
  intro past s call earlier
  rw [messages_concat]
  exact told_perform kind shown logger _ call.1 call.2 earlier

/-! ## Lines that are being written -/

theorem answer_grows (thread : Nat) (r : LogRequest Sink) (s : LogState Sink) (sink : Sink) :
    s.logger.received sink <+: (answer thread r s).2.logger.received sink := by
  cases r with
  | write other text =>
      by_cases same : sink = other
      · subst same
        simp [answer]
      · simp [answer, same]
  | _ => exact List.prefix_rfl

/-- Every sink is told the same messages in the same order, each with whole lines; the message of the
thread that has the mutex may still be missing in some of the sinks. -/
theorem lines_in_one_order (logger : Logger Sink) (actions : List (Monitor.Action (LoggerCall Sink Arg))) :
    let now := threads kind shown logger actions
    let calls := returned kind shown logger actions
    let given := (messages (served kind shown logger calls)).map Prod.snd
    ∃ next : List (Message Sink Arg), next.length ≤ 1 ∧ (now.owner = none → next = []) ∧
      (∀ thread, now.owner = some thread → ∃ c rest, .inside c rest ∈ now.frames thread ∧
        next = LoggerCall.said ((final (perform kind shown) (new logger) calls).thread_name thread) c) ∧
      ∀ s, (told kind shown logger given).received s <+: now.shared.logger.received s ∧
        now.shared.logger.received s <+: (told kind shown logger (given ++ next)).received s := by
  intro now calls given
  let s := final (perform kind shown) (new logger) calls
  have serial : now.Serial (fun _ => body kind shown) answer s := (Monitor.atomic (new logger) actions).2
  obtain ⟨before, after⟩ := Monitor.between (fun _ => body kind shown) answer
    (fun s t => ∀ sink, s.logger.received sink <+: t.logger.received sink)
    (fun _ _ => List.prefix_rfl) (fun _ _ _ first second sink => (first sink).trans (second sink))
    (fun thread r s sink => answer_grows thread r s sink) (new logger) actions
  have same : s.logger = told kind shown logger given := logger_served kind shown logger _
  cases owner : now.owner with
  | none =>
      have all : now.shared.logger = told kind shown logger (given ++ []) := by
        rw [serial.free owner, same, List.append_nil]
      exact ⟨[], Nat.zero_le 1, fun _ => rfl, by simp, fun sink => ⟨same ▸ before sink, all ▸ List.prefix_rfl⟩⟩
  | some thread =>
      obtain ⟨c, rest, inside⟩ := serial.exclusive.inside owner
      refine ⟨LoggerCall.said (s.thread_name thread) c, ?_, by simp, ?_, fun sink => ⟨same ▸ before sink, ?_⟩⟩
      · cases c <;> simp [LoggerCall.said]
      · intro other holds
        obtain rfl := Option.some.inj holds
        exact ⟨c, rest, inside, rfl⟩
      · rw [← told_perform kind shown logger given thread c same]
        exact after thread c rest inside sink

/-! ## Names -/

abbrev Service (Sink Arg : Type) := Moment (LogState Sink) (Nat × LoggerCall Sink Arg) Unit

/-- How often a thread has been given a name. -/
def registrations (h : List (Service Sink Arg)) : Nat :=
  h.countP (·.action.2.registers)

/-- Of `n` names that have been given, only `thread` goes by this one, and only as long as it has done
nothing but print. -/
structure Kept (thread : Nat) (name : ThreadName) (prints : Prop) (n : Nat) (s : LogState Sink) : Prop where
  given : ∀ k, name = .registered k → ∃ i < n, k = .ofNat i
  held : ∀ t, s.thread_name t = some name → t = thread ∧ prints

def Printing (thread : Nat) (call : Nat × LoggerCall Sink Arg) : Prop :=
  call.1 = thread → ∃ e, call.2 = .print e

/-- The names in use are those of one thread each, and the next one is the `n`-th. -/
structure Distinct (n : Nat) (s : LogState Sink) : Prop where
  counter : s.thread_counter = .ofNat n
  names : ∀ thread name, s.thread_name thread = some name → Kept thread name True n s

omit [DecidableEq Sink] in
/-- A name that has been given is not the next one, as long as the counter does not overflow. -/
theorem Kept.fresh {thread n : Nat} {prints : Prop} {s : LogState Sink}
    (kept : Kept thread (.registered (.ofNat n)) prints n s) (few : n < 2 ^ 31) : False := by
  obtain ⟨i, earlier, same⟩ := kept.given _ rfl
  have value := congrArg Int32.toInt same
  rw [Int32.toInt_ofNat_of_lt few, Int32.toInt_ofNat_of_lt (by omega)] at value
  omega

theorem Kept.perform {thread n : Nat} {name : ThreadName} {prints : Prop} {s : LogState Sink}
    (kept : Kept thread name prints n s) (distinct : Distinct n s) (few : n < 2 ^ 31)
    (call : Nat × LoggerCall Sink Arg) :
    Kept thread name (prints ∧ Printing thread call) (n + call.2.registers.toNat) (perform kind shown call s).2 := by
  rcases call with ⟨caller, call⟩
  have other {t : Nat} {change : Option ThreadName} (differ : t ≠ caller)
      (held : Function.update s.thread_name caller change t = some name) :
      t = thread ∧ prints ∧ Printing thread (caller, call) := by
    rw [Function.update_of_ne differ] at held
    obtain ⟨here, done⟩ := kept.held t held
    exact ⟨here, done, fun same => absurd (here.trans same.symm) differ⟩
  cases call with
  | print e =>
      rw [perform_print]
      exact ⟨kept.given, fun t held => ⟨(kept.held t held).1, (kept.held t held).2, fun _ => ⟨e, rfl⟩⟩⟩
  | registerThread =>
      rw [perform_registerThread]
      refine ⟨fun k named => ?_, fun t held => ?_⟩
      · obtain ⟨i, earlier, same⟩ := kept.given k named
        exact ⟨i, Nat.lt_succ_of_lt earlier, same⟩
      · by_cases same : t = caller
        · subst same
          simp only [Function.update_self, Option.some.injEq, distinct.counter] at held
          subst held
          exact (kept.fresh few).elim
        · exact other same held
  | removeThread =>
      rw [perform_removeThread]
      refine ⟨kept.given, fun t held => ?_⟩
      by_cases same : t = caller
      · subst same
        simp at held
      · exact other same held

theorem Distinct.perform {n : Nat} {s : LogState Sink} (distinct : Distinct n s) (few : n < 2 ^ 31)
    (call : Nat × LoggerCall Sink Arg) :
    Distinct (n + call.2.registers.toNat) (perform kind shown call s).2 := by
  have earlier {thread : Nat} {name : ThreadName} (held : s.thread_name thread = some name) :
      Kept thread name True (n + call.2.registers.toNat) (LogThreads.perform kind shown call s).2 := by
    have kept := (distinct.names thread name held).perform kind shown distinct few call
    exact ⟨kept.given, fun t here => ⟨(kept.held t here).1, trivial⟩⟩
  rcases call with ⟨caller, call⟩
  cases call with
  | print e =>
      refine ⟨?_, fun thread name named => ?_⟩
      · rw [perform_print]
        exact distinct.counter
      · rw [perform_print] at named
        exact earlier named
  | registerThread =>
      refine ⟨?_, fun thread name named => ?_⟩
      · rw [perform_registerThread, distinct.counter]
        exact (Int32.ofNat_add n 1).symm
      · by_cases same : thread = caller
        · subst same
          rw [perform_registerThread] at named ⊢
          simp only [Function.update_self, Option.some.injEq, distinct.counter] at named
          subst named
          refine ⟨fun k here => ?_, fun t held => ?_⟩
          · cases here
            exact ⟨n, Nat.lt_succ_self n, rfl⟩
          · by_contra other
            have differ : t ≠ thread := fun same => other ⟨same, trivial⟩
            simp only [Function.update_of_ne differ] at held
            exact (distinct.names t _ held).fresh few
        · rw [perform_registerThread] at named
          exact earlier (by simpa [same] using named)
  | removeThread =>
      refine ⟨?_, fun thread name named => ?_⟩
      · rw [perform_removeThread]
        exact distinct.counter
      · rw [perform_removeThread] at named
        by_cases same : thread = caller
        · subst same
          simp at named
        · exact earlier (by simpa [same] using named)

omit [DecidableEq Sink] in
theorem distinct_new (logger : Logger Sink) : Distinct 0 (new logger) := by
  refine ⟨rfl, fun thread name named => ?_⟩
  have main (t : Nat) (n : ThreadName) (held : (new logger).thread_name t = some n) : t = 0 ∧ n = .mainThread := by
    by_cases zero : t = 0
    · exact ⟨zero, by simpa [new, zero, eq_comm] using held⟩
    · simp [new, zero] at held
  obtain ⟨rfl, rfl⟩ := main thread name named
  exact ⟨by simp, fun t held => ⟨(main t _ held).1, trivial⟩⟩

/-- A thread that went by the same name in both calls is one thread, which has only printed since. -/
def OneHolder (x : Service Sink Arg) (since : List (Service Sink Arg)) (y : Service Sink Arg) : Prop :=
  ∀ name, x.before.thread_name x.action.1 = some name → y.before.thread_name y.action.1 = some name →
    y.action.1 = x.action.1 ∧ ∀ z ∈ since, Printing x.action.1 z.action

omit [DecidableEq Sink] in
theorem registrations_concat (h : List (Service Sink Arg)) (m : Service Sink Arg) :
    registrations (h ++ [m]) = registrations h + m.action.2.registers.toNat := by
  rw [registrations, List.countP_append, List.countP_singleton]
  cases m.action.2.registers <;> rfl

theorem one_holder (logger : Logger Sink) (calls : List (Nat × LoggerCall Sink Arg))
    (few : registrations (served kind shown logger calls) < 2 ^ 31) :
    Throughout (fun past y => ∀ first x middle, past = first ++ x :: middle → OneHolder x (x :: middle) y)
      (served kind shown logger calls) := by
  refine (history_rule (perform kind shown) (fun h s => registrations h < 2 ^ 31 → Distinct (registrations h) s ∧
    (∀ first x rest name, h = first ++ x :: rest → x.before.thread_name x.action.1 = some name →
      Kept x.action.1 name (∀ z ∈ x :: rest, Printing x.action.1 z.action) (registrations h) s) ∧
    Throughout (fun past y => ∀ first x middle, past = first ++ x :: middle → OneHolder x (x :: middle) y) h)
    (fun _ => ⟨distinct_new logger, by simp, throughout_nil _⟩) ?_ calls few).2.2
  intro past s call earlier few
  rw [registrations_concat] at few ⊢
  have few : registrations past < 2 ^ 31 := Nat.lt_of_le_of_lt (Nat.le_add_right ..) few
  obtain ⟨distinct, kept, one⟩ := earlier few
  refine ⟨distinct.perform kind shown few call, ?_, throughout_concat.mpr ⟨one, ?_⟩⟩
  · intro first x rest name split named
    rcases concat_eq_append_cons.mp split with ⟨_, rfl, rfl⟩ | ⟨middle, rfl, before⟩
    · have now := (distinct.names call.1 name named).perform kind shown distinct few call
      exact ⟨now.given, fun t held => ⟨(now.held t held).1, List.forall_mem_singleton.mpr (now.held t held).2.2⟩⟩
    · have now := (kept first x middle name before named).perform kind shown distinct few call
      refine ⟨now.given, fun t held => ⟨(now.held t held).1, ?_⟩⟩
      rw [← List.cons_append]
      exact forall_mem_concat.mpr (now.held t held).2
  · intro first x middle split name named same
    exact (kept first x middle name split named).held call.1 same

/-- A line that a call has written. -/
def LineOf (x : Service Sink Arg) (c : LogCall) : Prop :=
  ∃ e logLine r, x.action.2 = .print e ∧ c = (e.message (x.before.thread_name x.action.1)).call logLine r

/-- Two lines that show the same name were written by one thread, which has not been registered or
removed in between: a name is never given again, as long as the counter of the names does not
overflow. -/
theorem one_thread_a_name (logger : Logger Sink) (actions : List (Monitor.Action (LoggerCall Sink Arg)))
    (few : registrations (served kind shown logger (returned kind shown logger actions)) < 2 ^ 31)
    {first middle last : List (Service Sink Arg)} {x y : Service Sink Arg} {c c' : LogCall}
    (ran : served kind shown logger (returned kind shown logger actions) = first ++ x :: (middle ++ y :: last))
    (line : LineOf x c) (line' : LineOf y c') (named : c.thread_name ≠ none) (same : c.thread = c'.thread) :
    y.action.1 = x.action.1 ∧ ∀ z ∈ middle, Printing x.action.1 z.action := by
  obtain ⟨e, logLine, r, _, rfl⟩ := line
  obtain ⟨e', logLine', r', _, rfl⟩ := line'
  obtain ⟨name, shows⟩ := Option.ne_none_iff_exists'.mp named
  have shows' := (LogCall.thread_inj same).symm.trans shows
  have one := one_holder kind shown logger (returned kind shown logger actions) few (first ++ x :: middle) y last
    (by simpa using ran) first x middle rfl name shows shows'
  exact ⟨one.1, fun z member => one.2 z (List.mem_cons_of_mem _ member)⟩

def blankEntry : LogEntry Unit Unit := ⟨.LVL_INFO, [], 1, [], fun _ _ => ⟨⟨2013, 1, 1, 0, 0, 0⟩, 0⟩⟩

def blankSink : Unit → LogSink := fun _ => FileSink true .LVL_INFO []

/-- The second thread comes while the first one is busy, and goes in between its two lines. -/
def sayTwice : List (Monitor.Action (LoggerCall Unit Unit)) :=
  [.call 1 .registerThread, .call 2 .registerThread, .run 1, .run 2, .run 1, .run 1, .run 1,
    .call 1 (.print blankEntry)] ++ List.replicate 5 (.run 1) ++ List.replicate 4 (.run 2) ++
    .call 1 (.print blankEntry) :: List.replicate 5 (.run 1)

theorem one_thread_a_name_twice :
    ∃ first x middle y last, served blankSink (fun _ => []) ⟨[()], fun _ => []⟩
        (returned blankSink (fun _ => []) ⟨[()], fun _ => []⟩ sayTwice) = first ++ x :: (middle ++ y :: last) ∧
      middle.map Moment.action = [(2, .registerThread)] ∧ y.action.1 = x.action.1 := by
  have said : returned blankSink (fun _ : Unit => []) ⟨[()], fun _ => []⟩ sayTwice =
      [(1, .registerThread), (1, .print blankEntry), (2, .registerThread), (1, .print blankEntry)] := rfl
  have ran : served blankSink (fun _ : Unit => []) ⟨[()], fun _ => []⟩
      (returned blankSink (fun _ => []) ⟨[()], fun _ => []⟩ sayTwice) = [_] ++ _ :: ([_] ++ _ :: []) :=
    congrArg _ said
  let r : Reading := ⟨⟨2013, 1, 1, 0, 0, 0⟩, 0⟩
  exact ⟨_, _, _, _, _, ran, rfl, (one_thread_a_name blankSink (fun _ => []) _ sayTwice (by decide) ran
    ⟨blankEntry, [], r, rfl, rfl⟩ ⟨blankEntry, [], r, rfl, rfl⟩
    (Option.some_ne_none (ThreadName.registered 0)) rfl).1⟩

/-! ## Signals -/

/-- A signal whose handler logs is harmless unless its thread has the mutex at that time. Then the
handler waits for its own thread: nobody ever writes a line again. -/
theorem signals_while_logging (logger : Logger Sink) (actions : List (Monitor.Action (LoggerCall Sink Arg))) :
    ((∀ thread, ∃ more, (threads kind shown logger (actions ++ more)).frames thread = []) ↔
      ∀ first thread c rest, actions = first ++ .interrupt thread c :: rest →
        (threads kind shown logger first).owner ≠ some thread) ∧
    ∀ first thread c rest, actions = first ++ .interrupt thread c :: rest →
      (threads kind shown logger first).owner = some thread →
      (threads kind shown logger actions).shared.logger.received =
        (threads kind shown logger first).shared.logger.received := by
  let held : Nat → LoggerCall Sink Arg → Section Sink Unit := fun _ => body kind shown
  have exclusive := Monitor.exclusive_final held answer (new logger)
  have interrupted := Monitor.interrupted_iff held answer (new logger)
  constructor
  · have completes := Monitor.completes_iff held answer (exclusive actions)
    simp only [threads, final_append]
    rw [completes, interrupted]
    constructor
    · intro never first thread c rest split owner
      exact never ⟨first, thread, c, rest, split, owner⟩
    · rintro free ⟨first, thread, c, rest, split, owner⟩
      exact free first thread c rest split owner
  · rintro first thread c rest rfl owner
    have caught := (interrupted (first ++ [.interrupt thread c])).mpr ⟨first, thread, c, [], rfl, owner⟩
    have forever := Monitor.interrupted_forever held answer caught (exclusive _) rest
    rw [← final_append, List.append_assoc, List.singleton_append] at forever
    rw [forever.2.1, final_concat]
    rfl

end LogThreads
end SecureChat
