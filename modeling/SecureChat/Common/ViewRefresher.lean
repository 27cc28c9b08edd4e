import Mathlib.Data.Nat.Basic
import Mathlib.Order.Bounds.Defs
import SecureChat.Common.FileWatcher
import SecureChat.Library.Ledger
import SecureChat.Library.SortedMap

/-!
# ViewRefresher

The thread of the watcher and the main thread. For every notification the first one goes through a
copy of the map of the views and queues a call of `refreshView` for each of them; the main thread
executes the queued calls one after the other. Files can change in between. The map has no lock of
its own, so the views are those that were added before the watcher was started.

An engine keeps the components that it has loaded until its cache is cleared.
-/

namespace SecureChat.ViewRefresher
open Library

/-- What is used of a `QDeclarativeView` and of its engine, with what the view shows then. -/
structure QDeclarativeView (Url Component : Type) where
  Screen : Type
  clearComponentCache : Screen → Screen
  setSource : (Url → Component) → Url → Screen → Screen
  showView : Screen → Screen
  source : Screen → Option (Url × Component)
  visible : Screen → Bool

/-- With an empty cache the component is loaded from its file, and a view that is shown keeps its
source. -/
structure DocumentedView {Url Component : Type} (qt : QDeclarativeView Url Component) : Prop where
  loads : ∀ disk url screen,
    qt.source (qt.setSource disk url (qt.clearComponentCache screen)) = some (url, disk url)
  keeps : ∀ screen, qt.source (qt.showView screen) = qt.source screen
  shows : ∀ screen, qt.visible (qt.showView screen) = true

inductive ViewCall (View Url : Type) where
  | clearComponentCache (view : View)
  | setSource (view : View) (url : Url)
  | showView (view : View)

section
variable {View Url Component : Type} [DecidableEq View] (qt : QDeclarativeView Url Component)

def ViewCall.execute (disk : Url → Component) (screens : View → qt.Screen) : ViewCall View Url → View → qt.Screen
  | .clearComponentCache view => Function.update screens view (qt.clearComponentCache (screens view))
  | .setSource view url => Function.update screens view (qt.setSource disk url (screens view))
  | .showView view => Function.update screens view (qt.showView (screens view))

def refreshView (view : View) (url : Url) : List (ViewCall View Url) :=
  [.clearComponentCache view, .setSource view url, .showView view]

end

/-! ## The map of the views -/

section
variable {View Layout : Type} [LinearOrder Layout]

def addWatch (views : SortedMap Layout View) : View × Layout → SortedMap Layout View
  | (view, layout) => views.insert layout view

/-- The map after these calls of `addWatch`. -/
def watched (added : List (View × Layout)) : SortedMap Layout View :=
  added.foldl addWatch .empty

/-- The view that was last added for each layout. -/
def lastAdded (added : List (View × Layout)) : Layout → Option View :=
  Ledger.replay (added.map fun (view, layout) => .put layout view)

theorem mem_watched (added : List (View × Layout)) (layout : Layout) (view : View) :
    (layout, view) ∈ (watched added).entries ↔ lastAdded added layout = some view := by
  induction added using List.reverseRecOn with
  | nil => simp [watched, SortedMap.empty, lastAdded]
  | append_singleton added last ih =>
      rw [watched, List.foldl_append, List.foldl_cons, List.foldl_nil, ← watched, addWatch, SortedMap.mem_insert,
        lastAdded, List.map_append, List.map_singleton, Ledger.replay_put]
      by_cases here : layout = last.2
      · simp [here, eq_comm]
      · rw [if_neg here, if_neg here]
        exact ih

end

/-- The map `views`, the notifications to come, the rest of the loop in `fileChanged`, the queued
calls of `refreshView` and the rest of the one that is executed. -/
structure Refresher (View Url Component Layout Screen : Type) [LinearOrder Layout] where
  disk : Url → Component
  views : SortedMap Layout View
  events : List InotifyEvent
  posting : List (View × Url)
  queue : List (View × Url)
  running : List (ViewCall View Url)
  screens : View → Screen

inductive Action (Url Component : Type) where
  | change (disk : Url → Component) (event : InotifyEvent)
  | watcher
  | main

namespace Refresher
variable {View Url Component Layout : Type} [LinearOrder Layout]

def start {Screen : Type} (disk : Url → Component) (added : List (View × Layout)) (screens : View → Screen) :
    Refresher View Url Component Layout Screen :=
  ⟨disk, watched added, [], [], [], [], screens⟩

variable [DecidableEq View] (qt : QDeclarativeView Url Component) (url : Layout → Url)

/-- The calls that `fileChanged` queues, in the order of the layouts. -/
def refreshes (views : SortedMap Layout View) : List (View × Url) :=
  views.entries.map fun (layout, view) => (view, url layout)

/-- A step, and whether a call of `fileChanged` begins with it. A file changes only with an event
that is notified of. -/
def act : Action Url Component → Refresher View Url Component Layout qt.Screen →
    Bool × Refresher View Url Component Layout qt.Screen
  | .change disk event, r =>
      (false, { r with
        disk := if event.notification.isSome then disk else r.disk
        events := r.events ++ [event] })
  | .watcher, r =>
      match r.posting, r.events with
      | job :: rest, _ => (false, { r with posting := rest, queue := r.queue ++ [job] })
      | [], event :: rest =>
          match event.notification with
          | some _ => (true, { r with events := rest, posting := refreshes url r.views })
          | none => (false, { r with events := rest })
      | [], [] => (false, r)
  | .main, r =>
      match r.running, r.queue with
      | call :: rest, _ => (false, { r with running := rest, screens := call.execute qt r.disk r.screens })
      | [], (view, url) :: rest => (false, { r with queue := rest, running := refreshView view url })
      | [], [] => (false, r)

/-! ## What is still to be done -/

def jobs : List (View × Url) → List (ViewCall View Url) :=
  List.flatMap fun (view, url) => refreshView view url

variable (r : Refresher View Url Component Layout qt.Screen)

/-- The screens when everything that is queued has been done with the files as they are. -/
def settled : View → qt.Screen :=
  (r.running ++ jobs (r.queue ++ r.posting)).foldl (ViewCall.execute qt r.disk) r.screens

structure Quiet {Screen : Type} (r : Refresher View Url Component Layout Screen) : Prop where
  events : r.events = []
  posting : r.posting = []
  queue : r.queue = []
  running : r.running = []

/-- The steps that the two threads have still to take. -/
def work {Screen : Type} (r : Refresher View Url Component Layout Screen) : Nat :=
  (5 * r.views.entries.length + 1) * r.events.length + 5 * r.posting.length + 4 * r.queue.length + r.running.length

variable {qt r}

omit [DecidableEq View] in
theorem quiet_iff : r.Quiet ↔ r.work = 0 := by
  constructor
  · intro quiet
    simp [work, quiet.events, quiet.posting, quiet.queue, quiet.running]
  · intro none
    simp only [work, Nat.add_eq_zero_iff, Nat.mul_eq_zero, List.length_eq_zero_iff] at none
    obtain ⟨⟨⟨events, posting⟩, queue⟩, running⟩ := none
    exact ⟨by simpa using events, by simpa using posting, by simpa using queue, running⟩

theorem settled_of_quiet (quiet : r.Quiet) : settled qt r = r.screens := by
  rw [settled, quiet.running, quiet.queue, quiet.posting]
  rfl

def Turn (a : Action Url Component) : Prop := a = .watcher ∨ a = .main

theorem work_watcher (todo : r.posting ≠ [] ∨ r.events ≠ []) : (act qt url .watcher r).2.work < r.work := by
  obtain ⟨disk, views, events, posting, queue, running, screens⟩ := r
  rcases posting with _ | ⟨job, rest⟩
  · rcases events with _ | ⟨event, rest⟩
    · simp at todo
    · simp only [act]
      cases event.notification with
      | none =>
          simp only [work, List.length_cons]
          grind
      | some n =>
          simp only [work, refreshes, List.length_cons, List.length_map, List.length_nil]
          grind
  · simp only [act, work, List.length_append, List.length_cons, List.length_nil]
    grind

theorem work_main (todo : r.running ≠ [] ∨ r.queue ≠ []) : (act qt url .main r).2.work < r.work := by
  obtain ⟨disk, views, events, posting, queue, running, screens⟩ := r
  rcases running with _ | ⟨call, rest⟩
  · rcases queue with _ | ⟨⟨view, url⟩, rest⟩
    · simp at todo
    · simp only [act, work, refreshView, List.length_cons, List.length_nil]
      grind
  · simp only [act, work, List.length_cons]
    grind

theorem work_step (a : Action Url Component) (r : Refresher View Url Component Layout qt.Screen) (turn : Turn a) :
    (act qt url a r).2 = r ∨ (act qt url a r).2.work < r.work := by
  rcases turn with rfl | rfl
  · by_cases todo : r.posting ≠ [] ∨ r.events ≠ []
    · exact .inr (work_watcher url todo)
    · rw [not_or, not_not, not_not] at todo
      exact .inl (by simp only [act, todo.1, todo.2])
  · by_cases todo : r.running ≠ [] ∨ r.queue ≠ []
    · exact .inr (work_main url todo)
    · rw [not_or, not_not, not_not] at todo
      exact .inl (by simp only [act, todo.1, todo.2])

theorem work_somebody (r : Refresher View Url Component Layout qt.Screen) (some : 0 < r.work) :
    ∃ a, Turn a ∧ (act qt url a r).2.work < r.work := by
  by_cases watcher : r.posting ≠ [] ∨ r.events ≠ []
  · exact ⟨.watcher, .inl rfl, work_watcher url watcher⟩
  · by_cases main : r.running ≠ [] ∨ r.queue ≠ []
    · exact ⟨.main, .inr rfl, work_main url main⟩
    · rw [not_or, not_not, not_not] at watcher main
      have quiet : r.Quiet := ⟨watcher.2, watcher.1, main.2, main.1⟩
      exact absurd (quiet_iff.mp quiet) (Nat.ne_of_gt some)

theorem turn_disk {a : Action Url Component} (turn : Turn a) (r : Refresher View Url Component Layout qt.Screen) :
    (act qt url a r).2.disk = r.disk := by
  rcases turn with rfl | rfl <;> simp only [act] <;> split <;> first | rfl | (split <;> rfl)

theorem turns_disk (turns : List (Action Url Component)) (all : ∀ a ∈ turns, Turn a)
    (r : Refresher View Url Component Layout qt.Screen) : (final (act qt url) r turns).disk = r.disk := by
  induction turns generalizing r with
  | nil => rfl
  | cons a rest ih =>
      obtain ⟨first, later⟩ := List.forall_mem_cons.mp all
      exact (ih later _).trans (turn_disk url first r)

theorem act_views (a : Action Url Component) (r : Refresher View Url Component Layout qt.Screen) :
    (act qt url a r).2.views = r.views := by
  cases a with
  | change disk event => rfl
  | watcher =>
      simp only [act]
      split <;> first | rfl | (split <;> rfl)
  | main =>
      simp only [act]
      split <;> rfl

/-! ## Refreshing -/

variable (qt) in
def Shows (screens : View → qt.Screen) (disk : Url → Component) (view : View) (url : Url) : Prop :=
  qt.source (screens view) = some (url, disk url) ∧ qt.visible (screens view) = true

theorem refreshView_other (disk : Url → Component) (screens : View → qt.Screen) {view other : View}
    (apart : other ≠ view) (url : Url) :
    (refreshView view url).foldl (ViewCall.execute qt disk) screens other = screens other := by
  simp [refreshView, ViewCall.execute, apart]

theorem refreshView_shows (documented : DocumentedView qt) (disk : Url → Component) (screens : View → qt.Screen)
    (view : View) (url : Url) : Shows qt ((refreshView view url).foldl (ViewCall.execute qt disk) screens) disk view url := by
  simp [Shows, refreshView, ViewCall.execute, documented.keeps, documented.loads, documented.shows]

theorem jobs_other (disk : Url → Component) (queued : List (View × Url)) {view : View}
    (others : ∀ job ∈ queued, job.1 ≠ view) (screens : View → qt.Screen) :
    (jobs queued).foldl (ViewCall.execute qt disk) screens view = screens view := by
  induction queued generalizing screens with
  | nil => rfl
  | cons job rest ih =>
      obtain ⟨first, later⟩ := List.forall_mem_cons.mp others
      rw [jobs, List.flatMap_cons, List.foldl_append]
      exact (ih later _).trans (refreshView_other disk screens (Ne.symm first) job.2)

/-- The last job of a view decides what it shows. -/
theorem jobs_show (documented : DocumentedView qt) (disk : Url → Component) (first rest : List (View × Url))
    (view : View) (url : Url) (last : ∀ job ∈ rest, job.1 ≠ view) (screens : View → qt.Screen) :
    Shows qt ((jobs (first ++ (view, url) :: rest)).foldl (ViewCall.execute qt disk) screens) disk view url := by
  have split : jobs (first ++ (view, url) :: rest) = jobs first ++ (refreshView view url ++ jobs rest) := by
    simp [jobs]
  have shows := refreshView_shows documented disk ((jobs first).foldl (ViewCall.execute qt disk) screens) view url
  rw [split, List.foldl_append, List.foldl_append]
  unfold Shows at shows ⊢
  rw [jobs_other disk rest last]
  exact shows

omit [DecidableEq View] in
/-- Of the layouts of a view the greatest one is refreshed last. -/
theorem refreshes_last (views : SortedMap Layout View) {view : View} {layout : Layout}
    (member : (layout, view) ∈ views.entries) (greatest : ∀ other, (other, view) ∈ views.entries → other ≤ layout) :
    ∃ first rest, refreshes url views = first ++ (view, url layout) :: rest ∧ ∀ job ∈ rest, job.1 ≠ view := by
  obtain ⟨first, rest, split⟩ := List.append_of_mem member
  refine ⟨first.map _, rest.map _, by rw [refreshes, split, List.map_append, List.map_cons], fun job found => ?_⟩
  obtain ⟨⟨other, view'⟩, later, rfl⟩ := List.mem_map.mp found
  have sorted := views.sorted
  rw [split, Sorted, List.pairwise_append] at sorted
  have above : layout < other := (List.pairwise_cons.mp sorted.2.1).1 (other, view') later
  rintro rfl
  exact absurd (greatest other (by simp [split, later])) (not_le.mpr above)

/-! ## Runs -/

/-- The greatest layout that the view was added for. -/
def LastLayout (added : List (View × Layout)) (view : View) (layout : Layout) : Prop :=
  IsGreatest {layout | lastAdded added layout = some view} layout

variable (qt) in
/-- Once `fileChanged` has been called, what is queued shows the files as they are, unless another
call is to come. -/
def Settling (added : List (View × Layout))
    (h : List (Moment (Refresher View Url Component Layout qt.Screen) (Action Url Component) Bool))
    (r : Refresher View Url Component Layout qt.Screen) : Prop :=
  (∃ m ∈ h, m.output = true) → (∀ event ∈ r.events, event.notification = none) →
    ∀ view layout, LastLayout added view layout → Shows qt (settled qt r) r.disk view (url layout)

section
variable {url}

theorem settled_step {a : Action Url Component} {r : Refresher View Url Component Layout qt.Screen}
    (silent : (act qt url a r).1 = false)
    (told : ∀ event ∈ (act qt url a r).2.events, event.notification = none) :
    settled qt (act qt url a r).2 = settled qt r ∧ (act qt url a r).2.disk = r.disk ∧
      ∀ event ∈ r.events, event.notification = none := by
  obtain ⟨disk, views, events, posting, queue, running, screens⟩ := r
  cases a with
  | change disk' event =>
      obtain ⟨earlier, last⟩ := forall_mem_concat.mp told
      refine ⟨?_, ?_, earlier⟩ <;> simp [act, settled, last]
  | watcher =>
      rcases posting with _ | ⟨job, rest⟩
      · rcases events with _ | ⟨event, rest⟩
        · exact ⟨rfl, rfl, told⟩
        · cases noted : event.notification with
          | none =>
              simp only [act, noted] at told ⊢
              exact ⟨rfl, trivial, List.forall_mem_cons.mpr ⟨noted, told⟩⟩
          | some n => simp [act, noted] at silent
      · refine ⟨?_, rfl, told⟩
        simp [act, settled]
  | main =>
      rcases running with _ | ⟨call, rest⟩
      · rcases queue with _ | ⟨⟨view, url⟩, rest⟩
        · exact ⟨rfl, rfl, told⟩
        · refine ⟨?_, rfl, told⟩
          simp [act, settled, jobs]
      · exact ⟨rfl, rfl, told⟩

theorem settled_begins {a : Action Url Component} {r : Refresher View Url Component Layout qt.Screen}
    (begins : (act qt url a r).1 = true) : (act qt url a r).2.disk = r.disk ∧ ∃ screens,
      settled qt (act qt url a r).2 = (jobs (refreshes url r.views)).foldl (ViewCall.execute qt r.disk) screens := by
  obtain ⟨disk, views, events, posting, queue, running, screens⟩ := r
  cases a with
  | change disk' event => contradiction
  | watcher =>
      rcases posting with _ | ⟨job, rest⟩
      · rcases events with _ | ⟨event, rest⟩
        · contradiction
        · cases noted : event.notification with
          | none => simp [act, noted] at begins
          | some n =>
              simp only [act, noted, settled]
              refine ⟨trivial, (running ++ jobs queue).foldl (ViewCall.execute qt disk) screens, ?_⟩
              rw [jobs, List.flatMap_append, ← List.append_assoc, List.foldl_append]
      · contradiction
  | main =>
      rcases running with _ | ⟨call, rest⟩
      · rcases queue with _ | ⟨⟨view, url⟩, rest⟩ <;> contradiction
      · contradiction

end

theorem settling (documented : DocumentedView qt) (disk : Url → Component) (added : List (View × Layout))
    (screens : View → qt.Screen) (actions : List (Action Url Component)) :
    Settling qt url added (history (act qt url) (start disk added screens) actions)
      (final (act qt url) (start disk added screens) actions) := by
  refine (history_rule (act qt url) (fun h r => r.views = watched added ∧ Settling qt url added h r)
    ⟨rfl, by simp [Settling]⟩ (fun past r a earlier => ?_) actions).2
  obtain ⟨views, now⟩ := earlier
  refine ⟨(act_views url a r).trans views, fun called told view layout last => ?_⟩
  cases begins : (act qt url a r).1 with
  | true =>
      obtain ⟨same, screens, later⟩ := settled_begins begins
      obtain ⟨first, rest, split, others⟩ := refreshes_last url (watched added) ((mem_watched added layout view).mpr last.1)
        fun other member => last.2 ((mem_watched added other view).mp member)
      rw [later, same, views, split]
      exact jobs_show documented _ first rest view _ others screens
  | false =>
      obtain ⟨settled, same, told⟩ := settled_step begins told
      have before : ∃ m ∈ past, m.output = true := by
        obtain ⟨m, member, output⟩ := called
        rcases List.mem_append.mp member with earlier | now
        · exact ⟨m, earlier, output⟩
        · rw [List.mem_singleton.mp now] at output
          exact absurd (begins.symm.trans output) (by decide)
      rw [settled, same]
      exact now before told view layout last

/-- A view with the cache of its engine: setting the source again shows what is in the cache. -/
structure CachedView where
  cache : Nat → Option Nat
  source : Option (Nat × Nat)
  visible : Bool

def caching : QDeclarativeView Nat Nat where
  Screen := CachedView
  clearComponentCache screen := { screen with cache := fun _ => none }
  setSource disk url screen :=
    let component := (screen.cache url).getD (disk url)
    { screen with cache := Function.update screen.cache url (some component), source := some (url, component) }
  showView screen := { screen with visible := true }
  source := CachedView.source
  visible := CachedView.visible

theorem caching_documented : DocumentedView caching := ⟨fun _ _ _ => rfl, fun _ => rfl, fun _ => rfl⟩

/-- The file of the layout 2 changes twice, the second time while it is being refreshed. -/
def twoChanges : List (Action Nat Nat) :=
  let modified : InotifyEvent := ⟨IN_MODIFY, 16, lit "main.qml", by decide⟩
  [.change (fun _ => 20) modified, .watcher, .watcher, .watcher, .main, .main, .main, .change (fun _ => 30) modified]

def twoViews : List (Nat × Nat) := [(0, 1), (0, 2), (7, 3)]

/-- Both views still show what their engines have in their caches. -/
def cached : Nat → CachedView := fun _ => ⟨fun _ => some 10, none, false⟩

def rounds : List (List (Action Nat Nat)) := List.replicate 26 [.main, .watcher]

example : let after := final (act caching id) (start (fun _ => 10) twoViews cached) (twoChanges ++ rounds.flatten)
    (after.screens 0).source = some (2, 30) ∧ (after.screens 7).source = some (3, 30) := by
  decide +kernel

end Refresher
end SecureChat.ViewRefresher
