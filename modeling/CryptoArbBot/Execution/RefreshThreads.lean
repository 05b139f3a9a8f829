import CryptoArbBot.Library.Runs
import CryptoArbBot.Library.StdThread
import Mathlib.Data.List.Count

/-!
# The refresh threads (strategy/fee_manager.cpp, execution/inventory_tracker.cpp)

The fee manager and the inventory tracker each have a thread that refreshes at
intervals; one thread of the program starts it, stops it and destroys the object. Each
access to the flag, each test of the thread object, each join and assignment is one
step. A step of a thread that is blocked changes nothing.
-/

namespace CryptoArbBot

namespace RefreshThread

inductive Place where
  -- the condition of the loop
  | loop
  -- the condition of the inner loop, then a short sleep
  | sleep
  -- the test of the fee manager after the sleep
  | woken
  -- the flag was set; the call of the refresh comes next
  | checked
  | refresh
deriving DecidableEq

/-- `last` marks the call of `stop` in the destructor. -/
inductive OwnerPlace where
  | idle
  -- `start_periodic_refresh` or `start_monitoring`
  | store
  | firstRefresh
  | assign
  -- `stop`
  | test (last : Bool)
  | join (last : Bool)
  -- the members are destroyed
  | destroy
  | destroyed
deriving DecidableEq

inductive Request where
  | start
  | stop
  | destroy
deriving DecidableEq

end RefreshThread

/-- `begun` counts the refreshes of the thread; `terminated` stands for `std::terminate`. -/
structure RefreshThread where
  running : Bool := false
  thread : Thread RefreshThread.Place := .none
  owner : RefreshThread.OwnerPlace := .idle
  begun : ℕ := 0
  terminated : Bool := false

namespace RefreshThread

def threadAt (w : RefreshThread) (place : Place) : RefreshThread := { w with thread := .running place }

def ownerAt (w : RefreshThread) (place : OwnerPlace) : RefreshThread := { w with owner := place }

def beginRefresh (w : RefreshThread) : RefreshThread :=
  { w with begun := w.begun + 1 }.threadAt .refresh

/-! ### The two threads -/

/-- `due` tells whether the interval is over. -/
def feeManagerStep (w : RefreshThread) (due : Bool) : RefreshThread :=
  match w.thread with
  | .none | .finished => w
  | .running .loop => if w.running then w.threadAt .sleep else { w with thread := .finished }
  | .running .sleep => if w.running && !due then w else w.threadAt .woken
  | .running .woken => w.threadAt (if w.running then .checked else .loop)
  | .running .checked => w.beginRefresh
  | .running .refresh => w.threadAt .loop

def inventoryTrackerStep (w : RefreshThread) (due : Bool) : RefreshThread :=
  match w.thread with
  | .none | .finished => w
  | .running .loop => if w.running then w.threadAt .checked else { w with thread := .finished }
  | .running .checked => w.beginRefresh
  | .running .refresh => w.threadAt .sleep
  | .running .sleep => if w.running && !due then w else w.threadAt .loop
  -- no place of this thread
  | .running .woken => w.threadAt .loop

/-! ### Their owner -/

/-- `running_.exchange(true)`, and the first refresh before the thread. -/
def startPeriodicRefresh (w : RefreshThread) : RefreshThread :=
  if w.running then w else { w with running := true }.ownerAt .firstRefresh

/-- The flag is loaded here and stored in the next step. -/
def startMonitoring (w : RefreshThread) : RefreshThread :=
  if w.running then w else w.ownerAt .store

def returned (w : RefreshThread) (last : Bool) : RefreshThread :=
  w.ownerAt (if last then .destroy else .idle)

def stop (w : RefreshThread) (last : Bool) : RefreshThread :=
  if w.running then { w with running := false }.ownerAt (.test last) else w.returned last

def ownerStep (w : RefreshThread) : RefreshThread :=
  match w.owner with
  | .idle | .destroyed => w
  | .store => { w with running := true }.ownerAt .assign
  | .firstRefresh => w.ownerAt .assign
  | .assign =>
    w.thread.assign { w with terminated := true } ((w.threadAt .loop).ownerAt .idle)
  | .test last => if w.thread.joinable then w.ownerAt (.join last) else w.returned last
  | .join last =>
    w.thread.join { w with terminated := true } w ({ w with thread := .none }.returned last)
  | .destroy => if w.thread.joinable then { w with terminated := true } else w.ownerAt .destroyed

/-! ### The system -/

inductive Refresher where
  | feeManager
  | inventoryTracker
deriving DecidableEq

def Refresher.start : Refresher → RefreshThread → RefreshThread
  | .feeManager => startPeriodicRefresh
  | .inventoryTracker => startMonitoring

def Refresher.threadStep : Refresher → RefreshThread → Bool → RefreshThread
  | .feeManager => feeManagerStep
  | .inventoryTracker => inventoryTrackerStep

inductive Event where
  | call (request : Request)
  | owner
  | thread (due : Bool)
deriving DecidableEq

def call (kind : Refresher) (w : RefreshThread) (request : Request) : RefreshThread :=
  if w.owner = .idle then
    match request with
    | .start => kind.start w
    | .stop => w.stop false
    | .destroy => w.stop true
  else w

def step (kind : Refresher) (w : RefreshThread) (event : Event) : RefreshThread :=
  if w.terminated then w
  else
    match event with
    | .call request => call kind w request
    | .owner => w.ownerStep
    | .thread due => kind.threadStep w due

/-! ### The flag and the thread -/

/-- What the owner finds at each of its places. -/
def Agrees (w : RefreshThread) : Prop :=
  match w.owner with
  | .idle => (w.running = true ∧ ∃ place, w.thread = .running place) ∨
      (w.running = false ∧ w.thread = .none)
  | .store => w.running = false ∧ w.thread = .none
  | .firstRefresh | .assign => w.running = true ∧ w.thread = .none
  | .test _ | .join _ => w.running = false ∧ w.thread ≠ .none
  | .destroy | .destroyed => w.running = false ∧ w.thread = .none

structure Sound (w : RefreshThread) : Prop where
  agrees : w.Agrees
  alive : w.terminated = false

/-- A refresh whose check of the flag is done. -/
def due (w : RefreshThread) : ℕ :=
  match w.thread with
  | .running .checked => 1
  | .none | .finished | .running .loop | .running .sleep | .running .woken | .running .refresh => 0

/-- What a step of the thread may change. Only while the flag is set does it check for
another refresh, and only then does it not end. -/
structure Moved (w w' : RefreshThread) : Prop where
  running : w'.running = w.running
  owner : w'.owner = w.owner
  terminated : w'.terminated = w.terminated
  none_iff : w'.thread = .none ↔ w.thread = .none
  lives : w.running = true → (∃ place, w.thread = .running place) →
    ∃ place, w'.thread = .running place
  begun : w.running = false → w'.begun + w'.due = w.begun + w.due

section Moves
variable {w w' : RefreshThread}

theorem Moved.refl (w : RefreshThread) : Moved w w :=
  ⟨rfl, rfl, rfl, Iff.rfl, fun _ h => h, fun _ => rfl⟩

theorem due_of_place {place : Place} (hthread : w.thread = .running place) (hplace : place ≠ .checked) :
    w.due = 0 := by
  unfold due
  rw [hthread]
  cases place with
  | checked => exact absurd rfl hplace
  | loop | sleep | woken | refresh => rfl

variable {place : Place} (hthread : w.thread = .running place)
include hthread

theorem moved_threadAt (hplace : place ≠ .checked) {next : Place}
    (hnext : next = .checked → w.running = true) : Moved w (w.threadAt next) := by
  refine ⟨rfl, rfl, rfl, iff_of_false nofun ?_, fun _ _ => ⟨next, rfl⟩, fun hclear => ?_⟩
  · rw [hthread]
    nofun
  · have hother : next ≠ .checked := by
      intro hchecked
      rw [hclear] at hnext
      cases hnext hchecked
    rw [due_of_place hthread hplace, due_of_place (w := w.threadAt next) rfl hother]
    rfl

theorem moved_beginRefresh (hplace : place = .checked) : Moved w w.beginRefresh := by
  refine ⟨rfl, rfl, rfl, iff_of_false nofun ?_, fun _ _ => ⟨.refresh, rfl⟩, fun _ => ?_⟩
  · rw [hthread]
    nofun
  · have hdue : w.due = 1 := by
      rw [due, hthread, hplace]
    rw [hdue]
    rfl

theorem moved_finished (hplace : place ≠ .checked) (hrunning : ¬ w.running = true) :
    Moved w { w with thread := .finished } := by
  refine ⟨rfl, rfl, rfl, iff_of_false nofun ?_, fun hset => absurd hset hrunning, fun _ => ?_⟩
  · rw [hthread]
    nofun
  · rw [due_of_place hthread hplace]
    rfl

end Moves

theorem threadStep_moved (kind : Refresher) (w : RefreshThread) (due : Bool) :
    Moved w (kind.threadStep w due) := by
  cases kind with
  | feeManager =>
    unfold Refresher.threadStep feeManagerStep
    dsimp only
    split
    · exact .refl w
    · exact .refl w
    next hthread =>
      split
      · exact moved_threadAt hthread nofun nofun
      next hrunning => exact moved_finished hthread nofun hrunning
    next hthread =>
      split
      · exact .refl w
      · exact moved_threadAt hthread nofun nofun
    next hthread =>
      refine moved_threadAt hthread nofun ?_
      split
      next hrunning => exact fun _ => hrunning
      next => nofun
    next hthread => exact moved_beginRefresh hthread rfl
    next hthread => exact moved_threadAt hthread nofun nofun
  | inventoryTracker =>
    unfold Refresher.threadStep inventoryTrackerStep
    dsimp only
    split
    · exact .refl w
    · exact .refl w
    next hthread =>
      split
      next hrunning => exact moved_threadAt hthread nofun fun _ => hrunning
      next hrunning => exact moved_finished hthread nofun hrunning
    next hthread => exact moved_beginRefresh hthread rfl
    next hthread => exact moved_threadAt hthread nofun nofun
    next hthread =>
      split
      · exact .refl w
      · exact moved_threadAt hthread nofun nofun
    next hthread => exact moved_threadAt hthread nofun nofun

theorem Moved.agrees {w w' : RefreshThread} (h : Moved w w') (hw : w.Agrees) : w'.Agrees := by
  unfold Agrees at hw ⊢
  rw [h.owner]
  have hnone : w.running = false ∧ w.thread = .none → w'.running = false ∧ w'.thread = .none :=
    fun hold => ⟨h.running.trans hold.1, h.none_iff.mpr hold.2⟩
  cases howner : w.owner with
  | idle =>
    rw [howner] at hw
    rcases hw with ⟨hrunning, hplace⟩ | hclear
    · exact .inl ⟨h.running.trans hrunning, h.lives hrunning hplace⟩
    · exact .inr (hnone hclear)
  | test last | join last =>
    rw [howner] at hw
    exact ⟨h.running.trans hw.1, fun hgone => hw.2 (h.none_iff.mp hgone)⟩
  | firstRefresh | assign =>
    rw [howner] at hw
    exact ⟨h.running.trans hw.1, h.none_iff.mpr hw.2⟩
  | store | destroy | destroyed =>
    rw [howner] at hw
    exact hnone hw

variable {kind : Refresher} {w : RefreshThread}

theorem agrees_returned (hrunning : w.running = false) (hthread : w.thread = .none) (last : Bool) :
    (w.returned last).Agrees := by
  cases last with
  | true => exact ⟨hrunning, hthread⟩
  | false => exact .inr ⟨hrunning, hthread⟩

theorem Sound.call (h : Sound w) (request : Request) : Sound (call kind w request) := by
  unfold RefreshThread.call
  split
  next hidle =>
    have hagrees := h.agrees
    unfold Agrees at hagrees
    rw [hidle] at hagrees
    have hstop : ∀ last, Sound (w.stop last) := by
      intro last
      unfold RefreshThread.stop
      split
      next hrunning =>
        rcases hagrees with ⟨_, place, hplace⟩ | ⟨hclear, _⟩
        · exact ⟨⟨rfl, by rw [hplace]; nofun⟩, h.alive⟩
        · rw [hclear] at hrunning
          cases hrunning
      next hrunning =>
        rcases hagrees with ⟨hset, _⟩ | ⟨hclear, hnone⟩
        · exact absurd hset hrunning
        · exact ⟨agrees_returned hclear hnone last, h.alive⟩
    have hstart : Sound (kind.start w) := by
      rcases hagrees with ⟨hset, hplace⟩ | ⟨hclear, hnone⟩
      · have hsame : kind.start w = w := by
          cases kind with
          | feeManager => exact if_pos hset
          | inventoryTracker => exact if_pos hset
        rw [hsame]
        exact h
      · have hunset : ¬ w.running = true := by
          rw [hclear]
          exact Bool.false_ne_true
        cases kind with
        | feeManager =>
          unfold Refresher.start startPeriodicRefresh
          dsimp only
          rw [if_neg hunset]
          exact ⟨⟨rfl, hnone⟩, h.alive⟩
        | inventoryTracker =>
          unfold Refresher.start startMonitoring
          dsimp only
          rw [if_neg hunset]
          exact ⟨⟨hclear, hnone⟩, h.alive⟩
    cases request with
    | start => exact hstart
    | stop => exact hstop false
    | destroy => exact hstop true
  next => exact h

theorem Sound.ownerStep (h : Sound w) : Sound w.ownerStep := by
  have hagrees := h.agrees
  unfold Agrees at hagrees
  unfold RefreshThread.ownerStep
  cases howner : w.owner with
  | idle | destroyed => exact h
  | store =>
    rw [howner] at hagrees
    exact ⟨⟨rfl, hagrees.2⟩, h.alive⟩
  | firstRefresh =>
    rw [howner] at hagrees
    exact ⟨hagrees, h.alive⟩
  | assign =>
    rw [howner] at hagrees
    dsimp only
    refine Thread.assign_rule (fun hthread => absurd hagrees.2 hthread) fun _ => ?_
    exact ⟨.inl ⟨hagrees.1, .loop, rfl⟩, h.alive⟩
  | test last =>
    rw [howner] at hagrees
    dsimp only
    rw [if_pos (Thread.joinable_iff.mpr hagrees.2)]
    exact ⟨hagrees, h.alive⟩
  | join last =>
    rw [howner] at hagrees
    dsimp only
    refine Thread.join_rule (fun hthread => absurd hthread hagrees.2) h fun _ => ?_
    exact ⟨@agrees_returned { w with thread := .none, owner := .join last } hagrees.1 rfl last, h.alive⟩
  | destroy =>
    rw [howner] at hagrees
    dsimp only
    rw [if_neg (Thread.not_joinable_iff.mpr hagrees.2)]
    exact ⟨hagrees, h.alive⟩

theorem Sound.step (h : Sound w) (event : Event) : Sound (step kind w event) := by
  unfold RefreshThread.step
  rw [h.alive, if_neg Bool.false_ne_true]
  cases event with
  | call request => exact h.call request
  | owner => exact h.ownerStep
  | thread due =>
    have hmoved := threadStep_moved kind w due
    exact ⟨hmoved.agrees h.agrees, hmoved.terminated.trans h.alive⟩

theorem sound_run (events : List Event) : Sound (Runs.run (RefreshThread.step kind) {} events) :=
  Runs.invariant_run (fun _ event h => h.step event) events ⟨.inr ⟨rfl, rfl⟩, rfl⟩

/-! ### After the flag is cleared -/

/-- The steps that the thread still takes from a place once the flag is clear. -/
def Refresher.left : Refresher → Place → ℕ
  | _, .loop => 1
  | .feeManager, .woken | .feeManager, .refresh => 2
  | .feeManager, .sleep | .feeManager, .checked => 3
  | .inventoryTracker, .sleep | .inventoryTracker, .woken => 2
  | .inventoryTracker, .refresh => 3
  | .inventoryTracker, .checked => 4

def Refresher.stepsLeft (kind : Refresher) : Thread Place → ℕ
  | .running place => kind.left place
  | .none | .finished => 0

theorem stepsLeft_le (kind : Refresher) (thread : Thread Place) : kind.stepsLeft thread ≤ 4 := by
  cases thread with
  | none | finished => exact Nat.zero_le 4
  | running place => cases kind <;> cases place <;> decide

theorem stepsLeft_eq_zero {thread : Thread Place} (h : kind.stepsLeft thread = 0) (place : Place) :
    thread ≠ .running place := by
  rintro rfl
  cases kind <;> cases place <;> cases h

theorem stepsLeft_threadStep (hclear : w.running = false) (due : Bool) :
    kind.stepsLeft (kind.threadStep w due).thread = kind.stepsLeft w.thread - 1 := by
  cases kind with
  | feeManager =>
    simp only [Refresher.threadStep, feeManagerStep, hclear]
    cases hthread : w.thread with
    | none | finished => simp [Refresher.stepsLeft, hthread]
    | running place => cases place <;> rfl
  | inventoryTracker =>
    simp only [Refresher.threadStep, inventoryTrackerStep, hclear]
    cases hthread : w.thread with
    | none | finished => simp [Refresher.stepsLeft, hthread]
    | running place => cases place <;> rfl

def Event.isThread : Event → Bool
  | .thread _ => true
  | .call _ | .owner => false

/-- The flag is clear, no start is about to set it, and no more than `most` refreshes ever
begin and `n` steps of the thread are left. -/
structure Stopping (kind : Refresher) (most n : ℕ) (w : RefreshThread) : Prop where
  sound : Sound w
  clear : w.running = false
  noStart : w.owner ≠ .store
  begun : w.begun + w.due ≤ most
  left : kind.stepsLeft w.thread ≤ n

variable {most n : ℕ}

theorem returned_noStart (w : RefreshThread) (last : Bool) : (w.returned last).owner ≠ .store := by
  cases last with
  | true => nofun
  | false => nofun

/-- What the owner still does once the flag is clear. -/
theorem ownerStep_clear (h : Sound w) (hclear : w.running = false) (hnoStart : w.owner ≠ .store) :
    w.ownerStep.running = false ∧ w.ownerStep.owner ≠ .store ∧ w.ownerStep.begun = w.begun ∧
      (w.ownerStep.thread = w.thread ∨ w.ownerStep.thread = .none) := by
  have hagrees := h.agrees
  unfold Agrees at hagrees
  unfold ownerStep
  cases howner : w.owner with
  | idle | destroyed => exact ⟨hclear, hnoStart, rfl, .inl rfl⟩
  | store => exact absurd howner hnoStart
  | firstRefresh | assign =>
    rw [howner, hclear] at hagrees
    cases hagrees.1
  | test last =>
    dsimp only
    split
    · exact ⟨hclear, nofun, rfl, .inl rfl⟩
    · exact ⟨hclear, returned_noStart _ last, rfl, .inl rfl⟩
  | join last =>
    rw [howner] at hagrees
    dsimp only
    cases hthread : w.thread with
    | none => exact absurd hthread hagrees.2
    | running place => exact ⟨hclear, hnoStart, rfl, .inl hthread⟩
    | finished => exact ⟨hclear, returned_noStart _ last, rfl, .inr rfl⟩
  | destroy =>
    dsimp only
    split
    · exact ⟨hclear, nofun, rfl, .inl rfl⟩
    · exact ⟨hclear, nofun, rfl, .inl rfl⟩

theorem Stopping.owner (h : Stopping kind most n w) : Stopping kind most n w.ownerStep := by
  obtain ⟨hclear, hnoStart, hbegun, hthread⟩ := ownerStep_clear h.sound h.clear h.noStart
  have hmost := h.begun
  rcases hthread with hsame | hnone
  · refine ⟨h.sound.ownerStep, hclear, hnoStart, ?_, ?_⟩
    · rwa [hbegun, due, hsame, ← due]
    · rw [hsame]
      exact h.left
  · refine ⟨h.sound.ownerStep, hclear, hnoStart, ?_, ?_⟩
    · rw [hbegun, due, hnone]
      exact Nat.le_trans (Nat.le_add_right _ _) hmost
    · rw [hnone]
      exact Nat.zero_le n

theorem Stopping.thread (h : Stopping kind most n w) (due : Bool) :
    Stopping kind most (n - 1) (kind.threadStep w due) := by
  have hmoved := threadStep_moved kind w due
  refine ⟨⟨hmoved.agrees h.sound.agrees, hmoved.terminated.trans h.sound.alive⟩,
    hmoved.running.trans h.clear, ?_, Nat.le_trans (Nat.le_of_eq (hmoved.begun h.clear)) h.begun, ?_⟩
  · rw [hmoved.owner]
    exact h.noStart
  · rw [stepsLeft_threadStep h.clear due]
    exact Nat.sub_le_sub_right h.left 1

theorem Stopping.run {events : List Event} (hquiet : ∀ event ∈ events, ∀ request, event ≠ .call request)
    (h : Stopping kind most n w) :
    Stopping kind most (n - events.countP Event.isThread) (Runs.run (RefreshThread.step kind) w events) := by
  induction events generalizing w n with
  | nil => exact h
  | cons event events ih =>
    have hrest : ∀ event ∈ events, ∀ request, event ≠ .call request :=
      fun other hother => hquiet other (List.mem_cons_of_mem _ hother)
    have hstep : Stopping kind most (n - [event].countP Event.isThread)
        (RefreshThread.step kind w event) := by
      unfold RefreshThread.step
      rw [h.sound.alive, if_neg Bool.false_ne_true]
      cases event with
      | call request => exact absurd rfl (hquiet _ (List.mem_cons_self ..) request)
      | owner => exact h.owner
      | thread due => exact h.thread due
    have hcount : (event :: events).countP Event.isThread =
        [event].countP Event.isThread + events.countP Event.isThread :=
      @List.countP_append _ Event.isThread [event] events
    rw [hcount, ← Nat.sub_sub]
    exact ih hrest hstep

/-- With the thread at its end three steps of the owner finish the call. -/
theorem owner_returns (h : Stopping kind most 0 w) :
    let last := Runs.run (RefreshThread.step kind) w [.owner, .owner, .owner]
    (last.owner = .idle ∨ last.owner = .destroyed) ∧ last.thread = .none := by
  have hrun : Runs.run (RefreshThread.step kind) w [.owner, .owner, .owner] =
      w.ownerStep.ownerStep.ownerStep := by
    have hstep : ∀ {w : RefreshThread}, Stopping kind most 0 w →
        RefreshThread.step kind w .owner = w.ownerStep := by
      intro w hw
      unfold RefreshThread.step
      rw [hw.sound.alive, if_neg Bool.false_ne_true]
    rw [Runs.run_cons, hstep h, Runs.run_cons, hstep h.owner, Runs.run_cons, hstep h.owner.owner]
    rfl
  have hended := stepsLeft_eq_zero (Nat.le_zero.mp h.left)
  have hagrees := h.sound.agrees
  have hclear := h.clear
  have hnoStart := h.noStart
  intro last
  rw [show last = _ from hrun]
  obtain ⟨running, thread, owner, begun, terminated⟩ := w
  unfold Agrees at hagrees
  cases thread with
  | running place => exact absurd rfl (hended place)
  | none =>
    cases owner with
    | idle => exact ⟨.inl rfl, rfl⟩
    | store => exact absurd rfl hnoStart
    | firstRefresh | assign => cases hclear.symm.trans hagrees.1
    | test last | join last => exact absurd rfl hagrees.2
    | destroy | destroyed => exact ⟨.inr rfl, rfl⟩
  | finished =>
    cases owner with
    | idle =>
      rcases hagrees with ⟨_, _, hplace⟩ | ⟨_, hnone⟩
      · cases hplace
      · cases hnone
    | store => exact absurd rfl hnoStart
    | firstRefresh | assign => cases hclear.symm.trans hagrees.1
    | destroy | destroyed => cases hagrees.2
    | test ends | join ends =>
      cases ends with
      | true => exact ⟨.inr rfl, rfl⟩
      | false => exact ⟨.inl rfl, rfl⟩

/-- However the owner and the refresh thread interleave, no thread object is lost or
joined in vain, and where no call is under way the thread is there exactly while the flag
is set. Once `stop` has cleared the flag no refresh begins but one whose check came before,
and after four steps of the thread the call comes back without it. -/
theorem stop_waits (kind : Refresher) (before : List Event) :
    let w := Runs.run (RefreshThread.step kind) {} before
    w.terminated = false ∧ (w.owner = .idle → (w.running = true ↔ w.thread ≠ .none)) ∧
      (w.running = false → w.owner ≠ .store → ∀ after : List Event,
        (∀ event ∈ after, ∀ request, event ≠ .call request) →
        (Runs.run (RefreshThread.step kind) w after).begun ≤ w.begun + w.due ∧
          (4 ≤ after.countP Event.isThread →
            let last := Runs.run (RefreshThread.step kind) w (after ++ [.owner, .owner, .owner])
            (last.owner = .idle ∨ last.owner = .destroyed) ∧ last.thread = .none)) := by
  intro w
  have hsound : Sound w := sound_run before
  refine ⟨hsound.alive, ?_, ?_⟩
  · intro hidle
    have hagrees := hsound.agrees
    unfold Agrees at hagrees
    rw [hidle] at hagrees
    rcases hagrees with ⟨hrunning, place, hplace⟩ | ⟨hclear, hnone⟩
    · refine iff_of_true hrunning ?_
      rw [hplace]
      nofun
    · rw [hclear]
      exact iff_of_false Bool.false_ne_true fun hthread => hthread hnone
  · intro hclear hnoStart after hquiet
    have hstopping : Stopping kind (w.begun + w.due) 4 w :=
      ⟨hsound, hclear, hnoStart, Nat.le_refl _, stepsLeft_le kind w.thread⟩
    have hlater := hstopping.run hquiet
    refine ⟨Nat.le_trans (Nat.le_add_right _ _) hlater.begun, ?_⟩
    intro hfour last
    have hnone : 4 - after.countP Event.isThread = 0 := Nat.sub_eq_zero_of_le hfour
    rw [hnone] at hlater
    have hlast : last = Runs.run (RefreshThread.step kind)
        (Runs.run (RefreshThread.step kind) w after) [.owner, .owner, .owner] := Runs.run_append ..
    rw [hlast]
    exact owner_returns hlater

end RefreshThread

end CryptoArbBot
