import CryptoArbBot.Library.Runs
import Mathlib.Algebra.Group.Nat.Defs

/-!
# A sequence lock with do-while readers

Writers are serialised by a mutex: a call replaces the lock-protected data and
then issues a list of sequentially consistent writes, among them two increments
of the counter around the writes of the protected fields. A reader call loads
the counter, skips the loop body with `continue` when the value is odd, runs
the body field by field otherwise, and leaves the loop when a second load gives
the value of the first. `continue` jumps to that second load.

The counter is a 64-bit atomic; `count` is its unbounded value.
-/

namespace CryptoArbBot.Seqlock

inductive WriteOp (M : Type) where
  | increment
  | store (f : M → M)

/-- The loop body of a reader: reads of single fields, each choosing what is
done next. `undefined` is an access outside a local container. -/
inductive Body (M σ : Type) : Type 1 where
  | done (locals : σ)
  | undefined
  | read {β : Type} (field : M → β) (next : β → Body M σ)

structure Call (M σ ρ : Type) : Type 1 where
  init : σ
  body : σ → Body M σ
  finish : σ → ρ

variable {M P K V σ ρ : Type}

/-- Where a reader call stands; `opened` is the counter at the first load of
the current iteration. -/
inductive Phase (M σ : Type) : Type 1 where
  | opening (locals : σ)
  | running (opened : ℕ) (rest : Body M σ)
  | closing (opened : ℕ) (locals : σ)
  | returned (opened : ℕ) (locals : σ)
  | undefined

def Phase.result : Phase M σ → Option (ℕ × σ)
  | .returned o l => some (o, l)
  | .opening _ | .running _ _ | .closing _ _ | .undefined => none

def Phase.isUndefined : Phase M σ → Bool
  | .undefined => true
  | .opening _ | .running _ _ | .closing _ _ | .returned _ _ => false

/-- `owner` is the data under the mutex, `pending` the writes still to be issued
by the call holding it. `history` records, newest first, the data of the calls
whose closing increment has been executed. -/
structure System (M P σ : Type) : Type 1 where
  mem : M
  count : ℕ
  owner : P
  pending : List (WriteOp M)
  history : List P
  phase : Phase M σ

inductive Action (K : Type) where
  | begin (k : K)
  | write
  | read

/-- The counter as the 64-bit atomic holds it. -/
def wrap (count : ℕ) : ℕ := count % 2 ^ 64

theorem wrap_parity (count : ℕ) : wrap count % 2 = count % 2 :=
  Nat.mod_mod_of_dvd count ⟨2 ^ 63, rfl⟩

def Call.advance (c : Call M σ ρ) (mem : M) (count : ℕ) : Phase M σ → Phase M σ
  | .opening l => if wrap count % 2 = 1 then .closing count l else .running count (c.body l)
  | .running o (.done l) => .closing o l
  | .running _ .undefined => .undefined
  | .running o (.read field next) => .running o (next (field mem))
  | .closing o l => if wrap count = wrap o then .returned o l else .opening l
  | .returned o l => .returned o l
  | .undefined => .undefined

def WriteOp.exec (s : System M P σ) : WriteOp M → System M P σ
  | .increment =>
    { s with
      count := s.count + 1
      history := if (s.count + 1) % 2 = 0 then s.owner :: s.history else s.history }
  | .store f => { s with mem := f s.mem }

/-- An action that is not enabled leaves the system as it is. -/
def step (start : K → P → P × List (WriteOp M)) (c : Call M σ ρ) (s : System M P σ) :
    Action K → System M P σ
  | .begin k =>
    match s.pending with
    | [] => { s with owner := (start k s.owner).1, pending := (start k s.owner).2 }
    | _ :: _ => s
  | .write =>
    match s.pending with
    | [] => s
    | op :: rest => op.exec { s with pending := rest }
  | .read => { s with phase := c.advance s.mem s.count s.phase }

def Body.eval (mem : M) : Body M σ → Option σ
  | .done l => some l
  | .undefined => none
  | .read field next => (next (field mem)).eval mem

/-- Whatever values are loaded, the locals at the end satisfy `Q`. -/
def Body.Ends (Q : σ → Prop) : Body M σ → Prop
  | .done l => Q l
  | .undefined => True
  | .read _ next => ∀ x, (next x).Ends Q

def Call.alone (c : Call M σ ρ) (mem : M) : Option ρ := ((c.body c.init).eval mem).map c.finish

/-! ### The writer discipline -/

/-- The writes of a call that takes the protected view to `target`: nothing
before the first increment touches the view, and the writes between the two
increments establish `target`. -/
structure Publication (view : M → V) (target : V) (ops : List (WriteOp M)) : Prop where
  shape : ∃ before during : List (M → M),
    ops = before.map .store ++ .increment :: (during.map .store ++ [.increment]) ∧
    (∀ f ∈ before, ∀ m, view (f m) = view m) ∧
    ∀ m, view (during.foldl (fun m f => f m) m) = target

def Disciplined (view : M → V) (viewOf : P → V) (start : K → P → P × List (WriteOp M)) : Prop :=
  ∀ k p, start k p = (p, []) ∨ Publication view (viewOf (start k p).1) (start k p).2

/-- The body, run from `b`, can end with the locals when every field is read
from some memory whose view is `v`. -/
inductive Evals (view : M → V) (v : V) : Body M σ → σ → Prop
  | done (l : σ) : Evals view v (.done l) l
  | read {β : Type} {field : M → β} {next : β → Body M σ} {l : σ} (m : M) (hm : view m = v)
      (h : Evals view v (next (field m)) l) : Evals view v (.read field next) l

theorem evals_of_eval (view : M → V) {mem : M} {b : Body M σ} {l : σ} (h : b.eval mem = some l) :
    Evals view (view mem) b l := by
  induction b with
  | done l' =>
    cases h
    exact .done l
  | undefined => simp [Body.eval] at h
  | read field next ih => exact .read mem rfl (ih (field mem) h)

theorem Evals.of_read {β : Type} {view : M → V} {v : V} {field : M → β} {next : β → Body M σ}
    {l : σ} (h : Evals view v (.read field next) l) :
    ∃ m, view m = v ∧ Evals view v (next (field m)) l := by
  cases h with
  | read m hm h => exact ⟨m, hm, h⟩

theorem Evals.of_done {view : M → V} {v : V} {l l' : σ} (h : Evals view v (.done l) l') :
    l' = l := by
  cases h with
  | done => rfl

def FromView (view : M → V) (c : Call M σ ρ) (v : V) (l : σ) : Prop :=
  ∃ l0, Evals view v (c.body l0) l

/-- A call that has returned did so on an even counter and with the view left
by one completed writer call; no call is in an undefined state. -/
def Good (view : M → V) (viewOf : P → V) (c : Call M σ ρ) (s : System M P σ) : Prop :=
  match s.phase with
  | .returned o l => o % 2 = 0 ∧ ∃ p ∈ s.history, FromView view c (viewOf p) l
  | .undefined => False
  | .opening _ | .running _ _ | .closing _ _ => True

def Sound (s : System M P σ) : Prop :=
  match s.phase with
  | .returned o _ => o % 2 = 0
  | .undefined => False
  | .opening _ | .running _ _ | .closing _ _ => True

/-- The step does not leave the loop on an odd counter and does not access a
local container out of range. -/
def Clean (s : System M P σ) (a : Action K) : Prop :=
  match a, s.phase with
  | .read, .closing o _ => wrap s.count = wrap o → o % 2 = 0
  | .read, .running _ .undefined => False
  | _, _ => True

instance decidableClean (s : System M P σ) (a : Action K) : Decidable (Clean s a) :=
  match a, s with
  | .begin _, _ | .write, _ => .isTrue trivial
  | .read, ⟨_, count, _, _, _, .closing o _⟩ =>
    inferInstanceAs (Decidable (wrap count = wrap o → o % 2 = 0))
  | .read, ⟨_, _, _, _, _, .running _ .undefined⟩ => .isFalse id
  | .read, ⟨_, _, _, _, _, .running _ (.done _)⟩ | .read, ⟨_, _, _, _, _, .running _ (.read _ _)⟩
  | .read, ⟨_, _, _, _, _, .opening _⟩ | .read, ⟨_, _, _, _, _, .returned _ _⟩
  | .read, ⟨_, _, _, _, _, .undefined⟩ => .isTrue trivial

/-- The step does not access a local container out of range. -/
def InRange (s : System M P σ) (a : Action K) : Prop :=
  match a, s.phase with
  | .read, .running _ .undefined => False
  | _, _ => True

instance decidableInRange (s : System M P σ) (a : Action K) : Decidable (InRange s a) :=
  match a, s with
  | .begin _, _ | .write, _ => .isTrue trivial
  | .read, ⟨_, _, _, _, _, .running _ .undefined⟩ => .isFalse id
  | .read, ⟨_, _, _, _, _, .running _ (.done _)⟩ | .read, ⟨_, _, _, _, _, .running _ (.read _ _)⟩
  | .read, ⟨_, _, _, _, _, .opening _⟩ | .read, ⟨_, _, _, _, _, .closing _ _⟩
  | .read, ⟨_, _, _, _, _, .returned _ _⟩ | .read, ⟨_, _, _, _, _, .undefined⟩ => .isTrue trivial

/-- Fewer than 2^64 increments happened since the iteration was opened. -/
def NoWrap (s : System M P σ) (a : Action K) : Prop :=
  match a, s.phase with
  | .read, .closing o _ => s.count < o + 2 ^ 64
  | _, _ => True

def Phase.OpenedFrom (low : ℕ) : Phase M σ → Prop
  | .running o _ | .closing o _ | .returned o _ => low ≤ o
  | .opening _ | .undefined => True

theorem Call.advance_openedFrom (c : Call M σ ρ) (mem : M) {low count : ℕ} (hlow : low ≤ count)
    {phase : Phase M σ} (h : phase.OpenedFrom low) : (c.advance mem count phase).OpenedFrom low := by
  cases phase with
  | opening l =>
    simp only [Call.advance]
    split
    · exact hlow
    · exact hlow
  | running o body =>
    cases body with
    | done l => exact h
    | undefined => trivial
    | read field next => exact h
  | closing o l =>
    simp only [Call.advance]
    split
    · exact h
    · trivial
  | returned o l => exact h
  | undefined => trivial

theorem count_step (start : K → P → P × List (WriteOp M)) (c : Call M σ ρ) (s : System M P σ)
    (a : Action K) : s.count ≤ (step start c s a).count ∧ (step start c s a).count ≤ s.count + 1 := by
  cases a with
  | begin k =>
    cases hp : s.pending with
    | nil => simp [step, hp]
    | cons op rest => simp [step, hp]
  | write =>
    cases hp : s.pending with
    | nil => simp [step, hp]
    | cons op rest =>
      cases op with
      | increment => simp [step, hp, WriteOp.exec]
      | store f => simp [step, hp, WriteOp.exec]
  | read => simp [step]

/-- Only a read moves the reader. -/
theorem phase_step (start : K → P → P × List (WriteOp M)) (c : Call M σ ρ) (s : System M P σ)
    (a : Action K) : (step start c s a).phase =
      match a with
      | .begin _ | .write => s.phase
      | .read => c.advance s.mem s.count s.phase := by
  cases a with
  | begin k =>
    cases hp : s.pending with
    | nil => simp [step, hp]
    | cons op rest => simp [step, hp]
  | write =>
    cases hp : s.pending with
    | nil => simp [step, hp]
    | cons op rest =>
      cases op with
      | increment => simp [step, hp, WriteOp.exec]
      | store f => simp [step, hp, WriteOp.exec]
  | read => rfl

theorem along_noWrap (start : K → P → P × List (WriteOp M)) (c : Call M σ ρ) {low : ℕ}
    (sched : List (Action K)) {s : System M P σ} (hlow : low ≤ s.count)
    (hphase : s.phase.OpenedFrom low) (hlen : s.count + sched.length < low + 2 ^ 64) :
    Runs.Along (step start c) NoWrap s sched := by
  induction sched generalizing s with
  | nil => trivial
  | cons a sched ih =>
    obtain ⟨hle, hge⟩ := count_step start c s a
    rw [List.length_cons] at hlen
    constructor
    · unfold NoWrap
      cases a with
      | begin k => trivial
      | write => trivial
      | read =>
        cases hp : s.phase with
        | closing o l =>
          rw [hp] at hphase
          have ho : low ≤ o := hphase
          show s.count < o + 2 ^ 64
          omega
        | opening l => trivial
        | running o body => trivial
        | returned o l => trivial
        | undefined => trivial
    · refine ih (by omega) ?_ (by omega)
      cases a with
      | read => exact c.advance_openedFrom s.mem hlow hphase
      | begin k =>
        cases hpend : s.pending with
        | nil => simpa only [step, hpend] using hphase
        | cons op rest => simpa only [step, hpend] using hphase
      | write =>
        cases hpend : s.pending with
        | nil => simpa only [step, hpend] using hphase
        | cons op rest =>
          cases op with
          | increment => simpa only [step, hpend, WriteOp.exec] using hphase
          | store f => simpa only [step, hpend, WriteOp.exec] using hphase

theorem run_alone (start : K → P → P × List (WriteOp M)) (c : Call M σ ρ) {s : System M P σ} {l : σ}
    (hphase : s.phase = .opening c.init) (heven : s.count % 2 = 0)
    (heval : (c.body c.init).eval s.mem = some l) :
    ∃ n, Runs.run (step start c) s (List.replicate n .read) =
      { s with phase := .returned s.count l } := by
  have hbody : ∀ b : Body M σ, b.eval s.mem = some l →
      ∃ n, Runs.run (step start c) { s with phase := .running s.count b } (List.replicate n .read) =
        { s with phase := .returned s.count l } := by
    intro b
    induction b with
    | done l' =>
      intro h
      cases h
      exact ⟨2, by simp [List.replicate, step, Call.advance]⟩
    | undefined => simp [Body.eval]
    | read field next ih =>
      intro h
      obtain ⟨n, hn⟩ := ih (field s.mem) h
      exact ⟨n + 1, by simpa only [List.replicate_succ, Runs.run_cons, step, Call.advance] using hn⟩
  obtain ⟨n, hn⟩ := hbody _ heval
  refine ⟨n + 1, ?_⟩
  have hopen : step start c s .read = { s with phase := .running s.count (c.body c.init) } := by
    simp [step, hphase, Call.advance, wrap_parity, heven]
  rw [List.replicate_succ, Runs.run_cons, hopen, hn]

/-! ### The invariants -/

section Invariant
variable (view : M → V) (viewOf : P → V) (c : Call M σ ρ)

def Settled (s : System M P σ) : Prop :=
  ∃ p rest, s.history = p :: rest ∧ view s.mem = viewOf p

/-- Between two increments the rest of the window leads to the owner's view;
outside, the memory is settled. -/
inductive WriterInv (s : System M P σ) : Prop
  | quiet (hcount : s.count % 2 = 0) (hset : Settled view viewOf s) (hpending : s.pending = [])
      (howner : view s.mem = viewOf s.owner)
  | before (hcount : s.count % 2 = 0) (hset : Settled view viewOf s)
      (hpub : Publication view (viewOf s.owner) s.pending)
  | during (hcount : s.count % 2 = 1) (rest : List (M → M))
      (hpending : s.pending = rest.map .store ++ [.increment])
      (htarget : view (rest.foldl (fun m f => f m) s.mem) = viewOf s.owner)

/-- While the counter has not moved since an even opening, what is left of the
body continues an execution on the current view. -/
def PhaseInv (mem : M) (count : ℕ) (history : List P) : Phase M σ → Prop
  | .opening _ => True
  | .running o rest => o ≤ count ∧ o % 2 = 0 ∧ (count = o →
      ∃ l0, ∀ l, Evals view (view mem) rest l → Evals view (view mem) (c.body l0) l)
  | .closing o l => o ≤ count ∧ (o % 2 = 0 → count = o → FromView view c (view mem) l)
  | .returned o l => o % 2 = 0 ∧ ∃ p ∈ history, FromView view c (viewOf p) l
  | .undefined => False

def ReaderInv (s : System M P σ) : Prop :=
  PhaseInv view viewOf c s.mem s.count s.history s.phase

variable {view viewOf c}

theorem WriterInv.settled {s : System M P σ} (h : WriterInv view viewOf s)
    (heven : s.count % 2 = 0) : Settled view viewOf s := by
  cases h with
  | quiet _ hset _ _ => exact hset
  | before _ hset _ => exact hset
  | during hcount _ _ _ => omega

theorem writerInv_store {s : System M P σ} {f : M → M} {rest : List (WriteOp M)}
    (h : WriterInv view viewOf s) (hp : s.pending = .store f :: rest) :
    WriterInv view viewOf ((WriteOp.store f).exec { s with pending := rest }) := by
  cases h with
  | quiet _ _ hpending _ => simp [hp] at hpending
  | before hcount hset hpub =>
    obtain ⟨before, during, hops, hkeep, htarget⟩ := hpub.shape
    cases before with
    | nil => simp [hp] at hops
    | cons g before =>
      simp only [hp, List.map_cons, List.cons_append, List.cons.injEq, WriteOp.store.injEq] at hops
      obtain ⟨rfl, rfl⟩ := hops
      have hview : view (f s.mem) = view s.mem := hkeep f (List.mem_cons_self ..) s.mem
      obtain ⟨p, past, hhist, hp⟩ := hset
      refine .before hcount ⟨p, past, hhist, hview.trans hp⟩ ⟨before, during, rfl, ?_, htarget⟩
      exact fun g hg => hkeep g (List.mem_cons_of_mem _ hg)
  | during hcount window hpending htarget =>
    cases window with
    | nil => simp [hp] at hpending
    | cons g window =>
      simp only [hp, List.map_cons, List.cons_append, List.cons.injEq,
        WriteOp.store.injEq] at hpending
      obtain ⟨rfl, rfl⟩ := hpending
      exact .during hcount window rfl htarget

theorem writerInv_increment {s : System M P σ} {rest : List (WriteOp M)}
    (h : WriterInv view viewOf s) (hp : s.pending = .increment :: rest) :
    WriterInv view viewOf (WriteOp.increment.exec { s with pending := rest }) := by
  cases h with
  | quiet _ _ hpending _ => simp [hp] at hpending
  | before hcount hset hpub =>
    obtain ⟨before, during, hops, hkeep, htarget⟩ := hpub.shape
    cases before with
    | cons g before => simp [hp] at hops
    | nil =>
      simp only [hp, List.map_nil, List.nil_append, List.cons.injEq, true_and] at hops
      exact .during (by simp only [WriteOp.exec]; omega) during hops (htarget _)
  | during hcount window hpending htarget =>
    cases window with
    | cons g window => simp [hp] at hpending
    | nil =>
      simp only [hp, List.map_nil, List.nil_append, List.cons.injEq, true_and] at hpending
      have heven : (s.count + 1) % 2 = 0 := by omega
      refine .quiet heven ⟨s.owner, s.history, ?_, htarget⟩ hpending htarget
      simp only [WriteOp.exec, heven, if_true]

theorem writerInv_step {start : K → P → P × List (WriteOp M)}
    (hstart : Disciplined view viewOf start) {s : System M P σ} (a : Action K)
    (h : WriterInv view viewOf s) : WriterInv view viewOf (step start c s a) := by
  cases a with
  | begin k =>
    cases hp : s.pending with
    | cons op rest => simpa only [step, hp] using h
    | nil =>
      simp only [step, hp]
      cases h with
      | during hcount window hpending _ => simp [hp] at hpending
      | before _ _ hpub =>
        obtain ⟨before, during, hops, _⟩ := hpub.shape
        simp [hp] at hops
      | quiet hcount hset hpending howner =>
        rcases hstart k s.owner with hgive | hpub
        · exact .quiet hcount hset (by rw [hgive]) (by rw [hgive]; exact howner)
        · exact .before hcount hset hpub
  | write =>
    cases hp : s.pending with
    | nil => simpa only [step, hp] using h
    | cons op rest =>
      simp only [step, hp]
      cases op with
      | increment => exact writerInv_increment h hp
      | store f => exact writerInv_store h hp
  | read =>
    cases h with
    | quiet hcount hset hpending howner => exact .quiet hcount hset hpending howner
    | before hcount hset hpub => exact .before hcount hset hpub
    | during hcount window hpending htarget => exact .during hcount window hpending htarget

/-- A store that keeps the view or happens on an odd counter keeps the reader's
invariant: no even opening is current on an odd counter. -/
theorem readerInv_store {s : System M P σ} {f : M → M} {rest : List (WriteOp M)}
    (hw : WriterInv view viewOf s) (hp : s.pending = .store f :: rest)
    (h : ReaderInv view viewOf c s) :
    ReaderInv view viewOf c ((WriteOp.store f).exec { s with pending := rest }) := by
  have hview : s.count % 2 = 0 → view (f s.mem) = view s.mem := by
    intro heven
    obtain ⟨p, past, hhist, hold⟩ := hw.settled heven
    obtain ⟨q, past', hhist', hnew⟩ := (writerInv_store hw hp).settled heven
    have hpq : p = q := (List.cons.inj (hhist.symm.trans hhist')).1
    exact hnew.trans (hpq ▸ hold.symm)
  simp only [ReaderInv, WriteOp.exec] at h ⊢
  cases hphase : s.phase with
  | opening l => trivial
  | running o body =>
    rw [hphase] at h
    refine ⟨h.1, h.2.1, fun hco => ?_⟩
    rw [hview (hco ▸ h.2.1)]
    exact h.2.2 hco
  | closing o l =>
    rw [hphase] at h
    refine ⟨h.1, fun heven hco => ?_⟩
    rw [hview (hco ▸ heven)]
    exact h.2 heven hco
  | returned o l =>
    rw [hphase] at h
    exact h
  | undefined =>
    rw [hphase] at h
    exact h

theorem readerInv_increment {s : System M P σ} {rest : List (WriteOp M)}
    (h : ReaderInv view viewOf c s) :
    ReaderInv view viewOf c (WriteOp.increment.exec { s with pending := rest }) := by
  simp only [ReaderInv, WriteOp.exec] at h ⊢
  cases hphase : s.phase with
  | opening l => trivial
  | running o body =>
    rw [hphase] at h
    exact ⟨Nat.le_succ_of_le h.1, h.2.1, fun hco => absurd h.1 (by omega)⟩
  | closing o l =>
    rw [hphase] at h
    exact ⟨Nat.le_succ_of_le h.1, fun _ hco => absurd h.1 (by omega)⟩
  | returned o l =>
    rw [hphase] at h
    obtain ⟨heven, p, hp, hfrom⟩ := h
    refine ⟨heven, p, ?_, hfrom⟩
    split
    · exact List.mem_cons_of_mem _ hp
    · exact hp
  | undefined =>
    rw [hphase] at h
    exact h

theorem readerInv_read {s : System M P σ} (hw : WriterInv view viewOf s)
    (h : ReaderInv view viewOf c s) (hclean : Clean s (.read : Action K))
    (hwrap : NoWrap s (.read : Action K)) :
    ReaderInv view viewOf c { s with phase := c.advance s.mem s.count s.phase } := by
  simp only [ReaderInv, Clean, NoWrap] at h hclean hwrap ⊢
  cases hphase : s.phase with
  | opening l =>
    simp only [Call.advance, wrap_parity]
    by_cases hodd : s.count % 2 = 1
    · rw [if_pos hodd]
      exact ⟨Nat.le_refl _, fun heven => by omega⟩
    · rw [if_neg hodd]
      exact ⟨Nat.le_refl _, by omega, fun _ => ⟨l, fun _ he => he⟩⟩
  | running o body =>
    rw [hphase] at h
    obtain ⟨hle, heven, hev⟩ := h
    cases body with
    | done l =>
      refine ⟨hle, fun _ hco => ?_⟩
      obtain ⟨l0, hl0⟩ := hev hco
      exact ⟨l0, hl0 l (.done l)⟩
    | undefined => simp only [hphase] at hclean
    | read field next =>
      refine ⟨hle, heven, fun hco => ?_⟩
      obtain ⟨l0, hl0⟩ := hev hco
      exact ⟨l0, fun l he => hl0 l (.read s.mem rfl he)⟩
  | closing o l =>
    rw [hphase] at h
    simp only [hphase] at hclean hwrap
    simp only [Call.advance]
    by_cases heq : wrap s.count = wrap o
    · rw [if_pos heq]
      have hle : o ≤ s.count := h.1
      have heven : o % 2 = 0 := hclean heq
      have hco : s.count = o := by
        unfold wrap at heq
        omega
      obtain ⟨p, past, hhist, hview⟩ := hw.settled (hco ▸ heven)
      refine ⟨heven, p, by rw [hhist]; exact List.mem_cons_self .., ?_⟩
      rw [← hview]
      exact h.2 heven hco
    · rw [if_neg heq]
      trivial
  | returned o l =>
    rw [hphase] at h
    exact h
  | undefined =>
    rw [hphase] at h
    exact h

theorem readerInv_step {start : K → P → P × List (WriteOp M)} {s : System M P σ} {a : Action K}
    (hw : WriterInv view viewOf s) (h : ReaderInv view viewOf c s)
    (hwrap : NoWrap s a) (hclean : Clean s a) : ReaderInv view viewOf c (step start c s a) := by
  cases a with
  | begin k =>
    cases hp : s.pending with
    | cons op rest => simpa only [step, hp] using h
    | nil => simpa only [step, hp, ReaderInv] using h
  | write =>
    cases hp : s.pending with
    | nil => simpa only [step, hp] using h
    | cons op rest =>
      simp only [step, hp]
      cases op with
      | increment => exact readerInv_increment h
      | store f => exact readerInv_store hw hp h
  | read => exact readerInv_read hw h hclean hwrap

theorem ReaderInv.good {s : System M P σ} (h : ReaderInv view viewOf c s) :
    Good view viewOf c s := by
  unfold ReaderInv at h
  unfold Good
  cases hphase : s.phase with
  | opening l => trivial
  | running o body => trivial
  | closing o l => trivial
  | returned o l =>
    rw [hphase] at h
    exact h
  | undefined =>
    rw [hphase] at h
    exact h

theorem clean_of_sound {start : K → P → P × List (WriteOp M)} {s : System M P σ} {a : Action K}
    (h : Sound (step start c s a)) : Clean s a := by
  unfold Clean
  cases a with
  | begin k => trivial
  | write => trivial
  | read =>
    cases hphase : s.phase with
    | opening l => trivial
    | returned o l => trivial
    | undefined => trivial
    | running o body =>
      cases body with
      | done l => trivial
      | read field next => trivial
      | undefined => simp [Sound, step, hphase, Call.advance] at h
    | closing o l =>
      intro heq
      simpa only [Sound, step, hphase, Call.advance, heq, if_true] using h

/-- A call that has left the loop on an odd counter, or is in an undefined state,
stays there. -/
theorem sound_of_step {start : K → P → P × List (WriteOp M)} {s : System M P σ} {a : Action K}
    (h : Sound (step start c s a)) : Sound s := by
  unfold Sound at h ⊢
  cases hphase : s.phase with
  | opening l => trivial
  | running o body => trivial
  | closing o l => trivial
  | returned o l =>
    have hsame : (step start c s a).phase = .returned o l := by
      rw [phase_step, hphase]
      cases a <;> rfl
    rw [hsame] at h
    exact h
  | undefined =>
    have hsame : (step start c s a).phase = .undefined := by
      rw [phase_step, hphase]
      cases a <;> rfl
    rw [hsame] at h
    exact h

theorem defined_step {start : K → P → P × List (WriteOp M)} {s : System M P σ} {a : Action K}
    (hrange : InRange s a) (h : s.phase.isUndefined = false) :
    (step start c s a).phase.isUndefined = false := by
  rw [phase_step]
  cases a with
  | begin k => exact h
  | write => exact h
  | read =>
    unfold InRange at hrange
    cases hphase : s.phase with
    | opening l =>
      dsimp only [Call.advance]
      split <;> rfl
    | running o body =>
      cases body with
      | done l => rfl
      | read field next => rfl
      | undefined =>
        rw [hphase] at hrange
        exact hrange.elim
    | closing o l =>
      dsimp only [Call.advance]
      split <;> rfl
    | returned o l => rfl
    | undefined =>
      rw [hphase] at h
      cases h

/-- The readers' guarantee over whole runs, in both directions, for any
property that follows from `Good` and implies `Sound`. -/
theorem always_iff_clean {start : K → P → P × List (WriteOp M)}
    (hstart : Disciplined view viewOf start) {Q : System M P σ → Prop}
    (hgood : ∀ s, Good view viewOf c s → Q s) (hsound : ∀ s, Q s → Sound s)
    {s : System M P σ} {sched : List (Action K)}
    (hw : WriterInv view viewOf s) (h : ReaderInv view viewOf c s)
    (hwrap : Runs.Along (step start c) NoWrap s sched) :
    Runs.Always (step start c) Q s sched ↔ Runs.Along (step start c) Clean s sched := by
  refine Runs.always_iff_along (I := fun s => WriterInv view viewOf s ∧ ReaderInv view viewOf c s)
    ?_ ?_ ⟨hw, h⟩ (hgood s h.good) hwrap
  · intro s a hI _ hwrap hclean
    exact ⟨writerInv_step hstart a hI.1, readerInv_step hI.1 hI.2 hwrap hclean⟩
  · intro s a hI _ hwrap
    exact ⟨fun hQ => clean_of_sound (hsound _ hQ),
      fun hclean => hgood _ (readerInv_step hI.1 hI.2 hwrap hclean).good⟩

/-! ### Sequential reachability of what is published -/

def Sequential (start : K → P → P × List (WriteOp M)) (p0 : P) (s : System M P σ) : Prop :=
  ∀ p ∈ s.owner :: s.history, ∃ calls : List K, p = calls.foldl (fun p k => (start k p).1) p0

theorem sequential_step {start : K → P → P × List (WriteOp M)} {p0 : P} {s : System M P σ}
    (a : Action K) (h : Sequential start p0 s) : Sequential start p0 (step start c s a) := by
  cases a with
  | begin k =>
    cases hp : s.pending with
    | cons op rest => simpa only [step, hp] using h
    | nil =>
      intro p hmem
      simp only [step, hp] at hmem
      rcases List.mem_cons.mp hmem with rfl | hmem
      · obtain ⟨calls, hcalls⟩ := h s.owner (List.mem_cons_self ..)
        exact ⟨calls ++ [k], by rw [List.foldl_append, ← hcalls]; rfl⟩
      · exact h p (List.mem_cons_of_mem _ hmem)
  | write =>
    cases hp : s.pending with
    | nil => simpa only [step, hp] using h
    | cons op rest =>
      intro p hmem
      refine h p ?_
      simp only [step, hp] at hmem
      cases op with
      | store f => exact hmem
      | increment =>
        simp only [WriteOp.exec] at hmem
        split at hmem
        · simpa using hmem
        · exact hmem
  | read => exact h

end Invariant

end CryptoArbBot.Seqlock
