import Mathlib.Logic.Basic

/-!
# `std::lock_guard` on a mutex that is not recursive

What one thread does that locks a mutex for the length of a scope. Locking it
again while the thread holds it is an error that nothing catches. A scope that
ends, by a return or by an exception, releases its lock.
-/

namespace CryptoArbBot

inductive Thrown where
  | exception (what : String)
  /-- Not derived from `std::exception`. -/
  | other
deriving DecidableEq

inductive Escape where
  | thrown (t : Thrown)
  | relock
deriving DecidableEq

/-- Whether this thread holds the mutex, beside everything else. -/
structure LockState (σ : Type) where
  held : Bool
  world : σ

def MutexAct (σ α : Type) := LockState σ → Except Escape α × LockState σ

namespace MutexAct

variable {σ α β : Type}

instance : Monad (MutexAct σ) where
  pure a := fun s => (.ok a, s)
  bind x f := fun s =>
    match x s with
    | (.ok a, s') => f a s'
    | (.error e, s') => (.error e, s')

theorem bind_apply (x : MutexAct σ α) (f : α → MutexAct σ β) (s : LockState σ) :
    (x >>= f) s =
      match x s with
      | (.ok a, s') => f a s'
      | (.error e, s') => (.error e, s') := rfl

def throws : Except String α → MutexAct σ α
  | .ok a => fun s => (.ok a, s)
  | .error what => fun s => (.error (.thrown (.exception what)), s)

/-- Code that does not touch the mutex. -/
def outside (f : σ → Except Thrown α × σ) : MutexAct σ α := fun s =>
  match f s.world with
  | (.ok a, world) => (.ok a, { s with world })
  | (.error t, world) => (.error (.thrown t), { s with world })

def lockGuard (scope : MutexAct σ α) : MutexAct σ α := fun s =>
  if s.held then (.error .relock, s)
  else
    match scope { s with held := true } with
    -- a thread that waits for itself ends no scope
    | (.error .relock, s') => (.error .relock, s')
    | (result, s') => (result, { s' with held := false })

/-- `try { … } catch (const std::exception &)` with a handler that only logs. -/
def catchStd (x : MutexAct σ Unit) : MutexAct σ Unit := fun s =>
  match x s with
  | (.error (.thrown (.exception _)), s') => (.ok (), s')
  | r => r

/-! ### No relock -/

def Free (x : MutexAct σ α) (s : LockState σ) : Prop := (x s).1 ≠ .error .relock

variable {s : LockState σ}

theorem free_pure (a : α) : Free (pure a) s := nofun

theorem free_outside (f : σ → Except Thrown α × σ) : Free (outside f) s := by
  unfold Free outside
  rcases f s.world with ⟨_ | _, _⟩ <;> nofun

theorem free_throws_bind {e : Except String α} {f : α → MutexAct σ β} :
    Free (throws e >>= f) s ↔ ∀ a, e = .ok a → Free (f a) s := by
  cases e with
  | ok a =>
    constructor
    · intro h a' heq
      cases heq
      exact h
    · exact fun h => h a rfl
  | error what => exact iff_of_true nofun nofun

theorem free_lockGuard {scope : MutexAct σ α} :
    Free (lockGuard scope) s ↔ s.held = false ∧ Free scope { s with held := true } := by
  unfold Free lockGuard
  cases hheld : s.held with
  | true => exact iff_of_false (fun h => h rfl) fun h => nomatch h.1
  | false =>
    rw [if_neg Bool.false_ne_true]
    rcases hscope : scope { s with held := true } with ⟨_ | _, s'⟩
    next e =>
      cases e with
      | thrown t => exact iff_of_true nofun ⟨rfl, nofun⟩
      | relock => exact iff_of_false (fun h => h rfl) fun h => h.2 rfl
    next a => exact iff_of_true nofun ⟨rfl, nofun⟩

theorem free_catchStd {x : MutexAct σ Unit} : Free (catchStd x) s ↔ Free x s := by
  unfold Free catchStd
  rcases x s with ⟨_ | _, s'⟩
  next e =>
    cases e with
    | thrown t =>
      cases t with
      | exception what => exact iff_of_true nofun nofun
      | other => exact Iff.rfl
    | relock => exact Iff.rfl
  next a => exact Iff.rfl

/-! ### Every lock is released -/

/-- Unless it waits for itself, the thread ends with the lock as it was. -/
def Balanced (x : MutexAct σ α) : Prop := ∀ s, Free x s → (x s).2.held = s.held

theorem balanced_pure (a : α) : Balanced (pure a : MutexAct σ α) := fun _ _ => rfl

theorem balanced_throws (e : Except String α) : Balanced (throws e : MutexAct σ α) := by
  intro s _
  cases e <;> rfl

theorem Balanced.bind {x : MutexAct σ α} {f : α → MutexAct σ β} (hx : Balanced x)
    (hf : ∀ a, Balanced (f a)) : Balanced (x >>= f) := by
  intro s hfree
  have hheld := hx s
  have hrun : (x >>= f) s = match x s with
    | (.ok a, s') => f a s'
    | (.error e, s') => (.error e, s') := rfl
  unfold Free at hheld hfree
  rw [hrun] at hfree ⊢
  rcases hxs : x s with ⟨e | a, s'⟩
  · rw [hxs] at hheld hfree
    exact hheld fun h => hfree (by cases h; rfl)
  · rw [hxs] at hheld hfree
    exact (hf a s' hfree).trans (hheld nofun)

theorem balanced_lockGuard (scope : MutexAct σ α) : Balanced (lockGuard scope) := by
  intro s hfree
  obtain ⟨hheld, hscope⟩ := free_lockGuard.mp hfree
  unfold Free at hscope
  unfold lockGuard
  rw [hheld, if_neg Bool.false_ne_true]
  rcases hrun : scope { s with held := true } with ⟨_ | _, s'⟩
  next e =>
    cases e with
    | thrown t => rfl
    | relock => exact absurd (by rw [hrun]) hscope
  next a => rfl

theorem Balanced.catchStd {x : MutexAct σ Unit} (hx : Balanced x) : Balanced (catchStd x) := by
  intro s hfree
  have hheld := hx s (free_catchStd.mp hfree)
  unfold MutexAct.catchStd
  rcases hxs : x s with ⟨e | a, s'⟩
  · rw [hxs] at hheld
    cases e with
    | thrown t => cases t <;> exact hheld
    | relock => exact hheld
  · rw [hxs] at hheld
    exact hheld

end MutexAct

end CryptoArbBot
