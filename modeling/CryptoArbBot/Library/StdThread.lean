import Mathlib.Logic.Basic

/-!
# `std::thread` objects

A thread object is empty, or stands for a thread at some place of its function,
or for one that has returned and was not joined. Joining an empty object is an
error, joining a running thread blocks, and assigning to an object that is still
joinable terminates the process.
-/

namespace CryptoArbBot

inductive Thread (P : Type) where
  | none
  | running (place : P)
  | finished
deriving DecidableEq

namespace Thread

variable {P S : Type}

def joinable : Thread P → Bool
  | none => false
  | running _ | finished => true

/-- `join()` with the three states that can follow. -/
def join (t : Thread P) (invalid blocked joined : S) : S :=
  match t with
  | none => invalid
  | running _ => blocked
  | finished => joined

/-- The assignment of a new thread. -/
def assign (t : Thread P) (terminated assigned : S) : S :=
  if t.joinable then terminated else assigned

theorem joinable_iff {t : Thread P} : t.joinable = true ↔ t ≠ none := by
  cases t with
  | none => exact iff_of_false nofun fun h => h rfl
  | running place => exact iff_of_true rfl nofun
  | finished => exact iff_of_true rfl nofun

theorem not_joinable_iff {t : Thread P} : ¬ t.joinable = true ↔ t = none := by
  rw [joinable_iff, not_not]

variable {Q : S → Prop} {t : Thread P}

theorem join_rule {invalid blocked joined : S} (hinvalid : t = none → Q invalid)
    (hblocked : Q blocked) (hjoined : t = finished → Q joined) :
    Q (t.join invalid blocked joined) := by
  cases t with
  | none => exact hinvalid rfl
  | running place => exact hblocked
  | finished => exact hjoined rfl

theorem assign_rule {terminated assigned : S} (hterminated : t ≠ none → Q terminated)
    (hassigned : t = none → Q assigned) : Q (t.assign terminated assigned) := by
  unfold assign
  split
  next hjoinable => exact hterminated (joinable_iff.mp hjoinable)
  next hjoinable => exact hassigned (not_joinable_iff.mp hjoinable)

end Thread

end CryptoArbBot
