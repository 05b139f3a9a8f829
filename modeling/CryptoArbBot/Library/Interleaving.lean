import CryptoArbBot.Library.Runs
import Mathlib.Algebra.BigOperators.Group.List.Basic
import Mathlib.Algebra.Group.Pi.Basic
import Mathlib.Data.List.Perm.Basic
import Mathlib.Tactic.Abel
import Mathlib.Tactic.Ring

/-!
# Interleaved calls over a shared state

Any number of calls run beside each other. An event starts a call, lets one call
take its next section, or runs an operation that is a single section. What a
section moves between the shared state and its own call is conserved.
-/

namespace CryptoArbBot.Interleaving

/-- `fresh` starts a call from its arguments, `advance` runs its next section,
`atomic` runs an operation of one section. -/
structure Program (S A T O : Type*) where
  fresh : A → T
  advance : S → T → S × T
  atomic : S → O → S

structure System (S T : Type*) where
  shared : S
  calls : List T := []

inductive Event (A O : Type*) where
  | start (args : A)
  | advance (i : ℕ)
  | atomic (op : O)

variable {S A T O : Type*}

def step (p : Program S A T O) (sys : System S T) : Event A O → System S T
  | .start args => ⟨sys.shared, sys.calls ++ [p.fresh args]⟩
  | .advance i =>
    match sys.calls[i]? with
    | none => sys
    | some call =>
      ⟨(p.advance sys.shared call).1, sys.calls.set i (p.advance sys.shared call).2⟩
  | .atomic op => ⟨p.atomic sys.shared op, sys.calls⟩

variable {p : Program S A T O}

theorem step_advance_some {sys : System S T} {i : ℕ} {call : T} (h : sys.calls[i]? = some call) :
    step p sys (.advance i) =
      ⟨(p.advance sys.shared call).1, sys.calls.set i (p.advance sys.shared call).2⟩ := by
  simp only [step, h]

theorem step_advance_none {sys : System S T} {i : ℕ} (h : sys.calls[i]? = none) :
    step p sys (.advance i) = sys := by
  simp only [step, h]

/-! ### One call on its own -/

def solo (p : Program S A T O) : ℕ → S × T → S × T
  | 0, sc => sc
  | n + 1, sc => solo p n (p.advance sc.1 sc.2)

/-- Started last and advanced alone, a call runs as `solo`. -/
theorem run_solo (s : S) (calls : List T) (call : T) (n : ℕ) :
    Runs.run (step p) ⟨s, calls ++ [call]⟩ (List.replicate n (.advance calls.length)) =
      ⟨(solo p n (s, call)).1, calls ++ [(solo p n (s, call)).2]⟩ := by
  induction n generalizing s call with
  | zero => rfl
  | succ n ih =>
    have hlast : (calls ++ [call])[calls.length]? = some call := List.getElem?_concat_length
    have hstep : step p ⟨s, calls ++ [call]⟩ (.advance calls.length) =
        ⟨(p.advance s call).1, calls ++ [(p.advance s call).2]⟩ := by
      rw [step_advance_some hlast]
      simp
    rw [List.replicate_succ, Runs.run_cons, hstep, ih]
    rfl

/-! ### Properties of the calls -/

/-- A property that every section keeps stays with the call it holds of. -/
theorem call_persists {P : T → Prop} (hadvance : ∀ s call, P call → P (p.advance s call).2)
    {i : ℕ} {sys : System S T} (events : List (Event A O))
    (h : ∃ call, sys.calls[i]? = some call ∧ P call) :
    ∃ call, (Runs.run (step p) sys events).calls[i]? = some call ∧ P call := by
  refine Runs.invariant_run
    (I := fun sys : System S T => ∃ call, sys.calls[i]? = some call ∧ P call) ?_ events h
  intro sys event hsys
  obtain ⟨call, hcall, hP⟩ := hsys
  have hi : i < sys.calls.length := (List.getElem?_eq_some_iff.mp hcall).1
  cases event with
  | start args => exact ⟨call, (List.getElem?_append_left hi).trans hcall, hP⟩
  | atomic op => exact ⟨call, hcall, hP⟩
  | advance j =>
    cases hj : sys.calls[j]? with
    | none => exact ⟨call, by rw [step_advance_none hj, hcall], hP⟩
    | some other =>
      rw [step_advance_some hj]
      by_cases hji : j = i
      · subst hji
        have hsame : other = call := Option.some.inj (hj.symm.trans hcall)
        subst hsame
        exact ⟨_, List.getElem?_set_self hi, hadvance _ _ hP⟩
      · exact ⟨call, by rw [List.getElem?_set_ne hji, hcall], hP⟩

/-- A property of every call, when fresh calls have it and sections keep it. -/
theorem forall_calls_step {Q : T → Prop} (hadvance : ∀ s call, Q call → Q (p.advance s call).2)
    {sys : System S T} (hcalls : ∀ call ∈ sys.calls, Q call) {event : Event A O}
    (hfresh : ∀ args, event = Event.start args → Q (p.fresh args)) :
    ∀ call ∈ (step p sys event).calls, Q call := by
  intro call hcall
  cases event with
  | start args =>
    rcases List.mem_append.mp hcall with hold | hlast
    · exact hcalls call hold
    · rw [List.mem_singleton.mp hlast]
      exact hfresh args rfl
  | atomic op => exact hcalls call hcall
  | advance i =>
    cases hi : sys.calls[i]? with
    | none =>
      rw [step_advance_none hi] at hcall
      exact hcalls call hcall
    | some other =>
      rw [step_advance_some hi] at hcall
      rcases List.mem_or_eq_of_mem_set hcall with hold | hnew
      · exact hcalls call hold
      · rw [hnew]
        exact hadvance _ _ (hcalls other (List.mem_of_getElem? hi))

/-- One call moves on: some call still has the property, unless the moved one had
it and gave it up. -/
theorem exists_calls_set {Q : T → Prop} {R : Prop} {calls : List T} {i : ℕ} {call next : T}
    (hcall : calls[i]? = some call) (hnext : Q call → Q next ∨ R) (h : ∃ c ∈ calls, Q c) :
    (∃ c ∈ calls.set i next, Q c) ∨ R := by
  obtain ⟨c, hc, hQ⟩ := h
  obtain ⟨j, hj⟩ := List.mem_iff_getElem?.mp hc
  by_cases hij : i = j
  · subst hij
    have hsame : call = c := Option.some.inj (hcall.symm.trans hj)
    subst hsame
    have hi := (List.getElem?_eq_some_iff.mp hcall).1
    exact (hnext hQ).imp_left fun hQ => ⟨next, List.mem_set hi next, hQ⟩
  · have hkept : (calls.set i next)[j]? = some c := by rw [List.getElem?_set_ne hij, hj]
    exact .inl ⟨c, List.mem_of_getElem? hkept, hQ⟩

/-! ### Conservation -/

section Conservation
variable {K : Type*} [AddCommGroup K]

/-- The value of the shared state with what the calls still hold. -/
def worth (value : S → K) (held : T → K) (sys : System S T) : K :=
  value sys.shared + (sys.calls.map held).sum

theorem sum_set_add {held : T → K} {calls : List T} {i : ℕ} {call : T}
    (h : calls[i]? = some call) (call' : T) :
    ((calls.set i call').map held).sum + held call = (calls.map held).sum + held call' := by
  obtain ⟨hi, hcall⟩ := List.getElem?_eq_some_iff.mp h
  have hlen : i < (calls.map held).length := by rwa [List.length_map]
  rw [List.map_set, List.sum_set', dif_pos hlen, List.getElem_map, hcall]
  abel

/-- Starting a call, running a section and running an atomic operation each keep
the worth. `ok` restricts the arguments, `Q` follows from it for every call. -/
structure Conserves (p : Program S A T O) (value : S → K) (held : T → K) (ok : A → Prop)
    (Q : T → Prop) : Prop where
  fresh : ∀ args, ok args → Q (p.fresh args) ∧ held (p.fresh args) = 0
  keeps : ∀ s call, Q call → Q (p.advance s call).2
  advance : ∀ s call, Q call →
    value (p.advance s call).1 + held (p.advance s call).2 = value s + held call
  atomic : ∀ s op, value (p.atomic s op) = value s

variable {value : S → K} {held : T → K} {ok : A → Prop} {Q : T → Prop}

theorem Conserves.worth_step (h : Conserves p value held ok Q) {sys : System S T}
    (hcalls : ∀ call ∈ sys.calls, Q call) {event : Event A O}
    (hevent : ∀ args, event = Event.start args → ok args) :
    (∀ call ∈ (step p sys event).calls, Q call) ∧
      worth value held (step p sys event) = worth value held sys := by
  refine ⟨forall_calls_step h.keeps hcalls fun args heq => (h.fresh args (hevent args heq)).1, ?_⟩
  cases event with
  | start args =>
    have hzero : held (p.fresh args) = 0 := (h.fresh args (hevent args rfl)).2
    simp [worth, step, hzero]
  | atomic op => simp [worth, step, h.atomic]
  | advance i =>
    cases hi : sys.calls[i]? with
    | none => rw [step_advance_none hi]
    | some call =>
      have hcall : Q call := hcalls call (List.mem_of_getElem? hi)
      rw [step_advance_some hi]
      -- what the section moves leaves the call and enters the state
      have hsum : ((sys.calls.set i (p.advance sys.shared call).2).map held).sum + held call =
          (sys.calls.map held).sum + held (p.advance sys.shared call).2 := sum_set_add hi _
      have hmove := h.advance sys.shared call hcall
      unfold worth
      calc value (p.advance sys.shared call).1 +
            ((sys.calls.set i (p.advance sys.shared call).2).map held).sum
          = value (p.advance sys.shared call).1 +
              (((sys.calls.set i (p.advance sys.shared call).2).map held).sum + held call) -
              held call := by abel
        _ = value (p.advance sys.shared call).1 + held (p.advance sys.shared call).2 +
              (sys.calls.map held).sum - held call := by rw [hsum]; abel
        _ = value sys.shared + (sys.calls.map held).sum := by rw [hmove]; abel

theorem Conserves.worth_run (h : Conserves p value held ok Q) (s : S) {events : List (Event A O)}
    (hok : ∀ args, Event.start args ∈ events → ok args) :
    worth value held (Runs.run (step p) ⟨s, []⟩ events) = value s := by
  have hinv : (∀ call ∈ (Runs.run (step p) ⟨s, []⟩ events).calls, Q call) ∧
      worth value held (Runs.run (step p) ⟨s, []⟩ events) = value s := by
    have hevents : Runs.Along (step p)
        (fun _ event => ∀ args, event = Event.start args → ok args) ⟨s, []⟩ events := by
      refine Runs.along_of_mem ?_ _
      intro event hevent args heq
      exact hok args (heq ▸ hevent)
    refine Runs.invariant_along
      (I := fun sys : System S T => (∀ call ∈ sys.calls, Q call) ∧ worth value held sys = value s)
      ?_ ?_ hevents
    · intro sys event hsys hevent
      obtain ⟨hcalls, hworth⟩ := hsys
      obtain ⟨hcalls', hworth'⟩ := h.worth_step hcalls hevent
      exact ⟨hcalls', hworth'.trans hworth⟩
    · refine ⟨?_, by simp [worth]⟩
      intro call hcall
      cases hcall
  exact hinv.2

end Conservation

/-! ### Entries of two logs -/

section Logs
variable {E : Type*} [DecidableEq E] {log done : S → List E} {entry : T → Option E}

theorem sum_count_entries (entry : T → Option E) (calls : List T) (e : E) :
    (calls.map fun call e => -((entry call).toList.count e : ℤ)).sum e =
      -((calls.filterMap entry).count e : ℤ) := by
  induction calls with
  | nil => rfl
  | cons call calls ih =>
    rw [List.map_cons, List.sum_cons, Pi.add_apply, ih]
    cases hentry : entry call with
    | none =>
      rw [List.filterMap_cons_none hentry]
      simp
    | some held =>
      rw [List.filterMap_cons_some hentry, List.count_cons, Option.toList_some, List.count_singleton]
      push_cast
      ring

/-- What is in the first log is in the second one or held by a call. -/
theorem Conserves.perm {ok : A → Prop} {Q : T → Prop}
    (h : Conserves p (fun s e => ((log s).count e : ℤ) - (done s).count e)
      (fun call e => -((entry call).toList.count e : ℤ)) ok Q) {s : S} (hs : log s = done s)
    {events : List (Event A O)} (hok : ∀ args, Event.start args ∈ events → ok args) :
    let sys := Runs.run (step p) ⟨s, []⟩ events
    (log sys.shared).Perm (done sys.shared ++ sys.calls.filterMap entry) := by
  intro sys
  have hworth := h.worth_run s hok
  refine List.perm_iff_count.mpr ?_
  intro e
  have hcount : ((log sys.shared).count e : ℤ) - (done sys.shared).count e +
      (sys.calls.map fun call e => -((entry call).toList.count e : ℤ)).sum e =
        ((log s).count e : ℤ) - (done s).count e := congrFun hworth e
  rw [sum_count_entries, hs] at hcount
  rw [List.count_append]
  omega

end Logs

end CryptoArbBot.Interleaving
