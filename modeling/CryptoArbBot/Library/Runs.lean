import Mathlib.Data.List.Basic

/-!
# Runs of a deterministic step function

A run is a list of actions executed from a state. `Along` says that every
action met a side condition in the state it started from, `Always` that every
state the run passed had a property. An invariant is proved on one step and
carried over a run by the rules below.
-/

namespace CryptoArbBot.Runs

variable {S A : Type*} (step : S → A → S)

def run (s : S) : List A → S
  | [] => s
  | a :: as => run (step s a) as

/-- Every action of the run meets `ok` in the state it starts from. -/
def Along (ok : S → A → Prop) (s : S) : List A → Prop
  | [] => True
  | a :: as => ok s a ∧ Along ok (step s a) as

/-- Every state of the run has `P`, the first and the last included. -/
def Always (P : S → Prop) (s : S) : List A → Prop
  | [] => P s
  | a :: as => P s ∧ Always P (step s a) as

@[simp] theorem run_nil (s : S) : run step s [] = s := rfl

@[simp] theorem run_cons (s : S) (a : A) (as : List A) :
    run step s (a :: as) = run step (step s a) as := rfl

theorem run_append (s : S) (as bs : List A) :
    run step s (as ++ bs) = run step (run step s as) bs := by
  induction as generalizing s with
  | nil => rfl
  | cons a as ih => exact ih (step s a)

theorem run_eq_foldl (s : S) (as : List A) : run step s as = as.foldl step s := by
  induction as generalizing s with
  | nil => rfl
  | cons a as ih => exact ih (step s a)

@[simp] theorem along_nil (ok : S → A → Prop) (s : S) : Along step ok s [] := trivial

@[simp] theorem along_cons (ok : S → A → Prop) (s : S) (a : A) (as : List A) :
    Along step ok s (a :: as) ↔ ok s a ∧ Along step ok (step s a) as := Iff.rfl

variable {step}

instance decidableAlong (ok : S → A → Prop) [∀ s a, Decidable (ok s a)] :
    (s : S) → (as : List A) → Decidable (Along step ok s as)
  | _, [] => .isTrue trivial
  | s, a :: as =>
    have := decidableAlong ok (step s a) as
    inferInstanceAs (Decidable (ok s a ∧ Along step ok (step s a) as))

theorem Always.head {P : S → Prop} {s : S} {as : List A} (h : Always step P s as) : P s := by
  cases as with
  | nil => exact h
  | cons a as => exact h.1

theorem Always.last {P : S → Prop} {s : S} {as : List A} (h : Always step P s as) :
    P (run step s as) := by
  induction as generalizing s with
  | nil => exact h
  | cons a as ih => exact ih h.2

theorem along_of_forall {ok : S → A → Prop} (h : ∀ s a, ok s a) (s : S) (as : List A) :
    Along step ok s as := by
  induction as generalizing s with
  | nil => trivial
  | cons a as ih => exact ⟨h s a, ih (step s a)⟩

theorem along_of_mem {ok : A → Prop} {as : List A} (h : ∀ a ∈ as, ok a) (s : S) :
    Along step (fun _ a => ok a) s as := by
  induction as generalizing s with
  | nil => trivial
  | cons a as ih =>
    exact ⟨h a (List.mem_cons_self ..), ih (fun b hb => h b (List.mem_cons_of_mem _ hb)) _⟩

theorem Along.suffix {ok : S → A → Prop} {s : S} {as bs : List A} (h : Along step ok s (as ++ bs)) :
    Along step ok (run step s as) bs := by
  induction as generalizing s with
  | nil => exact h
  | cons a as ih => exact ih h.2

theorem Along.imp {p q : S → A → Prop} (h : ∀ s a, p s a → q s a) {s : S} {as : List A}
    (hp : Along step p s as) : Along step q s as := by
  induction as generalizing s with
  | nil => trivial
  | cons a as ih => exact ⟨h s a hp.1, ih hp.2⟩

theorem Along.and {p q : S → A → Prop} {s : S} {as : List A} (hp : Along step p s as)
    (hq : Along step q s as) : Along step (fun s a => p s a ∧ q s a) s as := by
  induction as generalizing s with
  | nil => trivial
  | cons a as ih => exact ⟨⟨hp.1, hq.1⟩, ih hp.2 hq.2⟩

theorem invariant_along {I : S → Prop} {ok : S → A → Prop}
    (hstep : ∀ s a, I s → ok s a → I (step s a)) {s : S} {as : List A}
    (hs : I s) (hok : Along step ok s as) : I (run step s as) := by
  induction as generalizing s with
  | nil => exact hs
  | cons a as ih => exact ih (hstep s a hs hok.1) hok.2

theorem invariant_run {I : S → Prop} (hstep : ∀ s a, I s → I (step s a)) {s : S}
    (as : List A) (hs : I s) : I (run step s as) := by
  induction as generalizing s with
  | nil => exact hs
  | cons a as ih => exact ih (hstep s a hs)

theorem invariant_run_mem {I : S → Prop} {as : List A} (hstep : ∀ s, ∀ a ∈ as, I s → I (step s a))
    {s : S} (hs : I s) : I (run step s as) := by
  induction as generalizing s with
  | nil => exact hs
  | cons a as ih =>
    exact ih (fun t b hb => hstep t b (List.mem_cons_of_mem _ hb)) (hstep s a (List.mem_cons_self ..) hs)

/-- Steps of the run that meet `ok` keep the invariant and meet `ok'` by it. -/
theorem Along.carry {I : S → Prop} {ok ok' : S → A → Prop} {as : List A}
    (hstep : ∀ s, ∀ a ∈ as, I s → ok s a → I (step s a) ∧ ok' s a) {s : S}
    (hok : Along step ok s as) (hs : I s) : I (run step s as) ∧ Along step ok' s as := by
  induction as generalizing s with
  | nil => exact ⟨hs, trivial⟩
  | cons a as ih =>
    obtain ⟨hnext, hfirst⟩ := hstep s a (List.mem_cons_self ..) hs hok.1
    obtain ⟨hlast, hrest⟩ := ih (fun s' a' ha' => hstep s' a' (List.mem_cons_of_mem _ ha')) hok.2 hnext
    exact ⟨hlast, hfirst, hrest⟩

/-- An invariant that every step meeting `ok` keeps holds in every state of a
run whose steps all meet it. -/
theorem always_of_along {I : S → Prop} {ok : S → A → Prop}
    (hstep : ∀ s a, I s → ok s a → I (step s a)) {s : S} {as : List A}
    (hs : I s) (hok : Along step ok s as) : Always step I s as := by
  induction as generalizing s with
  | nil => exact hs
  | cons a as ih => exact ⟨hs, ih (hstep s a hs hok.1) hok.2⟩

theorem Always.imp {P Q : S → Prop} (h : ∀ s, P s → Q s) {s : S} {as : List A}
    (hP : Always step P s as) : Always step Q s as := by
  induction as generalizing s with
  | nil => exact h s hP
  | cons a as ih => exact ⟨h s hP.1, ih hP.2⟩

/-- Where every action leads on along a preorder, all states of a run come before
what its end comes before. -/
theorem along_before {R : S → S → Prop} (hrefl : ∀ s, R s s)
    (htrans : ∀ s t u, R s t → R t u → R s u) (hstep : ∀ s a, R s (step s a)) {s last : S}
    {as : List A} (h : R (run step s as) last) : Along step (fun s a => R (step s a) last) s as := by
  induction as generalizing s with
  | nil => trivial
  | cons a as ih =>
    have hrun : R (step s a) (run step (step s a) as) :=
      invariant_run (I := R (step s a)) (fun t b ht => htrans _ _ _ ht (hstep t b)) as (hrefl _)
    exact ⟨htrans _ _ _ hrun h, ih h⟩

/-- When, under an invariant and a side condition, a step keeps `P` exactly if
it meets `ok`, a run keeps `P` in every state exactly if all steps meet `ok`. -/
theorem always_iff_along {I P : S → Prop} {side ok : S → A → Prop}
    (hinv : ∀ s a, I s → P s → side s a → ok s a → I (step s a))
    (hiff : ∀ s a, I s → P s → side s a → (P (step s a) ↔ ok s a)) {s : S} {as : List A}
    (hI : I s) (hP : P s) (hside : Along step side s as) :
    Always step P s as ↔ Along step ok s as := by
  induction as generalizing s with
  | nil => exact ⟨fun _ => trivial, fun _ => hP⟩
  | cons a as ih =>
    constructor
    · intro h
      have hok : ok s a := (hiff s a hI hP hside.1).mp h.2.head
      have hI' : I (step s a) := hinv s a hI hP hside.1 hok
      exact ⟨hok, (ih hI' h.2.head hside.2).mp h.2⟩
    · intro h
      have hP' : P (step s a) := (hiff s a hI hP hside.1).mpr h.1
      have hI' : I (step s a) := hinv s a hI hP hside.1 h.1
      exact ⟨hP, (ih hI' hP' hside.2).mpr h.2⟩

/-- Two conditions that agree on a step under an invariant agree along a run when
the second one keeps the invariant. -/
theorem along_iff_along {I : S → Prop} {side ok ok' : S → A → Prop} {as : List A}
    (hinv : ∀ s, ∀ a ∈ as, I s → side s a → ok' s a → I (step s a))
    (hiff : ∀ s, ∀ a ∈ as, I s → side s a → (ok s a ↔ ok' s a)) {s : S} (hI : I s)
    (hside : Along step side s as) : Along step ok s as ↔ Along step ok' s as := by
  induction as generalizing s with
  | nil => exact Iff.rfl
  | cons a as ih =>
    have ha : a ∈ a :: as := List.mem_cons_self ..
    rw [along_cons, along_cons, hiff s a ha hI hside.1]
    refine and_congr_right fun hok => ih ?_ ?_ (hinv s a ha hI hside.1 hok) hside.2
    · exact fun t b hb => hinv t b (List.mem_cons_of_mem _ hb)
    · exact fun t b hb => hiff t b (List.mem_cons_of_mem _ hb)

/-! ### Watched runs -/

/-- The state with a record that is kept of the run. -/
def watch {G : Type*} (step : S → A → S) (note : G → S → A → G) (w : S × G) (a : A) : S × G :=
  (step w.1 a, note w.2 w.1 a)

theorem Along.watched {G : Type*} {ok : S → A → Prop} {s : S} {as : List A}
    (h : Along step ok s as) (note : G → S → A → G) (g : G) :
    Along (watch step note) (fun w a => ok w.1 a) (s, g) as := by
  induction as generalizing s g with
  | nil => trivial
  | cons a as ih => exact ⟨h.1, ih h.2 (note g s a)⟩

theorem Always.of_watched {G : Type*} {P : S → Prop} {s : S} {as : List A} (note : G → S → A → G)
    (g : G) (h : Always (watch step note) (fun w => P w.1) (s, g) as) : Always step P s as := by
  induction as generalizing s g with
  | nil => exact h
  | cons a as ih => exact ⟨h.1, ih (note g s a) h.2⟩

/-! ### Two runs -/

/-- A relation that every action keeps holds between the ends of two runs of the
same actions. -/
theorem related_run {T : Type*} {step' : T → A → T} {R : S → T → Prop} (as : List A)
    (hstep : ∀ s t, ∀ a ∈ as, R s t → R (step s a) (step' t a)) {s : S} {t : T} (h : R s t) :
    R (run step s as) (run step' t as) := by
  induction as generalizing s t with
  | nil => exact h
  | cons a as ih =>
    exact ih (fun s' t' a' ha' => hstep s' t' a' (List.mem_cons_of_mem _ ha'))
      (hstep s t a (List.mem_cons_self ..) h)

end CryptoArbBot.Runs
