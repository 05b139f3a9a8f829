import Mathlib.Data.List.TakeWhile

/-!
# std::getline on a text stream

A stream is the text that is left with its state. `getline` takes the text up to
the next separator; it fails, and goes on failing, once the stream has ended. A
text of fields with separators between them is read back field by field, except
that an empty last field cannot be told from the end.
-/

namespace CryptoArbBot

structure TextStream where
  rest : List Char
  good : Bool := true
  deriving DecidableEq, Repr

namespace TextStream

def ofString (text : String) : TextStream := { rest := text.toList }

/-- Whether the call succeeded, the string it leaves in its argument and the
stream after it. -/
def getline (sep : Char) (token : String) (stream : TextStream) : Bool × String × TextStream :=
  if stream.good then
    if stream.rest = [] then (false, "", { rest := [], good := false })
    else
      (true, String.ofList (stream.rest.takeWhile fun c => c ≠ sep),
        if sep ∈ stream.rest then { rest := (stream.rest.dropWhile fun c => c ≠ sep).drop 1 }
        else { rest := [], good := false })
  else (false, token, stream)

/-! ### Fields -/

/-- The fields with separators between them. -/
def fieldsText (sep : Char) : List String → List Char
  | [] => []
  | [field] => field.toList
  | field :: fields => field.toList ++ sep :: fieldsText sep fields

/-- The stream before the fields; after the last one it has ended. -/
def atFields (sep : Char) (fields : List String) : TextStream :=
  match fields with
  | [] => { rest := [], good := false }
  | field :: fields => { rest := fieldsText sep (field :: fields) }

theorem fieldsText_cons (sep : Char) (field : String) (fields : List String) :
    fieldsText sep (field :: fields) =
      field.toList ++ fields.flatMap fun next => sep :: next.toList := by
  induction fields generalizing field with
  | nil => simp [fieldsText]
  | cons next fields ih =>
    rw [fieldsText, ih, List.flatMap_cons]
    · rfl
    · intro h
      cases h

theorem not_mem_fieldsText {sep c : Char} (hsep : c ≠ sep) {fields : List String}
    (h : ∀ field ∈ fields, c ∉ field.toList) : c ∉ fieldsText sep fields := by
  cases fields with
  | nil => exact List.not_mem_nil
  | cons field fields =>
    rw [fieldsText_cons, List.mem_append, List.mem_flatMap, not_or]
    refine ⟨h field (List.mem_cons_self ..), ?_⟩
    rintro ⟨next, hnext, hc⟩
    exact h next (List.mem_cons_of_mem _ hnext) ((List.mem_cons.mp hc).resolve_left hsep)

theorem fieldsText_cons_cons (sep : Char) (field next : String) (fields : List String) :
    fieldsText sep (field :: next :: fields) = field.toList ++ sep :: fieldsText sep (next :: fields) :=
  rfl

theorem field_before {sep : Char} {field : String} (h : sep ∉ field.toList) :
    ∀ c ∈ field.toList, decide (c ≠ sep) = true := by
  intro c hc
  have hne : c ≠ sep := by
    rintro rfl
    exact h hc
  exact decide_eq_true hne

theorem takeWhile_field {sep : Char} {field : String} (h : sep ∉ field.toList) (rest : List Char) :
    (field.toList ++ sep :: rest).takeWhile (fun c => c ≠ sep) = field.toList ∧
      (field.toList ++ sep :: rest).dropWhile (fun c => c ≠ sep) = sep :: rest := by
  rw [List.takeWhile_append_of_pos (field_before h), List.dropWhile_append_of_pos (field_before h)]
  simp

theorem getline_field {sep : Char} {field : String} (h : sep ∉ field.toList) (token next : String)
    (fields : List String) :
    getline sep token (atFields sep (field :: next :: fields)) =
      (true, field, atFields sep (next :: fields)) := by
  obtain ⟨htake, hdrop⟩ := takeWhile_field h (fieldsText sep (next :: fields))
  unfold getline atFields
  simp only [fieldsText_cons_cons]
  rw [htake, hdrop]
  simp

theorem getline_last {sep : Char} {field : String} (h : sep ∉ field.toList) (token : String) :
    getline sep token (atFields sep [field]) =
      if field = "" then (false, "", atFields sep []) else (true, field, atFields sep []) := by
  unfold getline atFields fieldsText
  by_cases hempty : field = ""
  · simp [hempty]
  · have hne : field.toList ≠ [] := by simpa using hempty
    have htake : field.toList.takeWhile (fun c => c ≠ sep) = field.toList :=
      List.takeWhile_eq_self_iff.mpr (field_before h)
    simp only [if_true, if_neg hne, if_neg hempty, if_neg h, htake, String.ofList_toList]

/-! ### Lines -/

def linesLoop (sep : Char) : ℕ → TextStream → List String
  | 0, _ => []
  | fuel + 1, stream =>
    match stream.getline sep "" with
    | (true, line, stream) => line :: linesLoop sep fuel stream
    | (false, _, _) => []

/-- What `getline` gives in a loop until it fails. -/
def lines (sep : Char) (stream : TextStream) : List String :=
  linesLoop sep (stream.rest.length + 1) stream

theorem linesLoop_ended (sep : Char) (fuel : ℕ) {stream : TextStream} (h : stream.good = false) :
    linesLoop sep fuel stream = [] := by
  cases fuel with
  | zero => rfl
  | succ fuel => simp [linesLoop, getline, h]

theorem getline_shorter {sep : Char} {token line : String} {stream after : TextStream}
    (h : stream.getline sep token = (true, line, after)) :
    after.good = false ∨ after.rest.length < stream.rest.length := by
  unfold getline at h
  split at h
  · split at h
    · cases h
    next hrest =>
      split at h
      · obtain ⟨_, _, rfl⟩ := h
        refine .inr ?_
        have hle := (List.dropWhile_sublist (l := stream.rest) fun c => decide (c ≠ sep)).length_le
        have hpos := List.length_pos_iff.mpr hrest
        rw [List.length_drop]
        omega
      · obtain ⟨_, _, rfl⟩ := h
        exact .inl rfl
  · cases h

theorem linesLoop_congr (sep : Char) {fuel fuel' : ℕ} {stream : TextStream}
    (h : stream.rest.length < fuel) (h' : stream.rest.length < fuel') :
    linesLoop sep fuel stream = linesLoop sep fuel' stream := by
  induction fuel generalizing fuel' stream with
  | zero => exact absurd h (Nat.not_lt_zero _)
  | succ fuel ih =>
    cases fuel' with
    | zero => exact absurd h' (Nat.not_lt_zero _)
    | succ fuel' =>
      unfold linesLoop
      split
      next line after hline =>
        rcases getline_shorter hline with hended | hshorter
        · rw [linesLoop_ended sep fuel hended, linesLoop_ended sep fuel' hended]
        · rw [ih (show after.rest.length < fuel by omega) (show after.rest.length < fuel' by omega)]
      · rfl

/-- The loop has a round for every line. -/
theorem lines_eq (sep : Char) (stream : TextStream) :
    stream.lines sep =
      match stream.getline sep "" with
      | (true, line, stream) => line :: stream.lines sep
      | (false, _, _) => [] := by
  unfold lines
  rw [linesLoop]
  split
  next line after hline =>
    rcases getline_shorter hline with hended | hshorter
    · rw [linesLoop_ended sep _ hended, linesLoop_ended sep _ hended]
    · rw [linesLoop_congr sep hshorter (Nat.lt_succ_self after.rest.length)]
  · rfl

theorem getline_line {sep : Char} {line : String} (h : sep ∉ line.toList) (token : String)
    (rest : List Char) :
    getline sep token { rest := line.toList ++ sep :: rest } = (true, line, { rest }) := by
  obtain ⟨htake, hdrop⟩ := takeWhile_field h rest
  unfold getline
  dsimp only
  rw [htake, hdrop]
  simp

/-- Lines that are each ended by a separator are read back, and so is a last one
without it, unless it is empty. -/
theorem lines_framed {sep : Char} {texts : List String} {tail : String}
    (h : ∀ line ∈ texts, sep ∉ line.toList) (htail : sep ∉ tail.toList) :
    lines sep { rest := (texts.flatMap fun line => line.toList ++ [sep]) ++ tail.toList } =
      texts ++ if tail = "" then [] else [tail] := by
  induction texts with
  | nil =>
    have hlast := getline_last htail ""
    have htext : atFields sep [tail] = { rest := tail.toList } := rfl
    rw [htext] at hlast
    rw [List.flatMap_nil, List.nil_append, List.nil_append, lines_eq, hlast]
    by_cases hempty : tail = ""
    · rw [if_pos hempty, if_pos hempty]
    · rw [if_neg hempty, if_neg hempty]
      dsimp only
      rw [lines, linesLoop_ended sep _ rfl]
  | cons line texts ih =>
    rw [lines_eq, List.flatMap_cons, List.append_assoc, List.append_assoc, List.singleton_append,
      getline_line (h line (List.mem_cons_self ..))]
    dsimp only
    rw [ih fun l hl => h l (List.mem_cons_of_mem _ hl), List.cons_append]

theorem lines_terminated {sep : Char} {texts : List String} (h : ∀ line ∈ texts, sep ∉ line.toList) :
    lines sep { rest := texts.flatMap fun line => line.toList ++ [sep] } = texts := by
  have hempty : sep ∉ "".toList := List.not_mem_nil
  have hframed := lines_framed h hempty
  rw [if_pos rfl, List.append_nil] at hframed
  simpa using hframed

end TextStream

end CryptoArbBot
