import CryptoArbBot.Common.Text
import Mathlib.Data.List.Induction
import Mathlib.Data.List.Sort
import Mathlib.Order.Lattice

/-!
# JSON values as the clients read them

The accessors follow nlohmann::json: `contains` is false on anything but an
object, `value` throws 306 on anything but an object and 302 when the member has
another type than the default, `operator[]` with an index throws 305 on
anything but an array.
-/

namespace CryptoArbBot

inductive Json where
  | null
  | boolean (b : Bool)
  | integer (n : ℤ)
  | float (x : ℚ)
  | string (s : String)
  | array (items : List Json)
  | object (members : List (String × Json))

namespace Json

def typeName : Json → String
  | .null => "null"
  | .boolean _ => "boolean"
  | .integer _ | .float _ => "number"
  | .string _ => "string"
  | .array _ => "array"
  | .object _ => "object"

def typeError (id text : String) : String := "[json.exception.type_error." ++ id ++ "] " ++ text

def member? (j : Json) (key : String) : Option Json :=
  match j with
  | .object members => (members.find? fun m => m.1 = key).map (·.2)
  | _ => none

def contains (j : Json) (key : String) : Bool := (j.member? key).isSome

def empty : Json → Bool
  | .null => true
  | .array items => items.isEmpty
  | .object members => members.isEmpty
  | .boolean _ | .integer _ | .float _ | .string _ => false

/-- `value(key, default)` with the conversion that the type of the default asks
for. -/
def valueAs {α : Type} (convert : Json → Except String α) (j : Json) (key : String) (default : α) :
    Except String α :=
  match j with
  | .object _ =>
    match j.member? key with
    | some v => convert v
    | none => .ok default
  | _ => .error (typeError "306" ("cannot use value() with " ++ j.typeName))

def getString : Json → Except String String
  | .string s => .ok s
  | j => .error (typeError "302" ("type must be string, but is " ++ j.typeName))

def truncate (x : ℚ) : ℤ := if x < 0 then ⌈x⌉ else ⌊x⌋

/-- `get<int>()`; a boolean converts, and a number is reduced to 32 bits. -/
def getInt : Json → Except String ℤ
  | .integer n => .ok (n.bmod (2 ^ 32))
  | .float x => .ok ((truncate x).bmod (2 ^ 32))
  | .boolean b => .ok (if b then 1 else 0)
  | j => .error (typeError "302" ("type must be number, but is " ++ j.typeName))

/-- `get<int64_t>()`; a boolean does not convert. -/
def getInt64 : Json → Except String ℤ
  | .integer n => .ok (n.bmod (2 ^ 64))
  | .float x => .ok ((truncate x).bmod (2 ^ 64))
  | j => .error (typeError "302" ("type must be number, but is " ++ j.typeName))

/-- `get<uint64_t>()`; a boolean does not convert. -/
def getUint64 : Json → Except String UInt64
  | .integer n => .ok (UInt64.ofNat (n % 2 ^ 64).toNat)
  | .float x => .ok (UInt64.ofNat (truncate x % 2 ^ 64).toNat)
  | j => .error (typeError "302" ("type must be number, but is " ++ j.typeName))

/-- `get<unsigned long long>()`; a boolean converts, as to any type but
`uint64_t`, `int64_t` and `double`. -/
def getUnsignedLongLong : Json → Except String UInt64
  | .integer n => .ok (UInt64.ofNat (n % 2 ^ 64).toNat)
  | .float x => .ok (UInt64.ofNat (truncate x % 2 ^ 64).toNat)
  | .boolean b => .ok (if b then 1 else 0)
  | j => .error (typeError "302" ("type must be number, but is " ++ j.typeName))

/-- `get<double>()`; a boolean does not convert. -/
def getDouble : Json → Except String ℚ
  | .integer n => .ok n
  | .float x => .ok x
  | j => .error (typeError "302" ("type must be number, but is " ++ j.typeName))

def valueString (j : Json) (key default : String) : Except String String :=
  j.valueAs getString key default

def valueInt (j : Json) (key : String) (default : ℤ) : Except String ℤ :=
  j.valueAs getInt key default

def valueInt64 (j : Json) (key : String) (default : ℤ) : Except String ℤ :=
  j.valueAs getInt64 key default

def valueDouble (j : Json) (key : String) (default : ℚ) : Except String ℚ :=
  j.valueAs getDouble key default

def first : Json → Except String Json
  | .array (item :: _) => .ok item
  | j => .error (typeError "305" ("cannot use operator[] with a numeric argument with " ++ j.typeName))

def size : Json → ℕ
  | .null => 0
  | .array items => items.length
  | .object members => members.length
  | .boolean _ | .integer _ | .float _ | .string _ => 1

/-- `operator[]` with an index that the array has. -/
def item (j : Json) (i : ℕ) : Except String Json :=
  match j with
  | .array items => .ok (items.getD i .null)
  | _ => .error (typeError "305" ("cannot use operator[] with a numeric argument with " ++ j.typeName))

/-- The values a range-based `for` visits. -/
def elements : Json → List Json
  | .null => []
  | .array items => items
  | .object members => members.map (·.2)
  | j => [j]

/-! ### Objects from initializer lists -/

/-- `std::map::emplace`, which keeps the keys in order and the value that is there. -/
def emplace (members : List (String × Json)) (m : String × Json) : List (String × Json) :=
  if members.any (fun m' => m'.1 = m.1) then members
  else members.orderedInsert (fun a b => a.1 ≤ b.1) m

def ofInitializerList (pairs : List (String × Json)) : Json := .object (pairs.foldl emplace [])

theorem find?_orderedInsert {members : List (String × Json)} {m : String × Json}
    (h : ∀ m' ∈ members, m'.1 ≠ m.1) (key : String) :
    (members.orderedInsert (fun a b => a.1 ≤ b.1) m).find? (fun m' => m'.1 = key) =
      (members.find? fun m' => m'.1 = key).or ([m].find? fun m' => m'.1 = key) := by
  induction members with
  | nil => rfl
  | cons m' members ih =>
    rw [List.orderedInsert]
    split
    · by_cases hkey : m.1 = key
      · have hnone : (m' :: members).find? (fun m' => m'.1 = key) = none := by
          rw [List.find?_eq_none]
          intro other hother
          rw [← hkey]
          simpa using h other hother
        rw [hnone, List.find?_cons_of_pos (by simpa using hkey)]
        simp [hkey]
      · rw [List.find?_cons_of_neg (by simpa using hkey)]
        simp [hkey]
    · have hrest : ∀ other ∈ members, other.1 ≠ m.1 :=
        fun other hother => h other (List.mem_cons_of_mem _ hother)
      by_cases hkey : m'.1 = key
      · simp [hkey]
      · have hskip : ∀ rest : List (String × Json),
            (m' :: rest).find? (fun m' => m'.1 = key) = rest.find? fun m' => m'.1 = key :=
          fun rest => List.find?_cons_of_neg (by simpa using hkey)
        rw [hskip, hskip, ih hrest]

theorem find?_emplace (members : List (String × Json)) (m : String × Json) (key : String) :
    (emplace members m).find? (fun m' => m'.1 = key) =
      (members.find? fun m' => m'.1 = key).or ([m].find? fun m' => m'.1 = key) := by
  unfold emplace
  split
  next hany =>
    by_cases hkey : m.1 = key
    · have hsome : (members.find? fun m' => m'.1 = key).isSome := by
        rw [List.find?_isSome]
        simpa [hkey] using hany
      rw [Option.or_of_isSome hsome]
    · simp [hkey]
  next hany =>
    refine find?_orderedInsert ?_ key
    intro m' hm' heq
    exact hany (List.any_eq_true.mpr ⟨m', hm', decide_eq_true heq⟩)

/-- The first member of a key counts, whatever the order of the map. -/
theorem member?_ofInitializerList (pairs : List (String × Json)) (key : String) :
    (ofInitializerList pairs).member? key =
      (pairs.find? fun m => m.1 = key).map (·.2) := by
  have hfind : ∀ pairs : List (String × Json),
      (pairs.foldl emplace []).find? (fun m => m.1 = key) = pairs.find? fun m => m.1 = key := by
    intro pairs
    induction pairs using List.reverseRecOn with
    | nil => rfl
    | append_singleton pairs m ih =>
      rw [List.foldl_append, List.foldl_cons, List.foldl_nil, find?_emplace, ih, List.find?_append]
  unfold ofInitializerList member?
  dsimp only
  rw [hfind]

theorem valueAs_ofInitializerList {α : Type} (convert : Json → Except String α)
    (pairs : List (String × Json)) (key : String) (default : α) :
    (ofInitializerList pairs).valueAs convert key default =
      match (pairs.find? fun m => m.1 = key).map (·.2) with
      | some v => convert v
      | none => .ok default := by
  rw [← member?_ofInitializerList]
  rfl

end Json

end CryptoArbBot
