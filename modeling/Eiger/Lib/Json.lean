/-!
# JSON values

The values that JSON texts stand for, with integers kept apart from other numbers, and the accessors
that find nothing where a value is of another kind. How texts and values are converted into each
other is a parameter, `Codec`.
-/

namespace Json

/-- A number: an unsigned or a negative integer, or a float by its bits. -/
inductive Number where
  | posInt (n : Nat)
  | negInt (n : Int)
  | float (bits : UInt64)
  deriving DecidableEq, Repr

/-- A JSON value. -/
inductive Value where
  | null
  | bool (b : Bool)
  | number (n : Number)
  | string (s : String)
  | array (items : List Value)
  | object (fields : List (String × Value))
  deriving Repr

namespace Value

mutual

/-- Equality of values is decidable. -/
def decEq (v w : Value) : Decidable (v = w) :=
  match v, w with
  | .null, .null => isTrue rfl
  | .bool a, .bool b => decidable_of_iff (a = b) (by simp)
  | .number a, .number b => decidable_of_iff (a = b) (by simp)
  | .string a, .string b => decidable_of_iff (a = b) (by simp)
  | .array a, .array b => match decEqItems a b with
    | isTrue h => isTrue (h ▸ rfl)
    | isFalse h => isFalse fun he => h (by injection he)
  | .object a, .object b => match decEqFields a b with
    | isTrue h => isTrue (h ▸ rfl)
    | isFalse h => isFalse fun he => h (by injection he)
  | .null, .bool _ | .null, .number _ | .null, .string _ | .null, .array _ | .null, .object _
  | .bool _, .null | .bool _, .number _ | .bool _, .string _ | .bool _, .array _
  | .bool _, .object _ | .number _, .null | .number _, .bool _ | .number _, .string _
  | .number _, .array _ | .number _, .object _ | .string _, .null | .string _, .bool _
  | .string _, .number _ | .string _, .array _ | .string _, .object _ | .array _, .null
  | .array _, .bool _ | .array _, .number _ | .array _, .string _ | .array _, .object _
  | .object _, .null | .object _, .bool _ | .object _, .number _ | .object _, .string _
  | .object _, .array _ => isFalse nofun

/-- Equality of lists of values is decidable. -/
def decEqItems (l m : List Value) : Decidable (l = m) :=
  match l, m with
  | [], [] => isTrue rfl
  | v :: l, w :: m => match decEq v w, decEqItems l m with
    | isTrue h, isTrue h' => isTrue (h ▸ h' ▸ rfl)
    | isFalse h, _ => isFalse fun he => h (by injection he)
    | _, isFalse h => isFalse fun he => h (by injection he)
  | [], _ :: _ | _ :: _, [] => isFalse nofun

/-- Equality of lists of fields is decidable. -/
def decEqFields (l m : List (String × Value)) : Decidable (l = m) :=
  match l, m with
  | [], [] => isTrue rfl
  | (k, v) :: l, (j, w) :: m => match decEq v w, decEqFields l m with
    | isTrue h, isTrue h' => decidable_of_iff (k = j) (by simp [h, h'])
    | isFalse h, _ => isFalse fun he => h (by simp at he; exact he.1.2)
    | _, isFalse h => isFalse fun he => h (by simp at he; exact he.2)
  | [], _ :: _ | _ :: _, [] => isFalse nofun

end

instance : DecidableEq Value := decEq

/-- The value under a key of an object. -/
def get (v : Value) (key : String) : Option Value :=
  match v with
  | .object fields => fields.lookup key
  | _ => none

/-- The text of a string. -/
def asStr : Value → Option String
  | .string s => some s
  | _ => none

/-- The value of an unsigned integer. -/
def asU64 : Value → Option Nat
  | .number (.posInt n) => some n
  | _ => none

/-- The value of a truth value. -/
def asBool : Value → Option Bool
  | .bool b => some b
  | _ => none

/-- The texts of an array of strings. -/
def asStrings : Value → Option (List String)
  | .array items => items.mapM asStr
  | _ => none

/-- What is read of an optional field: nothing where it is missing or null, and where there is a
value what that is read as, if it can be. -/
def optional {α : Type} (read : Value → Option α) (v : Value) (key : String) : Option (Option α) :=
  match v.get key with
  | none => some none
  | some .null => some none
  | some value => (read value).map some

/-- An optional field is read as it is written, if it is never written as null. -/
theorem optional_of_get {α : Type} {read : Value → Option α} {v : Value} {key : String}
    {o : Option α} {f : α → Value} (hget : v.get key = o.map f) (hread : ∀ a, read (f a) = some a)
    (hnull : read .null = none) : v.optional read key = some o := by
  rw [optional, hget]
  cases o with
  | none => rfl
  | some a =>
    rw [Option.map_some]
    split
    · next hnone => cases hnone
    · next heq =>
      have ha := hread a
      rw [Option.some.inj heq, hnull] at ha
      cases ha
    · next heq =>
      cases heq
      rw [hread, Option.map_some]

/-- A field that may be present is found under its own name. -/
theorem lookup_field {α : Type} (o : Option α) (f : α → Value) (name key : String) :
    (o.map fun a => (name, f a)).toList.lookup key = if key = name then o.map f else none := by
  cases o with
  | none => simp
  | some a =>
    rw [Option.map_some, Option.toList_some, List.lookup_cons]
    split
    · next hkey => rw [if_pos (beq_iff_eq.1 hkey), Option.map_some]
    · next hkey => rw [if_neg (ne_of_beq_false hkey), List.lookup_nil]

/-- A string is found under its text, and nothing else is. -/
theorem asStr_eq_some_iff {found : Option Value} {text : String} :
    found.bind asStr = some text ↔ found = some (.string text) := by
  cases found with
  | none => simp
  | some value => cases value <;> simp [asStr]

/-- An array of strings is read as these. -/
@[simp] theorem asStrings_map (texts : List String) :
    asStrings (.array (texts.map .string)) = some texts := by
  rw [asStrings]
  induction texts with
  | nil => rfl
  | cons text texts ih => simp [asStr, ih]

end Value

/-- How texts and values are converted: `fromStr` reads a text or fails with an error, by its text,
and `toString` writes a value. -/
structure Codec where
  fromStr : String → Except String Value
  toString : Value → String

end Json
