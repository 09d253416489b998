import AgentService.Go.Json

/-!
# Values of type `any` and their copies through JSON

The values that `json.Marshal` can meet, up to what `reflect.DeepEqual` can tell apart: a nil slice
or map has its type and is no `nil`, and a slice of strings is no slice of `any`. Go's
floating-point numbers are a parameter. `Any.copy` is what `json.Unmarshal` makes of the text that
`json.Marshal` writes. A copy is its own copy (`Any.copy_copy`).
-/

namespace AgentService.Go

mutual

/-- A value of type `any`. -/
inductive Any (F : Type) where
  | null
  | bool (b : Bool)
  | float (x : F)
  /-- A number of an integer type. -/
  | int (n : ℤ)
  | str (s : String)
  /-- A `[]byte`, which may be nil. -/
  | bytes (b : Option (List UInt8))
  /-- A nil slice or map of another type. -/
  | typedNil
  /-- A slice: `[]any`, or one with elements of a type. -/
  | slice (typed : Bool) (elems : Entries F)
  /-- A map: `map[string]any`, or one with values of a type. -/
  | map (typed : Bool) (entries : Entries F)
  /-- A value that `json.Marshal` refuses. -/
  | unencodable
  deriving DecidableEq

/-- The entries of a map in the order of their keys, or the elements of a slice under empty keys. -/
inductive Entries (F : Type) where
  | nil
  | cons (key : String) (value : Any F) (rest : Entries F)
  deriving DecidableEq

end

/-- What is used of `encoding/json`. -/
structure AnyJson (F : Type) where
  /-- The `float64` that the digits of an integer are read as. -/
  toFloat : ℤ → F
  /-- `json.Marshal`. -/
  marshal : Any F → Option (List UInt8)
  /-- The text of `nil` is `null`. -/
  marshal_null : marshal .null = some [110, 117, 108, 108]

variable {F : Type} (json : AnyJson F)

mutual

/-- The copy of a value through JSON. -/
def Any.copy : Any F → Option (Any F)
  | .int n => some (.float (json.toFloat n))
  | .bytes (some b) => some (.str (String.ofList (base64 b)))
  | .bytes none => some .null
  | .typedNil => some .null
  | .slice _ elems => elems.copy.map (.slice false)
  | .map _ entries => entries.copy.map (.map false)
  | .unencodable => none
  | .null => some .null
  | .bool b => some (.bool b)
  | .float x => some (.float x)
  | .str s => some (.str s)

/-- The copies of entries. -/
def Entries.copy : Entries F → Option (Entries F)
  | .nil => some .nil
  | .cons key value rest => value.copy.bind fun v => rest.copy.map (.cons key v)

end

mutual

/-- A copy is its own copy. -/
theorem Any.copy_copy : ∀ v w : Any F, v.copy json = some w → w.copy json = some w
  | .int _, _, h | .bytes (some _), _, h | .bytes none, _, h | .typedNil, _, h => by cases h; rfl
  | .null, _, h | .bool _, _, h | .float _, _, h | .str _, _, h => by cases h; rfl
  | .unencodable, _, h => by cases h
  | .slice _ elems, _, h => by
    simp only [Any.copy, Option.map_eq_some_iff] at h
    obtain ⟨elems', helems, rfl⟩ := h
    simp [Any.copy, Entries.copy_copy elems elems' helems]
  | .map _ entries, _, h => by
    simp only [Any.copy, Option.map_eq_some_iff] at h
    obtain ⟨entries', hentries, rfl⟩ := h
    simp [Any.copy, Entries.copy_copy entries entries' hentries]

/-- Copies of entries are their own copies. -/
theorem Entries.copy_copy : ∀ l m : Entries F, l.copy json = some m → m.copy json = some m
  | .nil, _, h => by cases h; rfl
  | .cons key value rest, _, h => by
    simp only [Entries.copy, Option.bind_eq_some_iff, Option.map_eq_some_iff] at h
    obtain ⟨v, hv, rest', hrest, rfl⟩ := h
    simp [Entries.copy, Any.copy_copy value v hv, Entries.copy_copy rest rest' hrest]

end

end AgentService.Go
