import Mathlib.Algebra.Group.Int.Defs
import Mathlib.Data.Int.Notation
import Mathlib.Data.List.Basic

/-!
# Values of a PostgreSQL statement

What PostgreSQL makes of the values that a statement is given: which texts and integers it takes,
the functions `length`, `btrim`, `NULLIF`, and `COALESCE`, and the error that a statement ends with.
A `NULL` is `none`, a number is an integer that is checked against the width of its column.
-/

namespace AgentService.Sql

/-- What a statement fails with. -/
inductive Fault where
  /-- The statement returned no row (`sql.ErrNoRows`). -/
  | noRows
  /-- The driver could not encode a parameter. -/
  | driver
  /-- The database answered with an SQLSTATE code. -/
  | state (code : String)
  deriving DecidableEq

/-- A text that a `TEXT` parameter takes: it has no NUL character. -/
def isText (value : String) : Bool := value.toList.all fun c => c.toNat ≠ 0

/-- The range of `INT`. -/
def isInt4 (value : ℤ) : Bool := -2 ^ 31 ≤ value ∧ value < 2 ^ 31

/-- The range of `BIGINT`. -/
def isInt8 (value : ℤ) : Bool := -2 ^ 63 ≤ value ∧ value < 2 ^ 63

/-- `btrim`: the text without the spaces at its ends. -/
def btrim (value : String) : String :=
  String.ofList ((value.toList.dropWhile fun c => c.toNat = 0x20).reverse.dropWhile
    fun c => c.toNat = 0x20).reverse

/-- `length(value) BETWEEN 1 AND bound`, after `btrim`. -/
def isName (value : String) (bound : ℕ) : Bool :=
  1 ≤ (btrim value).length ∧ (btrim value).length ≤ bound

/-- `NULLIF`. -/
def nullif {α : Type} [DecidableEq α] (value other : α) : Option α :=
  if value = other then none else some value

/-- `COALESCE` of a value that may be null and one that is not. -/
def coalesce {α : Type} (value : Option α) (other : α) : α := value.getD other

/-- What a statement makes of its `TEXT` and `INT` parameters. The driver encodes the numbers, and
the database refuses a NUL character (22021). -/
def parameterFault (texts : List String) (ints : List ℤ) : Option Fault :=
  if ¬ ints.all isInt4 then some .driver
  else if ¬ texts.all isText then some (.state "22021")
  else none

/-- `COALESCE(NULLIF(value,''), stored)` is the value, where one is given or none is stored. -/
theorem coalesce_nullif {value stored : String} (h : value ≠ "" ∨ stored = "") :
    coalesce (nullif value "") stored = value := by
  unfold coalesce nullif
  split_ifs with hempty
  · rw [hempty]
    exact h.resolve_left (not_not.2 hempty)
  · rfl

/-- Parameters of the right kind are taken. -/
theorem parameterFault_eq_none {texts : List String} {ints : List ℤ}
    (htexts : ∀ value ∈ texts, isText value = true) (hints : ∀ value ∈ ints, isInt4 value = true) :
    parameterFault texts ints = none := by
  unfold parameterFault
  rw [if_neg (not_not.2 (List.all_eq_true.2 hints)), if_neg (not_not.2 (List.all_eq_true.2 htexts))]

end AgentService.Sql
