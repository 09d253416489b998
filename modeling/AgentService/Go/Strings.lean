import Mathlib.Data.List.DropRight
import Mathlib.Data.List.TakeWhile

/-!
# Go strings

The functions of Go's `strings` and `unicode` packages that the services call, on valid UTF-8. A
Go string is a Lean `String`; `[]rune(s)` is its list of characters and `len(s)` its number of
UTF-8 bytes.
-/

namespace AgentService.Go

open List

/-- `unicode.IsSpace`: the characters with the White_Space property. -/
def isSpace (c : Char) : Bool :=
  c.toNat ∈ [0x09, 0x0A, 0x0B, 0x0C, 0x0D, 0x20, 0x85, 0xA0, 0x1680, 0x2028, 0x2029, 0x202F, 0x205F,
    0x3000] || (0x2000 ≤ c.toNat && c.toNat ≤ 0x200A)

/-- `strings.TrimSpace`. -/
def trimSpace (s : String) : String :=
  String.ofList ((s.toList.dropWhile isSpace).reverse.dropWhile isSpace).reverse

/-- `[]rune(s)`. -/
def runes (s : String) : List Char := s.toList

/-- Trimming leaves nothing exactly of the strings that are all white space. -/
theorem trimSpace_eq_empty_iff (s : String) : trimSpace s = "" ↔ ∀ c ∈ s.toList, isSpace c := by
  have hofList : trimSpace s = "" ↔
      ((s.toList.dropWhile isSpace).reverse.dropWhile isSpace).reverse = [] := by
    unfold trimSpace
    rw [← String.toList_inj]
    simp
  rw [hofList, reverse_eq_nil_iff, dropWhile_eq_nil_iff]
  simp only [mem_reverse]
  constructor
  · intro h
    rw [← dropWhile_eq_nil_iff]
    -- The first character that is kept would not be white space.
    by_contra hne
    have hhead := head_dropWhile_not isSpace hne
    rw [h _ (head_mem hne)] at hhead
    exact Bool.noConfusion hhead
  · intro h c hc
    exact h c (dropWhile_subset _ hc)

/-- Trimming leaves a string without white space as it is. -/
theorem trimSpace_eq_self {s : String} (h : ∀ c ∈ s.toList, isSpace c = false) :
    trimSpace s = s := by
  have hdrop : ∀ l : List Char, (∀ c ∈ l, isSpace c = false) → l.dropWhile isSpace = l := by
    rintro (_ | ⟨c, l⟩) hl
    · rfl
    · exact dropWhile_cons_of_neg (by simp [hl c mem_cons_self])
  unfold trimSpace
  rw [hdrop _ h, hdrop _ fun c hc => h c (mem_reverse.1 hc), reverse_reverse, String.ofList_toList]

/-! ## Splitting into pieces of bounded length -/

/-- The pieces of `l` of length `size`, the last one possibly shorter: the loop
`for start := 0; start < len(l); start += size`, on what is left of `l`. `fuel` bounds the number of
pieces. -/
def chunks {α : Type} (size : ℕ) : ℕ → List α → List (List α)
  | 0, _ => []
  | _, [] => []
  | fuel + 1, l => l.take size :: chunks size fuel (l.drop size)

variable {α : Type} {size : ℕ}

/-- The pieces in order give the list back. -/
theorem chunks_flatten (hsize : 0 < size) :
    ∀ (fuel : ℕ) (l : List α), l.length ≤ fuel → (chunks size fuel l).flatten = l
  | 0, l, h => by
    have hnil : l = [] := eq_nil_of_length_eq_zero (by omega)
    rw [hnil]
    rfl
  | _ + 1, [], _ => rfl
  | fuel + 1, a :: l, h => by
    have hdrop : ((a :: l).drop size).length ≤ fuel := by
      simp only [length_drop, length_cons] at h ⊢
      omega
    simp only [chunks, flatten_cons, chunks_flatten hsize fuel _ hdrop, take_append_drop]

/-- Each piece has between one and `size` elements. -/
theorem chunks_length_mem (hsize : 0 < size) :
    ∀ (fuel : ℕ) (l : List α), ∀ p ∈ chunks size fuel l, 1 ≤ p.length ∧ p.length ≤ size
  | 0, _, p, hp => by simp [chunks] at hp
  | _ + 1, [], p, hp => by simp [chunks] at hp
  | fuel + 1, a :: l, p, hp => by
    simp only [chunks, List.mem_cons] at hp
    rcases hp with rfl | hp
    · simp only [List.length_take, List.length_cons]
      omega
    · exact chunks_length_mem hsize fuel _ p hp

theorem chunks_ne_nil {l : List α} (hl : l ≠ []) : chunks size l.length l ≠ [] := by
  obtain ⟨a, l, rfl⟩ := exists_cons_of_ne_nil hl
  simp [chunks]

end AgentService.Go
