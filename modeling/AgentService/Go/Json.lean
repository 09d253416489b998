import AgentService.Go.Encoding

/-!
# JSON texts

What `json.Marshal` writes for strings, byte slices, and integers, as lists of characters. A text is
`Decodable` when it is known where it ends and what it stands for, whatever follows it; the texts of
strings are (`decodable_quote`), and so are the texts of byte slices (`decodable_bytesText`) and
everything that ends with a character that does not occur in it (`Decodable.of_terminated`).
Concatenations of such texts determine their parts (`Decodable.flatMap_injective`).
-/

namespace AgentService.Go

open List

/-- A form of values that is known to end, whatever follows it. -/
def Decodable {α : Type} (text : α → List Char) : Prop :=
  ∀ a b x y, text a ++ x = text b ++ y → a = b ∧ x = y

/-! ## Rules -/

section Rules

variable {α β : Type} {text : α → List Char}

/-- A form that ends with a character that does not occur before. -/
theorem Decodable.of_terminated {stop : Char} (hinj : Function.Injective text)
    (hstop : ∀ a, stop ∉ text a) : Decodable fun a => text a ++ [stop] := by
  intro a b x y h
  rw [append_assoc, append_assoc] at h
  obtain ⟨htext, hx⟩ := append_stop_inj (hstop a) (hstop b) h
  exact ⟨hinj htext, hx⟩

/-- A decodable form after a text that is the same. -/
theorem Decodable.field (h : Decodable text) {name : List Char} {a b : α} {x y : List Char}
    (heq : name ++ (text a ++ x) = name ++ (text b ++ y)) : a = b ∧ x = y :=
  h a b x y (append_cancel_left heq)

/-- Decodable forms, none of which is empty, determine the list of what they stand for. -/
theorem Decodable.flatMap_injective (h : Decodable text) (hne : ∀ a, text a ≠ []) :
    Function.Injective fun l : List α => l.flatMap text := by
  intro l
  induction l with
  | nil =>
    intro l' heq
    cases l' with
    | nil => rfl
    | cons b l' =>
      have hnil : text b ++ l'.flatMap text = [] := heq.symm
      exact absurd (append_eq_nil_iff.1 hnil).1 (hne b)
  | cons a l ih =>
    intro l' heq
    cases l' with
    | nil =>
      have hnil : text a ++ l.flatMap text = [] := heq
      exact absurd (append_eq_nil_iff.1 hnil).1 (hne a)
    | cons b =>
      obtain ⟨hab, hrest⟩ := h a b _ _ heq
      rw [hab, ih hrest]

end Rules

/-! ## Strings -/

/-- A character within quotes, with HTML characters escaped as `json.Marshal` of Go 1.21 does, the
version of `go.mod`. (From Go 1.22 on, backspace and form feed are written `\b` and `\f`.) -/
def escape (c : Char) : List Char :=
  if c = '"' ∨ c = '\\' then ['\\', c]
  else if c = '\n' then ['\\', 'n']
  else if c = '\r' then ['\\', 'r']
  else if c = '\t' then ['\\', 't']
  else if c.toNat < 0x20 ∨ c ∈ ['<', '>', '&', '\u2028', '\u2029'] then
    ['\\', 'u', Nat.digitChar (c.toNat / 4096), Nat.digitChar (c.toNat / 256 % 16),
      Nat.digitChar (c.toNat / 16 % 16), Nat.digitChar (c.toNat % 16)]
  else [c]

/-- The text of a string. -/
def quote (s : String) : List Char := '"' :: s.toList.flatMap escape ++ ['"']

/-- The value of a hexadecimal digit. -/
def hexValue (c : Char) : ℕ := if c.isDigit then c.toNat - 0x30 else c.toNat - 0x57

/-- The first character within quotes, and what follows it. -/
def unescape : List Char → Option (Char × List Char)
  | '\\' :: 'u' :: a :: b :: c :: d :: rest =>
    some (Char.ofNat (hexValue a * 4096 + hexValue b * 256 + hexValue c * 16 + hexValue d), rest)
  | '\\' :: 'n' :: rest => some ('\n', rest)
  | '\\' :: 'r' :: rest => some ('\r', rest)
  | '\\' :: 't' :: rest => some ('\t', rest)
  | '\\' :: c :: rest => some (c, rest)
  | c :: rest => some (c, rest)
  | [] => none

variable {c : Char}

/-- The characters that are written with their number are read back. -/
theorem unescape_hex (h : c.toNat < 0x20 ∨ c ∈ ['<', '>', '&', '\u2028', '\u2029'])
    (x : List Char) :
    unescape ('\\' :: 'u' :: Nat.digitChar (c.toNat / 4096) :: Nat.digitChar (c.toNat / 256 % 16) ::
      Nat.digitChar (c.toNat / 16 % 16) :: Nat.digitChar (c.toNat % 16) :: x) = some (c, x) := by
  have hcontrol : ∀ n < 0x20, Char.ofNat (hexValue (Nat.digitChar (n / 4096)) * 4096 +
      hexValue (Nat.digitChar (n / 256 % 16)) * 256 + hexValue (Nat.digitChar (n / 16 % 16)) * 16 +
      hexValue (Nat.digitChar (n % 16))) = Char.ofNat n := by decide
  rcases h with h | h
  · have := hcontrol c.toNat h
    rw [Char.ofNat_toNat] at this
    simp only [unescape, this]
  · simp only [mem_cons, not_mem_nil, or_false] at h
    rcases h with rfl | rfl | rfl | rfl | rfl <;> rfl

/-- An escaped character is read back, whatever follows it. -/
theorem unescape_escape (c : Char) (x : List Char) : unescape (escape c ++ x) = some (c, x) := by
  unfold escape
  split_ifs with h1 h2 h3 h4 h5
  · rcases h1 with rfl | rfl <;> rfl
  · subst h2
    rfl
  · subst h3
    rfl
  · subst h4
    rfl
  · exact unescape_hex h5 x
  · have hc : c ≠ '\\' := fun hc => h1 (.inr hc)
    simp only [cons_append, nil_append]
    rw [unescape]
    all_goals simp_all

/-- An escaped character does not end the string. -/
theorem escape_ne_quote (c : Char) (x y : List Char) : escape c ++ x ≠ '"' :: y := by
  unfold escape
  split_ifs with h1 h2 h3 h4 h5
  case neg =>
    intro h
    exact h1 (.inl (cons.inj h).1)
  all_goals
    intro h
    exact absurd (cons.inj h).1 (by decide)

/-- The text of a string shows where the string ends. -/
theorem decodable_quote : Decodable quote := by
  have hchars : ∀ (l l' x y : List Char),
      l.flatMap escape ++ '"' :: x = l'.flatMap escape ++ '"' :: y → l = l' ∧ x = y := by
    intro l
    induction l with
    | nil =>
      intro l' x y h
      cases l' with
      | nil => exact ⟨rfl, (cons.inj h).2⟩
      | cons d =>
        rw [flatMap_cons, append_assoc] at h
        exact absurd h.symm (escape_ne_quote d _ _)
    | cons c l ih =>
      intro l' x y h
      cases l' with
      | nil =>
        rw [flatMap_cons, append_assoc] at h
        exact absurd h (escape_ne_quote c _ _)
      | cons d l' =>
        rw [flatMap_cons, append_assoc, flatMap_cons, append_assoc] at h
        have hread := congrArg unescape h
        rw [unescape_escape, unescape_escape, Option.some.injEq, Prod.mk.injEq] at hread
        obtain ⟨hl, hx⟩ := ih l' x y hread.2
        exact ⟨by rw [hread.1, hl], hx⟩
  intro s t x y h
  simp only [quote, cons_append, append_assoc, nil_append, cons.injEq, true_and] at h
  obtain ⟨hl, hx⟩ := hchars _ _ x y h
  exact ⟨String.toList_inj.1 hl, hx⟩

/-! ## Byte slices -/

/-- The alphabet of `base64.StdEncoding`. -/
def base64Alphabet : List Char :=
  "ABCDEFGHIJKLMNOPQRSTUVWXYZabcdefghijklmnopqrstuvwxyz0123456789+/".toList

/-- The character for six bits. -/
def base64Char (n : ℕ) : Char := base64Alphabet.getD n '='

/-- `base64.StdEncoding.EncodeToString`. -/
def base64 : List UInt8 → List Char
  | a :: b :: c :: rest =>
    base64Char (a.toNat / 4) :: base64Char (a.toNat % 4 * 16 + b.toNat / 16) ::
      base64Char (b.toNat % 16 * 4 + c.toNat / 64) :: base64Char (c.toNat % 64) :: base64 rest
  | [a, b] =>
    [base64Char (a.toNat / 4), base64Char (a.toNat % 4 * 16 + b.toNat / 16),
      base64Char (b.toNat % 16 * 4), '=']
  | [a] => [base64Char (a.toNat / 4), base64Char (a.toNat % 4 * 16), '=', '=']
  | [] => []

/-- The text of a byte slice: an empty one is nil. -/
def bytesText : List UInt8 → List Char
  | [] => "null".toList
  | b :: bytes => '"' :: base64 (b :: bytes) ++ ['"']

/-- The six bits of a character. -/
def base64Value (c : Char) : ℕ := base64Alphabet.idxOf c

/-- The bytes of an encoding. -/
def unbase64 : List Char → List UInt8
  | w :: x :: y :: z :: rest =>
    if y = '=' then [UInt8.ofNat (base64Value w * 4 + base64Value x / 16)]
    else if z = '=' then
      [UInt8.ofNat (base64Value w * 4 + base64Value x / 16),
        UInt8.ofNat (base64Value x % 16 * 16 + base64Value y / 4)]
    else
      UInt8.ofNat (base64Value w * 4 + base64Value x / 16) ::
        UInt8.ofNat (base64Value x % 16 * 16 + base64Value y / 4) ::
          UInt8.ofNat (base64Value y % 4 * 64 + base64Value z) :: unbase64 rest
  | _ => []

variable {n : ℕ}

theorem base64Value_base64Char (hn : n < 64) : base64Value (base64Char n) = n := by
  have hall : ∀ n < 64, base64Value (base64Char n) = n := by decide +kernel
  exact hall n hn

theorem base64Char_ne (hn : n < 64) : base64Char n ≠ '=' := by
  have hall : ∀ n < 64, base64Char n ≠ '=' := by decide +kernel
  exact hall n hn

/-- An encoding holds the characters of the alphabet and the padding only. -/
theorem notMem_base64 (hc : base64Alphabet.contains c = false) (hpad : c ≠ '=')
    (bytes : List UInt8) : c ∉ base64 bytes := by
  have hne : ∀ n, c ≠ base64Char n := by
    intro n hn
    rw [base64Char, getD_eq_getElem?_getD] at hn
    rcases Nat.lt_or_ge n base64Alphabet.length with hlt | hge
    · rw [getElem?_eq_getElem hlt, Option.getD_some] at hn
      rw [hn, contains_iff_mem.2 (getElem_mem hlt)] at hc
      cases hc
    · rw [getElem?_eq_none hge] at hn
      exact hpad hn
  induction bytes using base64.induct with
  | case1 a b c rest ih => simp [base64, hne, ih]
  | case2 => simp [base64, hne, hpad]
  | case3 => simp [base64, hne, hpad]
  | case4 => simp [base64]

/-- The bytes of a slice are read back. -/
theorem unbase64_base64 (bytes : List UInt8) : unbase64 (base64 bytes) = bytes := by
  have hbyte : ∀ {n : ℕ} {b : UInt8}, n = b.toNat → UInt8.ofNat n = b := by
    rintro n b rfl
    exact UInt8.ofNat_toNat
  induction bytes using base64.induct with
  | case1 a b c rest ih =>
    have ha := a.toNat_lt
    have hb := b.toNat_lt
    have hc := c.toNat_lt
    have hy := base64Char_ne (show b.toNat % 16 * 4 + c.toNat / 64 < 64 by omega)
    have hz := base64Char_ne (show c.toNat % 64 < 64 by omega)
    simp only [base64, unbase64, if_neg hy, if_neg hz, ih]
    rw [base64Value_base64Char (by omega), base64Value_base64Char (by omega),
      base64Value_base64Char (by omega), base64Value_base64Char (by omega),
      hbyte (b := a) (by omega), hbyte (b := b) (by omega), hbyte (b := c) (by omega)]
  | case2 a b =>
    have ha := a.toNat_lt
    have hb := b.toNat_lt
    have hy := base64Char_ne (show b.toNat % 16 * 4 < 64 by omega)
    simp only [base64, unbase64, if_neg hy, if_true]
    rw [base64Value_base64Char (by omega), base64Value_base64Char (by omega),
      base64Value_base64Char (by omega), hbyte (b := a) (by omega), hbyte (b := b) (by omega)]
  | case3 a =>
    have ha := a.toNat_lt
    simp only [base64, unbase64, if_true]
    rw [base64Value_base64Char (by omega), base64Value_base64Char (by omega),
      hbyte (b := a) (by omega)]
  | case4 => rfl

/-- Groups of four characters, of which the last may be padded. -/
def isBase64 : List Char → Bool
  | [] => true
  | [w, x, '=', '='] => base64Alphabet.contains w && base64Alphabet.contains x
  | [w, x, y, '='] => [w, x, y].all base64Alphabet.contains
  | w :: x :: y :: z :: rest => [w, x, y, z].all base64Alphabet.contains && isBase64 rest
  | _ => false

/-- `base64.StdEncoding.DecodeString`: line breaks are skipped, and bits past the last byte are
ignored. -/
def decodeString (s : String) : Option (List UInt8) :=
  let text := s.toList.filter fun c => c ≠ '\r' ∧ c ≠ '\n'
  if isBase64 text then some (unbase64 text) else none

theorem contains_base64Char (hn : n < 64) : base64Alphabet.contains (base64Char n) = true := by
  have hall : ∀ n < 64, base64Alphabet.contains (base64Char n) = true := by decide +kernel
  exact hall n hn

/-- An encoding is well formed. -/
theorem isBase64_base64 (bytes : List UInt8) : isBase64 (base64 bytes) = true := by
  induction bytes using base64.induct with
  | case1 a b c rest ih =>
    have ha := a.toNat_lt
    have hb := b.toNat_lt
    have hc := c.toNat_lt
    have hz := base64Char_ne (show c.toNat % 64 < 64 by omega)
    rw [base64, isBase64.eq_4 _ _ _ _ _ (fun _ h _ => hz h) (fun h _ => hz h), ih]
    simp only [all_cons, all_nil, Bool.and_true, Bool.and_eq_true]
    exact ⟨contains_base64Char (by omega), contains_base64Char (by omega),
      contains_base64Char (by omega), contains_base64Char (by omega)⟩
  | case2 a b =>
    have ha := a.toNat_lt
    have hb := b.toNat_lt
    have hy := base64Char_ne (show b.toNat % 16 * 4 < 64 by omega)
    rw [base64, isBase64.eq_3 _ _ _ (fun h => hy h)]
    simp only [all_cons, all_nil, Bool.and_true, Bool.and_eq_true]
    exact ⟨contains_base64Char (by omega), contains_base64Char (by omega),
      contains_base64Char (by omega)⟩
  | case3 a =>
    have ha := a.toNat_lt
    rw [base64, isBase64, contains_base64Char (by omega), contains_base64Char (by omega)]
    rfl
  | case4 => rfl

/-- An encoding is decoded to its bytes. -/
theorem decodeString_base64 (bytes : List UInt8) :
    decodeString (String.ofList (base64 bytes)) = some bytes := by
  -- there are no line breaks to skip
  have hfilter : (base64 bytes).filter (fun c => c ≠ '\r' ∧ c ≠ '\n') = base64 bytes := by
    refine filter_eq_self.2 fun c hc => decide_eq_true ⟨?_, ?_⟩
    · rintro rfl
      exact notMem_base64 (by decide +kernel) (by decide) bytes hc
    · rintro rfl
      exact notMem_base64 (by decide +kernel) (by decide) bytes hc
  rw [decodeString, String.toList_ofList, hfilter, if_pos (isBase64_base64 bytes), unbase64_base64]

/-- The text of a byte slice shows where the slice ends. -/
theorem decodable_bytesText : Decodable bytesText := by
  have hquoted := Decodable.of_terminated (Function.LeftInverse.injective unbase64_base64)
    (notMem_base64 (c := '"') (by decide +kernel) (by decide))
  intro l l' x y h
  cases l with
  | nil =>
    cases l' with
    | nil => exact ⟨rfl, append_cancel_left h⟩
    | cons => exact absurd (cons.inj h).1 (by decide)
  | cons =>
    cases l' with
    | nil => exact absurd (cons.inj h).1 (by decide)
    | cons => exact hquoted _ _ x y (cons.inj h).2

/-! ## Integers -/

/-- The decimal form of an integer has digits and a sign only. -/
theorem notMem_itoa (hdigit : c.isDigit = false) (hsign : c ≠ '-') (n : ℤ) :
    c ∉ (itoa n).toList := by
  have hdigits : ∀ n : ℕ, c ∉ Nat.toDigits 10 n := by
    intro n h
    have := Nat.isDigit_of_mem_toDigits (by decide) (by decide) h
    rw [hdigit] at this
    cases this
  cases n with
  | ofNat n =>
    rw [Int.ofNat_eq_natCast, toList_itoa_natCast]
    exact hdigits n
  | negSucc =>
    rw [toList_itoa_negSucc, mem_cons]
    rintro (h | h)
    · exact hsign h
    · exact hdigits _ h

end AgentService.Go
