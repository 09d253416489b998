import AgentService.Go.Json
import Mathlib.Algebra.Group.Int.Defs

/-!
# Decoding of WeCom callbacks

`decodeAESKey`, `decrypt`, and `unpad` of `trpcservice/channels/wecom/wecom.go`. A slice expression
or an index outside of its buffer panics, which is `none` here, so that a result is an
`Option (Except Err _)`. The width of `int` is a parameter: a length of 32 bits is negative where
`int` has 32 bits. AES in CBC mode is a parameter that keeps lengths.

`Padded` and `Framed` say what a plaintext looks like, without the code. `decrypt_exact` shows that
`decrypt` accepts what is framed, returns the message of the frame, and never panics.
-/

namespace AgentService.Channels.Wecom

open List Option

/-- The errors of the package that are used here. -/
inductive Err where
  | invalid
  | verification
  deriving DecidableEq

/-- `cipher.NewCBCDecrypter` of an AES block, on buffers that consist of blocks. -/
structure AES where
  /-- The plaintext, by key, initial vector, and ciphertext. -/
  cbcDecrypt : List UInt8 → List UInt8 → List UInt8 → List UInt8
  /-- `CryptBlocks` fills a buffer of the length of the ciphertext. -/
  length_cbcDecrypt : ∀ key iv c, c.length % 16 = 0 → (cbcDecrypt key iv c).length = c.length

/-! ## Buffers -/

/-- `b[lo:hi]`. -/
def slice (b : List UInt8) (lo hi : ℤ) : Option (List UInt8) :=
  if 0 ≤ lo ∧ lo ≤ hi ∧ hi ≤ b.length then some ((b.take hi.toNat).drop lo.toNat) else none

/-- `b[i]`. -/
def index (b : List UInt8) (i : ℤ) : Option UInt8 :=
  if 0 ≤ i then b[i.toNat]? else none

/-- `binary.BigEndian.Uint32`. -/
def uint32 : List UInt8 → Option ℕ
  | a :: b :: c :: d :: _ =>
    some (((a.toNat * 256 + b.toNat) * 256 + c.toNat) * 256 + d.toNat)
  | _ => none

/-- The conversion to an `int` of so many bits. -/
def toInt (bits n : ℕ) : ℤ :=
  if n % 2 ^ bits < 2 ^ (bits - 1) then (n % 2 ^ bits : ℕ) else (n % 2 ^ bits : ℕ) - 2 ^ bits

/-- A slice in the middle of a buffer. -/
theorem slice_append (a b c : List UInt8) (lo hi : ℤ) (hlo : lo = a.length)
    (hhi : hi = a.length + b.length) : slice (a ++ b ++ c) lo hi = some b := by
  have hbounds : 0 ≤ lo ∧ lo ≤ hi ∧ hi ≤ (a ++ b ++ c).length := by
    simp only [length_append]
    omega
  have htake : hi.toNat = (a ++ b).length := by
    rw [length_append]
    omega
  have hdrop : lo.toNat = a.length := by omega
  rw [slice, if_pos hbounds, htake, hdrop, take_left, drop_left]

/-- A length of 32 bits is itself, or it is negative and exceeds every buffer. -/
theorem toInt_cases {bits n : ℕ} (hbits : 32 ≤ bits) (hn : n < 2 ^ 32) :
    toInt bits n = n ∨ (toInt bits n < 0 ∧ 2 ^ (bits - 1) ≤ n) := by
  have hpow : 2 ^ 32 ≤ 2 ^ bits := Nat.pow_le_pow_right (by decide) hbits
  have hmod : n % 2 ^ bits = n := Nat.mod_eq_of_lt (by omega)
  have hcast : ((2 ^ bits : ℕ) : ℤ) = 2 ^ bits := by push_cast; rfl
  rw [toInt, hmod]
  split_ifs with h
  · exact Or.inl rfl
  · refine Or.inr ⟨?_, by omega⟩
    rw [← hcast]
    omega

/-! ## The code -/

/-- `wecomBlockSize`. -/
def wecomBlockSize : ℤ := 32

/-- `decodeAESKey`. -/
def decodeAESKey (value : String) : Except Err (List UInt8) :=
  match Go.decodeString (value ++ "=") with
  | none => .error .invalid
  | some key => if key.length ≠ 32 then .error .invalid else .ok key

/-- `unpad`. -/
def unpad (value : List UInt8) : Option (Except Err (List UInt8)) :=
  if value.length = 0 then some (.error .verification)
  else do
    let last ← index value (value.length - 1)
    let count : ℤ := last.toNat
    if count < 1 ∨ count > wecomBlockSize ∨ count > value.length then
      return .error .verification
    let tail ← slice value (value.length - count) value.length
    if tail ≠ List.replicate count.toNat (UInt8.ofNat count.toNat) then
      return .error .verification
    let plain ← slice value 0 (value.length - count)
    return .ok plain

/-- The end of `decrypt`, from the check of the length of the unpadded text on. -/
def readFrame (bits : ℕ) (receiveID plain : List UInt8) : Option (Except Err (List UInt8)) :=
  if plain.length < 20 then some (.error .verification)
  else do
    let header ← slice plain 16 20
    let n ← uint32 header
    let size := toInt bits n
    if size < 0 ∨ size > (plain.length : ℤ) - 20 then return .error .verification
    let rest ← slice plain (20 + size) plain.length
    if rest ≠ receiveID then return .error .verification
    let message ← slice plain 20 (20 + size)
    return .ok message

/-- The initial vector: the first block of the key, or zeros after a shorter key. -/
def initialVector (key : List UInt8) : List UInt8 := (key ++ List.replicate 16 0).take 16

/-- `decrypt`. `aes.NewCipher` takes keys of 16, 24, and 32 bytes. -/
def decrypt (aes : AES) (bits : ℕ) (key receiveID : List UInt8) (value : String) :
    Option (Except Err (List UInt8)) :=
  match Go.decodeString value with
  | none => some (.error .verification)
  | some ciphertext =>
    if ciphertext.length = 0 ∨ ciphertext.length % 16 ≠ 0 then some (.error .verification)
    else if key.length ≠ 16 ∧ key.length ≠ 24 ∧ key.length ≠ 32 then some (.error .verification)
    else do
      match ← unpad (aes.cbcDecrypt key (initialVector key) ciphertext) with
      | .error _ => return .error .verification
      | .ok plain => readFrame bits receiveID plain

/-! ## What is accepted -/

/-- A call that does not panic and that returns exactly the values with a property. -/
def Decides {α : Type} (r : Option (Except Err α)) (P : α → Prop) : Prop :=
  ∃ out, r = some out ∧ ∀ a, out = .ok a ↔ P a

/-- An error is right where no value has the property. -/
theorem Decides.error {α : Type} {P : α → Prop} {err : Err} (h : ∀ a, ¬P a) :
    Decides (some (.error err)) P :=
  ⟨_, rfl, fun a => ⟨fun herr => (by cases herr), fun ha => absurd ha (h a)⟩⟩

/-- A value is right where it is the one with the property. -/
theorem Decides.ok {α : Type} {P : α → Prop} {a : α} (h : ∀ b, P b ↔ a = b) :
    Decides (some (.ok a)) P :=
  ⟨_, rfl, fun b => by rw [h b, Except.ok.injEq]⟩

/-- A text with `p` bytes of the value `p` after it, `1 ≤ p ≤ 32`. -/
def Padded (plain value : List UInt8) : Prop :=
  ∃ p, 1 ≤ p ∧ p ≤ 32 ∧ value = plain ++ List.replicate p (UInt8.ofNat p)

/-- 16 bytes, the length of the message in four bytes, the message, and the receiver. -/
def Framed (receiveID message plain : List UInt8) : Prop :=
  ∃ random header, random.length = 16 ∧ header.length = 4 ∧
    uint32 header = some message.length ∧ plain = random ++ header ++ message ++ receiveID

/-- The last byte says how many bytes are the padding. -/
theorem padded_concat_iff (plain init : List UInt8) (last : UInt8) :
    Padded plain (init ++ [last]) ↔ 1 ≤ last.toNat ∧ last.toNat ≤ 32 ∧
      init ++ [last] = plain ++ List.replicate last.toNat (UInt8.ofNat last.toNat) := by
  constructor
  · rintro ⟨p, hpos, hle, hvalue⟩
    have hlast : last = UInt8.ofNat p := by
      obtain ⟨q, rfl⟩ : ∃ q, p = q + 1 := ⟨p - 1, by omega⟩
      rw [replicate_succ', ← append_assoc] at hvalue
      exact singleton_inj.1 (append_inj' hvalue rfl).2
    have hp : last.toNat = p := by
      rw [hlast, UInt8.toNat_ofNat_of_lt' (show p < 256 by omega)]
    rw [hp]
    exact ⟨hpos, hle, hvalue⟩
  · rintro ⟨hpos, hle, hvalue⟩
    exact ⟨last.toNat, hpos, hle, hvalue⟩

/-- `unpad` returns the text before the padding. -/
theorem unpad_decides (value : List UInt8) : Decides (unpad value) (Padded · value) := by
  rcases eq_nil_or_concat value with rfl | ⟨init, last, rfl⟩
  · refine Decides.error fun plain => ?_
    rintro ⟨p, hpos, -, hvalue⟩
    have hlength := congrArg length hvalue
    simp only [length_append, length_replicate, length_nil] at hlength
    omega
  rw [concat_eq_append]
  simp only [padded_concat_iff]
  have hindex : index (init ++ [last]) ((init ++ [last]).length - 1) = some last := by
    simp [index]
  generalize hvalue : init ++ [last] = value at hindex ⊢
  have hne : value.length ≠ 0 := by simp [← hvalue]
  simp only [unpad, if_neg hne, hindex, bind_eq_bind, bind_some, wecomBlockSize]
  split_ifs with hcount
  · refine Decides.error fun plain => ?_
    rintro ⟨hpos, _, rfl⟩
    simp only [length_append, length_replicate] at hcount
    omega
  -- the buffer falls into the text and as many bytes as the last one says
  obtain ⟨text, tail, rfl, htail⟩ : ∃ text tail, value = text ++ tail ∧ tail.length = last.toNat :=
    ⟨value.take (value.length - last.toNat), value.drop (value.length - last.toNat),
      (take_append_drop _ _).symm, by rw [length_drop]; omega⟩
  have hlength : (text ++ tail).length = text.length + tail.length := length_append
  have hrest := slice_append text tail [] ((text ++ tail).length - last.toNat)
    (text ++ tail).length (by omega) (by omega)
  have htext := slice_append [] text tail 0 ((text ++ tail).length - last.toNat) rfl (by simp; omega)
  rw [append_nil] at hrest
  rw [nil_append] at htext
  rw [hrest, htext, bind_some, bind_some, Int.toNat_natCast]
  split_ifs with hpad
  · refine Decides.error fun plain => ?_
    rintro ⟨-, -, hsplit⟩
    exact hpad (append_inj' hsplit (by rw [htail, length_replicate])).2
  · rw [not_not] at hpad
    refine Decides.ok fun plain => ?_
    rw [hpad, append_left_inj]
    exact ⟨fun h => h.2.2, fun h => ⟨by omega, by omega, h⟩⟩

/-- Four bytes hold a number of 32 bits. -/
theorem uint32_of_length {header : List UInt8} (h : header.length = 4) :
    ∃ n, uint32 header = some n ∧ n < 2 ^ 32 := by
  match header, h with
  | [a, b, c, d], _ =>
    have ha := a.toNat_lt
    have hb := b.toNat_lt
    have hc := c.toNat_lt
    have hd := d.toNat_lt
    exact ⟨_, rfl, by omega⟩

/-- What follows the first 16 bytes and the length is the message and the receiver. -/
theorem framed_iff {receiveID message random header rest : List UInt8} {n : ℕ}
    (hrandom : random.length = 16) (hheader : header.length = 4) (hn : uint32 header = some n) :
    Framed receiveID message (random ++ header ++ rest) ↔
      message.length = n ∧ rest = message ++ receiveID := by
  constructor
  · rintro ⟨_, _, hrandom', hheader', hn', hplain⟩
    rw [append_assoc, append_assoc, append_assoc] at hplain
    obtain ⟨-, hplain⟩ := append_inj hplain (hrandom.trans hrandom'.symm)
    obtain ⟨rfl, hrest⟩ := append_inj hplain (hheader.trans hheader'.symm)
    rw [hn, some.injEq] at hn'
    exact ⟨hn'.symm, hrest⟩
  · rintro ⟨rfl, rfl⟩
    exact ⟨random, header, hrandom, hheader, hn, by rw [append_assoc _ message]⟩

/-- The end of `decrypt` returns the message of the frame, in a buffer that an `int` can count. -/
theorem readFrame_decides {bits : ℕ} (hbits : 32 ≤ bits) (receiveID : List UInt8)
    {plain : List UInt8} (hplain : plain.length < 2 ^ (bits - 1)) :
    Decides (readFrame bits receiveID plain) (Framed receiveID · plain) := by
  rw [readFrame]
  split_ifs with hshort
  · refine Decides.error fun message => ?_
    rintro ⟨random, header, hrandom, hheader, -, rfl⟩
    simp only [length_append] at hshort
    omega
  obtain ⟨random, header, rest, rfl, hrandom, hheader⟩ : ∃ random header rest,
      plain = random ++ header ++ rest ∧ random.length = 16 ∧ header.length = 4 :=
    ⟨plain.take 16, (plain.drop 16).take 4, (plain.drop 16).drop 4,
      by rw [append_assoc, take_append_drop, take_append_drop],
      by rw [length_take]; omega, by rw [length_take, length_drop]; omega⟩
  obtain ⟨n, hn, hlt⟩ := uint32_of_length hheader
  have hlength : (random ++ header ++ rest).length = 20 + rest.length := by
    simp only [length_append]
    omega
  have hslice := slice_append random header rest 16 20 (by omega) (by omega)
  simp only [framed_iff hrandom hheader hn, hslice, hn, hlength, bind_eq_bind, bind_some]
  -- a negative length and one that is too large are those that the buffer cannot hold
  have hsize := toInt_cases hbits hlt
  split_ifs with hbad
  · refine Decides.error fun message => ?_
    rintro ⟨rfl, rfl⟩
    simp only [length_append] at hbad hplain
    omega
  have hint : toInt bits n = n := by omega
  obtain ⟨message, tail, rfl, hmessage⟩ : ∃ message tail, rest = message ++ tail ∧
      message.length = n :=
    ⟨rest.take n, rest.drop n, (take_append_drop _ _).symm, by rw [length_take]; omega⟩
  have htail := slice_append (random ++ header ++ message) tail [] (20 + n)
    (20 + (message ++ tail).length : ℕ) (by simp; omega) (by simp; omega)
  have hread := slice_append (random ++ header) message tail 20 (20 + n)
    (by simp; omega) (by simp; omega)
  rw [append_nil, append_assoc _ message] at htail
  rw [append_assoc _ message] at hread
  rw [hint, htail, hread, bind_some, bind_some]
  split_ifs with hreceiver
  · refine Decides.error fun message' => ?_
    rintro ⟨hlen, hsplit⟩
    exact hreceiver (append_inj hsplit (hmessage.trans hlen.symm)).2
  · rw [not_not] at hreceiver
    refine Decides.ok fun message' => ?_
    rw [hreceiver, append_left_inj]
    exact ⟨fun h => h.2, fun h => ⟨h ▸ hmessage, h⟩⟩

/-- A key of a configuration has 32 bytes. -/
theorem length_of_decodeAESKey {value : String} {key : List UInt8}
    (h : decodeAESKey value = .ok key) : key.length = 32 := by
  rw [decodeAESKey] at h
  split at h
  · cases h
  · split_ifs at h with hlength
    cases h
    exact not_not.1 hlength

/-- `decrypt` under a configured key never leaves its buffers, and it returns a message exactly when
the ciphertext consists of blocks and its plaintext is the padded frame of the message. The length
of a buffer is an `int`. -/
theorem decrypt_exact (aes : AES) {bits : ℕ} (hbits : 32 ≤ bits) {encodingAESKey : String}
    {key : List UInt8} (hkey : decodeAESKey encodingAESKey = .ok key) (receiveID : List UInt8)
    (value : String)
    (hint : ∀ c, Go.decodeString value = some c → c.length < 2 ^ (bits - 1)) :
    decrypt aes bits key receiveID value ≠ none ∧
    ∀ message, decrypt aes bits key receiveID value = some (.ok message) ↔
      ∃ ciphertext plain, Go.decodeString value = some ciphertext ∧ ciphertext.length % 16 = 0 ∧
        Padded plain (aes.cbcDecrypt key (initialVector key) ciphertext) ∧
        Framed receiveID message plain := by
  suffices h : Decides (decrypt aes bits key receiveID value) fun message =>
      ∃ ciphertext plain, Go.decodeString value = some ciphertext ∧ ciphertext.length % 16 = 0 ∧
        Padded plain (aes.cbcDecrypt key (initialVector key) ciphertext) ∧
        Framed receiveID message plain by
    obtain ⟨out, hout, hmessage⟩ := h
    rw [hout]
    exact ⟨by simp, fun message => by rw [Option.some.injEq, hmessage]⟩
  rw [decrypt]
  cases hdecode : Go.decodeString value with
  | none => exact Decides.error fun message => by simp
  | some ciphertext =>
    have hkey32 := length_of_decodeAESKey hkey
    simp only [Option.some.injEq, exists_and_left, exists_eq_left', hkey32]
    split_ifs with hlength hcipher
    · refine Decides.error fun message => ?_
      rintro ⟨hblocks, plain, ⟨p, hpos, -, hpadded⟩, -⟩
      have hsame := aes.length_cbcDecrypt key (initialVector key) ciphertext hblocks
      rw [hpadded, length_append, length_replicate] at hsame
      omega
    · omega
    have hblocks : ciphertext.length % 16 = 0 := by omega
    obtain ⟨out, hout, hpadded⟩ :=
      unpad_decides (aes.cbcDecrypt key (initialVector key) ciphertext)
    simp only [hout, hblocks, true_and, Option.bind_eq_bind, Option.bind_some, ← hpadded]
    cases out with
    | error => exact Decides.error fun message => by simp
    | ok plain =>
      have hsame := aes.length_cbcDecrypt key (initialVector key) ciphertext hblocks
      obtain ⟨p, -, -, hsplit⟩ := (hpadded plain).1 rfl
      rw [hsplit, length_append] at hsame
      have hplain : plain.length < 2 ^ (bits - 1) := by
        have := hint ciphertext hdecode
        omega
      simpa using readFrame_decides hbits receiveID hplain

/-- A cipher that changes nothing. -/
def identity : AES := ⟨fun _ _ c => c, fun _ _ _ _ => rfl⟩

/-- The message `h` to the receiver `r`, with ten bytes of padding. -/
theorem decrypt_exact_identity :
    let frame := replicate 16 0 ++ [0, 0, 0, 1, 104, 114] ++ replicate 10 10
    decrypt identity 64 (replicate 32 0) [114] (String.ofList (Go.base64 frame)) =
      some (.ok [104]) := by
  intro frame
  have hkey : decodeAESKey "AAAAAAAAAAAAAAAAAAAAAAAAAAAAAAAAAAAAAAAAAAA" =
      .ok (replicate 32 0) := by decide +kernel
  have hdecode := Go.decodeString_base64 frame
  have hint : ∀ c, Go.decodeString (String.ofList (Go.base64 frame)) = some c →
      c.length < 2 ^ 63 := by
    intro c hc
    rw [hdecode, Option.some.injEq] at hc
    rw [← hc]
    decide
  refine ((decrypt_exact identity (by decide) hkey [114] _ hint).2 [104]).2 ?_
  exact ⟨frame, replicate 16 0 ++ [0, 0, 0, 1, 104, 114], hdecode, by decide,
    ⟨10, by decide, by decide, rfl⟩, replicate 16 0, [0, 0, 0, 1], by decide, by decide, rfl,
    rfl⟩

end AgentService.Channels.Wecom
