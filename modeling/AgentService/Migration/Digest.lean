import AgentService.Audit.Store
import AgentService.Go.Json
import AgentService.Go.Sort
import AgentService.Migration.Memory
import Mathlib.Data.Prod.Lex
import Mathlib.Data.String.Basic

/-!
# Canonical records and their digest

The order of `normalizeRecords` and the text that `Digest` hashes, of
`trpcservice/runtime/migration/migration.go`. `sort.Slice` is only known to return its records in
some order that `less` allows (`Sorted`); records with one tenant, kind, and key may come in any
order, and those of a snapshot come in one order only (`Sorted.unique`). SHA-256 is a parameter. The
text of the records determines them (`digestText_injective`), so that equal digests mean equal
records wherever SHA-256 has no collision (`digestOf_injective`), and the digest of records with
distinct places stands for the records without their order (`digestOf_eq_iff_perm`).
-/

namespace AgentService.Migration

open Go List Audit Record

/-! ## The order -/

/-- The comparison of `normalizeRecords`. -/
def less (a b : Record) : Bool :=
  if a.tenantID ≠ b.tenantID then a.tenantID < b.tenantID
  else if a.kind ≠ b.kind then a.kind < b.kind
  else a.key < b.key

/-- What `sort.Slice` may return. -/
def Sorted (records ordered : List Record) : Prop :=
  ordered.Perm records ∧ ordered.Pairwise fun a b => less b a = false

instance (records ordered : List Record) : Decidable (Sorted records ordered) := by
  unfold Sorted
  infer_instance

/-- The tenant, the kind, and the key of a record, in the order in which they are compared. -/
def Record.place (r : Record) : String ×ₗ String ×ₗ String :=
  toLex (r.tenantID, toLex (r.kind, r.key))

/-- The comparison is the one of the places. -/
theorem less_iff (a b : Record) : less a b = true ↔ a.place < b.place := by
  rw [place, place, Prod.Lex.toLex_lt_toLex, Prod.Lex.toLex_lt_toLex]
  unfold less
  split_ifs with ht hk
  · simp [ht]
  · simp only [ne_eq, not_not] at ht
    simp [ht, hk]
  · simp only [ne_eq, not_not] at ht hk
    simp [ht, hk]

variable {records ordered ordered' : List Record}

/-- Records with distinct places are sorted in one way only. -/
theorem Sorted.eq_of_nodup_place (hnodup : (records.map Record.place).Nodup)
    (h : Sorted records ordered) (h' : Sorted records ordered') : ordered = ordered' := by
  refine List.Perm.eq_of_pairwise (fun a b ha hb hab hba => ?_) h.2 h'.2 (h.1.trans h'.1.symm)
  -- records that are not below one another have one place
  rw [← Bool.not_eq_true, less_iff, not_lt] at hab hba
  exact inj_on_of_nodup_map hnodup (h.1.mem_iff.1 ha) (h'.1.mem_iff.1 hb) (le_antisymm hab hba)

/-- Records with distinct keys are sorted in one way only. -/
theorem Sorted.unique (hnodup : (records.map Record.mapKey).Nodup) (h : Sorted records ordered)
    (h' : Sorted records ordered') : ordered = ordered' := by
  -- a record's key is a part of its place
  have hplaces : (records.map place).Nodup := by
    refine List.Nodup.map_on (fun a ha b hb hplace => ?_) (List.Nodup.of_map _ hnodup)
    simp only [place, EmbeddingLike.apply_eq_iff_eq, Prod.mk.injEq] at hplace
    have hmapKey : a.mapKey = b.mapKey := by
      rw [mapKey, mapKey, hplace.2.1, hplace.2.2]
    exact inj_on_of_nodup_map hnodup ha hb hmapKey
  exact Sorted.eq_of_nodup_place hplaces h h'

theorem Sorted.of_perm {records order ordered : List Record} (h : Sorted order ordered)
    (hperm : order.Perm records) : Sorted records ordered := ⟨h.1.trans hperm, h.2⟩

/-- There is always a sorted order. -/
theorem exists_sorted (records : List Record) : ∃ ordered, Sorted records ordered :=
  ⟨sortSlice less records, sortSlice_sorted less_iff records⟩

/-! ## The digest -/

/-- `json.Marshal` of a record. -/
def Record.text (r : Record) : List Char :=
  "\x7b\"tenant_id\":".toList ++ (quote r.tenantID ++ (",\"kind\":".toList ++ (quote r.kind ++
    (",\"key\":".toList ++ (quote r.key ++ (",\"payload\":".toList ++ (bytesText r.payload ++
      (",\"version\":".toList ++ ((itoa r.version).toList ++ ['\x7d'])))))))))

/-- The text of a record shows the record. -/
theorem decodable_text : Decodable Record.text := by
  have hversion : Decodable fun n => (itoa n).toList ++ ['\x7d'] :=
    Decodable.of_terminated (fun m n h => itoa_injective (String.toList_inj.1 h))
      (notMem_itoa (by decide) (by decide))
  intro a b x y h
  unfold text at h
  repeat rw [append_assoc] at h
  -- field by field: the name is the same, and the value shows where it ends
  obtain ⟨htenant, h⟩ := decodable_quote.field h
  obtain ⟨hkind, h⟩ := decodable_quote.field h
  obtain ⟨hkey, h⟩ := decodable_quote.field h
  obtain ⟨hpayload, h⟩ := decodable_bytesText.field h
  rw [← append_assoc (itoa a.version).toList, ← append_assoc (itoa b.version).toList] at h
  obtain ⟨hversion, hrest⟩ := hversion.field h
  obtain ⟨_, _, _, _, _⟩ := a
  obtain ⟨_, _, _, _, _⟩ := b
  dsimp only at htenant hkind hkey hpayload hversion
  subst htenant hkind hkey hpayload hversion
  exact ⟨rfl, hrest⟩

/-- What is written to the hash: the texts of the records, with a zero byte after each. -/
def digestText (ordered : List Record) : List UInt8 :=
  ordered.flatMap fun r => Audit.bytes (String.ofList r.text) ++ [0]

/-- `Digest`, of records in their order. -/
def digestOf (sha256 : List UInt8 → List UInt8) (ordered : List Record) : String :=
  String.ofList (Audit.hexEncode (sha256 (digestText ordered)))

/-- What is written to the hash are the bytes of one string. -/
theorem digestText_eq (ordered : List Record) :
    digestText ordered = Audit.bytes (String.ofList (ordered.flatMap fun r => r.text ++ ['\x00'])) := by
  have happend : ∀ l l' : List Char, bytes (String.ofList (l ++ l')) =
      bytes (String.ofList l) ++ bytes (String.ofList l') := by
    intro l l'
    rw [bytes, String.ofList_append, String.toByteArray_append]
    simp [bytes]
  induction ordered with
  | nil => rfl
  | cons _ _ ih =>
    rw [digestText, flatMap_cons, flatMap_cons, happend, happend, ← ih]
    rfl

/-- What is written to the hash determines the records. -/
theorem digestText_injective : Function.Injective digestText := by
  intro l _ h
  rw [digestText_eq, digestText_eq, bytes, bytes, Array.toList_inj] at h
  have hstring := String.ofList_injective (String.toByteArray_inj.1 (ByteArray.ext h))
  have htext : Decodable fun r : Record => r.text ++ ['\x00'] := by
    intro a b x y h
    simp only [append_assoc] at h
    obtain ⟨hab, hrest⟩ := decodable_text a b _ _ h
    exact ⟨hab, append_cancel_left hrest⟩
  exact htext.flatMap_injective (fun r => by simp) hstring

/-- The hexadecimal form determines the bytes. -/
theorem hexEncode_injective : Function.Injective Audit.hexEncode := by
  have hdigit : ∀ m < 16, ∀ n < 16, hexDigit m = hexDigit n → m = n := by decide
  intro l
  induction l with
  | nil =>
    intro l' h
    cases l' with
    | nil => rfl
    | cons => cases h
  | cons a l ih =>
    intro l' h
    cases l' with
    | nil => cases h
    | cons b =>
      have ha := a.toNat_lt
      have hb := b.toNat_lt
      have hhead := cons.inj h
      have htail := cons.inj hhead.2
      have hhigh := hdigit _ (by omega) _ (by omega) hhead.1
      have hlow := hdigit _ (by omega) _ (by omega) htail.1
      have hab : a = b := UInt8.toNat_inj.1 (by omega)
      rw [hab, ih htail.2]

/-- Where SHA-256 has no collision, equal digests mean equal records. -/
theorem digestOf_injective {sha256 : List UInt8 → List UInt8} (hsha : Function.Injective sha256) :
    Function.Injective (digestOf sha256) := by
  intro l _ h
  have hhex := String.ofList_injective h
  exact digestText_injective (hsha (hexEncode_injective hhex))

/-- Lists of records with distinct places have one digest exactly when one is a reordering of the
other, whichever orders `sort.Slice` returns; it is enough that one of them has. A nil payload is an
empty one here: both are copied to nil before they are encoded. -/
theorem digestOf_eq_iff_perm {sha256 : List UInt8 → List UInt8} (hsha : Function.Injective sha256)
    {records records' ordered ordered' : List Record}
    (hnodup' : (records'.map Record.place).Nodup) (h : Sorted records ordered)
    (h' : Sorted records' ordered') :
    digestOf sha256 ordered = digestOf sha256 ordered' ↔ records.Perm records' := by
  constructor
  · intro hdigest
    have hordered : ordered = ordered' := digestOf_injective hsha hdigest
    subst hordered
    exact h.1.symm.trans h'.1
  · intro hperm
    rw [Sorted.eq_of_nodup_place hnodup' (h.of_perm hperm) h']

/-- Two records in both orders. -/
theorem digestOf_eq_iff_perm_swapped :
    let a : Record := { tenantID := "t", kind := "k", key := "a", payload := [1] }
    let b : Record := { tenantID := "t", kind := "k", key := "b", version := 2 }
    digestOf id [a, b] = digestOf id [a, b] ↔ [a, b].Perm [b, a] :=
  digestOf_eq_iff_perm Function.injective_id (by decide +kernel) (by decide +kernel)
    (by decide +kernel)

end AgentService.Migration
