import Xiaomaolv.Lib.Utf8
import Xiaomaolv.Lib.Decimal

/-!
# Records of a label, a length and a value

A record is its label, the number of bytes of its value in decimal digits, and the value, with a zero byte behind
each of the three.

* `record`: the bytes of a record.
* **`record_append_inj`**: records with one label are told apart, whatever comes after them.
* `records_append_inj`, `records_inj`: so are lists of records under given labels.
-/

namespace Framed

/-- The bytes of a record. -/
def record (label : String) (value : String) : List UInt8 :=
  Utf8.encode label.toList ++ [0] ++ Utf8.encode (toString (Utf8.encode value.toList).length).toList ++ [0] ++
    Utf8.encode value.toList ++ [0]

theorem encode_inj {s t : List Char} (h : Utf8.encode s = Utf8.encode t) : s = t := by
  rw [← Utf8.decodeLossy_encode s, h, Utf8.decodeLossy_encode]

theorem encodeChar_digit {c : Char} (h : c.isDigit = true) : (0 : UInt8) ∉ String.utf8EncodeChar c := by
  simp only [Char.isDigit, Bool.and_eq_true, decide_eq_true_eq] at h
  have hsize : c.utf8Size = 1 := Char.utf8Size_eq_one_iff.mpr (UInt32.le_trans h.2 (by decide))
  rw [String.utf8EncodeChar_eq_singleton hsize, List.mem_singleton]
  intro hzero
  have hval : 0 = c.val.toNat % 2 ^ 8 := by
    have h := congrArg UInt8.toNat hzero
    rwa [UInt32.toNat_toUInt8] at h
  have h₁ : 48 ≤ c.val.toNat := UInt32.le_iff_toNat_le.mp h.1
  have h₂ : c.val.toNat ≤ 57 := UInt32.le_iff_toNat_le.mp h.2
  omega

theorem zero_not_mem_digits (k : Nat) : (0 : UInt8) ∉ Utf8.encode (toString k).toList := by
  intro h
  obtain ⟨c, hc, hmem⟩ := List.mem_flatMap.mp h
  exact encodeChar_digit (Decimal.mem_repr hc) hmem

theorem append_cons_inj {α : Type} {a : α} {s t u v : List α} (hs : a ∉ s) (ht : a ∉ t)
    (h : s ++ a :: u = t ++ a :: v) : s = t ∧ u = v := by
  induction s generalizing t with
  | nil =>
    cases t with
    | nil => exact ⟨rfl, (List.cons.inj h).2⟩
    | cons b t => exact absurd ((List.cons.inj h).1 ▸ List.mem_cons_self) ht
  | cons b s ih =>
    cases t with
    | nil => exact absurd ((List.cons.inj h).1 ▸ List.mem_cons_self) hs
    | cons c t =>
      obtain ⟨rfl, htail⟩ := List.cons.inj h
      obtain ⟨rfl, huv⟩ := ih (fun hb => hs (List.mem_cons_of_mem _ hb))
        (fun hc => ht (List.mem_cons_of_mem _ hc)) htail
      exact ⟨rfl, huv⟩

/-- **Records with one label are told apart**, whatever comes after them. -/
theorem record_append_inj {label value value' : String} {rest rest' : List UInt8}
    (h : record label value ++ rest = record label value' ++ rest') : value = value' ∧ rest = rest' := by
  unfold record at h
  simp only [List.append_assoc, List.singleton_append] at h
  have hlabel := List.append_cancel_left h
  obtain ⟨hdigits, hvalue⟩ := append_cons_inj (zero_not_mem_digits _) (zero_not_mem_digits _)
    (List.cons.inj hlabel).2
  have hlen := Decimal.repr_inj (String.toList_inj.mp (encode_inj hdigits))
  obtain ⟨hbytes, hrest⟩ := List.append_inj hvalue hlen
  exact ⟨String.toList_inj.mp (encode_inj hbytes), (List.cons.inj hrest).2⟩

/-- The records of some values, each under the label at its place. -/
def records : List (String × String) → List UInt8
  | [] => []
  | (label, value) :: fields => record label value ++ records fields

@[simp] theorem records_append (fields fields' : List (String × String)) :
    records (fields ++ fields') = records fields ++ records fields' := by
  induction fields with
  | nil => rfl
  | cons field fields ih =>
    rw [List.cons_append, records, records, ih, List.append_assoc]

theorem records_append_inj {fields fields' : List (String × String)} {rest rest' : List UInt8}
    (hlabels : fields.map Prod.fst = fields'.map Prod.fst)
    (h : records fields ++ rest = records fields' ++ rest') : fields = fields' ∧ rest = rest' := by
  induction fields generalizing fields' with
  | nil =>
    obtain rfl := List.map_eq_nil_iff.mp hlabels.symm
    exact ⟨rfl, h⟩
  | cons field fields ih =>
    cases fields' with
    | nil => cases hlabels
    | cons field' fields' =>
      obtain ⟨label, value⟩ := field
      obtain ⟨label', value'⟩ := field'
      obtain ⟨hlabel, hrestLabels⟩ := List.cons.inj hlabels
      obtain rfl : label = label' := hlabel
      rw [records, records, List.append_assoc, List.append_assoc] at h
      obtain ⟨rfl, hrest⟩ := record_append_inj h
      obtain ⟨rfl, htail⟩ := ih hrestLabels hrest
      exact ⟨rfl, htail⟩

end Framed
