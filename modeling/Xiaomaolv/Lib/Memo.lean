import Xiaomaolv.Lib.Table

/-!
# A table that keeps results by key

A request looks for a row under its key. Where it finds none it makes one, and the row takes the place of an older
one under the same key.

* `upsert`: put a row in; `find?_upsert`.
* `Memo.next`: the table after a request; `Memo.table`: the table after some, the latest first.
* `Memo.writer`: the request that wrote the row under a key; **`Memo.find?_table`**: the row is the one it made.
-/

namespace Memo

section Upsert

variable {κ ν : Type} [DecidableEq κ] (keyOf : ν → κ)

/-- `INSERT INTO t ... ON CONFLICT DO UPDATE`. -/
def upsert (row : ν) (t : List ν) : List ν :=
  if t.any fun r => keyOf r = keyOf row then Table.updateWhere (fun r => keyOf r = keyOf row) (fun _ => row) t
  else t ++ [row]

theorem mem_upsert {row r : ν} {t : List ν} (h : r ∈ upsert keyOf row t) : r = row ∨ r ∈ t := by
  unfold upsert at h
  split_ifs at h
  · obtain ⟨r₀, hr₀, rfl⟩ := Table.mem_updateWhere.mp h
    split_ifs
    exacts [.inl rfl, .inr hr₀]
  · rcases List.mem_append.mp h with h | h
    exacts [.inr h, .inl (List.mem_singleton.mp h)]

theorem find?_upsert (row : ν) (t : List ν) (k : κ) :
    (upsert keyOf row t).find? (fun r => keyOf r = k) =
      if keyOf row = k then some row else t.find? fun r => keyOf r = k := by
  unfold upsert
  split_ifs with hany hk hk
  · subst hk
    rw [Table.find?_updateWhere fun r hr => by simpa using hr]
    obtain ⟨r, hr, hkey⟩ := List.any_eq_true.mp hany
    have hsome : (t.find? fun r => decide (keyOf r = keyOf row)).isSome := List.find?_isSome.mpr ⟨r, hr, hkey⟩
    obtain ⟨r₀, hr₀⟩ := Option.isSome_iff_exists.mp hsome
    rw [hr₀, Option.map_some, if_pos (List.find?_some hr₀)]
  · rw [Table.find?_updateWhere fun r hr => by rw [of_decide_eq_true hr]]
    cases hfound : t.find? fun r => decide (keyOf r = k) with
    | none => rfl
    | some r =>
      have hkey : keyOf r = k := by simpa using List.find?_some hfound
      rw [Option.map_some, if_neg (by simpa [hkey] using Ne.symm hk)]
  · subst hk
    rw [List.find?_append, List.find?_eq_none.mpr fun r hr hkey => hany (List.any_eq_true.mpr ⟨r, hr, hkey⟩)]
    simp
  · rw [List.find?_append]
    simp [hk]

end Upsert

end Memo

/-! ## Requests -/

/-- Requests and the rows that they make, under their keys. -/
structure Memo (ι κ ν : Type) [DecidableEq κ] where
  key : ι → κ
  keyOf : ν → κ
  /-- Does the request look for a row? -/
  looks : ι → Bool
  /-- The row that a request makes where it finds none. -/
  makes : ι → Option ν
  keyOf_makes : ∀ i row, makes i = some row → keyOf row = key i

namespace Memo

variable {ι κ ν : Type} [DecidableEq κ] (memo : Memo ι κ ν)

/-- The row under a key. -/
def find (t : List ν) (k : κ) : Option ν := t.find? fun row => memo.keyOf row = k

/-- What a request finds. -/
def hit (t : List ν) (i : ι) : Option ν := if memo.looks i then memo.find t (memo.key i) else none

/-- The table after a request. -/
def next (t : List ν) (i : ι) : List ν :=
  match memo.hit t i, memo.makes i with
  | none, some row => upsert memo.keyOf row t
  | _, _ => t

/-- The table after some requests, the latest first. -/
def table : List ι → List ν
  | [] => []
  | i :: earlier => memo.next (table earlier) i

/-- The latest request that wrote the row under a key. -/
def writer (k : κ) : List ι → Option ι
  | [] => none
  | i :: earlier =>
    if memo.key i = k ∧ memo.hit (memo.table earlier) i = none ∧ (memo.makes i).isSome then some i
    else writer k earlier

variable {memo} {requests : List ι} {k : κ} {i : ι}

theorem mem_of_writer (h : memo.writer k requests = some i) : i ∈ requests ∧ memo.key i = k := by
  induction requests with
  | nil => cases h
  | cons j earlier ih =>
    rw [writer] at h
    split_ifs at h with hwrote
    · obtain rfl := Option.some.inj h
      exact ⟨List.mem_cons_self, hwrote.1⟩
    · exact ⟨List.mem_cons_of_mem _ (ih h).1, (ih h).2⟩

/-- **The row under a key is the one that its writer made.** -/
theorem find?_table (requests : List ι) (k : κ) :
    memo.find (memo.table requests) k = (memo.writer k requests).bind memo.makes := by
  induction requests with
  | nil => rfl
  | cons j earlier ih =>
    rw [table, writer, next]
    cases hhit : memo.hit (memo.table earlier) j with
    | some row => rw [if_neg (by simp), ← ih]
    | none =>
      cases hmakes : memo.makes j with
      | none => rw [if_neg (by simp), ← ih]
      | some row =>
        dsimp only
        rw [find, find?_upsert, memo.keyOf_makes j row hmakes]
        split_ifs with hkey hwrote hwrote
        · rw [Option.bind_some, hmakes]
        · exact absurd ⟨hkey, rfl, rfl⟩ hwrote
        · exact absurd hwrote.1 hkey
        · exact ih

theorem writer_of_find {row : ν} (h : memo.find (memo.table requests) k = some row) :
    ∃ i, memo.writer k requests = some i ∧ memo.makes i = some row := by
  rw [find?_table] at h
  exact Option.bind_eq_some_iff.mp h

end Memo
