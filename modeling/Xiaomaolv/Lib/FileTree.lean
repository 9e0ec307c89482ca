import Mathlib.Data.List.Basic
import Mathlib.Data.String.Basic

/-!
# File trees

The entries of a file system by their paths from its root.

* `join`: where a relative or absolute path leads from a directory; `join_of_name`: a plain name leads to a child.
* `Tree.removeDirAll`, `Tree.createDirAll`, `Tree.write`, `Tree.rename`: the operations, which may stop half-way.
* `Keeps`: the entries outside a zone stay; **`keeps_trans`** and one rule for each operation.
-/

namespace FileTree

/-- The names on the way from the root. -/
abbrev Path := List String

inductive Entry where
  | dir
  | file (content : String)
  /-- A symbolic link, and whether it leads anywhere. -/
  | link (alive : Bool)
  deriving DecidableEq

abbrev Tree := Path → Option Entry

/-! ## Paths -/

/-- The parts of a path between its slashes. -/
def parts (path : String) : List String := (path.toList.splitOn '/').map String.ofList

/-- One part further. -/
def walk (dir : Path) (part : String) : Path :=
  if part = "" ∨ part = "." then dir else if part = ".." then dir.dropLast else dir ++ [part]

/-- Where a path leads from a directory. -/
def join (base : Path) (path : String) : Path :=
  (parts path).foldl walk (if path.toList.head? = some '/' then [] else base)

/-- A name that a directory can have an entry under, apart from slashes. -/
def ProperName (name : String) : Prop := name ≠ "" ∧ name ≠ "." ∧ name ≠ ".."

/-- The path is an entry right under the directory. -/
def DirectChild (base path : Path) : Prop := ∃ name, ProperName name ∧ path = base ++ [name]

theorem parts_of_no_slash {name : String} (h : '/' ∉ name.toList) : parts name = [name] := by
  rw [parts, List.splitOn, List.splitOnP_eq_singleton]
  · rw [List.map_singleton, String.ofList_toList]
  · intro c hc
    rw [beq_eq_false_iff_ne]
    rintro rfl
    exact h hc

theorem join_of_no_slash {name : String} (h : '/' ∉ name.toList) (base : Path) : join base name = walk base name := by
  have hhead : name.toList.head? ≠ some '/' := fun hhead => h (List.mem_of_mem_head? hhead)
  rw [join, parts_of_no_slash h, if_neg hhead, List.foldl_cons, List.foldl_nil]

theorem join_of_name {name : String} (hslash : '/' ∉ name.toList) (hnamed : ProperName name) (base : Path) :
    join base name = base ++ [name] := by
  rw [join_of_no_slash hslash, walk, if_neg (by rintro (h | h); exacts [hnamed.1 h, hnamed.2.1 h]), if_neg hnamed.2.2]

theorem directChild_join_iff {name : String} (hslash : '/' ∉ name.toList) (base : Path) :
    DirectChild base (join base name) ↔ ProperName name := by
  constructor
  · rintro ⟨child, -, heq⟩
    have hlength := congrArg List.length heq
    rw [join_of_no_slash hslash, walk, List.length_append, List.length_singleton] at hlength
    split_ifs at hlength with hself hparent
    · omega
    · rw [List.length_dropLast] at hlength
      omega
    · exact ⟨fun h => hself (Or.inl h), fun h => hself (Or.inr h), hparent⟩
  · intro hnamed
    exact ⟨name, hnamed, join_of_name hslash hnamed base⟩

/-! ## Operations -/

namespace Tree

variable (tree : Tree)

/-- `Path::exists`. -/
def pathExists (path : Path) : Bool :=
  path = [] || match tree path with
    | some (.link alive) => alive
    | some _ => true
    | none => false

/-- Remove a directory and what is under it; where that fails, some of it stays. -/
def removeDirAll (path : Path) (stays : Option (Path → Bool)) : Tree := fun p =>
  if path <+: p ∧ (stays.any fun stays => stays p) = false then none else tree p

/-- Make the missing directories on a path; where that fails, only those with so many names. -/
def createDirAll (path : Path) (failed : Option Nat) : Tree := fun p =>
  if tree p = none ∧ p <+: path ∧ (failed.all fun n => decide (p.length ≤ n)) = true then some .dir else tree p

def write (path : Path) (content : String) : Tree := Function.update tree path (some (.file content))

/-- Move what is at one path and under it to another. -/
def rename (source dest : Path) : Tree := fun p =>
  if dest <+: p then tree (source ++ p.drop dest.length) else if source <+: p then none else tree p

end Tree

/-! ## What stays -/

/-- The entries outside the zone stay as they are. -/
def Keeps (zone : Path → Prop) (before after : Tree) : Prop := ∀ p, ¬ zone p → before p ≠ none → after p = before p

section

variable {zone zone' : Path → Prop} {before between after : Tree} {path : Path}

theorem keeps_refl (zone : Path → Prop) (tree : Tree) : Keeps zone tree tree := fun _ _ _ => rfl

theorem keeps_trans (h : Keeps zone before between) (h' : Keeps zone between after) : Keeps zone before after := by
  intro p hp hsome
  have hfirst := h p hp hsome
  rw [h' p hp (by rwa [hfirst]), hfirst]

theorem Keeps.mono (h : Keeps zone before after) (hzone : ∀ p, zone p → zone' p) : Keeps zone' before after :=
  fun p hp hsome => h p (fun hin => hp (hzone p hin)) hsome

theorem Keeps.of_clear (h : Keeps (fun p => zone p ∨ zone' p) before after) (hclear : ∀ p, zone' p → before p = none) :
    Keeps zone before after := by
  intro p hp hsome
  refine h p ?_ hsome
  rintro (hin | hin)
  · exact hp hin
  · exact hsome (hclear p hin)

theorem keeps_removeDirAll (tree : Tree) (path : Path) (stays : Option (Path → Bool)) :
    Keeps (path <+: ·) tree (tree.removeDirAll path stays) := by
  intro p hp _
  exact if_neg fun h => hp h.1

theorem keeps_createDirAll (zone : Path → Prop) (tree : Tree) (path : Path) (failed : Option Nat) :
    Keeps zone tree (tree.createDirAll path failed) := by
  intro p _ hsome
  exact if_neg fun h => hsome h.1

theorem keeps_write (tree : Tree) {path target : Path} (h : path <+: target) (content : String) :
    Keeps (path <+: ·) tree (tree.write target content) := by
  intro p hp _
  refine Function.update_of_ne ?_ _ _
  rintro rfl
  exact hp h

theorem keeps_rename (tree : Tree) (source dest : Path) :
    Keeps (fun p => dest <+: p ∨ source <+: p) tree (tree.rename source dest) := by
  intro p hp _
  rw [Tree.rename, if_neg fun h => hp (Or.inl h), if_neg fun h => hp (Or.inr h)]

end

end FileTree
