import Xiaomaolv.Lib.FileTree
import Xiaomaolv.Loop.Text

/-!
# The directories of installed skills

A skill is installed, updated and removed in a directory of its own, whose name is the normalised id.

* `normalizeSkillId`; `no_slash_normalizeSkillId`: an accepted id has no slash, but it can be `.` or `..`.
* `removeSkill`, `installLocalSkill`, `installCatalogSkillWithOverride`, `updateSkill`: the operations on the file tree,
  any of whose steps may fail.
* `keeps_removeSkill`, `keeps_writeSkillDir`, `keeps_updateSkill`: they keep what is outside the skill's directory.
* **`skill_paths_iff`**: they do so exactly for the ids other than dots.
-/

namespace Xiaomaolv

open FileTree

/-! ## Ids -/

/-- What a character of an id becomes. -/
def skillIdChar (ch : Char) : Option Char :=
  if ch.isAlphanum || ch = '-' || ch = '_' || ch = '.' then some ch
  else if isWhitespace ch then some '-'
  else none

def normalizeSkillId (raw : String) : Except String String :=
  let trimmed := toAsciiLowercase (trim raw)
  if trimmed.isEmpty then .error "skill id is empty"
  else
    let out := trimmed.toList.filterMap skillIdChar
    if out.isEmpty then .error s!"skill id '{raw}' has no valid characters" else .ok (String.ofList out)

/-- A character of an accepted id. -/
def isIdChar (ch : Char) : Bool := ch.isAlphanum || ch = '-' || ch = '_' || ch = '.'

theorem skillIdChar_of_isIdChar {c : Char} (h : isIdChar c = true) : skillIdChar c = some c := if_pos h

theorem skillIdChar_cases {ch c : Char} (h : skillIdChar ch = some c) : c = ch ∧ isIdChar c = true ∨ c = '-' := by
  rw [skillIdChar] at h
  split_ifs at h with hkept hblank
  · obtain rfl := Option.some.inj h
    exact Or.inl ⟨rfl, hkept⟩
  · exact Or.inr (Option.some.inj h).symm

theorem normalizeSkillId_eq_ok {raw id : String} (h : normalizeSkillId raw = .ok id) :
    id ≠ "" ∧ id.toList = (toAsciiLowercase (trim raw)).toList.filterMap skillIdChar := by
  simp only [normalizeSkillId] at h
  split_ifs at h with hempty hout
  obtain rfl := Except.ok.inj h
  refine ⟨?_, String.toList_ofList⟩
  intro hid
  have hlist := congrArg String.toList hid
  rw [String.toList_ofList] at hlist
  exact hout (List.isEmpty_iff.mpr hlist)

theorem idChars_normalizeSkillId {raw id : String} (h : normalizeSkillId raw = .ok id) :
    ∀ c ∈ id.toList, isIdChar c = true := by
  intro c hc
  rw [(normalizeSkillId_eq_ok h).2] at hc
  obtain ⟨ch, -, hch⟩ := List.mem_filterMap.mp hc
  rcases skillIdChar_cases hch with ⟨-, hkept⟩ | rfl
  · exact hkept
  · rfl

theorem no_slash_normalizeSkillId {raw id : String} (h : normalizeSkillId raw = .ok id) : '/' ∉ id.toList := by
  intro hslash
  exact absurd (idChars_normalizeSkillId h '/' hslash) (by decide)

theorem named_normalizeSkillId {raw id : String} (h : normalizeSkillId raw = .ok id) :
    ProperName id ↔ id ≠ "." ∧ id ≠ ".." :=
  and_iff_right (normalizeSkillId_eq_ok h).1

theorem isUpper_iff {c : Char} : c.val ≥ 'A'.val ∧ c.val ≤ 'Z'.val ↔ 65 ≤ c.toNat ∧ c.toNat ≤ 90 := by
  simp only [ge_iff_le, UInt32.le_iff_toNat_le, Char.reduceVal, UInt32.reduceToNat, Char.toNat_val]

theorem toLower_of_not_isUpper {c : Char} (h : ¬ (65 ≤ c.toNat ∧ c.toNat ≤ 90)) : c.toLower = c :=
  dif_neg (isUpper_iff.not.mpr h)

theorem toLower_toLower (c : Char) : c.toLower.toLower = c.toLower := by
  refine toLower_of_not_isUpper ?_
  by_cases h : c.val ≥ 'A'.val ∧ c.val ≤ 'Z'.val
  · have hrange := isUpper_iff.mp h
    have hadd : (c.val + ('a'.val - 'A'.val)).toNat = c.toNat + 32 := by
      rw [UInt32.toNat_add]
      exact Nat.mod_eq_of_lt (by simp; omega)
    rw [show c.toLower = ⟨c.val + ('a'.val - 'A'.val), _⟩ from dif_pos h]
    change ¬ (65 ≤ (c.val + ('a'.val - 'A'.val)).toNat ∧ (c.val + ('a'.val - 'A'.val)).toNat ≤ 90)
    omega
  · rw [show c.toLower = c from dif_neg h]
    exact isUpper_iff.not.mp h

theorem toLower_of_isWhitespace {c : Char} (h : isWhitespace c = true) : c.toLower = c := by
  refine toLower_of_not_isUpper ?_
  simp only [isWhitespace, Bool.or_eq_true, Bool.and_eq_true, decide_eq_true_eq, beq_iff_eq] at h
  omega

theorem toAsciiLowercase_normalizeSkillId {raw id : String} (h : normalizeSkillId raw = .ok id) :
    toAsciiLowercase id = id := by
  have hlower : id.toList.map Char.toLower = id.toList := by
    refine (List.map_congr_left fun c hc => ?_).trans (List.map_id _)
    rw [(normalizeSkillId_eq_ok h).2] at hc
    obtain ⟨ch, hmem, hch⟩ := List.mem_filterMap.mp hc
    rcases skillIdChar_cases hch with ⟨rfl, -⟩ | rfl
    · rw [toAsciiLowercase, String.toList_ofList] at hmem
      obtain ⟨ch, -, rfl⟩ := List.mem_map.mp hmem
      exact toLower_toLower ch
    · rfl
  rw [toAsciiLowercase, hlower, String.ofList_toList]

theorem not_isWhitespace_of_isIdChar {c : Char} (h : isIdChar c = true) : isWhitespace c = false := by
  rw [Bool.eq_false_iff]
  intro hblank
  simp only [isIdChar, Bool.or_eq_true, decide_eq_true_eq] at h
  rcases h with ((halnum | rfl) | rfl) | rfl
  · simp only [isWhitespace, Bool.or_eq_true, Bool.and_eq_true, decide_eq_true_eq, beq_iff_eq] at hblank
    unfold Char.isAlphanum Char.isAlpha Char.isUpper Char.isLower Char.isDigit at halnum
    simp only [Bool.or_eq_true, Bool.and_eq_true, decide_eq_true_eq, ge_iff_le, UInt32.le_iff_toNat_le, Char.reduceVal,
      UInt32.reduceToNat, Char.toNat_val] at halnum
    omega
  · exact absurd hblank (by decide)
  · exact absurd hblank (by decide)
  · exact absurd hblank (by decide)

theorem normalizeSkillId_of_lowercase {raw id name : String} (h : normalizeSkillId raw = .ok id)
    (hname : toAsciiLowercase name = id) : normalizeSkillId name = .ok id := by
  have hchars := idChars_normalizeSkillId h
  have hblank : ∀ c ∈ name.toList, isWhitespace c = false := by
    intro c hc
    rw [Bool.eq_false_iff]
    intro hwhite
    have hmem : c ∈ id.toList := by
      rw [← hname, toAsciiLowercase, String.toList_ofList, ← toLower_of_isWhitespace hwhite]
      exact List.mem_map_of_mem hc
    rw [not_isWhitespace_of_isIdChar (hchars c hmem)] at hwhite
    cases hwhite
  have htrim : trim name = name :=
    trim_of_trimmed ⟨fun c hc => hblank c (List.mem_of_mem_head? hc), fun c hc => hblank c (List.mem_of_getLast? hc)⟩
  have hkept : id.toList.filterMap skillIdChar = id.toList := by
    rw [List.filterMap_congr fun c hc => skillIdChar_of_isIdChar (hchars c hc)]
    exact List.filterMap_some
  have hne := (normalizeSkillId_eq_ok h).1
  have hlist : id.toList.isEmpty = false := by
    rw [List.isEmpty_eq_false_iff]
    exact fun hnil => hne (String.toList_eq_nil_iff.mp hnil)
  have hstring : id.isEmpty = false := by
    rw [← Bool.not_eq_true, String.isEmpty_iff]
    exact hne
  simp only [normalizeSkillId, htrim, hname, hkept, hlist, hstring, String.ofList_toList]
  rfl

/-! ## Operations -/

inductive SkillScope
  | user
  | project
  deriving DecidableEq

inductive SkillRemoveScope
  | user
  | project
  | all

def scopesFromRemoveScope : SkillRemoveScope → List SkillScope
  | .user => [.user]
  | .project => [.project]
  | .all => [.user, .project]

inductive SkillSourceKind
  | localDir
  | catalog
  deriving DecidableEq

structure SkillInstalledConfig where
  sourceKind : SkillSourceKind
  sourceRef : String
  version : String
  checksumSha256 : String

structure SkillCatalogEntry where
  id : String
  version : String
  sourceRef : String
  checksumSha256 : Option String

inductive SkillCatalogIndex
  | official
  | team
  | all

/-- The base directories of the scopes. -/
structure SkillConfigPaths where
  userDir : FileTree.Path
  projectDir : FileTree.Path

def SkillConfigPaths.baseDir (paths : SkillConfigPaths) : SkillScope → FileTree.Path
  | .user => paths.userDir
  | .project => paths.projectDir

def skillDirFor (paths : SkillConfigPaths) (scope : SkillScope) (id : String) : FileTree.Path :=
  join (paths.baseDir scope) id

/-- The records of both scopes, and the file tree. -/
structure SkillsState where
  skills : SkillScope → String → Option SkillInstalledConfig
  tree : Tree

/-- What the clock and the network say in one scope, and how the steps on its files turn out: where a removal fails, it
says what stays, and where directories or files fail, how many there are. -/
structure SkillIo where
  started : Int := 0
  now : Int := 0
  catalog : SkillCatalogIndex → Option (List SkillCatalogEntry) := fun _ => none
  probed : Option String := none
  downloaded : Option String := none
  loaded : Bool := true
  saved : Bool := true
  parentDirs : Option Nat := none
  scratchRemoval : Option (FileTree.Path → Bool) := none
  scratchDirs : Option Nat := none
  copied : Option Nat := none
  removal : Option (FileTree.Path → Bool) := none
  renamed : Bool := true

inductive SkillFailure
  | id (message : String)
  | invalidDestination
  | createDir
  | createTmpDir
  | copy
  | removeExisting
  | moveTmpDir
  | removeSkillDir
  | readConfig
  | writeConfig
  | download
  | checksumMismatch (id : String)
  | tooLarge (id : String)
  | versionAndLatest
  | loadCatalog
  | entryNotFound (id : String)
  | versionMismatch (id requested got : String)

def eqIgnoreAsciiCase (a b : String) : Bool := toAsciiLowercase a = toAsciiLowercase b

def maxSkillMdBytes : Nat := 200 * 1024

/-- The parts of `base.join(id)` as they are written: a dot is dropped, two dots are not. -/
def writtenParts (base : FileTree.Path) (id : String) : FileTree.Path :=
  base ++ (parts id).filter fun part => part ≠ "" && part ≠ "."

/-- `dest_dir.parent()`. -/
def destParent (base : FileTree.Path) (id : String) : Option FileTree.Path :=
  if writtenParts base id = [] then none else some (writtenParts base id).dropLast

/-- `dest_dir.file_name()`, or `skill`. -/
def destFileName (base : FileTree.Path) (id : String) : String :=
  match (writtenParts base id).getLast? with
  | some name => if name = ".." then "skill" else name
  | none => "skill"

/-- The directory beside the skill's in which it is prepared. -/
def scratchDir (parent base : FileTree.Path) (id : String) (now : Int) : FileTree.Path :=
  parent ++ [".tmp-" ++ destFileName base id ++ "-" ++ toString now]

/-- Copy files, with the directories they need, into a directory. -/
def copyFiles (dir : FileTree.Path) (tree : Tree) : List (FileTree.Path × String) → Tree
  | [] => tree
  | (relative, content) :: files =>
    copyFiles dir ((tree.createDirAll (dir ++ relative).dropLast none).write (dir ++ relative) content) files

/-- `write_skill_tree` and `write_catalog_skill_dir`: prepare the files beside the skill's directory, remove what is
there, and put them in its place. -/
def writeSkillDir (base : FileTree.Path) (id : String) (files : List (FileTree.Path × String)) (io : SkillIo)
    (tree : Tree) : Except SkillFailure Unit × Tree :=
  match destParent base id with
  | none => (.error .invalidDestination, tree)
  | some parent =>
    let tree := tree.createDirAll parent io.parentDirs
    if io.parentDirs.isSome then (.error .createDir, tree)
    else
      let scratch := scratchDir parent base id io.now
      -- A failure to remove an old directory is ignored.
      let tree := if tree.pathExists scratch then tree.removeDirAll scratch io.scratchRemoval else tree
      let tree := tree.createDirAll scratch io.scratchDirs
      if io.scratchDirs.isSome then (.error .createTmpDir, tree)
      else
        let tree := copyFiles scratch tree (files.take (io.copied.getD files.length))
        if io.copied.isSome then (.error .copy, tree)
        else
          let dest := join base id
          let removal := if tree.pathExists dest then io.removal else none
          let tree := if tree.pathExists dest then tree.removeDirAll dest removal else tree
          if removal.isSome then (.error .removeExisting, tree)
          else if io.renamed then (.ok (), tree.rename scratch dest) else (.error .moveTmpDir, tree)

/-- Put the files of an accepted id in place and record it. -/
def installSkill (paths : SkillConfigPaths) (scope : SkillScope) (id : String) (files : List (FileTree.Path × String))
    (record : SkillInstalledConfig) (io : SkillIo) (s : SkillsState) : Except SkillFailure String × SkillsState :=
  match writeSkillDir (paths.baseDir scope) id files io s.tree with
  | (.error e, tree) => (.error e, { s with tree })
  | (.ok (), tree) =>
    if io.saved then
      let skills := Function.update s.skills scope (Function.update (s.skills scope) id (some record))
      (.ok id, { s with tree, skills })
    else (.error .writeConfig, { s with tree })

section

variable (sha256Hex : String → String)

/-- `install_local_skill`, once the source directory is scanned. -/
def installLocalSkill (paths : SkillConfigPaths) (scope : SkillScope) (sourceRef derivedId skillMdContent : String)
    (files : List (FileTree.Path × String)) (io : SkillIo) (s : SkillsState) : Except SkillFailure String × SkillsState :=
  match normalizeSkillId derivedId with
  | .error message => (.error (.id message), s)
  | .ok id =>
    let version := "local-" ++ toString io.started
    let checksumSha256 := sha256Hex skillMdContent
    installSkill paths scope id files { sourceKind := .localDir, sourceRef, version, checksumSha256 } io s

def installCatalogSkillWithOverride (paths : SkillConfigPaths) (scope : SkillScope) (entry : SkillCatalogEntry)
    (io : SkillIo) (s : SkillsState) : Except SkillFailure String × SkillsState :=
  match normalizeSkillId entry.id with
  | .error message => (.error (.id message), s)
  | .ok id =>
    match io.downloaded with
    | none => (.error .download, s)
    | some markdown =>
      let checksum := sha256Hex markdown
      if entry.checksumSha256.any fun expect => ! isBlank expect && ! eqIgnoreAsciiCase expect checksum then
        (.error (.checksumMismatch id), s)
      else if byteLen markdown > maxSkillMdBytes then (.error (.tooLarge id), s)
      else
        installSkill paths scope id [(["SKILL.md"], markdown)]
          { sourceKind := .catalog, sourceRef := entry.sourceRef, version := entry.version, checksumSha256 := checksum }
          io s

def removeSkillInScope (paths : SkillConfigPaths) (scope : SkillScope) (id : String) (io : SkillIo)
    (s : SkillsState) : Except SkillFailure Bool × SkillsState :=
  if ¬ io.loaded then (.error .readConfig, s)
  else if (s.skills scope id).isNone then (.ok false, s)
  else if ¬ io.saved then (.error .writeConfig, s)
  else
    let skills := Function.update s.skills scope (Function.update (s.skills scope) id none)
    let dir := skillDirFor paths scope id
    if s.tree.pathExists dir then
      let tree := s.tree.removeDirAll dir io.removal
      (if io.removal.isSome then .error .removeSkillDir else .ok true, { s with skills, tree })
    else (.ok true, { s with skills })

def removeSkill (paths : SkillConfigPaths) (scope : SkillRemoveScope) (raw : String) (io : SkillScope → SkillIo)
    (s : SkillsState) : Except SkillFailure Bool × SkillsState :=
  match normalizeSkillId raw with
  | .error message => (.error (.id message), s)
  | .ok id =>
    match scope with
    | .user => removeSkillInScope paths .user id (io .user) s
    | .project => removeSkillInScope paths .project id (io .project) s
    | .all =>
      match removeSkillInScope paths .user id (io .user) s with
      | (.error e, s) => (.error e, s)
      | (.ok user, s) =>
        match removeSkillInScope paths .project id (io .project) s with
        | (.error e, s) => (.error e, s)
        | (.ok project, s) => (.ok (user || project), s)

/-! ## Updates -/

structure SkillUpdateResult where
  touched : Nat := 0
  updated : Nat := 0
  upToDate : Nat := 0
  skippedLocal : Nat := 0
  missing : Nat := 0

/-- The catalog in which an installed skill is looked up. -/
def selectedIndex (installed : SkillInstalledConfig) (index : SkillCatalogIndex) : SkillCatalogIndex :=
  if startsWith installed.sourceRef "openai/skills:" then .official
  else if startsWith installed.sourceRef "team:" then .team
  else index

/-- The catalog's entry for an installed skill, unless it is up to date. -/
def updateEntry (id : String) (toVersion : Option String) (latest : Bool) (index : SkillCatalogIndex)
    (installed : SkillInstalledConfig) (io : SkillIo) : Except SkillFailure (Option SkillCatalogEntry) :=
  match io.catalog (selectedIndex installed index) with
  | none => .error .loadCatalog
  | some entries =>
    match entries.find? fun entry => eqIgnoreAsciiCase entry.id id with
    | none => .error (.entryNotFound id)
    | some entry =>
      if toVersion.any fun expect => ! eqIgnoreAsciiCase entry.version expect then
        .error (.versionMismatch id (toVersion.getD "") entry.version)
      else if ¬ latest ∧ toVersion = none ∧ installed.version = entry.version ∧
          eqIgnoreAsciiCase installed.checksumSha256 (entry.checksumSha256.getD "") then
        .ok none
      else if toVersion = none ∧ ¬ latest ∧ installed.version = entry.version ∧ entry.checksumSha256 = none then
        match io.probed with
        | none => .error .download
        | some markdown =>
          let nextChecksum := sha256Hex markdown
          if eqIgnoreAsciiCase installed.checksumSha256 nextChecksum then .ok none
          else .ok (some { entry with checksumSha256 := some nextChecksum })
      else .ok (some entry)

/-- One scope of `update_skill`. -/
def updateSkillInScope (paths : SkillConfigPaths) (scope : SkillScope) (id : String) (toVersion : Option String)
    (latest : Bool) (index : SkillCatalogIndex) (io : SkillIo) (out : SkillUpdateResult) (s : SkillsState) :
    Except SkillFailure SkillUpdateResult × SkillsState :=
  if ¬ io.loaded then (.error .readConfig, s)
  else
    match s.skills scope id with
    | none => (.ok { out with missing := out.missing + 1 }, s)
    | some installed =>
      let out := { out with touched := out.touched + 1 }
      if installed.sourceKind ≠ .catalog then (.ok { out with skippedLocal := out.skippedLocal + 1 }, s)
      else
        match updateEntry sha256Hex id toVersion latest index installed io with
        | .error e => (.error e, s)
        | .ok none => (.ok { out with upToDate := out.upToDate + 1 }, s)
        | .ok (some entry) =>
          match installCatalogSkillWithOverride sha256Hex paths scope entry io s with
          | (.error e, s) => (.error e, s)
          | (.ok _, s) => (.ok { out with updated := out.updated + 1 }, s)

def updateSkillInScopes (paths : SkillConfigPaths) (id : String) (toVersion : Option String) (latest : Bool)
    (index : SkillCatalogIndex) (io : SkillScope → SkillIo) :
    List SkillScope → SkillUpdateResult → SkillsState → Except SkillFailure SkillUpdateResult × SkillsState
  | [], out, s => (.ok out, s)
  | scope :: scopes, out, s =>
    match updateSkillInScope sha256Hex paths scope id toVersion latest index (io scope) out s with
    | (.error e, s) => (.error e, s)
    | (.ok out, s) => updateSkillInScopes paths id toVersion latest index io scopes out s

def updateSkill (paths : SkillConfigPaths) (scope : SkillRemoveScope) (raw : String) (toVersion : Option String)
    (latest : Bool) (index : SkillCatalogIndex) (io : SkillScope → SkillIo) (s : SkillsState) :
    Except SkillFailure SkillUpdateResult × SkillsState :=
  if toVersion.isSome ∧ latest then (.error .versionAndLatest, s)
  else
    match normalizeSkillId raw with
    | .error message => (.error (.id message), s)
    | .ok id => updateSkillInScopes sha256Hex paths id toVersion latest index io (scopesFromRemoveScope scope) {} s

end

/-! ## What an operation keeps -/

/-- Nothing lies where the skill is prepared. -/
def NoScratch (base : FileTree.Path) (id : String) (now : Int) (tree : Tree) : Prop :=
  ∀ parent, destParent base id = some parent → ∀ p, scratchDir parent base id now <+: p → tree p = none

/-- In the skill's own directory in one of the scopes. -/
def InOwnDir (paths : SkillConfigPaths) (scope : SkillRemoveScope) (id : String) (p : FileTree.Path) : Prop :=
  ∃ target ∈ scopesFromRemoveScope scope, paths.baseDir target ++ [id] <+: p

theorem keeps_ite {zone : FileTree.Path → Prop} {before after after' : Tree} {c : Prop} [Decidable c]
    (h : Keeps zone before after) (h' : Keeps zone before after') : Keeps zone before (if c then after else after') := by
  split_ifs
  exacts [h, h']

theorem keeps_guard {α β : Type} {zone : FileTree.Path → Prop} {before after : Tree} {failed : Prop} [Decidable failed]
    {e : α} {rest : Except α β × Tree} (h : Keeps zone before after) (hrest : Keeps zone before rest.2) :
    Keeps zone before (if failed then (.error e, after) else rest).2 := by
  split_ifs
  exacts [h, hrest]

theorem keeps_copyFiles (dir : FileTree.Path) (files : List (FileTree.Path × String)) :
    ∀ tree, Keeps (dir <+: ·) tree (copyFiles dir tree files) := by
  induction files with
  | nil => exact fun tree => keeps_refl _ tree
  | cons file files ih =>
    intro tree
    rw [copyFiles]
    have hdirs := keeps_createDirAll (dir <+: ·) tree (dir ++ file.1).dropLast none
    exact keeps_trans (keeps_trans hdirs (keeps_write _ (List.prefix_append dir file.1) file.2)) (ih _)

section

variable {id : String} (hslash : '/' ∉ id.toList) (hnamed : ProperName id)

include hslash hnamed

theorem writtenParts_of_named (base : FileTree.Path) : writtenParts base id = base ++ [id] := by
  have hkept : (id ≠ "" && id ≠ ".") = true := by
    rw [Bool.and_eq_true, decide_eq_true_eq, decide_eq_true_eq]
    exact ⟨hnamed.1, hnamed.2.1⟩
  rw [writtenParts, parts_of_no_slash hslash, List.filter_cons, if_pos hkept, List.filter_nil]

theorem destParent_of_named (base : FileTree.Path) : destParent base id = some base := by
  rw [destParent, writtenParts_of_named hslash hnamed, if_neg (by simp), List.dropLast_concat]

/-- Putting files in place keeps what is neither in the skill's directory nor where they are prepared. -/
theorem keeps_writeSkillDir (base : FileTree.Path) (files : List (FileTree.Path × String)) (io : SkillIo) (tree : Tree) :
    Keeps (fun p => base ++ [id] <+: p ∨ scratchDir base base id io.now <+: p) tree
      (writeSkillDir base id files io tree).2 := by
  rw [writeSkillDir, destParent_of_named hslash hnamed base]
  dsimp only
  rw [join_of_name hslash hnamed base]
  generalize scratchDir base base id io.now = scratch
  have hcreated : Keeps (fun p => base ++ [id] <+: p ∨ scratch <+: p) tree (tree.createDirAll base io.parentDirs) :=
    keeps_createDirAll _ tree base io.parentDirs
  refine keeps_guard hcreated ?_
  generalize tree.createDirAll base io.parentDirs = created at hcreated ⊢
  have hcleared := keeps_ite (c := created.pathExists scratch) (keeps_trans hcreated
    ((keeps_removeDirAll created scratch io.scratchRemoval).mono fun p hp => Or.inr hp)) hcreated
  generalize (if created.pathExists scratch then created.removeDirAll scratch io.scratchRemoval else created) = cleared
    at hcleared ⊢
  have hprepared := keeps_trans hcleared (keeps_createDirAll _ cleared scratch io.scratchDirs)
  refine keeps_guard hprepared ?_
  generalize cleared.createDirAll scratch io.scratchDirs = prepared at hprepared ⊢
  have hcopied := keeps_trans hprepared ((keeps_copyFiles scratch (files.take (io.copied.getD files.length)) prepared).mono
    fun p hp => Or.inr hp)
  refine keeps_guard hcopied ?_
  generalize copyFiles scratch prepared (files.take (io.copied.getD files.length)) = copied at hcopied ⊢
  generalize (if copied.pathExists (base ++ [id]) then io.removal else none) = removal
  have hremoved := keeps_ite (c := copied.pathExists (base ++ [id])) (keeps_trans hcopied
    ((keeps_removeDirAll copied (base ++ [id]) removal).mono fun p hp => Or.inl hp)) hcopied
  generalize (if copied.pathExists (base ++ [id]) then copied.removeDirAll (base ++ [id]) removal else copied) = removed
    at hremoved ⊢
  refine keeps_guard hremoved ?_
  split_ifs
  · exact keeps_trans hremoved (keeps_rename removed scratch (base ++ [id]))
  · exact hremoved

theorem keeps_installSkill (paths : SkillConfigPaths) (scope : SkillScope) (files : List (FileTree.Path × String))
    (record : SkillInstalledConfig) (io : SkillIo) (s : SkillsState) :
    Keeps (fun p => paths.baseDir scope ++ [id] <+: p ∨
      scratchDir (paths.baseDir scope) (paths.baseDir scope) id io.now <+: p)
      s.tree (installSkill paths scope id files record io s).2.tree := by
  have hwritten := keeps_writeSkillDir hslash hnamed (paths.baseDir scope) files io s.tree
  rw [installSkill]
  generalize writeSkillDir (paths.baseDir scope) id files io s.tree = written at hwritten ⊢
  rcases written with ⟨_ | _, tree⟩
  · exact hwritten
  · dsimp only
    split_ifs
    exacts [hwritten, hwritten]

theorem keeps_removeSkillInScope (paths : SkillConfigPaths) (scope : SkillScope) (io : SkillIo) (s : SkillsState) :
    Keeps (paths.baseDir scope ++ [id] <+: ·) s.tree (removeSkillInScope paths scope id io s).2.tree := by
  rw [removeSkillInScope, skillDirFor, join_of_name hslash hnamed]
  dsimp only
  split_ifs
  · exact keeps_refl _ s.tree
  · exact keeps_removeDirAll s.tree (paths.baseDir scope ++ [id]) io.removal
  · exact keeps_removeDirAll s.tree (paths.baseDir scope ++ [id]) io.removal
  · exact keeps_refl _ s.tree
  · exact keeps_refl _ s.tree
  · exact keeps_refl _ s.tree

end

theorem normalizeSkillId_updateEntry {raw id : String} (h : normalizeSkillId raw = .ok id)
    {sha256Hex : String → String} {toVersion : Option String} {latest : Bool} {index : SkillCatalogIndex}
    {installed : SkillInstalledConfig} {io : SkillIo} {entry : SkillCatalogEntry}
    (hentry : updateEntry sha256Hex id toVersion latest index installed io = .ok (some entry)) :
    normalizeSkillId entry.id = .ok id := by
  have hsame : toAsciiLowercase entry.id = toAsciiLowercase id := by
    simp only [updateEntry] at hentry
    split at hentry
    · cases hentry
    · split at hentry
      · cases hentry
      · rename_i found hfound
        have heq := List.find?_some hfound
        rw [eqIgnoreAsciiCase, decide_eq_true_eq] at heq
        split_ifs at hentry
        · cases hentry
        · split at hentry
          · cases hentry
          · split_ifs at hentry
            · cases hentry
            · cases hentry
              exact heq
        · cases hentry
          exact heq
  exact normalizeSkillId_of_lowercase h (hsame.trans (toAsciiLowercase_normalizeSkillId h))

section

variable {raw id : String} (h : normalizeSkillId raw = .ok id) (hnamed : ProperName id)

include h hnamed

theorem keeps_removeSkill (paths : SkillConfigPaths) (scope : SkillRemoveScope) (io : SkillScope → SkillIo)
    (s : SkillsState) : Keeps (InOwnDir paths scope id) s.tree (removeSkill paths scope raw io s).2.tree := by
  have hscope : ∀ target ∈ scopesFromRemoveScope scope, ∀ s : SkillsState,
      Keeps (InOwnDir paths scope id) s.tree (removeSkillInScope paths target id (io target) s).2.tree := by
    intro target hmem s
    exact (keeps_removeSkillInScope (no_slash_normalizeSkillId h) hnamed paths target (io target) s).mono
      fun p hp => ⟨target, hmem, hp⟩
  rw [removeSkill, h]
  cases scope with
  | user => exact hscope .user (List.mem_singleton_self _) s
  | project => exact hscope .project (List.mem_singleton_self _) s
  | all =>
    have huser := hscope .user (by decide) s
    dsimp only
    generalize removeSkillInScope paths .user id (io .user) s = removed at huser ⊢
    rcases removed with ⟨_ | _, s'⟩
    · exact huser
    · have hproject := keeps_trans huser (hscope .project (by decide) s')
      dsimp only
      generalize removeSkillInScope paths .project id (io .project) s' = removed at hproject ⊢
      rcases removed with ⟨_ | _, s''⟩
      · exact hproject
      · exact hproject

theorem noScratch_iff (base : FileTree.Path) (now : Int) (tree : Tree) :
    NoScratch base id now tree ↔ ∀ p, scratchDir base base id now <+: p → tree p = none := by
  rw [NoScratch, destParent_of_named (no_slash_normalizeSkillId h) hnamed]
  exact ⟨fun hclear => hclear base rfl, fun hclear parent hparent => Option.some.inj hparent ▸ hclear⟩

theorem keeps_installLocalSkill (sha256Hex : String → String) (paths : SkillConfigPaths) (scope : SkillScope)
    (sourceRef content : String) (files : List (FileTree.Path × String)) (io : SkillIo) (s : SkillsState)
    (hclear : NoScratch (paths.baseDir scope) id io.now s.tree) :
    Keeps (paths.baseDir scope ++ [id] <+: ·) s.tree
      (installLocalSkill sha256Hex paths scope sourceRef raw content files io s).2.tree := by
  refine Keeps.of_clear ?_ ((noScratch_iff h hnamed _ _ _).mp hclear)
  rw [installLocalSkill, h]
  exact keeps_installSkill (no_slash_normalizeSkillId h) hnamed paths scope files _ io s

theorem keeps_installCatalogSkill (sha256Hex : String → String) (paths : SkillConfigPaths) (scope : SkillScope)
    {entry : SkillCatalogEntry} (hentry : normalizeSkillId entry.id = .ok id) (io : SkillIo) (s : SkillsState) :
    Keeps (fun p => paths.baseDir scope ++ [id] <+: p ∨
      scratchDir (paths.baseDir scope) (paths.baseDir scope) id io.now <+: p)
      s.tree (installCatalogSkillWithOverride sha256Hex paths scope entry io s).2.tree := by
  rw [installCatalogSkillWithOverride, hentry]
  dsimp only
  split
  · exact keeps_refl _ s.tree
  · split_ifs
    · exact keeps_refl _ s.tree
    · exact keeps_refl _ s.tree
    · exact keeps_installSkill (no_slash_normalizeSkillId h) hnamed paths scope _ _ io s

theorem keeps_updateSkillInScope (sha256Hex : String → String) (paths : SkillConfigPaths) (scope : SkillScope)
    (toVersion : Option String) (latest : Bool) (index : SkillCatalogIndex) (io : SkillIo) (out : SkillUpdateResult)
    (s : SkillsState) :
    Keeps (fun p => paths.baseDir scope ++ [id] <+: p ∨
      scratchDir (paths.baseDir scope) (paths.baseDir scope) id io.now <+: p)
      s.tree (updateSkillInScope sha256Hex paths scope id toVersion latest index io out s).2.tree := by
  rw [updateSkillInScope]
  split_ifs
  · split
    · exact keeps_refl _ s.tree
    · dsimp only
      split_ifs
      · exact keeps_refl _ s.tree
      · split
        · exact keeps_refl _ s.tree
        · exact keeps_refl _ s.tree
        · rename_i entry hentry
          have hinstalled := keeps_installCatalogSkill h hnamed sha256Hex paths scope
            (normalizeSkillId_updateEntry h hentry) io s
          generalize installCatalogSkillWithOverride sha256Hex paths scope entry io s = installed at hinstalled ⊢
          rcases installed with ⟨_ | _, s'⟩
          · exact hinstalled
          · exact hinstalled
  · exact keeps_refl _ s.tree

theorem keeps_updateSkillInScopes (sha256Hex : String → String) (paths : SkillConfigPaths) (toVersion : Option String)
    (latest : Bool) (index : SkillCatalogIndex) (io : SkillScope → SkillIo) {zone : FileTree.Path → Prop}
    (scopes : List SkillScope)
    (hzone : ∀ target ∈ scopes, ∀ p, (paths.baseDir target ++ [id] <+: p ∨
      scratchDir (paths.baseDir target) (paths.baseDir target) id (io target).now <+: p) → zone p) :
    ∀ out s, Keeps zone s.tree (updateSkillInScopes sha256Hex paths id toVersion latest index io scopes out s).2.tree := by
  induction scopes with
  | nil => exact fun out s => keeps_refl _ s.tree
  | cons scope scopes ih =>
    intro out s
    have hfirst := (keeps_updateSkillInScope h hnamed sha256Hex paths scope toVersion latest index (io scope) out s).mono
      (hzone scope List.mem_cons_self)
    rw [updateSkillInScopes]
    generalize updateSkillInScope sha256Hex paths scope id toVersion latest index (io scope) out s = updated
      at hfirst ⊢
    rcases updated with ⟨_ | out', s'⟩
    · exact hfirst
    · exact keeps_trans hfirst (ih (fun target hmem => hzone target (List.mem_cons_of_mem scope hmem)) out' s')

theorem keeps_updateSkill (sha256Hex : String → String) (paths : SkillConfigPaths) (scope : SkillRemoveScope)
    (toVersion : Option String) (latest : Bool) (index : SkillCatalogIndex) (io : SkillScope → SkillIo) (s : SkillsState)
    (hclear : ∀ target ∈ scopesFromRemoveScope scope, NoScratch (paths.baseDir target) id (io target).now s.tree) :
    Keeps (InOwnDir paths scope id) s.tree
      (updateSkill sha256Hex paths scope raw toVersion latest index io s).2.tree := by
  have hboth : Keeps (fun p => InOwnDir paths scope id p ∨ ∃ target ∈ scopesFromRemoveScope scope,
      scratchDir (paths.baseDir target) (paths.baseDir target) id (io target).now <+: p) s.tree
      (updateSkill sha256Hex paths scope raw toVersion latest index io s).2.tree := by
    rw [updateSkill, h]
    split_ifs
    · exact keeps_refl _ s.tree
    · refine keeps_updateSkillInScopes h hnamed sha256Hex paths toVersion latest index io _ ?_ {} s
      rintro target hmem p (hp | hp)
      · exact Or.inl ⟨target, hmem, hp⟩
      · exact Or.inr ⟨target, hmem, hp⟩
  refine hboth.of_clear ?_
  rintro p ⟨target, hmem, hp⟩
  exact (noScratch_iff h hnamed _ _ _).mp (hclear target hmem) p hp

end

/-! ## Where it ends -/

/-- The ids that lead to no entry of the base directory. -/
def IsDots (id : String) : Prop := id = "." ∨ id = ".."

instance (id : String) : Decidable (IsDots id) := inferInstanceAs (Decidable (id = "." ∨ id = ".."))

def weatherPath : FileTree.Path := ["data", "skills", "weather"]

/-- A base directory with one skill in it. -/
def weatherTree : Tree := fun p =>
  if p = ["data"] ∨ p = ["data", "skills"] ∨ p = weatherPath then some .dir else none

def dataPaths : SkillConfigPaths := { userDir := ["data", "skills"], projectDir := ["project", "skills"] }

def dotsEntry (id : String) : SkillCatalogEntry := { id, version := "2", sourceRef := "team:dots", checksumSha256 := none }

def dotsRecord : SkillInstalledConfig :=
  { sourceKind := .catalog, sourceRef := "team:dots", version := "1", checksumSha256 := "" }

/-- The file system does not remove a directory by a path that ends in dots, once what it holds is gone. -/
def dotsIo (id : String) : SkillIo where
  catalog := fun _ => some [dotsEntry id]
  downloaded := some ""
  removal := some fun p => p = join ["data", "skills"] id

/-- The weather skill is there, and a record says that the dots are. -/
def weatherState (id : String) : SkillsState where
  skills := fun _ other => if other = id then some dotsRecord else none
  tree := weatherTree

theorem not_keeps_weather {zone : FileTree.Path → Prop} {after : Tree} (hlost : after weatherPath = none)
    (hzone : ¬ zone weatherPath) : ¬ Keeps zone weatherTree after := by
  intro hkeeps
  have hsame := hkeeps weatherPath hzone (by decide)
  rw [hlost] at hsame
  exact absurd hsame (by decide)

section

variable {raw id : String} (h : normalizeSkillId raw = .ok id) (hdots : IsDots id)

include hdots

theorem weather_not_own : ¬ dataPaths.baseDir .user ++ [id] <+: weatherPath := by
  rcases hdots with rfl | rfl
  exacts [by decide, by decide]

omit hdots in
theorem noScratch_weather (now : Int) : NoScratch (dataPaths.baseDir .user) id now weatherTree := by
  intro parent hparent p hscratch
  refine if_neg fun hp => ?_
  have hmem := hscratch.subset (List.mem_append_right parent (List.mem_singleton_self _))
  have hknown : ∀ name ∈ p, name.toList.head? ≠ some '.' := by
    rcases hp with rfl | rfl | rfl
    exacts [by decide, by decide, by decide]
  refine hknown _ hmem ?_
  rw [String.toList_append, String.toList_append, String.toList_append]
  rfl

theorem weather_lost (files : List (FileTree.Path × String)) (hfiles : files = [] ∨ files = [(["SKILL.md"], "")]) :
    (writeSkillDir (dataPaths.baseDir .user) id files (dotsIo id) weatherTree).2 weatherPath = none := by
  rcases hdots with rfl | rfl <;> rcases hfiles with rfl | rfl <;> decide +kernel

theorem not_keeps_installSkill {files : List (FileTree.Path × String)} (hfiles : files = [] ∨ files = [(["SKILL.md"], "")])
    (record : SkillInstalledConfig) : ¬ Keeps (dataPaths.baseDir .user ++ [id] <+: ·) weatherTree
      (installSkill dataPaths .user id files record (dotsIo id) (weatherState id)).2.tree := by
  refine not_keeps_weather ?_ (weather_not_own hdots)
  have hlost := weather_lost hdots files hfiles
  rw [installSkill, weatherState]
  generalize writeSkillDir (dataPaths.baseDir .user) id files (dotsIo id) weatherTree = written at hlost ⊢
  rcases written with ⟨_ | _, tree⟩
  · exact hlost
  · exact hlost

theorem not_keeps_installCatalogSkill (sha256Hex : String → String) {name : String}
    (hname : normalizeSkillId name = .ok id) : ¬ Keeps (dataPaths.baseDir .user ++ [id] <+: ·) weatherTree
      (installCatalogSkillWithOverride sha256Hex dataPaths .user (dotsEntry name) (dotsIo id) (weatherState id)).2.tree := by
  have hsmall : ¬ byteLen "" > maxSkillMdBytes := by decide
  simp only [installCatalogSkillWithOverride, dotsEntry, hname, dotsIo, Option.any_none, Bool.false_eq_true,
    if_false, if_neg hsmall]
  exact not_keeps_installSkill hdots (Or.inr rfl) _

include h

theorem not_keeps_removeSkill : ¬ Keeps (InOwnDir dataPaths .user id) weatherTree
    (removeSkill dataPaths .user raw (fun _ => dotsIo id) (weatherState id)).2.tree := by
  refine not_keeps_weather ?_ ?_
  · rw [removeSkill, h]
    rcases hdots with rfl | rfl <;> decide +kernel
  · rintro ⟨target, hmem, hp⟩
    obtain rfl := List.mem_singleton.mp hmem
    exact weather_not_own hdots hp


theorem not_keeps_installLocalSkill (sha256Hex : String → String) :
    ¬ Keeps (dataPaths.baseDir .user ++ [id] <+: ·) weatherTree
      (installLocalSkill sha256Hex dataPaths .user "" raw "" [] (dotsIo id) (weatherState id)).2.tree := by
  rw [installLocalSkill, h]
  exact not_keeps_installSkill hdots (Or.inl rfl) _

theorem not_keeps_updateSkill (sha256Hex : String → String) : ¬ Keeps (InOwnDir dataPaths .user id) weatherTree
    (updateSkill sha256Hex dataPaths .user raw none true .all (fun _ => dotsIo id) (weatherState id)).2.tree := by
  have hself : normalizeSkillId id = .ok id := normalizeSkillId_of_lowercase h (toAsciiLowercase_normalizeSkillId h)
  have hentry : updateEntry sha256Hex id none true .all dotsRecord (dotsIo id) = .ok (some (dotsEntry id)) := by
    simp [updateEntry, dotsIo, dotsEntry, eqIgnoreAsciiCase]
  have hlost := not_keeps_installCatalogSkill hdots sha256Hex hself
  have hrun : (updateSkill sha256Hex dataPaths .user raw none true .all (fun _ => dotsIo id) (weatherState id)).2 =
      (installCatalogSkillWithOverride sha256Hex dataPaths .user (dotsEntry id) (dotsIo id) (weatherState id)).2 := by
    have hrecord : (weatherState id).skills .user id = some dotsRecord := if_pos rfl
    have hcatalog : ¬ dotsRecord.sourceKind ≠ .catalog := by decide
    have hloaded : (dotsIo id).loaded = true := rfl
    rw [updateSkill, if_neg (by decide), h]
    simp only [scopesFromRemoveScope, updateSkillInScopes, updateSkillInScope, hrecord, hloaded, hentry, if_neg hcatalog]
    generalize installCatalogSkillWithOverride sha256Hex dataPaths .user (dotsEntry id) (dotsIo id) (weatherState id) =
      installed
    rcases installed with ⟨_ | _, s⟩
    · rfl
    · rfl
  rw [hrun]
  intro hkeeps
  refine hlost (hkeeps.mono ?_)
  rintro p ⟨target, hmem, hp⟩
  obtain rfl := List.mem_singleton.mp hmem
  exact hp

end

section

variable {id : String} (hslash : '/' ∉ id.toList) (hnamed : ProperName id)

include hslash hnamed

theorem scratch_not_own (base : FileTree.Path) (now : Int) : ¬ base ++ [id] <+: scratchDir base base id now := by
  have hname : destFileName base id = id := by
    rw [destFileName, writtenParts_of_named hslash hnamed, List.getLast?_concat]
    exact if_neg hnamed.2.2
  rw [scratchDir, hname, List.prefix_append_right_inj, List.cons_prefix_cons]
  rintro ⟨hsame, -⟩
  have hlength := congrArg (fun name => name.toList.length) hsame
  simp only [String.toList_append, List.length_append] at hlength
  have hshort : ".tmp-".toList.length = 5 := rfl
  omega

theorem scratch_moved (base : FileTree.Path) (files : List (FileTree.Path × String)) (now : Int) (tree : Tree) :
    (writeSkillDir base id files { now } tree).2 (scratchDir base base id now) = none := by
  rw [writeSkillDir, destParent_of_named hslash hnamed base]
  simp only [Option.isSome_none, Bool.false_eq_true, if_false, ite_self, if_true, join_of_name hslash hnamed, Tree.rename,
    if_neg (scratch_not_own hslash hnamed base now), List.prefix_rfl]

end

/-- **Containment is exactly for the ids that are not dots**: then the path of an accepted id is a child of the base
directory, and removing, installing and updating keep every entry outside the skill's own directory, unless it lies where
the skill is prepared; what lies there is lost. -/
theorem skill_paths_iff (sha256Hex : String → String) {raw id : String} (h : normalizeSkillId raw = .ok id) :
    (∀ base, DirectChild base (join base id) ↔ ¬ IsDots id) ∧
    ((∀ paths scope io s, Keeps (InOwnDir paths scope id) s.tree (removeSkill paths scope raw io s).2.tree) ↔
      ¬ IsDots id) ∧
    ((∀ paths scope sourceRef content files io s, NoScratch (paths.baseDir scope) id io.now s.tree →
      Keeps (paths.baseDir scope ++ [id] <+: ·) s.tree
        (installLocalSkill sha256Hex paths scope sourceRef raw content files io s).2.tree) ↔ ¬ IsDots id) ∧
    ((∀ paths scope entry io s, entry.id = raw → NoScratch (paths.baseDir scope) id io.now s.tree →
      Keeps (paths.baseDir scope ++ [id] <+: ·) s.tree
        (installCatalogSkillWithOverride sha256Hex paths scope entry io s).2.tree) ↔ ¬ IsDots id) ∧
    ((∀ paths scope toVersion latest index io s,
      (∀ target ∈ scopesFromRemoveScope scope, NoScratch (paths.baseDir target) id (io target).now s.tree) →
      Keeps (InOwnDir paths scope id) s.tree
        (updateSkill sha256Hex paths scope raw toVersion latest index io s).2.tree) ↔ ¬ IsDots id) ∧
    (¬ IsDots id → ∀ paths scope sourceRef content files now s,
      s.tree (scratchDir (paths.baseDir scope) (paths.baseDir scope) id now) = some .dir →
      ¬ Keeps (paths.baseDir scope ++ [id] <+: ·) s.tree
        (installLocalSkill sha256Hex paths scope sourceRef raw content files { now } s).2.tree) := by
  have hslash := no_slash_normalizeSkillId h
  have hnamed : ProperName id ↔ ¬ IsDots id := by rw [named_normalizeSkillId h, IsDots, not_or]
  refine ⟨fun base => (directChild_join_iff hslash base).trans hnamed, ⟨?_, ?_⟩, ⟨?_, ?_⟩, ⟨?_, ?_⟩, ⟨?_, ?_⟩, ?_⟩
  · intro hkeeps hdots
    exact not_keeps_removeSkill h hdots (hkeeps dataPaths .user (fun _ => dotsIo id) (weatherState id))
  · intro hdots paths scope io s
    exact keeps_removeSkill h (hnamed.mpr hdots) paths scope io s
  · intro hkeeps hdots
    exact not_keeps_installLocalSkill h hdots sha256Hex
      (hkeeps dataPaths .user "" "" [] (dotsIo id) (weatherState id) (noScratch_weather _))
  · intro hdots paths scope sourceRef content files io s hclear
    exact keeps_installLocalSkill h (hnamed.mpr hdots) sha256Hex paths scope sourceRef content files io s hclear
  · intro hkeeps hdots
    exact not_keeps_installCatalogSkill hdots sha256Hex h
      (hkeeps dataPaths .user (dotsEntry raw) (dotsIo id) (weatherState id) rfl (noScratch_weather _))
  · rintro hdots paths scope entry io s rfl hclear
    have hboth := keeps_installCatalogSkill h (hnamed.mpr hdots) sha256Hex paths scope h io s
    exact hboth.of_clear ((noScratch_iff h (hnamed.mpr hdots) _ _ _).mp hclear)
  · intro hkeeps hdots
    refine not_keeps_updateSkill h hdots sha256Hex
      (hkeeps dataPaths .user none true .all (fun _ => dotsIo id) (weatherState id) ?_)
    intro target hmem
    obtain rfl := List.mem_singleton.mp hmem
    exact noScratch_weather _
  · intro hdots paths scope toVersion latest index io s hclear
    exact keeps_updateSkill h (hnamed.mpr hdots) sha256Hex paths scope toVersion latest index io s hclear
  · intro hdots paths scope sourceRef content files now s hthere hkeeps
    have hsame := hkeeps _ (scratch_not_own hslash (hnamed.mpr hdots) _ now) (by rw [hthere]; exact Option.some_ne_none _)
    have hgone := scratch_moved hslash (hnamed.mpr hdots) (paths.baseDir scope) files now s.tree
    have htree : (installLocalSkill sha256Hex paths scope sourceRef raw content files { now } s).2.tree =
        (writeSkillDir (paths.baseDir scope) id files { now } s.tree).2 := by
      rw [installLocalSkill, h]
      simp only [installSkill]
      generalize writeSkillDir (paths.baseDir scope) id files { now } s.tree = written
      rcases written with ⟨_ | _, tree⟩
      · rfl
      · rfl
    rw [htree, hgone, hthere] at hsame
    exact absurd hsame (Option.some_ne_none _).symm

theorem my_skill_contained :
    DirectChild ["data", "skills"] (join ["data", "skills"] "my-skill") ∧
    Keeps (InOwnDir dataPaths .all "my-skill") weatherTree
      (removeSkill dataPaths .all " My Skill " (fun _ => {}) (weatherState "my-skill")).2.tree := by
  have h : normalizeSkillId " My Skill " = .ok "my-skill" := by decide +kernel
  have hdots : ¬ IsDots "my-skill" := by decide
  have hcontained := skill_paths_iff id h
  exact ⟨(hcontained.1 _).mpr hdots, hcontained.2.1.mpr hdots dataPaths .all (fun _ => {}) (weatherState "my-skill")⟩

/-- Two dots are accepted, and what they name is the directory above: installing a skill under them takes the weather
skill away. -/
theorem dots_escape :
    normalizeSkillId ".." = .ok ".." ∧ join ["data", "skills"] ".." = ["data"] ∧
    ¬ DirectChild ["data", "skills"] (join ["data", "skills"] "..") ∧ weatherTree weatherPath = some .dir ∧
    (installLocalSkill id dataPaths .user "/home/my-skill" ".." "" [] (dotsIo "..")
      { skills := fun _ _ => none, tree := weatherTree }).2.tree weatherPath = none := by
  refine ⟨by decide +kernel, by decide +kernel, ?_, by decide, by decide +kernel⟩
  rw [directChild_join_iff (by decide)]
  exact fun hnamed => hnamed.2.2 rfl

end Xiaomaolv
