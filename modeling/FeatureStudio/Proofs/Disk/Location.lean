/-
  FeatureStudio.Proofs.Disk.Location: where paths lead, and what changes to a disk leave alone.

  A path spells a location whether or not the directories on its way are there; if it leads
  anywhere, it leads to that location.  A change `Grows` a disk apart from some locations if
  everywhere else it brings new directories at most, and these on the way to what it asks for.
  Every change is one of this kind, apart from the locations that its paths spell; so what a path
  leads to goes on being found.

  Main statements:
    * `resolve_eq_ok`: a path leads to the location that it spells, or nowhere.
    * `Grows.resolve`: a path that leads somewhere goes on to.
    * `grows_makeDirectories`, `grows_fill`, `grows_rename`, …: what the changes leave alone.
    * `read_of_rename`: behind a change of name the path has the content of the file.
-/
import Mathlib.Data.Set.Insert
import FeatureStudio.Disk.Basic
import FeatureStudio.Proofs.Fallible

namespace FeatureStudio.Disk

open Text (Bytes)

/-! ## §1. Paths and locations. -/

/-- The location that names spell, from a location. -/
def walk : Location → List String → Location
  | l, [] => l
  | l, name :: rest =>
    if name = "" || name = "." then walk l rest
    else if name = ".." then walk l.dropLast rest
    else walk (l ++ [name]) rest

/-- The location that a path spells. -/
def locationOf (d : Disk) (path : String) : Location :=
  walk (if DiskPath.isAbsolute path then [] else d.home) (Text.split '/' path)

theorem follow_eq_ok {d : Disk} {names : List String} {l m : Location}
    (h : d.follow l names = .ok m) : m = walk l names := by
  induction names generalizing l with
  | nil =>
      cases h
      rfl
  | cons name rest ih =>
      -- of the names on the way a dot and an empty one stay, two dots go up, all others go down
      rw [follow] at h
      rw [walk]
      split at h
      · cases h
      · cases h
      · split at h
        · next hname => rw [if_pos hname, ← ih h]
        · next hname =>
            rw [if_neg hname]
            split at h
            · next hparent => rw [if_pos hparent, ← ih h]
            · next hparent =>
                rw [if_neg hparent]
                split at h
                · cases h
                · exact ih h

/-- **A path leads to the location that it spells**, or nowhere. -/
theorem resolve_eq_ok {d : Disk} {path : String} {l : Location} (h : d.resolve path = .ok l) :
    l = d.locationOf path := by
  unfold resolve at h
  split at h
  · cases h
  · split at h
    · cases h
    · exact follow_eq_ok h

/-- What is done at a path is done at the location that it spells. -/
theorem resolve_bind_eq_ok {α : Type} {d : Disk} {path : String}
    {f : Location → Except DiskError α} {a : α} :
    (d.resolve path >>= f) = .ok a ↔
      d.resolve path = .ok (d.locationOf path) ∧ f (d.locationOf path) = .ok a := by
  rw [bind_eq_ok_iff]
  constructor
  · rintro ⟨l, hl, h⟩
    cases resolve_eq_ok hl
    exact ⟨hl, h⟩
  · exact fun h => ⟨_, h⟩

/-- Where directories stay, names go on leading to where they led. -/
theorem follow_of_directories {d d' : Disk}
    (hstay : ∀ l, d.get? l = some .directory → d'.get? l = some .directory) {names : List String}
    {l m : Location} (h : d.follow l names = .ok m) : d'.follow l names = .ok m := by
  -- name by name: only directories lead on, and these are still there
  induction names generalizing l with
  | nil => exact h
  | cons name rest ih =>
      rw [follow] at h ⊢
      cases hl : d.get? l with
      | none => rw [hl] at h; cases h
      | some e =>
          cases e with
          | file c => rw [hl] at h; cases h
          | directory =>
              rw [hl] at h
              rw [hstay l hl]
              simp only at h ⊢
              split at h
              · next hname => rw [if_pos hname, ih h]
              · next hname =>
                  rw [if_neg hname]
                  split at h
                  · next hparent => rw [if_pos hparent, ih h]
                  · next hparent =>
                      rw [if_neg hparent]
                      split at h
                      · cases h
                      · next hsize => rw [if_neg hsize, ih h]

/-- The locations of the directories that are made for a path. -/
def wayTo (d : Disk) (path : String) : Set Location :=
  {l | ∃ above ∈ DiskPath.ancestors (path.length + 1) path, d.locationOf above = l}

/-! ## §2. Changes. -/

/-- Apart from some locations nothing is lost or replaced, and what is new are directories on the
way.  Directories stay anywhere. -/
structure Grows (apart way : Set Location) (d d' : Disk) : Prop where
  home : d'.home = d.home
  directories : ∀ l, d.get? l = some .directory → d'.get? l = some .directory
  elsewhere : ∀ l ∉ apart,
    d'.get? l = d.get? l ∨ l ∈ way ∧ d.get? l = none ∧ d'.get? l = some .directory

namespace Grows

variable {apart apart' way way' : Set Location} {d d' d'' : Disk} {l : Location}

theorem refl (apart way : Set Location) (d : Disk) : Grows apart way d d :=
  ⟨rfl, fun _ h => h, fun _ _ => .inl rfl⟩

theorem trans (h : Grows apart way d d') (h' : Grows apart way d' d'') :
    Grows apart way d d'' where
  home := h'.home.trans h.home
  directories l hl := h'.directories l (h.directories l hl)
  elsewhere l hl := by
    obtain hsame | ⟨hway, hnone, hnew⟩ := h.elsewhere l hl
    · rw [← hsame]
      exact h'.elsewhere l hl
    · exact .inr ⟨hway, hnone, h'.directories l hnew⟩

theorem mono (h : Grows apart way d d') (hsub : apart ⊆ apart') (hway : way ⊆ way') :
    Grows apart' way' d d' where
  home := h.home
  directories := h.directories
  elsewhere l hl := (h.elsewhere l fun hm => hl (hsub hm)).imp_right fun hnew =>
    ⟨hway hnew.1, hnew.2⟩

/-- A change apart from locations at which everything is as it was is none apart from these. -/
theorem without (h : Grows (apart ∪ apart') way d d')
    (hsame : ∀ l ∈ apart', l ∉ apart → d'.get? l = d.get? l) : Grows apart way d d' where
  home := h.home
  directories := h.directories
  elsewhere l hl := by
    by_cases hl' : l ∈ apart'
    · exact .inl (hsame l hl' hl)
    · exact h.elsewhere l (by simp [hl, hl'])

theorem locationOf (h : Grows apart way d d') (path : String) :
    d'.locationOf path = d.locationOf path := by
  unfold Disk.locationOf
  rw [h.home]

theorem wayTo (h : Grows apart way d d') (path : String) : d'.wayTo path = d.wayTo path := by
  ext l
  simp [Disk.wayTo, h.locationOf]

/-- **A path that leads somewhere goes on to**, and leads to the same location. -/
theorem resolve {path : String} (h : Grows apart way d d') (hl : d.resolve path = .ok l) :
    d'.resolve path = .ok l := by
  unfold Disk.resolve at hl ⊢
  rw [h.home]
  split at hl
  · cases hl
  · next hempty =>
      rw [if_neg hempty]
      split at hl
      · cases hl
      · next husable =>
          rw [if_neg husable]
          exact follow_of_directories h.directories hl

theorem get?_file {content : Bytes} (h : Grows apart way d d') (hl : l ∉ apart)
    (hfile : d.get? l = some (.file content)) : d'.get? l = some (.file content) := by
  obtain hsame | ⟨-, hnone, -⟩ := h.elsewhere l hl
  · rw [hsame, hfile]
  · rw [hnone] at hfile
    cases hfile

/-- What is missing afterwards was missing before. -/
theorem get?_none (h : Grows apart way d d') (hl : l ∉ apart) (hnone : d'.get? l = none) :
    d.get? l = none := by
  obtain hsame | ⟨-, hnone, -⟩ := h.elsewhere l hl
  · rw [← hsame, hnone]
  · exact hnone

/-- A location where no new directory can be is as it was. -/
theorem get?_of_notMem (h : Grows apart way d d') (hl : l ∉ apart)
    (hway : d.get? l = none → l ∉ way) : d'.get? l = d.get? l :=
  (h.elsewhere l hl).resolve_right fun hnew => hway hnew.2.1 hnew.1

/-- Where there is a file there was the same file. -/
theorem file_of_get? {content : Bytes} (h : Grows apart way d d') (hl : l ∉ apart)
    (hfile : d'.get? l = some (.file content)) : d.get? l = some (.file content) := by
  obtain hsame | ⟨-, -, hnew⟩ := h.elsewhere l hl
  · rw [← hsame, hfile]
  · rw [hfile] at hnew
    cases hnew

end Grows

variable {d d' : Disk} {path : String} {way : Set Location}

theorem ne_directory_of_file {l : Location} {content : Bytes}
    (h : d.get? l = some (.file content)) : d.get? l ≠ some .directory := by
  rw [h]
  nofun

theorem ne_directory_of_none {l : Location} (h : d.get? l = none) :
    d.get? l ≠ some .directory := by
  rw [h]
  nofun

theorem ne_nil_of_get? {l : Location} (hl : d.get? l ≠ some .directory) : l ≠ [] := by
  rintro rfl
  exact hl rfl

/-- A file may be put where no directory is. -/
theorem grows_put {l : Location} (content : Bytes) (hl : d.get? l ≠ some .directory) :
    Grows {l} way d (d.put l (.file content)) where
  home := rfl
  directories k hk := by
    have hne : k ≠ l := fun h => hl (h ▸ hk)
    rw [get?_put_of_ne d _ hne, hk]
  elsewhere _ hk := .inl (get?_put_of_ne d _ hk)

theorem grows_remove {l : Location} (hl : d.get? l ≠ some .directory) :
    Grows {l} way d (d.remove l) where
  home := rfl
  directories k hk := by
    have hne : k ≠ l := fun h => hl (h ▸ hk)
    rw [get?_remove_of_ne d hne, hk]
  elsewhere _ hk := .inl (get?_remove_of_ne d hk)

/-- What can be put at a path, and where it is then. -/
theorem create_eq_ok {e : DiskEntry} (h : d.create path e = .ok d') :
    d.resolve path = .ok (d.locationOf path) ∧ d.get? (d.locationOf path) = none
      ∧ d' = d.put (d.locationOf path) e := by
  obtain ⟨hl, h⟩ := resolve_bind_eq_ok.mp h
  split at h
  · cases h
  · next hnone =>
      cases h
      exact ⟨hl, hnone, rfl⟩

theorem grows_makeDirectory (h : d.makeDirectory path = .ok d') :
    Grows ∅ {d.locationOf path} d d' := by
  obtain ⟨-, hnone, rfl⟩ := create_eq_ok h
  generalize d.locationOf path = l at hnone ⊢
  have hne : l ≠ [] := ne_nil_of_get? (ne_directory_of_none hnone)
  have hput : ∀ k, k ≠ l → (d.put l .directory).get? k = d.get? k :=
    fun k hk => get?_put_of_ne d _ hk
  refine ⟨rfl, fun k hk => ?_, fun k _ => ?_⟩
  · by_cases hkl : k = l
    · rw [hkl]
      exact get?_put_self d _ hne
    · rw [hput k hkl, hk]
  · by_cases hkl : k = l
    · subst hkl
      exact .inr ⟨rfl, hnone, get?_put_self d _ hne⟩
    · exact .inl (hput k hkl)

theorem grows_makeAll (paths : List String) (d : Disk) :
    Grows ∅ {l | ∃ path ∈ paths, d.locationOf path = l} d (makeAll paths d).2 := by
  induction paths generalizing d with
  | nil => exact .refl _ _ d
  | cons path above ih =>
      have hmade {d₁ d₂ : Disk} (h : d₁.makeDirectory path = .ok d₂)
          (hloc : d₁.locationOf path = d.locationOf path) :
          Grows ∅ {l | ∃ p ∈ path :: above, d.locationOf p = l} d₁ d₂ :=
        (grows_makeDirectory h).mono subset_rfl fun l hl => ⟨path, by simp, hloc ▸ hl.symm⟩
      -- a directory is tried, then those above it, then it again
      rw [makeAll]
      split
      · exact .refl _ _ d
      · split
        · next h => exact hmade h rfl
        · have hgrows : Grows ∅ {l | ∃ p ∈ path :: above, d.locationOf p = l} d
              (makeAll above d).2 :=
            (ih d).mono subset_rfl fun l ⟨p, hp, hl⟩ => ⟨p, by simp [hp], hl⟩
          split
          · next habove =>
              rw [habove] at hgrows
              exact hgrows
          · next habove =>
              rw [habove] at hgrows
              split
              · next h => exact hgrows.trans (hmade h (hgrows.locationOf path))
              · exact hgrows
        · exact .refl _ _ d

theorem grows_makeDirectories (d : Disk) (path : String) :
    Grows ∅ (d.wayTo path) d (d.makeDirectories path).2 := grows_makeAll _ d

theorem fill_eq_ok {content : Bytes} (h : d.fill path content = .ok d') :
    d.resolve path = .ok (d.locationOf path) ∧ d.get? (d.locationOf path) ≠ some .directory
      ∧ d' = d.put (d.locationOf path) (.file content) := by
  obtain ⟨hl, h⟩ := resolve_bind_eq_ok.mp h
  split at h
  · cases h
  · next hget =>
      cases h
      exact ⟨hl, hget, rfl⟩

theorem grows_fill {content : Bytes} (h : d.fill path content = .ok d') :
    Grows {d.locationOf path} way d d' := by
  obtain ⟨-, hget, rfl⟩ := fill_eq_ok h
  exact grows_put content hget

theorem read_eq_ok {content : Bytes} :
    d.read path = .ok content ↔
      d.resolve path = .ok (d.locationOf path)
        ∧ d.get? (d.locationOf path) = some (.file content) := by
  unfold read
  rw [resolve_bind_eq_ok]
  refine and_congr_right' ?_
  cases d.get? (d.locationOf path) with
  | none => simp
  | some e => cases e <;> simp

/-- What is put at a path is what is read there. -/
theorem read_put {content : Bytes} (hl : d.resolve path = .ok (d.locationOf path))
    (hget : d.get? (d.locationOf path) ≠ some .directory) :
    (d.put (d.locationOf path) (.file content)).read path = .ok content := by
  have hgrows : Grows _ ∅ d _ := grows_put content hget
  rw [read_eq_ok, hgrows.locationOf]
  exact ⟨hgrows.resolve hl, get?_put_self d _ (ne_nil_of_get? hget)⟩

/-- A new file is empty, and nothing else is another. -/
theorem grows_create (h : d.create path (.file []) = .ok d') :
    Grows {d.locationOf path} way d d' ∧ d.get? (d.locationOf path) = none
      ∧ d'.read path = .ok [] := by
  obtain ⟨hl, hnone, rfl⟩ := create_eq_ok h
  have hget := ne_directory_of_none hnone
  exact ⟨grows_put [] hget, hnone, read_put hl hget⟩

/-- A temporary file is a new one with a fresh name in the directory. -/
theorem makeTemporary_eq_ok {directory path : String}
    (h : d.makeTemporary directory = .ok (path, d')) :
    ∃ l, path = DiskPath.join directory (d.freshName l) ∧ d.create path (.file []) = .ok d' := by
  obtain ⟨-, h⟩ := resolve_bind_eq_ok.mp h
  split at h
  · obtain ⟨after, hcreate, h⟩ := bind_eq_ok_iff.mp h
    cases h
    exact ⟨_, rfl, hcreate⟩
  · cases h
  · cases h

theorem read_of_fill {content : Bytes} (h : d.fill path content = .ok d') :
    d'.read path = .ok content := by
  obtain ⟨hl, hget, rfl⟩ := fill_eq_ok h
  exact read_put hl hget

/-- A file that can be read can be read on. -/
theorem Grows.read {apart : Set Location} {content : Bytes} (h : Grows apart way d d')
    (hl : d.locationOf path ∉ apart) (hread : d.read path = .ok content) :
    d'.read path = .ok content := by
  obtain ⟨hresolve, hfile⟩ := read_eq_ok.mp hread
  rw [read_eq_ok, h.locationOf]
  exact ⟨h.resolve hresolve, h.get?_file hl hfile⟩

theorem rename_eq_ok {source target : String} (h : d.rename source target = .ok d') :
    ∃ content, d.read source = .ok content
      ∧ d.resolve target = .ok (d.locationOf target)
      ∧ d.get? (d.locationOf target) ≠ some .directory
      ∧ d' = (d.remove (d.locationOf source)).put (d.locationOf target) (.file content) := by
  obtain ⟨content, hread, h⟩ := bind_eq_ok_iff.mp h
  obtain ⟨-, h⟩ := resolve_bind_eq_ok.mp h
  obtain ⟨hm, h⟩ := resolve_bind_eq_ok.mp h
  split at h
  · cases h
  · next hget =>
      cases h
      exact ⟨content, hread, hm, hget, rfl⟩

theorem grows_rename {source target : String} (h : d.rename source target = .ok d') :
    Grows {d.locationOf target, d.locationOf source} way d d' := by
  obtain ⟨content, hread, -, hget, rfl⟩ := rename_eq_ok h
  have hsource := ne_directory_of_file (read_eq_ok.mp hread).2
  have hget' : (d.remove (d.locationOf source)).get? (d.locationOf target) ≠ some .directory := by
    by_cases hsame : d.locationOf target = d.locationOf source
    · rw [hsame]
      exact ne_directory_of_none (get?_remove_self d (ne_nil_of_get? hsource))
    · rwa [get?_remove_of_ne d hsame]
  exact ((grows_remove hsource).mono (by simp) subset_rfl).trans
    ((grows_put content hget').mono (by simp) subset_rfl)

/-- **Behind a change of name the path has the content of the file**, and the file has its old name
no longer. -/
theorem read_of_rename {source target : String} {content : Bytes}
    (h : d.rename source target = .ok d') (hcontent : d.read source = .ok content)
    (hne : d.locationOf source ≠ d.locationOf target) :
    d'.read target = .ok content ∧ d'.get? (d.locationOf source) = none := by
  have hgrows : Grows _ ∅ d d' := grows_rename h
  obtain ⟨content', hcontent', hm, hget, rfl⟩ := rename_eq_ok h
  rw [hcontent] at hcontent'
  cases hcontent'
  have hsource := ne_directory_of_file (read_eq_ok.mp hcontent).2
  refine ⟨read_eq_ok.mpr ?_, ?_⟩
  · rw [hgrows.locationOf]
    exact ⟨hgrows.resolve hm, get?_put_self _ _ (ne_nil_of_get? hget)⟩
  · rw [get?_put_of_ne _ _ hne, get?_remove_self d (ne_nil_of_get? hsource)]

/-- What is discarded is no longer there, and nothing else is another. -/
theorem discard_of_read {content : Bytes} (h : d.read path = .ok content) :
    Grows {d.locationOf path} way d (d.discard path)
      ∧ (d.discard path).get? (d.locationOf path) = none := by
  obtain ⟨hl, hfile⟩ := read_eq_ok.mp h
  have hget := ne_directory_of_file hfile
  have hdiscard : d.discard path = d.remove (d.locationOf path) := by
    simp only [discard, hl, if_neg hget]
  rw [hdiscard]
  exact ⟨grows_remove hget, get?_remove_self d (ne_nil_of_get? hget)⟩

end FeatureStudio.Disk
