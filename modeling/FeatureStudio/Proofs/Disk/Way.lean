/-
  FeatureStudio.Proofs.Disk.Way: the directories above a path.

  A path that never goes up spells the location of its names that count.  The directories that are
  made for it are spelled by fewer of them, so none of these is at the location of the path itself.

  Main statements:
    * `locationOf_eq_names`: the location of a path that never goes up.
    * `names_parent?`: the parent has all names but the last.
    * `notMem_wayTo`: a path is not among the directories above it.
    * `locationOf_join`: a name in a directory.
    * `locationOf_makeTemporary`: the last name of a temporary file.
-/
import FeatureStudio.Proofs.Decimal.Text
import FeatureStudio.Proofs.Disk.Location
import FeatureStudio.Proofs.Text.Pieces

namespace FeatureStudio

open Text (split)

/-! ## §1. Names with slashes between them. -/

theorem Text.split_intercalate {names : List String} (hne : names ≠ [])
    (h : ∀ name ∈ names, '/' ∉ name.toList) : split '/' ("/".intercalate names) = names := by
  rw [split, Text.pieces_intercalate (by decide) hne h, List.map_map]
  simp

theorem Text.slash_notMem_of_mem_split {path name : String} (h : name ∈ split '/' path) :
    '/' ∉ name.toList := by
  obtain ⟨p, hp, rfl⟩ := List.mem_map.mp h
  rw [String.toList_ofList]
  exact Text.notMem_of_mem_pieces hp

namespace DiskPath

/-- Whether a name leads anywhere. -/
def counts (name : String) : Bool := !(name = "" || name = ".")

/-- The names of a path that count. -/
def names (path : String) : List String := (split '/' path).filter counts

theorem isAbsolute_iff {path : String} :
    isAbsolute path = true ↔ (split '/' path).head? = some "" ∧ split '/' path ≠ [""] := by
  unfold isAbsolute split
  cases hpath : path.toList with
  | nil => simp [Text.pieces]
  | cons c cs =>
      obtain ⟨p, ps, hpieces⟩ := List.exists_cons_of_ne_nil (Text.pieces_ne_nil '/' cs)
      by_cases hc : c = '/'
      · simp [Text.pieces, hpieces, hc]
      · simp [Text.pieces, hpieces, hc]

/-! ## §2. The parent. -/

theorem filter_trimmed (xs : List String) : (trimmed xs).filter counts = xs.filter counts := by
  fun_induction trimmed xs with
  | case1 => rfl
  | case2 first => rfl
  | case3 name rest hrest hname ih =>
      have hcounts : counts name = false := by rw [counts, hname, Bool.not_true]
      rw [ih, List.filter_cons_of_neg (by simp [hcounts])]
  | case4 => rfl

theorem getLast?_trimmed (xs : List String) : (trimmed xs).getLast? = xs.getLast? := by
  fun_induction trimmed xs with
  | case1 => rfl
  | case2 first => rfl
  | case3 name rest hrest hname ih =>
      cases rest with
      | nil => exact absurd rfl hrest
      | cons next rest => rw [ih, List.getLast?_cons_cons]
  | case4 => rfl

theorem mem_of_mem_trimmed {x : String} {xs : List String} (h : x ∈ trimmed xs) : x ∈ xs := by
  fun_induction trimmed xs with
  | case1 => exact h
  | case2 first => exact h
  | case3 name rest hrest hname ih => exact List.mem_cons_of_mem _ (ih h)
  | case4 => exact h

theorem counts_of_trimmed {name next : String} {xs rest : List String}
    (h : trimmed xs = name :: next :: rest) : counts name = true := by
  fun_induction trimmed xs with
  | case1 => cases h
  | case2 first => cases h
  | case3 name rest hrest hname ih => exact ih h
  | case4 name' rest' hrest hname =>
      cases h
      simpa [counts] using hname

/-- The parent is spelled by the names in front of the last one. -/
theorem parent?_eq_some {path parent : String} (h : parent? path = some parent) :
    ∃ name rest, trimmed (split '/' path).reverse = name :: rest
      ∧ (rest = [] ∧ name ≠ "" ∧ parent = "" ∨ rest ≠ [] ∧ parent = ofReversed (trimmed rest)) := by
  unfold parent? at h
  split at h
  · cases h
  · cases h
  · next name hne htrimmed =>
      cases h
      exact ⟨name, [], htrimmed, .inl ⟨rfl, hne, rfl⟩⟩
  · next name rest hnone hrest htrimmed =>
      cases h
      exact ⟨name, rest, htrimmed, .inr ⟨fun hnil => hrest hnil, rfl⟩⟩

theorem names_eq_trimmed (path : String) :
    names path = ((trimmed (split '/' path).reverse).filter counts).reverse := by
  rw [names, filter_trimmed, List.filter_reverse, List.reverse_reverse]

theorem names_of_parent?_none {path : String} (h : parent? path = none) : names path = [] := by
  rw [names_eq_trimmed]
  unfold parent? at h
  split at h
  · next htrimmed => rw [htrimmed]; rfl
  · next htrimmed => rw [htrimmed]; rfl
  · cases h
  · cases h

theorem split_ofReversed {names : List String} (hne : names ≠ [])
    (h : ∀ name ∈ names, '/' ∉ name.toList) :
    split '/' (ofReversed names) = names.reverse ∧ names ≠ [""]
      ∨ names = [""] ∧ split '/' (ofReversed names) = ["", ""] := by
  by_cases hroot : names = [""]
  · subst hroot
    exact .inr ⟨rfl, rfl⟩
  · left
    rw [ofReversed]
    · exact ⟨Text.split_intercalate (by simpa using hne) (by simpa using h), hroot⟩
    · exact hroot

/-- Trimming takes nothing from the front of a path, which is the end of its reversed names. -/
theorem head?_split {path name : String} {rest : List String}
    (h : trimmed (split '/' path).reverse = name :: rest) :
    (split '/' path).head? = (name :: rest).getLast? := by
  rw [← h, getLast?_trimmed, List.getLast?_reverse]

theorem mem_split_of_mem_trimmed {path name n : String} {rest : List String}
    (h : trimmed (split '/' path).reverse = name :: rest) (hn : n ∈ trimmed rest) :
    n ∈ split '/' path := by
  have hmem : n ∈ name :: rest := List.mem_cons_of_mem _ (mem_of_mem_trimmed hn)
  rw [← h] at hmem
  exact List.mem_reverse.mp (mem_of_mem_trimmed hmem)

/-- **The parent of a path** that never goes up has all its names but the last. -/
theorem names_parent? {path parent : String} (h : parent? path = some parent)
    (hup : ".." ∉ split '/' path) :
    names parent = (names path).dropLast ∧ isAbsolute parent = isAbsolute path
      ∧ ".." ∉ split '/' parent := by
  obtain ⟨name, rest, htrimmed, hparent⟩ := parent?_eq_some h
  have hnames : names path = ((name :: rest).filter counts).reverse := by
    rw [names_eq_trimmed, htrimmed]
  have hhead := head?_split htrimmed
  obtain ⟨rfl, hname, rfl⟩ | ⟨hrest, rfl⟩ := hparent
  · -- a single name, whose parent is the empty path
    have hrelative : isAbsolute path = false := by
      rw [Bool.eq_false_iff, ne_eq, isAbsolute_iff, hhead]
      simp [hname]
    refine ⟨?_, hrelative.symm ▸ rfl, by decide⟩
    rw [hnames]
    cases hcounts : counts name <;> simp [hcounts] <;> rfl
  · obtain ⟨next, rest, rfl⟩ := List.exists_cons_of_ne_nil hrest
    have hcounts : counts name = true := counts_of_trimmed htrimmed
    have hmem : ∀ n ∈ trimmed (next :: rest), n ∈ split '/' path :=
      fun n => mem_split_of_mem_trimmed htrimmed
    have hlast : (trimmed (next :: rest)).getLast? = (split '/' path).head? := by
      rw [hhead, getLast?_trimmed, List.getLast?_cons_cons]
    have hne : trimmed (next :: rest) ≠ [] := fun hnil => by
      have hnone := getLast?_trimmed (next :: rest)
      rw [hnil, List.getLast?_nil, eq_comm, List.getLast?_eq_none_iff] at hnone
      exact hrest hnone
    have hroot : split '/' path ≠ [""] := fun hroot => by
      rw [hroot] at htrimmed
      cases htrimmed
    have hdrop : (names path).dropLast = ((trimmed (next :: rest)).filter counts).reverse := by
      rw [hnames, List.filter_cons_of_pos hcounts, List.reverse_cons, List.dropLast_concat,
        filter_trimmed]
    rw [hdrop, names, Bool.eq_iff_iff, isAbsolute_iff, isAbsolute_iff, ← hlast]
    -- the root is the one path that is not spelled by its names alone
    obtain ⟨hsplit, hne'⟩ | ⟨hempty, hsplit⟩ :=
      split_ofReversed hne fun n hn => Text.slash_notMem_of_mem_split (hmem n hn)
    · rw [hsplit]
      refine ⟨List.filter_reverse, ?_, fun h => hup (hmem _ (List.mem_reverse.mp h))⟩
      simp [hroot, hne']
    · rw [hsplit, hempty]
      simp [hroot, counts]

/-- The paths above a path that never goes up have no more names than it. -/
theorem names_of_mem_ancestors {above : String} : ∀ {bound : Nat} {path : String},
    above ∈ ancestors bound path → ".." ∉ split '/' path →
    (names above).length ≤ (names path).length ∧ isAbsolute above = isAbsolute path
      ∧ ".." ∉ split '/' above
  | 0, _, h, _ => by cases h
  | bound + 1, path, h, hup => by
      rw [ancestors] at h
      obtain rfl | h := List.mem_cons.mp h
      · exact ⟨le_rfl, rfl, hup⟩
      · cases hparent : parent? path with
        | none =>
            rw [hparent] at h
            cases h
        | some parent =>
            rw [hparent] at h
            obtain ⟨hnames, habsolute, hup'⟩ := names_parent? hparent hup
            obtain ⟨hle, habove, hup''⟩ := names_of_mem_ancestors h hup'
            rw [hnames, List.length_dropLast] at hle
            exact ⟨by omega, habove.trans habsolute, hup''⟩

/-- The directory of a path that names something has fewer names. -/
theorem names_directory {path : String} (hnames : names path ≠ []) (hup : ".." ∉ split '/' path) :
    (names (directory path)).length < (names path).length
      ∧ isAbsolute (directory path) = isAbsolute path ∧ ".." ∉ split '/' (directory path) := by
  cases hparent : parent? path with
  | none => exact absurd (names_of_parent?_none hparent) hnames
  | some parent =>
      obtain ⟨hdrop, habsolute, hup'⟩ := names_parent? hparent hup
      have hlength : (names parent).length = (names path).length - 1 := by
        rw [hdrop, List.length_dropLast]
      have hpos : 0 < (names path).length := List.length_pos_iff.mpr hnames
      -- the directory of a bare name is spelled by a dot and has no names
      by_cases hbare : parent = ""
      · subst hbare
        rw [directory, hparent]
        exact ⟨hpos, habsolute, by decide⟩
      · have hdirectory : directory path = parent := by
          unfold directory
          rw [hparent]
          split
          · next h => cases h
          · next h => exact absurd (Option.some.inj h) hbare
          · next h => exact (Option.some.inj h).symm
        rw [hdirectory]
        exact ⟨by omega, habsolute, hup'⟩

end DiskPath

namespace Disk

open DiskPath (names isAbsolute)

theorem walk_eq_append {l : Location} {path : List String} (hup : ".." ∉ path) :
    walk l path = l ++ path.filter DiskPath.counts := by
  induction path generalizing l with
  | nil => simp [walk]
  | cons name rest ih =>
      rw [List.mem_cons, not_or] at hup
      rw [walk]
      split
      · next hname =>
          have hcounts : DiskPath.counts name = false := by
            rw [DiskPath.counts, hname, Bool.not_true]
          rw [ih hup.2, List.filter_cons_of_neg (by simp [hcounts])]
      · next hname =>
          have hcounts : DiskPath.counts name = true := by
            rw [DiskPath.counts, Bool.eq_false_iff.mpr hname, Bool.not_false]
          rw [if_neg (Ne.symm hup.1), ih hup.2, List.filter_cons_of_pos hcounts, List.append_assoc,
            List.singleton_append]

/-- **The location of a path that never goes up.** -/
theorem locationOf_eq_names (d : Disk) {path : String} (hup : ".." ∉ split '/' path) :
    d.locationOf path = (if isAbsolute path then [] else d.home) ++ names path :=
  walk_eq_append hup

/-- **A path is not among the directories above it**, if it names something and never goes up. -/
theorem notMem_wayTo (d : Disk) {path : String} (hnames : names path ≠ [])
    (hup : ".." ∉ split '/' path) :
    d.locationOf path ∉ d.wayTo (DiskPath.directory path) := by
  rintro ⟨above, hmem, hsame⟩
  obtain ⟨hlt, hdirectory, hup'⟩ := DiskPath.names_directory hnames hup
  obtain ⟨hle, habove, hup''⟩ := DiskPath.names_of_mem_ancestors hmem hup'
  have hlength := congrArg List.length hsame
  rw [locationOf_eq_names d hup, locationOf_eq_names d hup'', habove, hdirectory,
    List.length_append, List.length_append] at hlength
  omega

/-! ## §3. Names in a directory. -/

theorem walk_append (xs ys : List String) (l : Location) :
    walk l (xs ++ ys) = walk (walk l xs) ys := by
  induction xs generalizing l with
  | nil => rfl
  | cons name xs ih =>
      rw [List.cons_append, walk, walk]
      split
      · exact ih l
      · split
        · exact ih l.dropLast
        · exact ih (l ++ [name])

theorem walk_name {name : String} (hcounts : DiskPath.counts name = true) (hup : name ≠ "..")
    (l : Location) : walk l [name] = l ++ [name] := by
  have hname : ¬ (name = "" || name = ".") = true := by
    simpa [DiskPath.counts] using hcounts
  rw [walk, if_neg hname, if_neg hup, walk]

theorem split_append_slash {path front name : String} (hslash : '/' ∉ name.toList)
    (hpath : path.toList = front.toList ++ '/' :: name.toList) :
    split '/' path = split '/' front ++ [name] := by
  rw [split, hpath, Text.pieces_append_sep, Text.pieces_of_not_mem hslash]
  simp [split]

theorem isAbsolute_append {path directory rest : String} (hne : directory ≠ "")
    (hpath : path.toList = directory.toList ++ rest.toList) :
    isAbsolute path = isAbsolute directory := by
  obtain ⟨c, cs, hdirectory⟩ := List.exists_cons_of_ne_nil
    (fun h => hne (String.toList_inj.mp h) : directory.toList ≠ [])
  rw [isAbsolute, isAbsolute, hpath, hdirectory]
  rfl

/-- The names of a path below a directory are those of the directory and the new one. -/
theorem exists_split_join (directory : String) {name : String} (hslash : '/' ∉ name.toList) :
    ∃ front, split '/' (DiskPath.join directory name) = front ++ [name]
      ∧ (∀ l, walk l front = walk l (split '/' directory))
      ∧ isAbsolute (DiskPath.join directory name) = isAbsolute directory := by
  have hrelative : isAbsolute name = false := by
    rw [isAbsolute, decide_eq_false_iff_not]
    exact fun h => hslash (List.mem_of_mem_head? h)
  rw [DiskPath.join, hrelative, if_neg Bool.false_ne_true]
  -- no directory, one that ends with a slash, and one that needs a slash behind it
  by_cases hempty : directory = ""
  · subst hempty
    refine ⟨[], ?_, fun l => rfl, ?_⟩
    · simp [split, Text.pieces_of_not_mem hslash]
    · have hbare : "" ++ name = name := by simp
      exact (congrArg isAbsolute hbare).trans hrelative
  · by_cases hlast : directory.toList.getLast? = some '/'
    · obtain ⟨front, hfront⟩ := List.getLast?_eq_some_iff.mp hlast
      have hdirectory : split '/' directory = split '/' (String.ofList front) ++ [""] :=
        split_append_slash (by simp) (by simp [hfront])
      rw [if_pos (by simp [hlast])]
      refine ⟨split '/' (String.ofList front), ?_, fun l => ?_, ?_⟩
      · exact split_append_slash hslash (by simp [hfront])
      · rw [hdirectory, walk_append]
        rfl
      · exact isAbsolute_append hempty String.toList_append
    · have hjoined : (directory ++ "/" ++ name).toList
          = directory.toList ++ ("/" ++ name).toList := by simp
      rw [if_neg (by simp [hempty, hlast])]
      refine ⟨split '/' directory, ?_, fun l => rfl, ?_⟩
      · exact split_append_slash hslash (by simp)
      · exact isAbsolute_append hempty hjoined

/-- **A name in a directory** spells the location of the directory with the name behind it. -/
theorem locationOf_join (d : Disk) (directory : String) {name : String}
    (hslash : '/' ∉ name.toList) (hcounts : DiskPath.counts name = true) (hup : name ≠ "..") :
    d.locationOf (DiskPath.join directory name) = d.locationOf directory ++ [name] := by
  obtain ⟨front, hsplit, hfront, habsolute⟩ := exists_split_join directory hslash
  rw [locationOf, locationOf, hsplit, habsolute, walk_append, walk_name hcounts hup, hfront]

/-- The name of a temporary file begins in one way. -/
theorem exists_freshName (d : Disk) (directory : Location) :
    ∃ rest, Decimal.Numeral rest ∧ d.freshName directory = ".tmp" ++ rest := by
  unfold freshName
  dsimp only
  generalize hfound : List.find? _ _ = found
  cases found with
  | none => exact ⟨"", by decide, rfl⟩
  | some name =>
      obtain ⟨n, -, rfl⟩ := List.mem_map.mp (List.mem_of_find?_eq_some hfound)
      exact ⟨toString n, Decimal.numeral_toString_nat n, rfl⟩

/-- **The location of a temporary file** that the disk makes itself. -/
theorem locationOf_makeTemporary {d d' : Disk} {directory path : String}
    (h : d.makeTemporary directory = .ok (path, d')) :
    ∃ rest, d.locationOf path = d.locationOf directory ++ [".tmp" ++ rest] := by
  obtain ⟨l, rfl, -⟩ := makeTemporary_eq_ok h
  obtain ⟨rest, hrest, hname⟩ := d.exists_freshName l
  have hslash : '/' ∉ rest.toList := hrest.not_mem (by decide)
  have hne : ∀ short : String, short.length < 4 → ".tmp" ++ rest ≠ short := fun short hlt heq => by
    have hlength : ".tmp".length = 4 := by decide
    rw [← heq, String.length_append] at hlt
    omega
  refine ⟨rest, ?_⟩
  rw [hname]
  refine d.locationOf_join directory ?_ ?_ (hne ".." (by decide))
  · simp [hslash]
  · simp [DiskPath.counts, hne "" (by decide), hne "." (by decide)]

end Disk

end FeatureStudio
