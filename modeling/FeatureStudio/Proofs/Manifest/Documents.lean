/-
  FeatureStudio.Proofs.Manifest.Documents: what the documents of a manifest answer.

  The documents are put into a table studio by studio, and imports are looked up in that table.  A
  document comes into the table with its first studio, so one that lists no studio at all is not
  told from one that the manifest does not name.

  Main statements:
    * `DocumentTable.get?_listed`, `DocumentTable.mem_keys_listed`: what is found in a table that
      was filled from listings.
    * `Manifest.lists_iff`: where no key repeats, a listing is an entry of a document.
    * `Manifest.tellsApart_iff`: when the answers for a document are as the manifest says.
    * `Manifest.studioless_not_tellsApart`: an accepted manifest with a document that is not found.
-/
import FeatureStudio.Manifest.Studio
import FeatureStudio.Manifest.Validation
import FeatureStudio.Proofs.Keyed

namespace FeatureStudio

/-! ## §1. Listings. -/

/-- A studio as one of the documents lists it. -/
structure Listing where
  document : String
  studio : String
  target : ImportTarget
  deriving DecidableEq

namespace Listing

/-- Whether the listing is of the studio, under the document. -/
def isOf (document studio : String) (l : Listing) : Bool :=
  l.document = document && l.studio = studio

theorem isOf_iff {document studio : String} {l : Listing} :
    l.isOf document studio ↔ l.document = document ∧ l.studio = studio := by
  simp [isOf]

/-- The target that the last of some listings gives for a studio of a document. -/
def last? (listings : List Listing) (document studio : String) : Option ImportTarget :=
  ((listings.filter (isOf document studio)).getLast?).map Listing.target

/-- One more listing counts for its own studio and document, and for no other. -/
theorem last?_append_single (listings : List Listing) (l : Listing) (document studio : String) :
    last? (listings ++ [l]) document studio
      = if l.isOf document studio then some l.target else last? listings document studio := by
  unfold last?
  rw [List.filter_append]
  cases h : l.isOf document studio <;> simp [h]

/-- A studio has a last listing as soon as it has one. -/
theorem exists_last?_iff (listings : List Listing) (document studio : String) :
    (∃ target, last? listings document studio = some target)
      ↔ ∃ l ∈ listings, l.isOf document studio := by
  unfold last?
  rw [← Option.isSome_iff_exists, Option.isSome_map, List.getLast?_isSome, ne_eq,
    List.filter_eq_nil_iff]
  push Not
  rfl

end Listing

/-! ## §2. Tables. -/

namespace DocumentTable

/-- The table that listings are put into one after the other. -/
def listed (listings : List Listing) : DocumentTable :=
  listings.foldl (fun table l => table.insert l.document l.studio l.target) []

theorem listed_append_single (listings : List Listing) (l : Listing) :
    listed (listings ++ [l]) = (listed listings).insert l.document l.studio l.target := by
  unfold listed
  rw [List.foldl_append]
  rfl

/-- The target of a studio, as it stands in the table. -/
def target? (table : DocumentTable) (document studio : String) : Option ImportTarget :=
  (Keyed.get? table document).bind (Keyed.get? · studio)

/-- A studio that is put in is found, and all others are found as before. -/
theorem target?_insert (table : DocumentTable) (l : Listing) (document studio : String) :
    (table.insert l.document l.studio l.target).target? document studio
      = if l.isOf document studio then some l.target else table.target? document studio := by
  unfold target? insert
  by_cases hdocument : l.document = document
  · subst hdocument
    rw [Keyed.get?_put_self, Option.bind_some]
    by_cases hstudio : l.studio = studio
    · subst hstudio
      rw [Keyed.get?_put_self, if_pos (Listing.isOf_iff.mpr ⟨rfl, rfl⟩)]
    · -- the other studios of the document are those that it had before, if it was there
      rw [Keyed.get?_put_of_ne _ _ (Ne.symm hstudio),
        if_neg fun h => hstudio (Listing.isOf_iff.mp h).2]
      cases Keyed.get? table l.document <;> rfl
  · rw [Keyed.get?_put_of_ne _ _ (Ne.symm hdocument),
      if_neg fun h => hdocument (Listing.isOf_iff.mp h).1]

/-- **A table holds for every studio the target that was listed last.** -/
theorem target?_listed (listings : List Listing) (document studio : String) :
    (listed listings).target? document studio = Listing.last? listings document studio := by
  -- what is put in last counts, so the induction is on the end of the listings
  induction listings using List.reverseRecOn with
  | nil => rfl
  | append_singleton listings l ih =>
      rw [listed_append_single, target?_insert, Listing.last?_append_single, ih]

/-- **A table holds the documents of which some studio was listed.** -/
theorem mem_keys_listed (listings : List Listing) (document : String) :
    document ∈ Keyed.keys (listed listings) ↔ ∃ l ∈ listings, l.document = document := by
  induction listings using List.reverseRecOn with
  | nil => simp [listed, Keyed.keys]
  | append_singleton listings l ih =>
      rw [listed_append_single, insert, Keyed.mem_keys_put, ih, @eq_comm _ document]
      simp only [List.mem_append, List.mem_singleton, or_and_right, exists_or, exists_eq_left]

/-- What a table answers, by what it holds. -/
theorem resolve_eq (table : DocumentTable) (document studio : String) (version : Option String) :
    table.resolve document studio version =
      if document ∈ Keyed.keys table then
        match table.target? document studio with
        | none => .error (.unknownStudio document studio)
        | some target => .ok { target with version := version.getD target.version }
      else .error (.unknownDocument document) := by
  unfold resolve target?
  cases h : Keyed.get? table document with
  | none =>
      rw [if_neg ((Keyed.get?_eq_none_iff table document).mp h)]
  | some studios =>
      have hmem : document ∈ Keyed.keys table := List.mem_map_of_mem (Keyed.mem_of_get? h)
      cases hstudio : Keyed.get? studios studio with
      | none => simp only [if_pos hmem, Option.bind_some, hstudio]
      | some target => simp only [if_pos hmem, Option.bind_some, hstudio]

end DocumentTable

/-! ## §3. Manifests. -/

namespace Manifest

variable (m : Manifest)

/-- What the documents of the manifest list, in order. -/
def listings : List Listing :=
  m.documents.flatMap fun d => d.2.map fun s => ⟨d.1, s.1, s.2⟩

/-- The manifest names the document, with studios or without. -/
def NamesDocument (document : String) : Prop := document ∈ Keyed.keys m.documents

/-- The manifest lists the studio under the document with this target, and later with no other. -/
def Lists (document studio : String) (target : ImportTarget) : Prop :=
  Listing.last? m.listings document studio = some target

theorem mem_listings (l : Listing) :
    l ∈ m.listings
      ↔ ∃ studios, (l.document, studios) ∈ m.documents ∧ (l.studio, l.target) ∈ studios := by
  unfold listings
  simp only [List.mem_flatMap, List.mem_map, Prod.exists]
  constructor
  · rintro ⟨document, studios, hd, studio, target, hs, rfl⟩
    exact ⟨studios, hd, hs⟩
  · rintro ⟨studios, hd, hs⟩
    exact ⟨l.document, studios, hd, l.studio, l.target, hs, rfl⟩

/-- No document is named twice, and none lists a studio twice. -/
structure HasDistinctKeys : Prop where
  documents : (Keyed.keys m.documents).Nodup
  studios : ∀ d ∈ m.documents, (Keyed.keys d.2).Nodup

/-- **Where no key repeats, a studio is listed with the one target that its document gives.** -/
theorem lists_iff (hm : m.HasDistinctKeys) (document studio : String) (target : ImportTarget) :
    m.Lists document studio target
      ↔ ∃ studios, (document, studios) ∈ m.documents ∧ (studio, target) ∈ studios := by
  -- listings of one studio under one document are the same
  have hunique : ∀ l ∈ m.listings, ∀ l' ∈ m.listings, l.document = l'.document →
      l.studio = l'.studio → l.target = l'.target := by
    intro l hl l' hl' hdocument hstudio
    obtain ⟨studios, hd, hs⟩ := (m.mem_listings l).mp hl
    obtain ⟨studios', hd', hs'⟩ := (m.mem_listings l').mp hl'
    rw [← hdocument] at hd'
    rw [← hstudio] at hs'
    have hsame := (Keyed.get?_of_mem hm.documents hd).symm.trans
      (Keyed.get?_of_mem hm.documents hd')
    cases hsame
    have hnodup := hm.studios _ hd
    exact Option.some.inj
      ((Keyed.get?_of_mem hnodup hs).symm.trans (Keyed.get?_of_mem hnodup hs'))
  have hmem : ∀ {target}, m.Lists document studio target →
      ⟨document, studio, target⟩ ∈ m.listings := by
    intro target h
    obtain ⟨l, hl, rfl⟩ := Option.map_eq_some_iff.mp h
    obtain ⟨hin, hof⟩ := List.mem_filter.mp (List.mem_of_getLast? hl)
    obtain ⟨rfl, rfl⟩ := Listing.isOf_iff.mp hof
    exact hin
  constructor
  · exact fun h => (m.mem_listings _).mp (hmem h)
  · intro h
    have hin := (m.mem_listings ⟨document, studio, target⟩).mpr h
    obtain ⟨target', htarget'⟩ := (Listing.exists_last?_iff m.listings document studio).mpr
      ⟨_, hin, Listing.isOf_iff.mpr ⟨rfl, rfl⟩⟩
    have heq : target' = target := hunique _ (hmem htarget') _ hin rfl rfl
    exact heq ▸ htarget'

theorem resolver_eq : m.resolver = DocumentTable.listed m.listings := by
  unfold resolver DocumentTable.listed listings
  rw [List.foldl_flatMap]
  simp only [List.foldl_map]

/-- What the resolver answers, by what the manifest lists. -/
theorem resolve_resolver (document studio : String) (version : Option String) :
    m.resolver.resolve document studio version =
      if ∃ l ∈ m.listings, l.document = document then
        match Listing.last? m.listings document studio with
        | none => .error (.unknownStudio document studio)
        | some target => .ok { target with version := version.getD target.version }
      else .error (.unknownDocument document) := by
  rw [resolver_eq, DocumentTable.resolve_eq, DocumentTable.target?_listed]
  simp only [DocumentTable.mem_keys_listed]

/-- Of a document without listings it is said that there is none. -/
theorem resolve_of_unlisted {document : String}
    (h : ¬ ∃ l ∈ m.listings, l.document = document) (studio : String) (version : Option String) :
    m.resolver.resolve document studio version = .error (.unknownDocument document) := by
  rw [resolve_resolver, if_neg h]

/-- Of a document with listings the answer is the listing of the studio. -/
theorem resolve_of_listed {document : String} (h : ∃ l ∈ m.listings, l.document = document)
    (studio : String) (version : Option String) :
    m.resolver.resolve document studio version =
      match Listing.last? m.listings document studio with
      | none => .error (.unknownStudio document studio)
      | some target => .ok { target with version := version.getD target.version } := by
  rw [resolve_resolver, if_pos h]

/-- The answers for a document tell what the manifest says of it: the target of a studio that it
lists, with the version that is given, else that it has no such studio, and only of a document that
the manifest does not name that there is none.  So the placeholder of a document is written for no
other. -/
structure TellsApart (document : String) : Prop where
  target : ∀ studio version answer, m.resolver.resolve document studio version = .ok answer ↔
    ∃ target, m.Lists document studio target ∧
      answer = { target with version := version.getD target.version }
  unknownStudio : ∀ studio version,
    m.resolver.resolve document studio version = .error (.unknownStudio document studio) ↔
      m.NamesDocument document ∧ ¬ ∃ target, m.Lists document studio target
  unknownDocument : ∀ studio version,
    m.resolver.resolve document studio version = .error (.unknownDocument document) ↔
      ¬ m.NamesDocument document
  placeholder : ∀ studio version error,
    m.resolver.resolve document studio version = .error error →
      error.placeholder = "<INVALID_DOCUMENT_NAME>" → ¬ m.NamesDocument document

/-- A document that lists a studio is named. -/
theorem namesDocument_of_mem_listings {l : Listing} (h : l ∈ m.listings) :
    m.NamesDocument l.document := by
  obtain ⟨studios, hd, -⟩ := (m.mem_listings l).mp h
  exact List.mem_map_of_mem hd

theorem exists_lists_iff (document : String) :
    (∃ studio target, m.Lists document studio target)
      ↔ ∃ l ∈ m.listings, l.document = document := by
  constructor
  · rintro ⟨studio, hlists⟩
    obtain ⟨l, hl, hof⟩ := (Listing.exists_last?_iff _ _ _).mp hlists
    exact ⟨l, hl, (Listing.isOf_iff.mp hof).1⟩
  · rintro ⟨l, hl, rfl⟩
    exact ⟨l.studio, (Listing.exists_last?_iff _ _ _).mpr ⟨l, hl, Listing.isOf_iff.mpr ⟨rfl, rfl⟩⟩⟩

/-- Where the document, if it is named, lists some studio, the answers are as the manifest says. -/
theorem tellsApart_of_lists {document : String}
    (hlists : m.NamesDocument document → ∃ l ∈ m.listings, l.document = document) :
    m.TellsApart document := by
  -- so the document is named exactly if it has listings, by which the answers go
  have hnamed : (∃ l ∈ m.listings, l.document = document) → m.NamesDocument document := by
    rintro ⟨l, hl, rfl⟩
    exact m.namesDocument_of_mem_listings hl
  have hundeclared := fun hd => m.resolve_of_unlisted (mt hnamed hd)
  have hdeclared := fun hd => m.resolve_of_listed (hlists hd)
  refine { target := fun studio version answer => ?target
           unknownStudio := fun studio version => ?unknownStudio
           unknownDocument := fun studio version => ?unknownDocument
           placeholder := fun studio version error h hplaceholder hd => ?placeholder }
  case target =>
    constructor
    · intro h
      by_cases hd : m.NamesDocument document
      · rw [hdeclared hd] at h
        cases hlast : Listing.last? m.listings document studio with
        | none => rw [hlast] at h; cases h
        | some target => rw [hlast] at h; cases h; exact ⟨target, hlast, rfl⟩
      · rw [hundeclared hd] at h
        cases h
    · rintro ⟨target, htarget, rfl⟩
      have hlast : Listing.last? m.listings document studio = some target := htarget
      rw [hdeclared (hnamed ((m.exists_lists_iff document).mp ⟨studio, target, htarget⟩)), hlast]
  case unknownStudio =>
    unfold Lists
    by_cases hd : m.NamesDocument document
    · rw [hdeclared hd]
      cases Listing.last? m.listings document studio <;> simp [hd]
    · simp [hundeclared hd, hd]
  case unknownDocument =>
    by_cases hd : m.NamesDocument document
    · rw [hdeclared hd]
      cases Listing.last? m.listings document studio <;> simp [hd]
    · simp [hundeclared hd, hd]
  case placeholder =>
    rw [hdeclared hd] at h
    cases hlast : Listing.last? m.listings document studio <;> rw [hlast] at h <;> cases h
    have hstudio : "<INVALID_STUDIO_NAME>" = "<INVALID_DOCUMENT_NAME>" := hplaceholder
    exact absurd hstudio (by decide)

/-- **The answers for a document are as the manifest says exactly if the document, where it is
named, lists some studio.**  What is listed are the entries of the documents, if no key repeats. -/
theorem tellsApart_iff (document : String) :
    (m.TellsApart document ↔
        (m.NamesDocument document → ∃ studio target, m.Lists document studio target)) ∧
      (m.HasDistinctKeys → ∀ studio target, m.Lists document studio target ↔
        ∃ studios, (document, studios) ∈ m.documents ∧ (studio, target) ∈ studios) := by
  refine ⟨?_, fun hm => m.lists_iff hm document⟩
  rw [exists_lists_iff]
  constructor
  · intro h hdeclares
    by_contra hnone
    -- a document without listings is answered as one that is not named
    exact (h.unknownDocument "" none).mp (m.resolve_of_unlisted hnone "" none) hdeclares
  · exact m.tellsApart_of_lists

/-- A manifest that names a document without studios, and imports a studio of it. -/
def studioless : Manifest where
  studio := { name := "tube.fs", stdVersion := "2144", indent := .spaces 4 }
  imports := [⟨some "plate.fs", some "parts", none, none, false⟩]
  documents := [("parts", [])]
  enums := []
  bounds := []
  lookups := []
  ui := none
  feature := none

/-- **A document that lists no studio is not found**, though the manifest names it. -/
theorem studioless_not_tellsApart :
    studioless.validate "" = .ok () ∧ studioless.NamesDocument "parts" ∧
      ¬ studioless.TellsApart "parts" ∧
      studioless.resolver.resolve "parts" "plate.fs" none = .error (.unknownDocument "parts") ∧
      ∃ r, studioless.render = .ok r ∧
        r.content =
          "FeatureScript 2144;\nimport(path : \"onshape/std/common.fs\", version : \"2144.0\");\n\n"
            ++ "import(path : \"<INVALID_DOCUMENT_NAME>\", version : \"" ++ emptyVersion
            ++ "\");\n\n" ++ Render.banner ++ "\n\n" ∧
        r.diagnostics
          = [⟨.top, "Failed to find document named parts", some "parts/plate.fs"⟩] := by
  have hdeclares : studioless.NamesDocument "parts" := List.mem_singleton_self _
  refine ⟨by rfl, hdeclares, ?_, rfl, _, rfl, by decide +kernel, by decide +kernel⟩
  exact fun h => (h.unknownDocument "plate.fs" none).mp rfl hdeclares

end Manifest

end FeatureStudio
