/-
  FeatureStudio.Proofs.CommandLine.Starter: which titles make a first manifest that can be used.

  The manifest is read line by line; the only lines that depend on the title are those with the
  name of the feature and the last one, with the title itself.  What is read from them is one
  manifest with two texts in it, and its rules come down to rules for these two.

  The library is imported as a whole because `cbv` unfolds characters, bytes and lists by their
  equations, and the library has made these in many places.

  Main statements:
    * `ofTextUnchecked_text`: what the text of a first manifest states.
    * `accepted_manifest_iff`: when that keeps the rules.
    * `isUsable_iff`: the titles for which it can be used.
-/
import FeatureStudio.CommandLine.Run
import FeatureStudio.Manifest.File
import FeatureStudio.Proofs.Manifest.Diagnostics
import FeatureStudio.Proofs.Toml.Reading
import Mathlib

namespace FeatureStudio.Starter

open Toml (Entries IsBareKey IsLine Line Value escaped isLine_blank isLine_stringLine isTextChar
  stringLine)

/-! ## §1. The text, line by line. -/

theorem toList_quotedTitle (title : String) :
    (quotedTitle title).toList = escaped title.toList := by
  simp [quotedTitle, escaped]

/-- The array of the values, over several lines. -/
def valuesText : String :=
  "values = [\n"
    ++ "    \x7b value = \"SMALL\", lookup = \"1 * inch\" \x7d,\n"
    ++ "    \x7b value = \"LARGE\", lookup = \"2 * inch\" \x7d,\n"
    ++ "]"

/-- The array of the parameters, over several lines. -/
def parametersText : String :=
  "parameters = [\n"
    ++ "    \x7b kind = \"enum\", enum = \"Size\" \x7d,\n"
    ++ "    \x7b kind = \"boolean\", name = \"flipSides\", display_name = \"Flip sides\" \x7d,\n"
    ++ "]"

/-- The lines between the two with the name of the feature. -/
def declarationLines : List (List Char) :=
  [stringLine "std_version" "2144", [],
    "[[enums]]".toList, stringLine "name" "Size", "predicates = true".toList, valuesText.toList, [],
    "[[lookups]]".toList, stringLine "name" "sizeWidth", stringLine "enum" "Size",
    stringLine "returns" "ValueWithUnits", [],
    "[ui]".toList]

/-- The lines between the name of the feature and its title. -/
def dialogLines : List (List Char) := [parametersText.toList, [], "[feature]".toList]

/-- The lines before the title. -/
def linesBefore (name : String) : List (List Char) :=
  "[studio]".toList :: stringLine "name" (name ++ ".fs")
    :: (declarationLines ++ stringLine "name" name :: dialogLines)

theorem toList_opening :
    opening.toList = "[studio]".toList ++ '\n' :: ("name".toList ++ [' ', '=', ' ', '"']) := by
  rfl

set_option maxRecDepth 2000 in
theorem toList_declarations :
    declarations.toList = ".fs".toList ++ '"' :: '\n' :: (declarationLines.flatMap (· ++ ['\n'])
      ++ ("name".toList ++ [' ', '=', ' ', '"'])) := by
  -- the strings are taken apart first: long ones are slow to compare
  unfold declarations declarationLines valuesText
  repeat rw [String.toList_append]
  repeat rw [String.toList_ofList]
  rfl

set_option maxRecDepth 2000 in
theorem toList_parameters :
    parameters.toList = '"' :: '\n' :: (dialogLines.flatMap (· ++ ['\n'])
      ++ ("title".toList ++ [' ', '=', ' ', '"'])) := by
  unfold parameters dialogLines parametersText
  repeat rw [String.toList_append]
  repeat rw [String.toList_ofList]
  rfl

theorem escaped_wordChars {cs : List Char} (h : ∀ c ∈ cs, Text.isWordChar c) : escaped cs = cs := by
  refine Toml.escaped_eq_self fun c hc => ?_
  have hword := h c hc
  constructor <;> rintro rfl <;> exact absurd hword (by decide)

/-- **The text of a first manifest is made of its lines**, the last of which has the title. -/
theorem toList_text (title : String)
    (h : ∀ c ∈ (featureName title).toList, Text.isWordChar c) :
    (text title).toList = (linesBefore (featureName title)).flatMap (· ++ ['\n'])
      ++ (stringLine "title" title ++ ['\n']) := by
  have hextension : escaped ".fs".toList = ".fs".toList := by
    rw [String.toList_ofList]
    rfl
  have hend : "\"\n".toList = ['"', '\n'] := String.toList_ofList
  unfold text
  simp only [String.toList_append, toList_quotedTitle, toList_opening, toList_declarations,
    toList_parameters, hend, linesBefore, List.flatMap_cons, List.flatMap_append, stringLine,
    Toml.escaped_append, escaped_wordChars h, hextension, List.append_assoc, List.cons_append,
    List.nil_append]

/-! ## §2. What the lines say. -/

/-- The table that stands for a value of the enumeration. -/
def valueTable (value lookup : String) : Value :=
  .table [("lookup", .string lookup), ("value", .string value)]

/-- The values of the enumeration. -/
def valueTables : Value :=
  .array [valueTable "SMALL" "1 * inch", valueTable "LARGE" "2 * inch"]

/-- The parameters of the dialog. -/
def parameterTables : Value :=
  .array
    [.table [("enum", .string "Size"), ("kind", .string "enum")],
      .table [("display_name", .string "Flip sides"), ("kind", .string "boolean"),
        ("name", .string "flipSides")]]

theorem isLine_valuesText : IsLine valuesText.toList (.pair ⟨[], "values", valueTables⟩) := by
  intro rest
  cbv

theorem isLine_parametersText :
    IsLine parametersText.toList (.pair ⟨[], "parameters", parameterTables⟩) := by
  intro rest
  cbv

/-- What `declarationLines` are read as. -/
def readDeclarations : List Line :=
  [.pair ⟨[], "std_version", .string "2144"⟩, .blank,
    .header true [] "enums", .pair ⟨[], "name", .string "Size"⟩,
    .pair ⟨[], "predicates", .boolean true⟩, .pair ⟨[], "values", valueTables⟩, .blank,
    .header true [] "lookups", .pair ⟨[], "name", .string "sizeWidth"⟩,
    .pair ⟨[], "enum", .string "Size"⟩, .pair ⟨[], "returns", .string "ValueWithUnits"⟩, .blank,
    .header false [] "ui"]

theorem isLine_declarationLines : List.Forall₂ IsLine declarationLines readDeclarations :=
  .cons (isLine_stringLine (by decide) rfl) <| .cons isLine_blank <|
    .cons (fun _ => rfl) <| .cons (isLine_stringLine (by decide) rfl) <|
    .cons (fun _ => rfl) <| .cons isLine_valuesText <| .cons isLine_blank <|
    .cons (fun _ => rfl) <| .cons (isLine_stringLine (by decide) rfl) <|
    .cons (isLine_stringLine (by decide) rfl) <| .cons (isLine_stringLine (by decide) rfl) <|
    .cons isLine_blank <| .cons (fun _ => rfl) .nil

/-- What `dialogLines` are read as. -/
def readDialog : List Line :=
  [.pair ⟨[], "parameters", parameterTables⟩, .blank, .header false [] "feature"]

theorem isLine_dialogLines : List.Forall₂ IsLine dialogLines readDialog :=
  .cons isLine_parametersText <| .cons isLine_blank <| .cons (fun _ => rfl) .nil

/-- What the lines before the title are read as. -/
def readBefore (name : String) : List Line :=
  .header false [] "studio" :: .pair ⟨[], "name", .string (name ++ ".fs")⟩
    :: (readDeclarations ++ .pair ⟨[], "name", .string name⟩ :: readDialog)

theorem isTextChar_of_isWordChar {c : Char} (h : Text.isWordChar c) : isTextChar c := by
  simp only [Text.isWordChar, Char.isAlphanum, Char.isAlpha, Char.isUpper, Char.isLower,
    Char.isDigit, Bool.or_eq_true, Bool.and_eq_true, decide_eq_true_eq, beq_iff_eq] at h
  rcases h with h | rfl
  · have hrange : 0x20 ≤ c.val.toNat ∧ c.val.toNat < 0x7F := by
      simp only [ge_iff_le, UInt32.le_iff_toNat_le, Char.reduceVal, UInt32.reduceToNat] at h
      omega
    have hblank : ' ' ≤ c := by
      simp only [Char.le_def, UInt32.le_iff_toNat_le]
      exact hrange.1
    have hdelete : c.toNat ≠ 0x7F := Nat.ne_of_lt hrange.2
    simp [isTextChar, hblank, hdelete]
  · decide

/-- **The lines before the title are read**, whatever the name of the feature. -/
theorem isLine_linesBefore {name : String} (h : ∀ c ∈ name.toList, Text.isWordChar c) :
    List.Forall₂ IsLine (linesBefore name) (readBefore name) := by
  have htext : name.toList.all isTextChar :=
    List.all_eq_true.mpr fun c hc => isTextChar_of_isWordChar (h c hc)
  have hfile : (name ++ ".fs").toList.all isTextChar := by
    rw [String.toList_append, List.all_append, htext]
    rfl
  have hname {s : String} (hs : s.toList.all isTextChar) :
      IsLine (stringLine "name" s) (.pair ⟨[], "name", .string s⟩) :=
    isLine_stringLine (by decide) hs
  exact .cons (fun _ => rfl) <| .cons (hname hfile) <|
    List.rel_append isLine_declarationLines (.cons (hname htext) isLine_dialogLines)

/-! ## §3. The manifest that is stated. -/

/-- The entries of the document. -/
def entries (name title : String) : Entries :=
  [("enums", .array [.table [("name", .string "Size"), ("predicates", .boolean true),
      ("values", valueTables)]]),
    ("feature", .table [("title", .string title)]),
    ("lookups", .array [.table [("enum", .string "Size"), ("name", .string "sizeWidth"),
      ("returns", .string "ValueWithUnits")]]),
    ("studio", .table [("name", .string (name ++ ".fs")), ("std_version", .string "2144")]),
    ("ui", .table [("name", .string name), ("parameters", parameterTables)])]

theorem toEntries_readBefore (name title : String) :
    let ls := readBefore name ++ [.pair ⟨[], "title", .string title⟩]
    (Toml.assemble (Toml.sections ls).1 (Toml.sections ls).2).map Toml.toEntries
      = some (entries name title) := by
  cbv

theorem isWordChar_featureName (title : String) :
    ∀ c ∈ (featureName title).toList, Text.isWordChar c :=
  Text.isWordChar_of_isIdentifier (featureName_identifier title)

/-- What the document is read as: nothing if the title has control characters.  These are not
escaped, and no document has them between quotes. -/
theorem read?_text (title : String) :
    Toml.read? (text title)
      = if title.toList.all isTextChar then some (entries (featureName title) title) else none := by
  have htext := toList_text title (isWordChar_featureName title)
  have hbefore := isLine_linesBefore (isWordChar_featureName title)
  have htitle : IsBareKey "title" := by decide
  have hmark : Toml.skipMark (text title).toList = (text title).toList := by
    rw [htext]
    rfl
  cases hall : title.toList.all isTextChar with
  | false =>
      have hlast : Toml.line (Toml.skipBlanks (stringLine "title" title ++ ['\n'])) = none := by
        rw [Toml.line_stringLine htitle, if_neg (by rw [hall]; exact Bool.false_ne_true)]
      rw [Toml.read?_eq_none hbefore hmark htext hlast, if_neg Bool.false_ne_true]
  | true =>
      have hlines := List.rel_append hbefore (.cons (isLine_stringLine htitle hall) .nil)
      have happend : (text title).toList
          = (linesBefore (featureName title) ++ [stringLine "title" title]).flatMap (· ++ ['\n']) := by
        rw [htext, List.flatMap_append, List.flatMap_singleton]
      rw [Toml.read?_of_isLine hlines hmark happend, if_pos rfl]
      exact toEntries_readBefore _ _

/-- The manifest of a feature with the given name and title: an enumeration of two sizes with a
lookup function, and a dialog with the size and a checkbox. -/
def manifest (name title : String) : Manifest where
  studio := { name := name ++ ".fs", stdVersion := "2144", indent := .standard }
  imports := []
  documents := []
  enums :=
    [{ name := "Size", parameter := none, predicates := true, predicateTemplate := none
       labelled := true, isPrivate := false, custom := false, customLookup := none
       values :=
        [⟨"SMALL", none, some "1 * inch", false, none⟩,
          ⟨"LARGE", none, some "2 * inch", false, none⟩] }]
  bounds := []
  lookups := [{ name := "sizeWidth", enumName := "Size", returns := some "ValueWithUnits" }]
  ui := some
    { name
      parameters :=
        [.choice "Size" ⟨none, none⟩ none .dropdown none,
          .boolean false "flipSides" ⟨some "Flip sides", none⟩ false none] }
  feature := some { title, description := none, filterSelectors := [] }

theorem decode_entries (name title : String) :
    Manifest.decode (entries name title) = .ok (manifest name title) := by
  cbv

/-- **What the text of a first manifest states**, unless the title has control characters. -/
theorem ofTextUnchecked_text (title : String) :
    Manifest.ofTextUnchecked (text title)
      = if title.toList.all isTextChar then .ok (manifest (featureName title) title)
        else .error (.malformed none) := by
  unfold Manifest.ofTextUnchecked
  rw [read?_text]
  cases title.toList.all isTextChar with
  | false => rfl
  | true =>
      rw [if_pos rfl, if_pos rfl]
      dsimp only
      rw [decode_entries]
      rfl

/-! ## §4. When it can be used. -/

/-- The names that a first manifest declares, apart from that of its feature. -/
def takenNames : List String := ["Size", "isSizeSmall", "isSizeLarge", "sizeWidth"]

theorem declaredNames_manifest (name title : String) :
    (manifest name title).declaredNames = takenNames ++ [name] := by
  cbv

/-- An identifier is a name unless it is reserved. -/
theorem isName_iff {name : String} (h : Text.isIdentifier name) :
    IsName name ↔ name ∉ Manifest.reservedWords := by
  unfold Text.isIdentifier at h
  unfold IsName Manifest.nameFault?
  cases hname : name.toList with
  | nil =>
      rw [hname] at h
      cases h
  | cons c rest =>
      rw [hname] at h
      obtain ⟨hc, hrest⟩ := (Bool.and_eq_true _ _).mp h
      simp [hc, hrest]

/-- **When a first manifest keeps the rules**: its feature must not have a reserved name or that of
another declaration. -/
theorem accepted_manifest_iff {name : String} (h : Text.isIdentifier name) (title : String) :
    (manifest name title).Accepted ↔ name ∉ Manifest.reservedWords ∧ name ∉ takenNames := by
  have hnames : (manifest name title).declaredNames.Nodup ↔ name ∉ takenNames := by
    rw [declaredNames_manifest, ← List.concat_eq_append, List.nodup_concat]
    exact and_iff_left (by decide)
  rw [← isName_iff h, ← hnames]
  -- apart from these two rules nothing depends on the name, and the checks can be run
  constructor
  · exact fun ha => ⟨(ha.ui _ rfl).name, ha.names⟩
  · rintro ⟨hname, hnodup⟩
    let p : Manifest.Place := { source := "" }
    have hblank : Text.isBlank (name ++ ".fs") = false := by
      have hextension : ".fs".toList.all Text.isWhite = false := rfl
      unfold Text.isBlank
      rw [String.toList_append, List.all_append, hextension, Bool.and_false]
    exact
      { studioName := hblank
        indent := show Indent.standard.IsAllowed from ⟨by decide, by decide⟩
        feature := fun _ => rfl
        names := hnodup
        imports := fun i hi => absurd hi List.not_mem_nil
        documents := fun d hd => absurd hd List.not_mem_nil
        enums := fun e he => by
          rw [List.mem_singleton.mp he]
          exact (EnumEntry.check_ok_iff p _).mp rfl
        bounds := fun b hb => absurd hb List.not_mem_nil
        lookups := fun l hl => by
          rw [List.mem_singleton.mp hl]
          exact (LookupEntry.check_ok_iff p _ _).mp rfl
        ui := fun ui hui => by
          cases hui
          exact ⟨hname, ((ParameterEntry.checkParameters_ok_iff p _ false _).mp rfl).2⟩ }

/-- A first manifest that keeps the rules is rendered without a warning. -/
theorem render_manifest {name title : String} (h : (manifest name title).Accepted) :
    ∃ r, (manifest name title).render = .ok r ∧ r.diagnostics = [] := by
  obtain ⟨_, s, -, hs⟩ := h.toStudio_ok
  have hreports := Manifest.reports_toStudio hs
  have hquiet :
      (manifest name title).importDiagnostics ++ (manifest name title).groupDiagnostics = [] := rfl
  refine ⟨_, Manifest.render_of_toStudio hs, ?_⟩
  show (Build.run (.inScope .top) s.node.build (manifest name title).context).2.diagnostics = []
  rw [hreports, hquiet]
  rfl

/-- The text of a first manifest is read as a manifest that keeps the rules, has the title and is
rendered without a warning. -/
def IsUsable (title : String) : Prop :=
  ∃ m r, Manifest.ofText (text title) = .ok m ∧ m.feature.map FeatureEntry.title = some title ∧
    m.render = .ok r ∧ r.diagnostics = []

/-- A text is read exactly if it states something that keeps the rules. -/
theorem ofText_eq_ok_iff (source : String) (m : Manifest) :
    Manifest.ofText source = .ok m ↔ Manifest.ofTextUnchecked source = .ok m ∧ m.Accepted := by
  unfold Manifest.ofText
  cases Manifest.ofTextUnchecked source with
  | error e => simp
  | ok m' =>
      have hvalidate := m'.validate_ok_iff source
      cases hv : m'.validate source with
      | error e =>
          have hrefused : ¬ m'.Accepted := fun ha => by
            rw [hvalidate.mpr ha] at hv
            cases hv
          simp only [hv, reduceCtorEq, Except.ok.injEq, false_iff, not_and]
          rintro rfl
          exact hrefused
      | ok u =>
          have haccepted : m'.Accepted := hvalidate.mp hv
          simp only [hv, Except.ok.injEq]
          refine ⟨?_, And.left⟩
          rintro rfl
          exact ⟨rfl, haccepted⟩

theorem ofText_text_eq_ok_iff (title : String) (m : Manifest) :
    Manifest.ofText (text title) = .ok m ↔
      (∀ c ∈ title.toList, isTextChar c) ∧ m = manifest (featureName title) title ∧ m.Accepted := by
  rw [ofText_eq_ok_iff, ofTextUnchecked_text, ← List.all_eq_true]
  cases title.toList.all isTextChar with
  | false => simp
  | true => simp [eq_comm]

/-- **Which titles make a first manifest that can be used**: those without control characters
whose feature has neither a reserved name nor that of another declaration. -/
theorem isUsable_iff (title : String) :
    IsUsable title ↔
      (∀ c ∈ title.toList, isTextChar c) ∧ featureName title ∉ Manifest.reservedWords ∧
        featureName title ∉ takenNames := by
  have haccepted := accepted_manifest_iff (featureName_identifier title) title
  constructor
  · rintro ⟨m, r, htext, -, -, -⟩
    obtain ⟨hchars, rfl, hm⟩ := (ofText_text_eq_ok_iff title m).mp htext
    exact ⟨hchars, haccepted.mp hm⟩
  · rintro ⟨hchars, hname⟩
    have hm := haccepted.mpr hname
    obtain ⟨r, hr, hquiet⟩ := render_manifest hm
    exact ⟨_, r, (ofText_text_eq_ok_iff title _).mpr ⟨hchars, rfl, hm⟩, rfl, hr, hquiet⟩

/-- The feature of a title may have a reserved name, which no manifest may give. -/
theorem not_isUsable_case : ¬ IsUsable "case" := by
  rintro ⟨m, r, htext, -⟩
  obtain ⟨-, rfl, hm⟩ := (ofText_text_eq_ok_iff "case" m).mp htext
  have hname : featureName "case" = "case" := by decide +kernel
  refine ((accepted_manifest_iff (featureName_identifier "case") "case").mp hm).1 ?_
  rw [hname]
  decide

end FeatureStudio.Starter
