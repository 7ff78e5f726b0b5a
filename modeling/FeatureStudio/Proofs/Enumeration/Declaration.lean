/-
  FeatureStudio.Proofs.Enumeration.Declaration: the declaration of an enumeration, read back.

  A declaration is read as a word, a name and values with commas between them, each behind an
  annotation unless it is bare.  Behind the declaration stand the companion predicates.

  Main statements:
    * `EnumValue.enumValue_apply`: a value inside its enumeration.
    * `exists_scans_values`: values with commas between them are read back.
    * `companionPredicates_apply`: the companion predicates, in the order of the values.
    * `EnumDeclaration.readEnum_text`: a declaration is read back.
    * `Enumeration.declares_values`: what is read of an enumeration, and what stands behind it.
-/
import FeatureStudio.Proofs.Dialog.Reading
import FeatureStudio.Proofs.Enumeration.Steps
import FeatureStudio.Proofs.Expression.Inlining
import FeatureStudio.Proofs.Render.Independence

namespace FeatureStudio

open Build Render Text

/-! ## §1. Reading declarations. -/

namespace Text

/-- A value as it is read: its token, and if it is annotated its label and whether it is hidden. -/
abbrev ReadValue := String × Option (String × Bool)

/-- Reads what the annotation of a value says. -/
def readLabel : List (String × Lexeme) → Option (String × Bool)
  | [("Name", .literal label)] => some (label, false)
  | [("Name", .literal label), ("Hidden", .word "true")] => some (label, true)
  | _ => none

/-- Reads a token. -/
def readToken : List Lexeme → Option (String × List Lexeme)
  | .word token :: rest => some (token, rest)
  | _ => none

/-- Reads a value, and what follows. -/
def readValue (ls : List Lexeme) : Option (ReadValue × List Lexeme) :=
  match readAnnotation ls with
  | some (entries, rest) => do
    let label ← readLabel entries
    let (token, rest) ← readToken rest
    return ((token, some label), rest)
  | none => (readToken ls).map fun p => ((p.1, none), p.2)

theorem readEntries_length {ls rest : List Lexeme} {ps : List (String × Lexeme)}
    (h : readEntries ls = some (ps, rest)) : rest.length < ls.length := by
  fun_induction readEntries ls generalizing ps with
  | case1 key value ls hvalue ih =>
      obtain ⟨p, hp, heq⟩ := Option.map_eq_some_iff.mp h
      cases heq
      have := ih hp
      simp only [List.length_cons]
      omega
  | case2 => cases h
  | case3 =>
      cases h
      simp only [List.length_cons]
      omega
  | case4 => cases h
  | case5 => cases h

theorem readAnnotation_length {ls rest : List Lexeme} {ps : List (String × Lexeme)}
    (h : readAnnotation ls = some (ps, rest)) : rest.length < ls.length := by
  unfold readAnnotation at h
  split at h
  · cases h
    simp only [List.length_cons]
    omega
  · have := readEntries_length h
    simp only [List.length_cons]
    omega
  · cases h

theorem readToken_length {ls rest : List Lexeme} {token : String}
    (h : readToken ls = some (token, rest)) : rest.length < ls.length := by
  unfold readToken at h
  split at h
  · cases h
    exact Nat.lt_succ_self _
  · cases h

/-- A value takes lexemes. -/
theorem readValue_length {ls rest : List Lexeme} {v : ReadValue}
    (h : readValue ls = some (v, rest)) : rest.length < ls.length := by
  unfold readValue at h
  split at h
  · next hentries =>
      obtain ⟨label, -, h⟩ := Option.bind_eq_some_iff.mp h
      obtain ⟨p, hp, h⟩ := Option.bind_eq_some_iff.mp h
      cases h
      exact Nat.lt_trans (readToken_length hp) (readAnnotation_length hentries)
  · obtain ⟨p, hp, h⟩ := Option.map_eq_some_iff.mp h
    cases h
    exact readToken_length hp

/-- Reads values up to the brace behind them, and what follows. -/
def readValues (ls : List Lexeme) : Option (List ReadValue × List Lexeme) :=
  match h : readValue ls with
  | some (v, .mark ',' :: rest) =>
    have : rest.length < ls.length := Nat.lt_trans (Nat.lt_succ_self _) (readValue_length h)
    (readValues rest).map fun p => (v :: p.1, p.2)
  | some (v, .mark '\x7d' :: rest) => some ([v], rest)
  | _ => none
termination_by ls.length

theorem readValues_comma {ls rest : List Lexeme} {v : ReadValue}
    (h : readValue ls = some (v, .mark ',' :: rest)) :
    readValues ls = (readValues rest).map fun p => (v :: p.1, p.2) := by
  rw [readValues]
  split
  · next h' =>
      rw [h] at h'
      cases h'
      rfl
  · next h' =>
      rw [h] at h'
      cases h'
  · next hcomma _ => exact absurd h (hcomma _ _)

theorem readValues_brace {ls rest : List Lexeme} {v : ReadValue}
    (h : readValue ls = some (v, .mark '\x7d' :: rest)) : readValues ls = some ([v], rest) := by
  rw [readValues]
  split
  · next h' =>
      rw [h] at h'
      cases h'
  · next h' =>
      rw [h] at h'
      cases h'
      rfl
  · next _ hbrace => exact absurd h (hbrace _ _)

/-- A declaration as it is read. -/
structure ReadEnum where
  exported : Bool
  name : String
  values : List ReadValue
  deriving DecidableEq

/-- Reads the values of a declaration, and nothing behind them. -/
def readBody (exported : Bool) (name : String) (ls : List Lexeme) : Option ReadEnum :=
  match readValues ls with
  | some (values, []) => some ⟨exported, name, values⟩
  | _ => none

/-- Reads a declaration. -/
def readEnum : List Lexeme → Option ReadEnum
  | .word "export" :: .word "enum" :: .word name :: .mark '\x7b' :: ls => readBody true name ls
  | .word "enum" :: .word name :: .mark '\x7b' :: ls => readBody false name ls
  | _ => none

end Text

/-! ## §2. Values. -/

namespace EnumValue

/-- A value as it is declared. -/
def declarationText (v : EnumValue) : String :=
  if v.labelled then
    "annotation \x7b \"Name\" : " ++ quote v.label
      ++ (if v.hidden then ", \"Hidden\" : true \x7d\n" else " \x7d\n") ++ v.token
  else v.token

/-- What a declaration says of a value. -/
def said (v : EnumValue) : ReadValue :=
  (v.token, if v.labelled then some (v.label, v.hidden) else none)

/-- The annotation of a value. -/
theorem enumLabel_apply (v : EnumValue) (c : Context) :
    enumLabel v c = ("annotation \x7b \"Name\" : " ++ quote v.label
      ++ (if v.hidden then ", \"Hidden\" : true \x7d\n" else " \x7d\n"), c) := by
  have hopen : "annotation \x7b \"Name\" : "
      = "annotation " ++ ("\x7b " ++ (quote "Name" ++ " : ")) := by decide +kernel
  have hhidden : ", \"Hidden\" : true \x7d\n"
      = ", " ++ (quote "Hidden" ++ " : " ++ "true") ++ (" \x7d" ++ "\n") := by decide +kernel
  have hclose : " \x7d\n" = " \x7d" ++ "\n" := rfl
  let inner := c.save.withState (·.override (.inScope .expression))
  -- a map literal of one entry, or of two if the value is hidden
  unfold enumLabel
  cases v.hidden with
  | false =>
      have hrows : entryTexts { quoteValues := true } [("Name", .token v.label)] inner
          = ([quote "Name" ++ " : " ++ quote v.label], inner) := rfl
      rw [if_neg Bool.false_ne_true, if_neg Bool.false_ne_true, annotationLine_eq hrows, hopen,
        hclose]
      simp only [MapStyle.typed, MapStyle.braced, List.isEmpty_cons, String.intercalate_singleton,
        Bool.false_eq_true, if_false, if_true, String.append_assoc]
      rfl
  | true =>
      have hrows : entryTexts { quoteValues := true, bareValues := ["Hidden"] }
          [("Name", .token v.label), ("Hidden", .token "true")] inner
          = ([quote "Name" ++ " : " ++ quote v.label, quote "Hidden" ++ " : " ++ "true"], inner) :=
        rfl
      rw [if_pos rfl, if_pos rfl, annotationLine_eq hrows, hopen, hhidden]
      simp only [MapStyle.typed, MapStyle.braced, List.isEmpty_cons, String.intercalate_cons_cons,
        String.intercalate_singleton, Bool.false_eq_true, if_false, if_true, String.append_assoc]
      rfl

/-- A value inside its enumeration is declared. -/
theorem enumValue_apply (v : EnumValue) {c : Context} (hc : c.state.inEnum) :
    enumValue v c = (v.declarationText, c) := by
  have hdeclared : enumValue v c = enumValueDeclaration v c := by
    show (if c.state.inEnum then _ else _ : Rendering) c = _
    rw [if_pos hc]
  rw [hdeclared]
  unfold enumValueDeclaration declarationText
  cases v.labelled with
  | false => rfl
  | true =>
      -- the annotation is rendered with a state of its own, which is put back before the token
      show ((enumLabel v _).1 ++ v.token, (enumLabel v _).2.restore) = _
      rw [enumLabel_apply]
      rfl

/-- The entries of a value's annotation. -/
def labelEntries (v : EnumValue) : List (String × Lexeme) :=
  ("Name", .literal v.label) :: if v.hidden then [("Hidden", .word "true")] else []

/-- The lexemes in front of a value's token. -/
def labelLexemes (v : EnumValue) : List Lexeme :=
  if v.labelled then
    .word "annotation" :: .mark '\x7b'
      :: ([.mark ','].intercalate (v.labelEntries.map entryLexemes) ++ [.mark '\x7d'])
  else []

theorem scans_declarationText {v : EnumValue} (h : isIdentifier v.token) :
    Scans .idle v.declarationText v.labelLexemes (.word v.token.toList) := by
  have hname : Scans .idle "annotation \x7b \"Name\" : "
      [.word "annotation", .mark '\x7b', .literal "Name", .mark ':'] .idle := by decide +kernel
  have hhidden : Scans .idle ", \"Hidden\" : true \x7d\n"
      [.mark ',', .literal "Hidden", .mark ':', .word "true", .mark '\x7d'] .idle := by
    decide +kernel
  have hclose : Scans .idle " \x7d\n" [.mark '\x7d'] .idle := by decide +kernel
  have htoken := scans_identifier h
  unfold declarationText labelLexemes labelEntries
  cases v.labelled with
  | false => exact htoken
  | true =>
      have hlabel := hname.append (scans_quote v.label)
      cases v.hidden with
      | false => simpa [entryLexemes] using (hlabel.append hclose).append htoken
      | true => simpa [entryLexemes] using (hlabel.append hhidden).append htoken

/-- A value in front of a comma or of the closing brace is read back. -/
theorem readValue_labelLexemes (v : EnumValue) {c : Char} (hc : c ≠ '\x7b') (rest : List Lexeme) :
    readValue (v.labelLexemes ++ .word v.token :: .mark c :: rest)
      = some (v.said, .mark c :: rest) := by
  unfold labelLexemes said
  cases v.labelled with
  | false =>
      -- even a token like the word in front of annotations has no brace behind it
      have hnone : readAnnotation (.word v.token :: .mark c :: rest) = none := by
        unfold readAnnotation
        split
        · next heq =>
            simp only [List.cons.injEq, Lexeme.mark.injEq] at heq
            exact absurd heq.2.1 hc
        · next heq =>
            simp only [List.cons.injEq, Lexeme.mark.injEq] at heq
            exact absurd heq.2.1 hc
        · rfl
      show readValue (.word v.token :: .mark c :: rest) = _
      rw [readValue, hnone]
      rfl
  | true =>
      have hvalues : ∀ p ∈ v.labelEntries, p.2.isValue := by
        unfold labelEntries
        cases v.hidden <;> simp [Lexeme.isValue]
      have hread := readAnnotation_append hvalues (.word v.token :: .mark c :: rest)
      have hlabel : readLabel v.labelEntries = some (v.label, v.hidden) := by
        unfold labelEntries
        cases v.hidden <;> rfl
      show readValue (.word "annotation" :: .mark '\x7b'
        :: (_ ++ [.mark '\x7d'] ++ .word v.token :: .mark c :: rest)) = _
      rw [List.append_assoc]
      show readValue (.word "annotation" :: .mark '\x7b'
        :: (_ ++ .mark '\x7d' :: .word v.token :: .mark c :: rest)) = _
      rw [readValue, hread]
      show (readLabel v.labelEntries).bind _ = _
      rw [hlabel]
      rfl

end EnumValue

/-- Values with commas between them are read back. -/
theorem exists_scans_values : ∀ {vs : List EnumValue}, vs ≠ [] → (∀ v ∈ vs, isIdentifier v.token) →
    ∃ ls token, Scans .idle (",\n".intercalate (vs.map EnumValue.declarationText)) ls
        (.word (String.toList token)) ∧
      ∀ rest, readValues (ls ++ .word token :: .mark '\x7d' :: rest)
        = some (vs.map EnumValue.said, rest)
  | [], hne, _ => absurd rfl hne
  | [v], _, h => by
      refine ⟨v.labelLexemes, v.token, ?_, fun rest => ?_⟩
      · simpa using EnumValue.scans_declarationText (h v List.mem_cons_self)
      · exact readValues_brace (v.readValue_labelLexemes (by decide) rest)
  | v :: next :: vs, _, h => by
      -- a token is complete with the comma behind it, so only the last one is still open
      obtain ⟨ls, token, hgives, hread⟩ := exists_scans_values (List.cons_ne_nil next vs)
        fun w hw => h w (List.mem_cons_of_mem _ hw)
      have hcomma : Scans .idle ",\n" [.mark ','] .idle := by decide +kernel
      have hv := EnumValue.scans_declarationText (h v List.mem_cons_self)
      refine ⟨v.labelLexemes ++ .word v.token :: .mark ',' :: ls, token, ?_, fun rest => ?_⟩
      · have hall := (hv.append (hcomma.afterWord rfl (by decide) v.token)).append hgives
        simpa [String.intercalate_cons_cons] using hall
      · have hfirst := v.readValue_labelLexemes (c := ',') (by decide)
          (ls ++ .word token :: .mark '\x7d' :: rest)
        simpa [hread] using readValues_comma hfirst

/-! ## §3. Companion predicates. -/

/-- The test of a field for a value, as a statement. -/
def testText (parameter value : String) : String :=
  "definition." ++ parameter ++ " == " ++ value ++ ";\n"

/-- The declaration of a predicate that tests a field for a value. -/
def predicateText (name parameter value : String) (indent : Indent) : String :=
  "export predicate " ++ name ++ "(definition is map)\n\x7b\n"
    ++ indent.lines (testText parameter value) 1 ++ "\x7d\n"

namespace EnumValue

/-- The test is the same statement whether calls are written out or not. -/
theorem testStatements_apply (v : EnumValue) (inlined : Bool) (c : Context) :
    testStatements inlined [enumTest v] c = (testText v.parameterName v.qualified, c) := by
  have hrun : ∀ d : Context, run { scope := some .statement } (expression (enumTest v).render) d
      = (testText v.parameterName v.qualified, d) := fun d =>
    run_statement (v.render_test v.parameterName _)
  have hall : ∀ d : Context,
      runAll { scope := some .statement } [expression (enumTest v).render] d
        = ([testText v.parameterName v.qualified], d) := by
    intro d
    rw [runAll_cons, hrun]
    rfl
  have htests : testStatements inlined [enumTest v] c = _ :=
    testStatements_of_runAll (hall (c.withState fun s => { s with inTest := inlined }))
  rwa [String.join_cons, String.join_nil, String.append_empty] at htests

/-- The predicate that tests for the value, at file level. -/
theorem runIn_testPredicate (v : EnumValue) (name : String) (c : Context) :
    runIn .top (testPredicate name true [enumTest v]) c
      = (predicateText name v.parameterName v.qualified c.indent, c) := by
  let top := c.save.withState (·.override (.inScope .top))
  have hscope : top.state.scope = .top := rfl
  have htest : testPredicate name true [enumTest v] top = _ :=
    testPredicate_apply hscope (v.testStatements_apply false _) (v.testStatements_apply true _)
  have htext : ∀ body : String, exportText true ++ "predicate " ++ name ++ "("
        ++ FormalParameter.definition.text ++ ")\n\x7b\n"
        ++ c.indent.lines (testBody body body) 1 ++ "\x7d\n"
      = "export predicate " ++ name ++ "(definition is map)\n\x7b\n" ++ c.indent.lines body 1
        ++ "\x7d\n" := by
    intro body
    have hexport : "export predicate " = exportText true ++ "predicate " := rfl
    have hparameter : "(definition is map)\n\x7b\n"
        = "(" ++ FormalParameter.definition.text ++ ")\n\x7b\n" := by decide +kernel
    rw [testBody, if_pos rfl, hexport, hparameter]
    simp only [String.append_assoc]
  -- both renderings of the body are the same, so there is no comment above it
  rw [runIn, run_apply, htest]
  exact congrArg (·, c) (htext _)

end EnumValue

/-- **The companion predicates**, in the order of the values, each after a blank line and with the
test for its value. -/
theorem companionPredicates_apply (cs : List (String × EnumValue)) (c : Context) :
    companionPredicates cs c
      = (String.join (cs.map fun p =>
          "\n" ++ predicateText p.1 p.2.parameterName p.2.qualified c.indent), c) := by
  induction cs with
  | nil => rfl
  | cons p rest ih =>
      have hfirst := p.2.runIn_testPredicate p.1 c
      show ("\n" ++ (runIn .top (testPredicate p.1 true [enumTest p.2]) c).1
          ++ (companionPredicates rest (runIn .top (testPredicate p.1 true [enumTest p.2]) c).2).1,
        (companionPredicates rest (runIn .top (testPredicate p.1 true [enumTest p.2]) c).2).2) = _
      rw [hfirst, List.map_cons, String.join_cons]
      show (_ ++ (companionPredicates rest c).1, (companionPredicates rest c).2) = _
      rw [ih]

/-! ## §4. Declarations. -/

/-- The values of an enumeration, indented. -/
theorem joined_enumValues {vs : List EnumValue} (hne : vs ≠ []) {c : Context}
    (hc : c.state.inEnum) :
    joined { separator := ",\n", indented := true, scope := some .expression } (vs.map enumValue) c
      = (c.indent.lines (",\n".intercalate (vs.map EnumValue.declarationText)) 1, c) := by
  let join : Join := { separator := ",\n", indented := true, scope := some .expression }
  have hrun : ∀ v : EnumValue, ∀ d : Context, d.state.inEnum →
      run { scope := some .expression } (enumValue v) d = (v.declarationText, d) := by
    intro v d hd
    have hv := v.enumValue_apply
      (c := d.save.withState (·.override { scope := some .expression })) hd
    rw [run_apply, hv]
    rfl
  have hall : ∀ d : Context, d.state.inEnum → ∀ vs : List EnumValue,
      runAll { scope := some .expression } (vs.map enumValue) d
        = (vs.map EnumValue.declarationText, d.reported []) := by
    intro d hd vs
    rw [Context.reported_nil]
    induction vs with
    | nil => rfl
    | cons v vs ih =>
        rw [List.map_cons, runAll_cons, hrun v d hd]
        dsimp only
        rw [ih]
        rfl
  have htexts : vs.map EnumValue.declarationText ≠ [] := fun h => hne (List.map_eq_nil_iff.mp h)
  -- a level deeper the values are still inside their enumeration
  have hjoined : joined join (vs.map enumValue) c = _ :=
    joined_of_runAll (hall (join.inner c) hc vs)
  rw [Context.reported_nil] at hjoined
  rw [hjoined]
  show (c.indent.lines (join.row _) 1, c) = _
  rw [← join.row_eq htexts]
  simp [join]

namespace EnumDeclaration

/-- The declaration of an enumeration, without the companion predicates. -/
def text (d : EnumDeclaration) (indent : Indent) : String :=
  exportText d.exported ++ "enum " ++ d.name ++ "\n\x7b\n"
    ++ indent.lines (",\n".intercalate (d.values.map EnumValue.declarationText)) 1 ++ "\n\x7d\n"

variable {d : EnumDeclaration}

/-- An enumeration at file level. -/
theorem runIn_enumeration (hne : d.values ≠ []) (c : Context) :
    runIn .top (enumeration d) c
      = (d.text c.indent ++ String.join (d.companions.map fun p =>
          "\n" ++ predicateText p.1 p.2.parameterName p.2.qualified c.indent), c) := by
  let top := c.save.withState (·.override (.inScope .top))
  let inner := top.withState fun s => { s with inEnum := true }
  -- the flag is set for the values only, and the state is put back behind the predicates
  have hvalues := joined_enumValues (c := inner) hne rfl
  have hdeclared : enumeration d top
      = let r := joined { separator := ",\n", indented := true, scope := some .expression }
          (d.values.map enumValue) inner
        let rs := companionPredicates d.companions
          (r.2.withState fun s => { s with inEnum := false })
        (exportText d.exported ++ "enum " ++ d.name ++ "\n\x7b\n" ++ r.1 ++ "\n\x7d\n" ++ rs.1,
          rs.2) := rfl
  rw [runIn, run_apply]
  show ((enumeration d top).1, (enumeration d top).2.restore) = _
  rw [hdeclared, hvalues]
  dsimp only
  rw [companionPredicates_apply]
  rfl

/-- A declaration is read back. -/
theorem readEnum_text (hne : d.values ≠ []) (hname : isIdentifier d.name)
    (htokens : ∀ v ∈ d.values, isIdentifier v.token) (indent : Indent) :
    (lexemes (d.text indent)).bind readEnum
      = some ⟨d.exported, d.name, d.values.map EnumValue.said⟩ := by
  obtain ⟨ls, token, hvalues, hread⟩ := exists_scans_values hne htokens
  have hexport : Scans .idle (exportText d.exported ++ "enum ")
      (if d.exported then [.word "export", .word "enum"] else [.word "enum"]) .idle := by
    cases d.exported <;> decide +kernel
  have hopen : Scans .idle "\n\x7b\n" [.mark '\x7b'] .idle := by decide +kernel
  have hclose : Scans .idle "\n\x7d\n" [.mark '\x7d'] .idle := by decide +kernel
  -- the name and the last token are complete with the line feed behind them
  have hhead := (hexport.append (scans_identifier hname)).append
    (hopen.afterWord rfl (by decide) d.name)
  have hall := (hhead.append (hvalues.lines indent 1)).append
    (hclose.afterWord rfl (by decide) token)
  have hbody : ∀ exported : Bool, readBody exported d.name (ls ++ [.word token, .mark '\x7d'])
      = some ⟨exported, d.name, d.values.map EnumValue.said⟩ := by
    intro exported
    rw [readBody, hread []]
  rw [text, hall.lexemes_eq, Option.bind_some]
  simp only [List.append_nil, List.append_assoc]
  cases d.exported with
  | true => exact hbody true
  | false => exact hbody false

end EnumDeclaration

namespace Enumeration

/-- What stands behind the declaration of an enumeration: for every value with a companion predicate
a blank line and the predicate. -/
def companionText (e : Enumeration) (indent : Indent) : String :=
  String.join (e.members.filterMap fun m => m.companion.map fun name =>
    "\n" ++ predicateText name e.parameterName (e.name ++ "." ++ m.token) indent)

/-- The companion predicates test the field of the enumeration for its values. -/
theorem join_companions {name : String} {steps : List EnumBuilder.Step} {e : Enumeration}
    (h : EnumBuilder.IsBuilt name steps e) (indent : Indent) :
    String.join (e.declaration.companions.map fun p =>
        "\n" ++ predicateText p.1 p.2.parameterName p.2.qualified indent)
      = e.companionText indent := by
  unfold companionText EnumDeclaration.companions declaration values
  rw [List.filterMap_map, List.map_filterMap]
  -- value by value: a value that is built has the names of its enumeration
  refine congrArg String.join (List.filterMap_congr fun m hm => ?_)
  obtain ⟨options, hmember⟩ := h.members m hm
  have hqualified : m.qualified = e.name ++ "." ++ m.token := by
    rw [EnumValue.qualified, hmember.enumName, h.enumName]
  have hparameter : m.parameterName = e.parameterName :=
    hmember.parameterName.trans h.parameterName.symm
  show (m.companion.map fun name => (name, m.toEnumValue)).map _ = _
  rw [Option.map_map]
  refine Option.map_congr fun predicate _ => ?_
  show "\n" ++ predicateText predicate m.parameterName m.qualified indent = _
  rw [hqualified, hparameter]

/-- **Declarations are read back as their values**, in order, whatever their labels are: as tokens
alone if they are bare, else with label and whether they are hidden.  Behind the declaration stand
the companion predicates, in the order of the values, each with the test for its value. -/
theorem declares_values {name : String} {steps : List EnumBuilder.Step} {e : Enumeration}
    (h : EnumBuilder.construct name steps = .ok e) (hname : isIdentifier e.name)
    (htokens : ∀ m ∈ e.members, isIdentifier m.token) (c : Context) :
    ∃ text, runIn .top e.node.build c = (text ++ e.companionText c.indent, c) ∧
      (lexemes text).bind readEnum
        = some ⟨e.exported, e.name, e.members.map fun m => m.said⟩ := by
  have hbuilt := EnumBuilder.isBuilt_of_construct h
  have hne : e.declaration.values ≠ [] := fun hnil =>
    EnumBuilder.members_ne_nil_of_construct h (List.map_eq_nil_iff.mp hnil)
  have hvalues : ∀ v ∈ e.declaration.values, isIdentifier v.token := by
    intro v hv
    obtain ⟨m, hm, rfl⟩ := List.mem_map.mp hv
    exact htokens m hm
  refine ⟨e.declaration.text c.indent, ?_, ?_⟩
  · rw [← join_companions hbuilt]
    exact EnumDeclaration.runIn_enumeration hne c
  · rw [EnumDeclaration.readEnum_text hne hname hvalues]
    simp [declaration, values, Function.comp_def]

/-- Sizes of a pipe that other files do not see: one has a label that needs escapes and a companion
predicate, the other is hidden. -/
def pipeSizes : Enumeration where
  name := "PipeSize"
  parameterName := "pipeSize"
  exported := false
  members :=
    [{ token := "TWO_INCH", enumName := "PipeSize", parameterName := "pipeSize"
       label := "2\" \x7d,\nNONE", companion := some "isPipeSizeTwoInch" },
      { token := "CUSTOM", enumName := "PipeSize", parameterName := "pipeSize", label := "Custom"
        hidden := true }]

theorem pipeSizes_declares_values :
    EnumBuilder.construct "PipeSize"
        [.value "two_inch" { label := some "2\" \x7d,\nNONE", predicate := some true },
          .notExported, .custom { hidden := true }] = .ok pipeSizes ∧
      isIdentifier pipeSizes.name ∧ (∀ m ∈ pipeSizes.members, isIdentifier m.token) ∧
      ∃ text, runIn .top pipeSizes.node.build {}
          = (text ++ ("\nexport predicate isPipeSizeTwoInch(definition is map)\n\x7b\n"
              ++ "    definition.pipeSize == PipeSize.TWO_INCH;\n\x7d\n"), {}) ∧
        (lexemes text).bind readEnum
          = some ⟨false, "PipeSize",
              [("TWO_INCH", some ("2\" \x7d,\nNONE", false)),
                ("CUSTOM", some ("Custom", true))]⟩ := by
  have hconstruct : EnumBuilder.construct "PipeSize"
      [.value "two_inch" { label := some "2\" \x7d,\nNONE", predicate := some true },
        .notExported, .custom { hidden := true }] = .ok pipeSizes := by rfl
  have hname : isIdentifier pipeSizes.name := by decide +kernel
  have htokens : ∀ m ∈ pipeSizes.members, isIdentifier m.token := by
    simp only [pipeSizes, List.forall_mem_cons]
    decide +kernel
  have hcompanion : pipeSizes.companionText Indent.standard
      = "\nexport predicate isPipeSizeTwoInch(definition is map)\n\x7b\n"
        ++ "    definition.pipeSize == PipeSize.TWO_INCH;\n\x7d\n" := by decide +kernel
  obtain ⟨text, hrun, hread⟩ := declares_values hconstruct hname htokens {}
  refine ⟨hconstruct, hname, htokens, text, ?_, hread⟩
  rw [hrun, ← hcompanion]

end Enumeration

end FeatureStudio
