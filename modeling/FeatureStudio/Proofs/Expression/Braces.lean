/-
  FeatureStudio.Proofs.Expression.Braces: tokens of texts with groups in braces.

  A map literal stands in an expression as one operand, whatever its entries are.  So what is in
  braces is read as one token: a scan counts the brackets in it, and looks into no quoted literal,
  up to the brace that closes the group.  Everything else is read as it is without braces.

  Main statements:
    * `groups_of_scan`: a text without braces gives the same tokens.
    * `groups_append_of_isEnd`: the tokens of a text are the same wherever the text ends.
    * `groups_braces`: a balanced text in braces is one token.
    * `GroupsAt.binary`, `GroupsAt.call`, …: texts of operations, from those of their operands.
-/
import FeatureStudio.Proofs.Expression.Binding
import FeatureStudio.Proofs.Expression.Reader
import FeatureStudio.Proofs.Text.Balance

namespace FeatureStudio.Reading

/-! ## §1. The scanner. -/

/-- What has been read: something outside of braces, or what a group begins with. -/
inductive GroupMode where
  | outside (m : Mode)
  | braces (s : Text.Scan) (begun : List Char)

/-- Whether a quoted literal has been begun. -/
def Mode.isQuoted : Mode → Bool
  | .literal _ | .escaped _ => true
  | _ => false

/-- The token of a group, which is an operand like a literal that holds the text of the group. -/
def groupToken (cs : List Char) : Token := .word (Text.quote (String.ofList cs))

/-- Reads a character.  A group begins behind what is complete there. -/
def groupStep : GroupMode → Char → Option (List Token × GroupMode)
  | .outside m, c =>
    if c = '\x7b' && !m.isQuoted then
      (finish m).map fun ts => (ts, .braces (.awaiting ['\x7d']) [c])
    else (step m c).map fun p => (p.1, .outside p.2)
  | .braces s begun, c =>
    (s.step c).map fun s' =>
      if s'.awaited = [] then ([groupToken (begun ++ [c])], .outside .idle)
      else ([], .braces s' (begun ++ [c]))

/-- The tokens that are complete at the end of the text. -/
def groupFinish : GroupMode → Option (List Token)
  | .outside m => finish m
  | .braces .. => none

/-- The reader of tokens and groups. -/
def groupScanner : Text.Scanner GroupMode Token := ⟨.outside .idle, groupStep, groupFinish⟩

/-- The tokens of a text, what is in braces being one. -/
def groups (cs : List Char) : Option (List Token) := groupScanner.items cs

/-- At a level a text is read as an expression in which what is in braces is an operand. -/
def GroupsAt (level : Nat) (text : String) (e : Expr) : Prop :=
  ∃ ts, groups text.toList = some ts ∧ Derives level ts e

/-- A text is read as an expression in which what is in braces is an operand. -/
abbrev Groups (text : String) (e : Expr) : Prop := GroupsAt Precedence.ternary text e

example : groups "!\x7b \"\x7d\" : [1] \x7d + a".toList
    = some [.not, groupToken "\x7b \"\x7d\" : [1] \x7d".toList, .binary .add, .word "a"] := by
  decide +kernel

theorem Groups.unique {text : String} {e e' : Expr} (h : Groups text e) (h' : Groups text e') :
    e = e' := by
  obtain ⟨ts, hts, hd⟩ := h
  obtain ⟨ts', hts', hd'⟩ := h'
  cases hts.symm.trans hts'
  exact hd.unique hd'

/-! ## §2. Texts without braces. -/

/-- An opening brace stands in quoted literals only. -/
theorem isQuoted_of_step {m : Mode} {p : List Token × Mode} (h : step m '\x7b' = some p) :
    m.isQuoted := by
  have hafter : ∀ t, startAfter t '\x7b' = none := fun _ => rfl
  cases m with
  | idle => cases h
  | word begun =>
      rw [step, not_continues (by decide), if_neg Bool.false_ne_true, hafter] at h
      cases h
  | literal begun | escaped begun => rfl
  | mark mark => cases mark <;> cases h

theorem groupStep_of_step {m m' : Mode} {c : Char} {ts : List Token}
    (h : step m c = some (ts, m')) : groupStep (.outside m) c = some (ts, .outside m') := by
  have hnone : ¬ (c = '\x7b' && !m.isQuoted) := by
    rw [Bool.and_eq_true, decide_eq_true_eq, Bool.not_eq_true']
    rintro ⟨rfl, hquoted⟩
    rw [isQuoted_of_step h] at hquoted
    cases hquoted
  rw [groupStep, if_neg hnone, h]
  rfl

theorem read_of_read : ∀ {cs : List Char} {m m' : Mode} {ts : List Token},
    scanner.read m cs = some (ts, m') →
      groupScanner.read (.outside m) cs = some (ts, .outside m')
  | [], _, _, _, h => by
      cases h
      rfl
  | c :: cs, m, m', ts, h => by
      obtain ⟨p, hstep, hrest⟩ := Option.bind_eq_some_iff.mp h
      obtain ⟨q, hread, hq⟩ := Option.map_eq_some_iff.mp hrest
      cases hq
      have hgroup : groupScanner.step (.outside m) c = some (p.1, .outside p.2) :=
        groupStep_of_step hstep
      rw [Text.Scanner.read_cons hgroup, read_of_read hread]
      rfl

/-- **A text without braces gives the same tokens.** -/
theorem groups_of_scan {cs : List Char} {ts : List Token} (h : scan cs = some ts) :
    groups cs = some ts := by
  have hread := scanFrom_append [] cs .idle
  rw [List.append_nil] at hread
  obtain ⟨p, hp, hfinish⟩ := Option.bind_eq_some_iff.mp (hread.symm.trans h)
  show (groupScanner.read _ cs).bind _ = _
  exact Option.bind_eq_some_iff.mpr ⟨(p.1, .outside p.2), read_of_read hp, hfinish⟩

/-! ## §3. Texts in front of others. -/

/-- The character does not go on with what has been read. -/
def Mode.isEndedBy : Mode → Char → Bool
  | .word begun, c => !continues begun c
  | .mark .bang, c => c ≠ '='
  | .mark .minus, c => c ≠ '-'
  | _, _ => true

theorem isEndedBy_end {c : Char} (h : isEnd c) (m : Mode) : m.isEndedBy c := by
  obtain ⟨hseparator, hequals⟩ := Bool.and_eq_true_iff.mp h
  cases m with
  | word begun => rw [Mode.isEndedBy, not_continues hseparator]; rfl
  | mark mark =>
      cases mark with
      | bang => exact hequals
      | minus =>
          refine decide_eq_true fun hminus => ?_
          rw [hminus] at hseparator
          cases hseparator
      | _ => rfl
  | _ => rfl

/-- What is complete comes in front of what the next character is read as. -/
theorem groupStep_finished {m : Mode} {c : Char} {ts : List Token} (hfinish : finish m = some ts)
    (h : m.isEndedBy c) : groupStep (.outside m) c
      = (groupStep (.outside .idle) c).map fun p => (ts ++ p.1, p.2) := by
  have hquoted : m.isQuoted = false := by
    cases m with
    | literal begun | escaped begun => cases hfinish
    | _ => rfl
  have hstep : step m c = (start c).map fun p => (ts ++ p.1, p.2) := by
    cases m with
    | idle =>
        cases hfinish
        rw [step]
        cases start c <;> rfl
    | word begun =>
        cases hfinish
        rw [step, if_neg (by simpa [Mode.isEndedBy] using h), startAfter]
        rfl
    | literal begun | escaped begun => cases hfinish
    | mark mark =>
        cases mark with
        | ampersand | bar | equals => cases hfinish
        | bang | minus =>
            cases hfinish
            rw [step, if_neg (by simpa [Mode.isEndedBy] using h), startAfter]
            rfl
  -- a brace begins a group, and any other character is read as without groups
  by_cases hbrace : c = '\x7b'
  · subst hbrace
    rw [groupStep, if_pos (by rw [hquoted]; rfl), hfinish]
    exact congrArg (fun ts => some (ts, _)) (List.append_nil ts).symm
  · have hnone : ∀ b : Bool, ¬ (c = '\x7b' && b) := fun b hb =>
      hbrace (of_decide_eq_true (Bool.and_eq_true_iff.mp hb).1)
    rw [groupStep, groupStep, if_neg (hnone _), if_neg (hnone _), hstep, Option.map_map,
      Option.map_map]
    rfl

/-- What is complete comes in front of what is read from there. -/
theorem itemsFrom_finished {m : Mode} {ts : List Token} {rest : List Char}
    (hfinish : finish m = some ts) (h : ∀ c ∈ rest.head?, m.isEndedBy c) :
    groupScanner.itemsFrom (.outside m) rest = emit ts (groups rest) := by
  cases rest with
  | nil =>
      show (finish m).map _ = some (ts ++ [])
      rw [hfinish, List.append_nil]
      rfl
  | cons c rest =>
      show ((groupStep (.outside m) c).bind _).bind _
        = emit ts (((groupStep (.outside .idle) c).bind _).bind _)
      rw [groupStep_finished hfinish (h c rfl)]
      cases groupStep (.outside .idle) c with
      | none => rfl
      | some p =>
          simp only [Option.map_some, Option.bind_some]
          cases groupScanner.read p.2 rest with
          | none => rfl
          | some q =>
              simp only [Option.map_some, Option.bind_some]
              cases groupScanner.finish q.2 <;> simp [emit]

/-- **The tokens of a text are the same wherever the text ends.** -/
theorem groups_append_of_isEnd {cs : List Char} {ts : List Token} (h : groups cs = some ts)
    {rest : List Char} (hrest : ∀ c ∈ rest.head?, isEnd c) :
    groups (cs ++ rest) = emit ts (groups rest) := by
  obtain ⟨⟨is, M⟩, hread, hfinish⟩ := Option.bind_eq_some_iff.mp h
  obtain ⟨fs, hfs, rfl⟩ := Option.map_eq_some_iff.mp hfinish
  cases M with
  | outside m =>
      show groupScanner.itemsFrom _ (cs ++ rest) = _
      rw [Text.Scanner.itemsFrom_append hread,
        itemsFrom_finished hfs fun c hc => isEndedBy_end (hrest c hc) m]
      exact emit_emit is fs _
  | braces s begun => cases hfs

/-- Characters between which nothing is begun. -/
theorem groups_append {cs : List Char} {ts : List Token}
    (h : scanner.read .idle cs = some (ts, .idle)) (rest : List Char) :
    groups (cs ++ rest) = emit ts (groups rest) :=
  Text.Scanner.items_append (read_of_read h) rest

/-- A prefix operator, unless what follows makes another token of it. -/
theorem groups_prefixed (op : UnaryOp) {rest : List Char} (h : Admits op rest) :
    groups (op.text.toList ++ rest) = emit [prefixToken op] (groups rest) := by
  cases op with
  | not =>
      have hread : scanner.read .idle ['!'] = some ([], .mark .bang) := rfl
      have hfinish : finish (.mark .bang) = some [prefixToken .not] := rfl
      show groupScanner.itemsFrom (.outside .idle) (['!'] ++ rest) = _
      rw [Text.Scanner.itemsFrom_append (read_of_read hread),
        itemsFrom_finished hfinish fun c hc => decide_eq_true (h c hc).1]
      exact emit_nil _
  | neg =>
      have hread : scanner.read .idle ['-'] = some ([], .mark .minus) := rfl
      have hfinish : finish (.mark .minus) = some [prefixToken .neg] := rfl
      show groupScanner.itemsFrom (.outside .idle) (['-'] ++ rest) = _
      rw [Text.Scanner.itemsFrom_append (read_of_read hread),
        itemsFrom_finished hfinish fun c hc => decide_eq_true ((h c hc).2 rfl)]
      exact emit_nil _

/-- The reader of tokens and groups. -/
def groupReader : TokenReader where
  read := groups
  ends := isEnd
  ends_of_isEnd := id
  read_nil := rfl
  read_append := groups_append
  read_prefixed := groups_prefixed
  read_path h _ hrest := groups_append_of_isEnd (groups_of_scan (lexes_path h).scan_eq) hrest

theorem groupLexes {cs : List Char} {ts : List Token} (h : groups cs = some ts) :
    groupReader.Lexes cs ts := fun _ hrest => groups_append_of_isEnd h hrest

/-- A sign of equality without a second one is not read. -/
theorem groups_equals_ne {c : Char} (hc : c ≠ '=') (cs : List Char) :
    groups ('=' :: c :: cs) = none := by
  have hread : groupScanner.read (.outside .idle) ['=']
      = some ([], .outside (.mark .equals)) := rfl
  have hstep : groupStep (.outside (.mark .equals)) c = none := by
    rw [groupStep, step, if_neg hc]
    split <;> rfl
  have hnone : groupScanner.read (.outside (.mark .equals)) (c :: cs) = none := by
    show (groupStep (.outside (.mark .equals)) c).bind _ = none
    rw [hstep]
    rfl
  show groupScanner.itemsFrom (.outside .idle) (['='] ++ c :: cs) = none
  rw [Text.Scanner.itemsFrom_append hread, Text.Scanner.itemsFrom, hnone]
  rfl

/-- What begins with a sign of equality begins with a comparison. -/
theorem groups_equals : ∀ {cs : List Char} {ts : List Token}, groups ('=' :: cs) = some ts →
    ∃ ts', ts = .equality .equal :: ts'
  | [], _, h => by cases h
  | c :: cs, ts, h => by
      by_cases hc : c = '='
      · have hread : scanner.read .idle ['=', '='] = some ([.equality .equal], .idle) := rfl
        subst hc
        obtain ⟨ts', -, rfl⟩ := Option.map_eq_some_iff.mp ((groups_append hread cs).symm.trans h)
        exact ⟨ts', rfl⟩
      · rw [groups_equals_ne hc] at h
        cases h

/-! ## §4. Groups. -/

/-- Inside a group the scan always awaits the brace that closes it. -/
theorem itemsFrom_braces (rest : List Char) : ∀ {cs : List Char} {s t : Text.Scan},
    s.read cs = some t → ∀ begun : List Char,
      groupScanner.itemsFrom (.braces (s.above ['\x7d']) begun) (cs ++ rest)
        = groupScanner.itemsFrom (.braces (t.above ['\x7d']) (begun ++ cs)) rest
  | [], s, t, h, begun => by
      cases h
      rw [List.append_nil, List.nil_append]
  | c :: cs, s, t, h, begun => by
      -- the closing brace stays below whatever else is awaited, so no step completes the group
      rw [Text.Scan.read_cons] at h
      obtain ⟨s', hstep, hread⟩ := Option.bind_eq_some_iff.mp h
      have hgroup : groupStep (.braces (s.above ['\x7d']) begun) c
          = some ([], .braces (s'.above ['\x7d']) (begun ++ [c])) := by
        rw [groupStep, Text.Scan.step_above hstep]
        exact congrArg some (if_neg (by simp [Text.Scan.above]))
      have hone : groupScanner.read (.braces (s.above ['\x7d']) begun) [c]
          = some ([], .braces (s'.above ['\x7d']) (begun ++ [c])) :=
        Text.Scanner.read_singleton hgroup
      have hrest := itemsFrom_braces rest hread (begun ++ [c])
      rw [List.append_assoc] at hrest
      refine (Text.Scanner.itemsFrom_append hone (cs ++ rest)).trans ?_
      rw [hrest]
      exact emit_nil _

/-- **A balanced text in braces is one token**, whatever follows. -/
theorem groups_braces {text : String} (h : Text.IsBalanced text) (rest : List Char) :
    groups ('\x7b' :: (text.toList ++ '\x7d' :: rest))
      = emit [groupToken ('\x7b' :: (text.toList ++ ['\x7d']))] (groups rest) := by
  have hopen : groupScanner.read (.outside .idle) ['\x7b']
      = some ([], .braces (.awaiting ['\x7d']) ['\x7b']) := rfl
  have hclose : groupScanner.read (.braces (.awaiting ['\x7d']) ('\x7b' :: text.toList)) ['\x7d']
      = some ([groupToken ('\x7b' :: text.toList ++ ['\x7d'])], .outside .idle) := rfl
  have hinner := itemsFrom_braces ('\x7d' :: rest) h ['\x7b']
  show groupScanner.itemsFrom (.outside .idle) (['\x7b'] ++ _) = _
  rw [Text.Scanner.itemsFrom_append hopen]
  refine (emit_nil _).trans (hinner.trans ?_)
  exact Text.Scanner.itemsFrom_append hclose rest

theorem head_of_itemsFrom_braces : ∀ {cs : List Char} {s : Text.Scan} {begun : List Char}
    {ts : List Token}, groupScanner.itemsFrom (.braces s begun) cs = some ts →
      ∃ text ts', ts = .word text :: ts'
  | [], _, _, _, h => by cases h
  | c :: cs, s, begun, ts, h => by
      obtain ⟨p, hread, hfinish⟩ := Option.bind_eq_some_iff.mp h
      obtain ⟨q, hstep, hrest⟩ := Option.bind_eq_some_iff.mp hread
      obtain ⟨s', -, hq⟩ := Option.map_eq_some_iff.mp hstep
      obtain ⟨fs, hfs, rfl⟩ := Option.map_eq_some_iff.mp hfinish
      split at hq
      · -- here the group is complete
        cases hq
        obtain ⟨r, -, rfl⟩ := Option.map_eq_some_iff.mp hrest
        exact ⟨_, _, rfl⟩
      · cases hq
        obtain ⟨r, hr, rfl⟩ := Option.map_eq_some_iff.mp hrest
        refine @head_of_itemsFrom_braces cs s' (begun ++ [c]) _ ?_
        exact Option.bind_eq_some_iff.mpr ⟨r, hr, Option.map_eq_some_iff.mpr ⟨fs, hfs, rfl⟩⟩

/-- What begins with a brace begins with a group. -/
theorem groups_brace {cs : List Char} {ts : List Token} (h : groups ('\x7b' :: cs) = some ts) :
    ∃ text ts', ts = .word text :: ts' := by
  have hopen : groupScanner.read (.outside .idle) ['\x7b']
      = some ([], .braces (.awaiting ['\x7d']) ['\x7b']) := rfl
  have hfrom : groupScanner.itemsFrom (.outside .idle) (['\x7b'] ++ cs) = some ts := h
  rw [Text.Scanner.itemsFrom_append hopen] at hfrom
  exact head_of_itemsFrom_braces ((emit_nil _).symm.trans hfrom)

/-! ## §5. Operations. -/

namespace GroupsAt

variable {level : Nat} {text l r : String} {e e' : Expr}

theorem lower (h : GroupsAt level text e) {below : Nat} (hle : below ≤ level) :
    GroupsAt below text e := by
  obtain ⟨ts, hts, hd⟩ := h
  exact ⟨ts, hts, hd.lower hle⟩

/-- A text stands wherever something looser is asked for. -/
theorem above (h : GroupsAt level text e) {least : Nat} (hlt : least < e.precedence) :
    GroupsAt (least + 1) text e := by
  obtain ⟨ts, hts, hd⟩ := h
  exact ⟨ts, hts, hd.above hlt⟩

theorem le_precedence (h : GroupsAt level text e) : level ≤ e.precedence := by
  obtain ⟨ts, -, hd⟩ := h
  exact hd.le_precedence

theorem parens (h : Groups text e) :
    GroupsAt Precedence.atom ("(" ++ text ++ ")") (.parens e) := by
  obtain ⟨ts, hts, hd⟩ := h
  exact ⟨_, (groupReader.enclosed (groupLexes hts)).read_eq, .parens hd⟩

/-- What is read begins with some character, and with no half of an operator. -/
theorem exists_head (h : GroupsAt level text e) : ∃ c cs, text.toList = c :: cs ∧ c ≠ '=' := by
  obtain ⟨ts, hts, hd⟩ := h
  cases htext : text.toList with
  | nil =>
      rw [htext] at hts
      cases hts
      cases hd.readsAll
  | cons c cs =>
      refine ⟨c, cs, rfl, ?_⟩
      rintro rfl
      rw [htext] at hts
      obtain ⟨ts', rfl⟩ := groups_equals hts
      exact not_derives_equality _ _ hd

/-- A prefix operator, unless it and what follows are two minus signs. -/
theorem unary (op : UnaryOp) (h : GroupsAt Precedence.unary text e)
    (hminus : op = .neg → text.toList.head? ≠ some '-') :
    GroupsAt Precedence.unary (op.text ++ text) (.unary op e) := by
  obtain ⟨c, cs, hchars, hequals⟩ := h.exists_head
  obtain ⟨ts, hts, hd⟩ := h
  rw [hchars] at hminus
  have hadmits : Admits op text.toList := by
    rw [hchars]
    rintro c' ⟨⟩
    exact ⟨hequals, fun hop hc => hminus hop (congrArg some hc)⟩
  have hne : text.toList ≠ [] := by simp [hchars]
  exact ⟨_, (groupReader.prefixed op (groupLexes hts) hadmits hne).read_eq, .unary hd⟩

/-- Two texts with an operator between them. -/
theorem between {tsl tsr : List Token} (hl : groups l.toList = some tsl)
    (hr : groups r.toList = some tsr) {ops : String} {t : Token}
    (hops : scanner.read .idle (" " ++ ops ++ " ").toList = some ([t], .idle)) :
    groups (l ++ " " ++ ops ++ " " ++ r).toList = some (tsl ++ t :: tsr) :=
  (groupReader.between (groupLexes hl) (groupLexes hr) hops).read_eq

theorem binary {op : BinaryOp} (hl : GroupsAt op.precedence l e)
    (hr : GroupsAt (op.precedence + 1) r e') :
    GroupsAt op.precedence (l ++ " " ++ op.text ++ " " ++ r) (.binary e op e') := by
  obtain ⟨tsl, htsl, hl⟩ := hl
  obtain ⟨tsr, htsr, hr⟩ := hr
  exact ⟨_, between htsl htsr (TokenReader.read_binary op), .binary hl hr⟩

/-- Behind an operator of the same level the left operand still leads. -/
theorem behind {op : BinaryOp} (hl : GroupsAt op.precedence l e)
    (hr : GroupsAt op.precedence r e') :
    ∃ tree, GroupsAt op.precedence (l ++ " " ++ op.text ++ " " ++ r) tree ∧ Leads op e tree := by
  obtain ⟨tsl, htsl, hl⟩ := hl
  obtain ⟨tsr, htsr, hr⟩ := hr
  obtain ⟨tree, htree, hleads⟩ := hr.behind hl
  exact ⟨tree, ⟨_, between htsl htsr (TokenReader.read_binary op), htree⟩, hleads⟩

theorem equality (op : EqualityOp) (hl : GroupsAt Precedence.equality l e)
    (hr : GroupsAt (Precedence.equality + 1) r e') :
    GroupsAt Precedence.equality (l ++ " " ++ op.text ++ " " ++ r) (.equality e op e') := by
  obtain ⟨tsl, htsl, hl⟩ := hl
  obtain ⟨tsr, htsr, hr⟩ := hr
  exact ⟨_, between htsl htsr (TokenReader.read_equality op), .equality hl hr⟩

theorem ternary {test : String} {t : Expr} (ht : GroupsAt (Precedence.ternary + 1) test t)
    (hl : Groups l e) (hr : Groups r e') :
    Groups (test ++ " ? " ++ l ++ " : " ++ r) (.ternary t e e') := by
  obtain ⟨ts, hts, ht⟩ := ht
  obtain ⟨tsl, htsl, hl⟩ := hl
  obtain ⟨tsr, htsr, hr⟩ := hr
  have hchosen := groupReader.chosen (groupLexes hts) (groupLexes htsl) (groupLexes htsr)
  exact ⟨_, hchosen.read_eq, .ternary ht hl hr⟩

theorem index {key : String} (h : GroupsAt Precedence.atom text e) (hk : Groups key e') :
    GroupsAt Precedence.atom (text ++ "[" ++ key ++ "]") (e.index e') := by
  obtain ⟨ts, hts, hd⟩ := h
  obtain ⟨ks, hks, hk⟩ := hk
  exact ⟨_, (groupReader.indexed (groupLexes hts) (groupLexes hks)).read_eq, .index hd hk⟩

/-- Keys in brackets, one behind the other. -/
theorem keyed {keys : List String} {ks : List Expr} (hk : List.Forall₂ Groups keys ks) :
    ∀ {text : String} {e : Expr}, GroupsAt Precedence.atom text e →
      GroupsAt Precedence.atom (text ++ String.join (keys.map fun key => "[" ++ key ++ "]"))
        (ks.foldl Expr.index e) := by
  induction hk with
  | nil =>
      intro text e h
      rwa [List.map_nil, String.join_nil, String.append_empty]
  | @cons key k keys ks hfirst _ ih =>
      intro text e h
      have hrest := ih (h.index hfirst)
      have htext : text ++ String.join ((key :: keys).map fun key => "[" ++ key ++ "]")
          = text ++ "[" ++ key ++ "]" ++ String.join (keys.map fun key => "[" ++ key ++ "]") := by
        rw [List.map_cons, String.join_cons]
        simp only [String.append_assoc]
      rwa [htext]

/-- A call with all of its arguments on one line. -/
theorem call {name : String} (hname : IsPath name) {args : List String} {es : List Expr}
    (h : List.Forall₂ Groups args es) :
    GroupsAt Precedence.atom (name ++ "(" ++ ", ".intercalate args ++ ")")
      (.call name es false) := by
  obtain ⟨read, hexprs, hargs, hread⟩ : ∃ read : List (List Token × Expr),
      read.map Prod.snd = es ∧
      List.Forall₂ (fun text ts => groupReader.Lexes text.toList ts) args (read.map Prod.fst) ∧
      ∀ a ∈ read, Derives Precedence.ternary a.1 a.2 := by
    induction h with
    | nil => exact ⟨[], rfl, .nil, fun a ha => absurd ha List.not_mem_nil⟩
    | @cons text e texts es hfirst _ ih =>
        obtain ⟨ts, hts, hd⟩ := hfirst
        obtain ⟨read, rfl, hargs, hread⟩ := ih
        refine ⟨(ts, e) :: read, rfl, .cons (groupLexes hts) hargs, fun a ha => ?_⟩
        rcases List.mem_cons.mp ha with rfl | ha
        · exact hd
        · exact hread a ha
  have hsep : ", ".toList = [',', ' '] := rfl
  have hcommaed := groupReader.commaed hsep rfl hargs
  have hcall := Derives.call hname hread
  rw [hexprs] at hcall
  exact ⟨_, (groupReader.called hname hcommaed).read_eq, hcall⟩

/-- A balanced text in braces is an operand. -/
theorem braces (h : Text.IsBalanced text) :
    ∃ own, GroupsAt Precedence.atom ("\x7b" ++ text ++ "\x7d") own := by
  have hchars : ("\x7b" ++ text ++ "\x7d").toList = '\x7b' :: (text.toList ++ ['\x7d']) := by simp
  refine ⟨.token (Text.quote (String.ofList ('\x7b' :: (text.toList ++ ['\x7d'])))), _, ?_,
    .word (isAtom_quote _)⟩
  rw [hchars]
  exact groups_braces h []

end GroupsAt

end FeatureStudio.Reading
