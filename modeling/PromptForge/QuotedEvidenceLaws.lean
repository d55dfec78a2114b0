import PromptForge.QuotedEvidence

namespace PromptForge.QuotedEvidence
open SourceLexing Texts

def mayEnd : Mode → Bool
  | .quoted _ _ | .delimiter _ | .raw _ _ => false
  | .number _ separators => separators % 2 == 0
  | _ => true

def maySplice : Mode → Bool
  | .blank | .word _ => true
  | .number _ separators => separators % 2 == 0
  | .blockComment star => !star
  | _ => false

/-- The next character of a raw string is behind a backslash that the expression pairs with it. -/
def isEscaped (read : Text) : Bool := read.foldl (fun escaped c => !escaped && c == '\\') false

/-- A literal does not end with its line, and a number has its separators in pairs. -/
def mayRead (m : Mode) (c : Char) (next : Option Char) : Bool :=
  match m with
  | .quoted _ _ => !isNewline c
  | .delimiter _ => !(c == '\\' || c == '"' || isNewline c)
  | .raw close read =>
    if isEscaped read then c != '\n' && !decide (close <:+ read ++ [c]) else c != '"' || decide (close <:+ read ++ [c])
  | .number last separators => separators % 2 == 0 || Mode.isNumberChar last c || c == '\'' && (m.separates next).isSome
  | _ => true

def regularFrom : Mode → ℕ → Text → Bool
  | m, _, [] => mayEnd m
  | m, skipped + 1, _ :: rest => regularFrom m skipped rest
  | m, 0, c :: rest =>
    if m.splices = true ∧ 0 < spliceLength (c :: rest) then maySplice m && regularFrom m (spliceLength (c :: rest) - 1) rest
    else mayRead m c (peek rest) && regularFrom (m.step c (peek rest)).2 0 rest

def isRegular (content : Text) : Bool := regularFrom .blank 0 content

variable {m : Mode} {c quote : Char} {rest cs : Text} {more skipped : ℕ} {scan : Scan}

def ClosedBy (quote : Char) : (escaped : Bool) → Text → ℕ → Prop
  | false, cs, more => closing quote cs = some more
  | true, cs, more => ∃ c rest before, cs = c :: rest ∧ c ≠ '\n' ∧ more = before + 1 ∧ closing quote rest = some before

def Inside (m : Mode) (cs : Text) (more : ℕ) : Prop :=
  match m with
  | .quoted quote escaped => ClosedBy quote escaped cs more
  | .delimiter _ => closing '"' cs = some more
  | .raw _ read => ClosedBy '"' (isEscaped read) cs more
  | .number _ separators => separators % 2 = 1 ∧ closing '\'' cs = some more
  | _ => False

lemma closing_cons (hquote : c ≠ quote) (hescape : c ≠ '\\') (rest : Text) : closing quote (c :: rest) = (closing quote rest).map (· + 1) := by
  conv_lhs => unfold closing
  rw [if_neg hquote, if_neg hescape]

lemma spliceLength_ne (h : c ≠ '\\') (rest : Text) : spliceLength (c :: rest) = 0 := by
  unfold spliceLength
  split <;> simp_all

lemma peek_of_not_splice (h : spliceLength cs = 0) : peek cs = cs.head? := by
  cases cs with
  | nil => rfl
  | cons c rest =>
    unfold peek peekAfter
    rw [h]
    rfl

def Opened : Mode → Prop
  | .quoted quote _ => quote ≠ '\\'
  | .delimiter _ => True
  | .raw close _ => close.getLast? = some '"'
  | .number _ separators => separators % 2 = 1
  | _ => False

def Plain : Mode → Prop
  | .blank | .word _ => True
  | .number _ separators => separators % 2 = 0
  | _ => False

lemma ClosedBy.unique {escaped : Bool} {a b : ℕ} (ha : ClosedBy quote escaped cs a) (hb : ClosedBy quote escaped cs b) : a = b := by
  cases escaped with
  | false => exact Option.some.inj (ha.symm.trans hb)
  | true =>
    obtain ⟨c, rest, before, rfl, -, rfl, hbefore⟩ := ha
    obtain ⟨c', rest', before', hsame, -, rfl, hbefore'⟩ := hb
    obtain ⟨-, rfl⟩ := List.cons.inj hsame
    rw [hbefore] at hbefore'
    rw [Option.some.inj hbefore']

lemma Inside.unique {a b : ℕ} (ha : Inside m cs a) (hb : Inside m cs b) : a = b := by
  cases m with
  | quoted quote escaped => exact ClosedBy.unique ha hb
  | delimiter text => exact Option.some.inj (ha.symm.trans hb)
  | raw close read => exact ClosedBy.unique ha hb
  | number last separators => exact Option.some.inj (ha.2.symm.trans hb.2)
  | _ => exact absurd ha id

def Steps (m : Mode) (c : Char) (rest : Text) (after : Place × Mode) : Prop :=
  after.1 ≠ .comment ∧ (Plain after.2 ∧ Inside m (c :: rest) 0 ∨
    Opened after.2 ∧ ∀ more, Inside after.2 rest more → Inside m (c :: rest) (more + 1))

lemma closing_self (quote : Char) (rest : Text) : closing quote (quote :: rest) = some 0 := by
  unfold closing
  rw [if_pos rfl]

lemma closedBy_cons {escaped : Bool} (hline : escaped = true → c ≠ '\n') (hclose : escaped = false → c ≠ quote)
    (h : ClosedBy quote (!escaped && c == '\\') rest more) : ClosedBy quote escaped (c :: rest) (more + 1) := by
  cases escaped with
  | true => exact ⟨c, rest, more, rfl, hline rfl, rfl, h⟩
  | false =>
    change closing quote (c :: rest) = some (more + 1)
    by_cases hescape : c = '\\'
    · subst hescape
      obtain ⟨d, tail, before, rfl, hd, rfl, hbefore⟩ := h
      unfold closing
      rw [if_neg (hclose rfl), if_pos rfl]
      simp [hd, hbefore]
    · have hmark : (c == '\\') = false := by simpa using hescape
      rw [Bool.not_false, Bool.true_and, hmark] at h
      rw [closing_cons (hclose rfl) hescape, show closing quote rest = some more from h]
      rfl

lemma quoted_steps {escaped : Bool} (hquote : quote ≠ '\\') (hline : isNewline c = false) (rest : Text) :
    Steps (.quoted quote escaped) c rest (Mode.quotedStep quote escaped c) := by
  have hnewline : c ≠ '\n' := by
    rintro rfl
    cases hline
  unfold Mode.quotedStep
  rw [hline, if_neg Bool.false_ne_true]
  cases escaped with
  | true => exact ⟨by simp, .inr ⟨hquote, fun more hmore => @closedBy_cons _ quote _ _ true (fun _ => hnewline) (absurd · (by decide)) hmore⟩⟩
  | false =>
    rw [if_neg Bool.false_ne_true]
    by_cases hclose : c = quote
    · subst hclose
      rw [if_pos rfl]
      exact ⟨by simp, .inl ⟨trivial, closing_self c rest⟩⟩
    · rw [if_neg hclose]
      exact ⟨by simp, .inr ⟨hquote, fun more hmore => @closedBy_cons _ quote _ _ false (absurd · (by decide)) (fun _ => hclose) hmore⟩⟩

lemma delimiter_steps {text : Text} {next : Option Char} (h : mayRead (.delimiter text) c next = true) (rest : Text) :
    Steps (.delimiter text) c rest (Mode.step (.delimiter text) c next) := by
  simp only [mayRead, Bool.not_eq_true', Bool.or_eq_false_iff, beq_eq_false_iff_ne, ne_eq] at h
  obtain ⟨⟨hescape, hmark⟩, hline⟩ := h
  have goes : ∀ more, closing '"' rest = some more → closing '"' (c :: rest) = some (more + 1) := fun more hmore => by
    rw [closing_cons hmark hescape, hmore]
    rfl
  simp only [Mode.step]
  split_ifs
  · exact ⟨by simp, .inr ⟨by simp [Opened, List.getLast?_cons], goes⟩⟩
  · exact ⟨by simp, .inr ⟨trivial, goes⟩⟩
  · unfold Mode.quotedStep
    have hescape' : (c == '\\') = false := by simpa using hescape
    rw [hline, if_neg (by simp), if_neg (by simp), if_neg hmark, hescape']
    exact ⟨by simp, .inr ⟨show ('"' : Char) ≠ '\\' by decide, goes⟩⟩

lemma isEscaped_append (read : Text) (c : Char) : isEscaped (read ++ [c]) = (!isEscaped read && c == '\\') := by
  simp [isEscaped, List.foldl_append]

lemma raw_steps {close read : Text} {next : Option Char} (hclose : close.getLast? = some '"')
    (h : mayRead (.raw close read) c next = true) (rest : Text) : Steps (.raw close read) c rest (Mode.step (.raw close read) c next) := by
  simp only [mayRead] at h
  simp only [Mode.step]
  by_cases hends : close <:+ read ++ [c]
  · have hmark : c = '"' := by
      obtain ⟨before, hbefore⟩ := hends
      have hlast := congrArg List.getLast? hbefore
      have hne : close ≠ [] := by
        rintro rfl
        cases hclose
      rw [List.getLast?_append_of_ne_nil _ hne, hclose, List.getLast?_append_of_ne_nil _ (List.cons_ne_nil _ _)] at hlast
      exact (Option.some.inj hlast).symm
    subst hmark
    have hescaped : isEscaped read = false := by
      by_contra hescaped
      rw [if_pos (Bool.not_eq_false _ ▸ hescaped), decide_eq_true hends] at h
      simp at h
    rw [if_pos hends]
    refine ⟨by simp, .inl ⟨trivial, ?_⟩⟩
    change ClosedBy '"' (isEscaped read) ('"' :: rest) 0
    rw [hescaped]
    exact closing_self '"' rest
  · rw [if_neg hends]
    rw [decide_eq_false hends] at h
    refine ⟨by simp, .inr ⟨hclose, fun more hmore => ?_⟩⟩
    change ClosedBy '"' (isEscaped (read ++ [c])) rest more at hmore
    rw [isEscaped_append] at hmore
    refine closedBy_cons (fun hescaped => ?_) (fun hescaped => ?_) hmore
    · rw [if_pos hescaped] at h
      simpa using h
    · rw [hescaped, if_neg Bool.false_ne_true] at h
      simpa using h

lemma isNumberChar_ne {last : Char} (h : Mode.isNumberChar last c = true) : c ≠ '/' ∧ c ≠ '"' ∧ c ≠ '\'' ∧ c ≠ '\\' := by
  refine ⟨?_, ?_, ?_, ?_⟩ <;> (rintro rfl; revert h; simp [Mode.isNumberChar, isWordChar])

lemma number_steps {last : Char} {separators : ℕ} {next : Option Char} (hodd : separators % 2 = 1)
    (h : mayRead (.number last separators) c next = true) (rest : Text) :
    Steps (.number last separators) c rest (Mode.step (.number last separators) c next) := by
  have heven : (separators % 2 == 0) = false := by rw [hodd]; rfl
  simp only [mayRead, heven, Bool.false_or, Bool.or_eq_true, Bool.and_eq_true, beq_iff_eq] at h
  simp only [Mode.step, Mode.codeStep]
  rcases h with hnumber | ⟨rfl, hseparates⟩
  · obtain ⟨hslash, hmark, hquote, hescape⟩ := isNumberChar_ne hnumber
    simp only [hslash, hmark, hquote, false_and, if_false, Mode.afterWord, hnumber, if_true]
    exact ⟨by simp, .inr ⟨hodd, fun more hmore => ⟨hodd, by rw [closing_cons hquote hescape, hmore.2]; rfl⟩⟩⟩
  · obtain ⟨more, hmore⟩ := Option.isSome_iff_exists.mp hseparates
    have hcount : more = separators + 1 := by
      unfold Mode.separates at hmore
      split_ifs at hmore
      exact (Option.some.inj hmore).symm
    simp only [hmore, show ('\'' = '/') = False by decide, show ('\'' = '"') = False by decide, false_and, if_false, if_true]
    refine ⟨by simp, .inl ⟨?_, hodd, closing_self _ rest⟩⟩
    change more % 2 = 0
    omega

lemma opened_steps {next : Option Char} (hm : Opened m) (h : mayRead m c next = true) (rest : Text) : Steps m c rest (m.step c next) := by
  cases m with
  | quoted quote escaped => exact quoted_steps hm (by simpa [mayRead] using h) rest
  | delimiter text => exact delimiter_steps h rest
  | raw close read => exact raw_steps hm h rest
  | number last separators => exact number_steps hm h rest
  | _ => exact absurd hm id

lemma not_maySplice (hm : Opened m) : maySplice m = false := by
  cases m with
  | number last separators =>
    change (separators % 2 == 0) = false
    rw [show separators % 2 = 1 from hm]
    rfl
  | quoted _ _ | delimiter _ | raw _ _ => rfl
  | _ => exact absurd hm id

lemma regular_opened (hm : Opened m) (h : regularFrom m 0 (c :: rest) = true) :
    ¬(m.splices = true ∧ 0 < spliceLength (c :: rest)) ∧ mayRead m c (peek rest) = true ∧ regularFrom (m.step c (peek rest)).2 0 rest = true := by
  unfold regularFrom at h
  by_cases hsplice : m.splices = true ∧ 0 < spliceLength (c :: rest)
  · rw [if_pos hsplice, not_maySplice hm] at h
    cases h
  · rw [if_neg hsplice, Bool.and_eq_true] at h
    exact ⟨hsplice, h⟩

lemma exists_inside (hm : Opened m) (h : regularFrom m 0 cs = true) : ∃ more, Inside m cs more := by
  induction cs generalizing m with
  | nil =>
    cases m with
    | number last separators =>
      change (separators % 2 == 0) = true at h
      rw [show separators % 2 = 1 from hm] at h
      cases h
    | quoted _ _ | delimiter _ | raw _ _ => cases h
    | _ => exact absurd hm id
  | cons c rest ih =>
    obtain ⟨-, hread, hnext⟩ := regular_opened hm h
    obtain ⟨-, ⟨-, hinside⟩ | ⟨hopened, hgoes⟩⟩ := opened_steps hm hread rest
    · exact ⟨0, hinside⟩
    · obtain ⟨more, hmore⟩ := ih hopened hnext
      exact ⟨more + 1, hgoes more hmore⟩

def Pending (skipped : ℕ) (cs : Text) : Prop := ∀ c ∈ cs.take skipped, isNewline c = true

def Related (scan : Scan) (m : Mode) (skipped : ℕ) (cs : Text) : Prop :=
  match scan with
  | .outside => Plain m ∧ Pending skipped cs
  | .literal more => skipped = 0 ∧ Opened m ∧ Inside m cs more
  | .lineComment => skipped = 0 ∧ (m = .opening true ∧ cs.head? = some '/' ∨ m = .lineComment)
  | .star => skipped = 0 ∧ m = .opening false ∧ cs.head? = some '*'
  | .blockComment star => m = .blockComment star ∧ Pending skipped cs ∧ (skipped ≠ 0 → star = false)

def Follows (scan : Scan) (m : Mode) (skipped : ℕ) (c : Char) (rest : Text) : Prop :=
  ∃ place after pending, placesFrom m skipped (c :: rest) = place :: placesFrom after pending rest ∧
    regularFrom after pending rest = true ∧
    (place = .comment → (scanStep scan c rest).1 = true ∨ isSpace c = true) ∧
    (rest = [] ∨ Related (scanStep scan c rest).2 after pending rest)

lemma pending_zero (cs : Text) : Pending 0 cs := fun _ hc => absurd hc List.not_mem_nil

lemma pending_cons (h : Pending (skipped + 1) (c :: rest)) : isNewline c = true ∧ Pending skipped rest :=
  ⟨h c List.mem_cons_self, fun d hd => h d (List.mem_cons_of_mem c hd)⟩

lemma pending_splice (h : 0 < spliceLength (c :: rest)) : c = '\\' ∧ Pending (spliceLength (c :: rest) - 1) rest := by
  refine ⟨by_contra fun hne => absurd (spliceLength_ne hne rest) h.ne', ?_⟩
  revert h
  unfold spliceLength Pending
  split <;> simp_all [isNewline]

lemma isSpace_newline (h : isNewline c = true) : isSpace c = true := by
  simp only [isNewline, Bool.or_eq_true, beq_iff_eq] at h
  rcases h with rfl | rfl <;> decide

lemma scanOutside_plain (hmark : c ≠ '"') (hquote : c ≠ '\'') (hslash : c ≠ '/') (rest : Text) :
    scanOutside c rest = (false, .outside) := by
  unfold scanOutside
  rw [if_neg (not_or.mpr ⟨hmark, hquote⟩), if_neg fun h => hslash h.1, if_neg fun h => hslash h.1]

lemma scanOutside_newline (h : isNewline c = true) (rest : Text) : scanOutside c rest = (false, .outside) := by
  refine scanOutside_plain ?_ ?_ ?_ rest <;> (rintro rfl; cases h)

lemma scanOutside_mark (hmark : c = '"' ∨ c = '\'') (h : closing c rest = some more) : scanOutside c rest = (false, .literal more) := by
  unfold scanOutside
  rw [if_pos hmark, h]

lemma follows_step (hsplice : ¬(m.splices = true ∧ 0 < spliceLength (c :: rest)))
    (hregular : regularFrom (m.step c (peek rest)).2 0 rest = true)
    (hplace : (m.step c (peek rest)).1 = .comment → (scanStep scan c rest).1 = true ∨ isSpace c = true)
    (hrelated : rest = [] ∨ Related (scanStep scan c rest).2 (m.step c (peek rest)).2 0 rest) : Follows scan m 0 c rest := by
  refine ⟨_, _, 0, ?_, hregular, hplace, hrelated⟩
  conv_lhs => unfold placesFrom
  rw [if_neg hsplice]

lemma mark_related (hmark : c = '"' ∨ c = '\'') {after : Mode} (hopened : Opened after)
    (hinside : ∀ more, Inside after rest more → closing c rest = some more) (hregular : regularFrom after 0 rest = true) :
    Related (scanOutside c rest).2 after 0 rest := by
  obtain ⟨more, hmore⟩ := exists_inside hopened hregular
  rw [scanOutside_mark hmark (hinside more hmore)]
  exact ⟨rfl, hopened, hmore⟩

lemma afterWord_plain (hm : Plain m) (c : Char) (next : Option Char) : Plain (m.afterWord c next) := by
  unfold Mode.afterWord
  cases m with
  | number last separators =>
    dsimp only
    split_ifs
    · exact hm
    · trivial
  | word text =>
    dsimp only
    split_ifs
    · trivial
    · rfl
    · trivial
  | blank =>
    dsimp only
    split_ifs
    · rfl
    · trivial
    · trivial
  | _ => exact absurd hm id

lemma peek_opening {line : Bool} (hregular : regularFrom (.opening line) 0 rest = true) : peek rest = rest.head? := by
  cases rest with
  | nil => rfl
  | cons d rest =>
    refine peek_of_not_splice (Nat.eq_zero_of_not_pos fun hsplice => ?_)
    unfold regularFrom at hregular
    rw [if_pos ⟨rfl, hsplice⟩] at hregular
    cases hregular

lemma peek_head {d : Char} (hd : d ≠ '\\') (h : rest.head? = some d) : peek rest = some d := by
  cases rest with
  | nil => cases h
  | cons e rest =>
    obtain rfl : e = d := Option.some.inj h
    rw [peek_of_not_splice (spliceLength_ne hd rest)]
    rfl

lemma code_related (hm : Plain m) (hregular : regularFrom (m.codeStep c (peek rest)).2 0 rest = true) :
    ((m.codeStep c (peek rest)).1 = .comment → (scanOutside c rest).1 = true) ∧
      (rest = [] ∨ Related (scanOutside c rest).2 (m.codeStep c (peek rest)).2 0 rest) := by
  revert hregular
  unfold Mode.codeStep
  split_ifs with hline hblock hmark hraw hquote
  · obtain ⟨rfl, hnext⟩ := hline
    intro hregular
    have hhead : rest.head? = some '/' := (peek_opening hregular).symm.trans hnext
    have hscan : scanOutside '/' rest = (true, .lineComment) := by simp [scanOutside, hhead]
    rw [hscan]
    exact ⟨fun _ => rfl, .inr ⟨rfl, .inl ⟨rfl, hhead⟩⟩⟩
  · obtain ⟨rfl, hnext⟩ := hblock
    intro hregular
    have hhead : rest.head? = some '*' := (peek_opening hregular).symm.trans hnext
    have hscan : scanOutside '/' rest = (true, .star) := by simp [scanOutside, hhead]
    rw [hscan]
    exact ⟨fun _ => rfl, .inr ⟨rfl, rfl, hhead⟩⟩
  · subst hmark
    intro hregular
    exact ⟨False.elim, .inr (mark_related (.inl rfl) trivial (fun more hmore => hmore) hregular)⟩
  · subst hmark
    intro hregular
    have hopened : ('"' : Char) ≠ '\\' := by decide
    exact ⟨False.elim, .inr (mark_related (.inl rfl) hopened (fun more hmore => hmore) hregular)⟩
  · subst hquote
    cases hseparates : m.separates (peek rest) with
    | none =>
      intro hregular
      refine ⟨fun h => (by cases h), .inr (mark_related (.inr rfl) ?_ (fun more hmore => hmore) hregular)⟩
      exact show ('\'' : Char) ≠ '\\' by decide
    | some separators =>
      intro hregular
      refine ⟨fun h => (by cases h), .inr (mark_related (.inr rfl) ?_ (fun more hmore => hmore.2) hregular)⟩
      cases m with
      | number last count =>
        have heven : count % 2 = 0 := hm
        have hcount : separators = count + 1 := by
          unfold Mode.separates at hseparates
          split_ifs at hseparates
          exact (Option.some.inj hseparates).symm
        change separators % 2 = 1
        omega
      | _ => cases hseparates
  · intro _
    have hscan : scanOutside c rest = (false, .outside) := by
      unfold scanOutside
      rw [if_neg (not_or.mpr ⟨hmark, hquote⟩), if_neg fun h => hline ⟨h.1, peek_head (by decide) h.2⟩,
        if_neg fun h => hblock ⟨h.1, peek_head (by decide) h.2⟩]
    rw [hscan]
    exact ⟨fun h => (by cases h), .inr ⟨afterWord_plain hm c _, pending_zero rest⟩⟩

lemma follows_splice (hsplice : m.splices = true ∧ 0 < spliceLength (c :: rest)) (hregular : regularFrom m 0 (c :: rest) = true)
    (hplace : m.place = .comment → (scanStep scan c rest).1 = true ∨ isSpace c = true)
    (hrelated : rest = [] ∨ Related (scanStep scan c rest).2 m (spliceLength (c :: rest) - 1) rest) : Follows scan m 0 c rest := by
  refine ⟨_, m, _, ?_, ?_, hplace, hrelated⟩
  · conv_lhs => unfold placesFrom
    rw [if_pos hsplice]
  · unfold regularFrom at hregular
    rw [if_pos hsplice, Bool.and_eq_true] at hregular
    exact hregular.2

lemma regular_step (hsplice : ¬(m.splices = true ∧ 0 < spliceLength (c :: rest))) (h : regularFrom m 0 (c :: rest) = true) :
    mayRead m c (peek rest) = true ∧ regularFrom (m.step c (peek rest)).2 0 rest = true := by
  unfold regularFrom at h
  rw [if_neg hsplice, Bool.and_eq_true] at h
  exact h

lemma plain_place (hm : Plain m) : m.place ≠ .comment := by
  cases m with
  | blank | word _ | number _ _ => exact fun h => Place.noConfusion h
  | _ => exact absurd hm id

lemma plain_step (hm : Plain m) (c : Char) (next : Option Char) : m.step c next = m.codeStep c next := by
  cases m with
  | blank | word _ | number _ _ => rfl
  | _ => exact absurd hm id

lemma plain_follows (hm : Plain m) (h : regularFrom m 0 (c :: rest) = true) : Follows .outside m 0 c rest := by
  by_cases hsplice : m.splices = true ∧ 0 < spliceLength (c :: rest)
  · obtain ⟨rfl, hpending⟩ := pending_splice hsplice.2
    refine follows_splice hsplice h (fun hplace => absurd hplace (plain_place hm)) (.inr ?_)
    change Related (scanOutside '\\' rest).2 m _ rest
    rw [scanOutside_plain (by decide) (by decide) (by decide)]
    exact ⟨hm, hpending⟩
  · have hregular := (regular_step hsplice h).2
    rw [plain_step hm] at hregular
    obtain ⟨hplace, hrelated⟩ := code_related hm hregular
    refine follows_step hsplice (regular_step hsplice h).2 ?_ ?_
    · rw [plain_step hm]
      exact fun hcomment => .inl (hplace hcomment)
    · rw [plain_step hm]
      exact hrelated

lemma literal_follows (hm : Opened m) (hinside : Inside m (c :: rest) more) (h : regularFrom m 0 (c :: rest) = true) :
    Follows (.literal more) m 0 c rest := by
  obtain ⟨hsplice, hread, hregular⟩ := regular_opened hm h
  obtain ⟨hplace, ⟨hplain, hend⟩ | ⟨hopened, hgoes⟩⟩ := opened_steps hm hread rest
  · obtain rfl := hinside.unique hend
    exact follows_step hsplice hregular (fun hcomment => absurd hcomment hplace) (.inr ⟨hplain, pending_zero rest⟩)
  · obtain ⟨left, hleft⟩ := exists_inside hopened hregular
    obtain rfl := hinside.unique (hgoes left hleft)
    exact follows_step hsplice hregular (fun hcomment => absurd hcomment hplace) (.inr ⟨rfl, hopened, hleft⟩)

lemma lineComment_follows (hm : m = .opening true ∧ c = '/' ∨ m = .lineComment) (h : regularFrom m 0 (c :: rest) = true) :
    Follows .lineComment m 0 c rest := by
  have hsplice : ¬(m.splices = true ∧ 0 < spliceLength (c :: rest)) := fun hsplice => by
    unfold regularFrom at h
    rw [if_pos hsplice] at h
    rcases hm with ⟨rfl, -⟩ | rfl <;> cases h
  have hregular := (regular_step hsplice h).2
  obtain ⟨rfl, rfl⟩ | rfl := hm
  · exact follows_step hsplice hregular (fun _ => .inl rfl) (.inr ⟨rfl, .inr rfl⟩)
  · by_cases hline : isNewline c = true
    · refine follows_step hsplice hregular (fun _ => .inr (isSpace_newline hline)) (.inr ?_)
      simp only [scanStep, Mode.step, if_pos hline, scanOutside_newline hline]
      exact ⟨trivial, pending_zero rest⟩
    · refine follows_step hsplice hregular (fun _ => .inl ?_) (.inr ?_)
      · simp only [scanStep, if_neg hline]
      · simp only [scanStep, Mode.step, if_neg hline]
        exact ⟨rfl, .inr rfl⟩

lemma star_follows (hstar : c = '*') (h : regularFrom (.opening false) 0 (c :: rest) = true) : Follows .star (.opening false) 0 c rest := by
  subst hstar
  have hsplice : ¬((Mode.opening false).splices = true ∧ 0 < spliceLength ('*' :: rest)) := by
    rw [spliceLength_ne (by decide)]
    exact fun h => absurd h.2 (lt_irrefl 0)
  exact follows_step hsplice (regular_step hsplice h).2 (fun _ => .inl rfl) (.inr ⟨rfl, pending_zero rest, fun h => absurd rfl h⟩)

lemma blockComment_masked (star : Bool) (c : Char) (rest : Text) :
    (scanStep (.blockComment star) c rest).1 = true ∨ isSpace c = true := by
  simp only [scanStep]
  split_ifs with hclose hend
  · exact .inl rfl
  · exact .inr (isSpace_newline (by rw [hend.1]; rfl))
  · exact .inl rfl

lemma blockComment_goes {star : Bool} (hclose : ¬(star = true ∧ c = '/')) {after : Mode} {pending : ℕ}
    (h : Related (.blockComment (c == '*')) after pending rest) :
    rest = [] ∨ Related (scanStep (.blockComment star) c rest).2 after pending rest := by
  by_cases hend : c = '\n' ∧ rest = []
  · exact .inl hend.2
  · simp only [scanStep, if_neg hclose, if_neg hend]
    exact .inr h

lemma blockComment_follows {star : Bool} (h : regularFrom (.blockComment star) 0 (c :: rest) = true) :
    Follows (.blockComment star) (.blockComment star) 0 c rest := by
  by_cases hsplice : (Mode.blockComment star).splices = true ∧ 0 < spliceLength (c :: rest)
  · have hstar : star = false := by
      unfold regularFrom at h
      rw [if_pos hsplice, Bool.and_eq_true, maySplice, Bool.not_eq_true'] at h
      exact h.1
    obtain ⟨rfl, hpending⟩ := pending_splice hsplice.2
    subst hstar
    refine follows_splice hsplice h (fun _ => blockComment_masked false _ rest) (blockComment_goes (by simp) ?_)
    exact ⟨rfl, hpending, fun _ => rfl⟩
  · refine follows_step hsplice (regular_step hsplice h).2 (fun _ => blockComment_masked star c rest) ?_
    by_cases hclose : star = true ∧ c = '/'
    · simp only [scanStep, Mode.step, if_pos hclose]
      exact .inr ⟨trivial, pending_zero rest⟩
    · refine blockComment_goes hclose ?_
      simp only [Mode.step, if_neg hclose]
      exact ⟨rfl, pending_zero rest, fun h => absurd rfl h⟩

lemma pending_follows (hrelated : Related scan m (skipped + 1) (c :: rest)) (h : regularFrom m (skipped + 1) (c :: rest) = true) :
    Follows scan m (skipped + 1) c rest := by
  cases scan with
  | outside =>
    obtain ⟨hline, hpending⟩ := pending_cons hrelated.2
    refine ⟨m.place, m, skipped, rfl, h, fun _ => .inr (isSpace_newline hline), .inr ?_⟩
    simp only [scanStep, scanOutside_newline hline]
    exact ⟨hrelated.1, hpending⟩
  | blockComment star =>
    obtain ⟨rfl, hpending, hstar⟩ := hrelated
    obtain rfl := hstar (Nat.succ_ne_zero skipped)
    obtain ⟨hline, hpending⟩ := pending_cons hpending
    refine ⟨_, _, skipped, rfl, h, fun _ => .inr (isSpace_newline hline), blockComment_goes (by simp) ?_⟩
    have hplain : (c == '*') = false := by
      rw [beq_eq_false_iff_ne]
      rintro rfl
      cases hline
    rw [hplain]
    exact ⟨rfl, hpending, fun _ => rfl⟩
  | literal more => exact absurd hrelated.1 (Nat.succ_ne_zero skipped)
  | lineComment => exact absurd hrelated.1 (Nat.succ_ne_zero skipped)
  | star => exact absurd hrelated.1 (Nat.succ_ne_zero skipped)

lemma related_follows (hrelated : Related scan m skipped (c :: rest)) (h : regularFrom m skipped (c :: rest) = true) :
    Follows scan m skipped c rest := by
  cases skipped with
  | succ skipped => exact pending_follows hrelated h
  | zero =>
    cases scan with
    | outside => exact plain_follows hrelated.1 h
    | literal more => exact literal_follows hrelated.2.1 hrelated.2.2 h
    | lineComment =>
      refine lineComment_follows (hrelated.2.imp (fun hm => ⟨hm.1, ?_⟩) id) h
      exact Option.some.inj hm.2
    | star =>
      obtain ⟨-, rfl, hstar⟩ := hrelated
      exact star_follows (Option.some.inj hstar) h
    | blockComment star =>
      obtain ⟨rfl, -⟩ := hrelated
      exact blockComment_follows h

def Covered (masked : Char × Bool) (placed : Char × Place) : Prop :=
  (!masked.2 && !isSpace masked.1) = true → (isOutsideComment placed.2 && !isSpace placed.1) = true

lemma masks_cover (hrelated : Related scan m skipped cs) (h : regularFrom m skipped cs = true) :
    List.Forall₂ Covered (cs.zip (masksFrom scan cs)) (cs.zip (placesFrom m skipped cs)) := by
  induction cs generalizing scan m skipped with
  | nil => exact .nil
  | cons c rest ih =>
    obtain ⟨place, after, pending, hplaces, hregular, hcovered, hnext⟩ := related_follows hrelated h
    rw [hplaces]
    refine .cons (fun hplain => ?_) ?_
    · simp only [Bool.and_eq_true, Bool.not_eq_true'] at hplain
      simp only [isOutsideComment, Bool.and_eq_true, decide_eq_true_eq, Bool.not_eq_true']
      refine ⟨fun hcomment => ?_, hplain.2⟩
      rcases hcovered hcomment with hmasked | hspace
      · rw [hplain.1] at hmasked
        cases hmasked
      · rw [hplain.2] at hspace
        cases hspace
    · rcases hnext with rfl | hnext
      · exact .nil
      · exact ih hnext hregular

lemma any_of_forall₂ {α β : Type} {p : α → Bool} {q : β → Bool} {as : List α} {bs : List β}
    (h : List.Forall₂ (fun a b => p a = true → q b = true) as bs) (hp : as.any p = true) : bs.any q = true := by
  induction h with
  | nil => exact hp
  | cons hab _ ih =>
    simp only [List.any_cons, Bool.or_eq_true] at hp ⊢
    exact hp.imp hab ih

lemma shows_of_covered {place length : ℕ} {masked : List (Char × Bool)} {placed : List (Char × Place)}
    (h : List.Forall₂ Covered masked placed) (hshows : shows not masked place length = true) :
    shows isOutsideComment placed place length = true :=
  any_of_forall₂ (List.forall₂_take length (List.forall₂_drop place h)) hshows

lemma mem_occurrences {text : Text} {skipped place found : ℕ} (h : found ∈ occurrences cs skipped place text) :
    ∃ i, found = place + i ∧ i < text.length ∧ cs <+: text.drop i := by
  induction text generalizing skipped place with
  | nil => cases skipped <;> cases h
  | cons c rest ih =>
    have later : ∀ {skipped}, found ∈ occurrences cs skipped (place + 1) rest →
        ∃ i, found = place + i ∧ i < (c :: rest).length ∧ cs <+: (c :: rest).drop i := fun h => by
      obtain ⟨i, rfl, hlt, hbegin⟩ := ih h
      exact ⟨i + 1, by omega, Nat.succ_lt_succ hlt, hbegin⟩
    cases skipped with
    | succ skipped => exact later h
    | zero =>
      unfold occurrences at h
      split_ifs at h with hfound
      · rcases List.mem_cons.mp h with rfl | h
        · exact ⟨0, rfl, Nat.succ_pos _, hfound.2⟩
        · exact later h
      · exact later h

end PromptForge.QuotedEvidence
