import Ventilation.Proofs.Formula.Cursor
import Ventilation.Proofs.Formula.Splitting

/-!
# Scanning tokens at byte positions

The scanner of formulas that moves a cursor past one character after another. From every place
between two characters it gives the token that `lex` cuts next, `exists_scansNext`: it stops
between two characters again, behind the token, and has cut nothing for a number but a numeral.
-/

set_option autoImplicit false
set_option relaxedAutoImplicit false

namespace Ventilation.Formula

open Text

/-! ### The scanner -/

namespace Source

variable (text : Source)

/-- The character that stands some characters further on. -/
def peekAt (offset : ℕ) : Step (Option Char) := do
  let rest ← cut (sliceFrom? text (← get).position)
  return rest[offset]?

def advance : Step Unit := do
  match ← text.peekAt 0 with
  | some c => modify (·.past c)
  | none => return

def advanceBy : ℕ → Step Unit
  | 0 => return
  | count + 1 => do
    text.advance
    advanceBy count

def passOver (text : Source) (kind : Char → Bool) : Step Unit := do
  if (← text |>.peekAt 0).any kind then
    text |>.advance
    text |>.passOver kind
partial_fixpoint

/-- Moves past a point and the digits after it. -/
def passFraction : Step Unit := do
  if (← text.peekAt 0) = some '.' then
    text.advance
    text.passOver Char.isDigit

/-- Moves past an exponent, if it has a digit. -/
def passExponent : Step Unit := do
  if (← text.peekAt 0).any fun c => c = 'e' ∨ c = 'E' then
    let signs := if (← text.peekAt 1).any fun c => c = '+' ∨ c = '-' then 1 else 0
    if (← text.peekAt (1 + signs)).any Char.isDigit then
      text.advanceBy (1 + signs)
      text.passOver Char.isDigit

/-- Moves past digits, a fraction and an exponent. -/
def passNumeral : Step Unit := do
  text.passOver Char.isDigit
  text.passFraction
  text.passExponent

def scanNumber : Step Token := do
  let start := (← get).position
  text.passNumeral
  let numeral ← cut (slice? text start (← get).position)
  modify fun s => { s with numerals := numeral :: s.numerals }
  match Binary64.read numeral with
  | some value => return .number value
  | none => throw (.invalidNumber (String.ofList numeral))

def scanIdentifier : Step Token := do
  let start := (← get).position
  text.passOver isIdentifierChar
  let name ← cut (slice? text start (← get).position)
  return .identifier (String.ofList name)

def scanModel : Step Token := do
  text.advance
  let start := (← get).position
  text.passOver (· ≠ ']')
  let stop := (← get).position
  if byteCount text ≤ stop then throw .unterminatedModel
  else
    let body ← cut (slice? text start stop)
    text.advance
    if (trim body).isEmpty then throw .emptyModel
    else return .model (String.ofList (trim body))

def scanMark (token : Token) : Step Token := do
  text.advance
  return token

/-- Scans a character that stands once or twice. -/
def scanDoubled (c : Char) (one two : Token) : Step Token := do
  if (← text.peekAt 1) = some c then
    text.advance
    text.scanMark two
  else text.scanMark one

/-- Scans a token that is no operator and no model. -/
def scanPlain (c : Char) : Step Token := do
  if c.isDigit then text.scanNumber
  else if c = '.' && (← text.peekAt 1).any Char.isDigit then text.scanNumber
  else if c.isAlpha || c = '_' then text.scanIdentifier
  else throw (.unexpectedCharacter c (← get).position)

/-- Scans the token that begins with `c`. -/
def scanFrom (c : Char) : Step Token :=
  if c = '+' then text.scanMark .plus
  else if c = '-' then text.scanMark .minus
  else if c = '*' then text.scanDoubled c .star .doubleStar
  else if c = '/' then text.scanDoubled c .slash .doubleSlash
  else if c = '%' then text.scanMark .percent
  else if c = ',' then text.scanMark .comma
  else if c = '(' then text.scanMark .leftParen
  else if c = ')' then text.scanMark .rightParen
  else if c = '[' then text.scanModel
  else text.scanPlain c

/-- Scans the next token, or the end of the text. -/
def scanToken : Step (Option Token) := do
  text.passOver isBlank
  match ← text.peekAt 0 with
  | none => return none
  | some c => return some (← text.scanFrom c)

end Source

open Source

section

variable {text front rest cs : List Char} {s : Cursor} {c : Char}

theorem runs_peekAt (h : StandsAt text s cs) (offset : ℕ) :
    Runs (peekAt text offset) s (.ok cs[offset]?) s :=
  (Runs.get s).bind ((Runs.cut h s).bind (.pure _ s))

theorem goes_advance (h : StandsAt text s (c :: cs)) : Goes (advance text) s (.ok ⟨⟩) [c] :=
  .look (runs_peekAt h 0) ⟨s.past c, .modify _ s, .past s c⟩

theorem goes_advanceBy (h : StandsAt text s (front ++ rest)) :
    Goes (advanceBy text front.length) s (.ok ⟨⟩) front := by
  induction front generalizing s with
  | nil => exact .pure _ s
  | cons c front ih => exact (goes_advance h).bind fun s' hs' ↦ ih (hs'.standsAt h)

theorem goes_passOver (h : StandsAt text s cs) (kind : Char → Bool) :
    Goes (passOver text kind) s (.ok ⟨⟩) (cs.takeWhile kind) := by
  induction cs generalizing s with
  | nil =>
    rw [passOver]
    exact .look (runs_peekAt h 0) (.pure _ s)
  | cons c cs ih =>
    rw [passOver]
    refine .look (runs_peekAt h 0) ?_
    change Goes (if kind c = true then _ else _) s _ _
    by_cases hc : kind c = true
    · rw [if_pos hc, List.takeWhile_cons_of_pos hc]
      exact (goes_advance h).bind fun s' hs' ↦ ih (hs'.standsAt h)
    · rw [if_neg hc, List.takeWhile_cons_of_neg hc]
      exact .pure _ s

/-! ### Numbers -/

theorem goes_passDigits (h : StandsAt text s cs) :
    Goes (passOver text Char.isDigit) s (.ok ⟨⟩) (cs.take (digitCount cs)) := by
  rw [digitCount, take_takeWhile_length]
  exact goes_passOver h Char.isDigit

theorem goes_passFraction (h : StandsAt text s cs) :
    Goes (passFraction text) s (.ok ⟨⟩) (cs.take (fractionCount cs)) := by
  refine .look (runs_peekAt h 0) ?_
  by_cases hpoint : cs[0]? = some '.'
  · rw [if_pos hpoint]
    obtain ⟨cs, rfl⟩ := List.head?_eq_some_iff.1 (List.head?_eq_getElem?.trans hpoint)
    have htake : ('.' :: cs).take (fractionCount ('.' :: cs)) =
        ['.'] ++ cs.take (digitCount cs) := by
      rw [fractionCount, Nat.add_comm, List.take_succ_cons, List.singleton_append]
    rw [htake]
    exact (goes_advance h).bind fun s' hs' ↦ goes_passDigits (hs'.standsAt h)
  · have hzero : fractionCount cs = 0 := by
      unfold fractionCount
      split
      · exact absurd rfl hpoint
      · rfl
    rw [if_neg hpoint, hzero]
    exact .pure _ s

theorem signCount_eq (cs : List Char) :
    signCount cs = if cs[0]?.any fun c ↦ c = '+' ∨ c = '-' then 1 else 0 := by
  unfold signCount
  split
  · rfl
  · rfl
  · rename_i hplus hminus
    rw [if_neg]
    cases cs with
    | nil => exact Bool.false_ne_true
    | cons c cs =>
      intro hc
      rcases of_decide_eq_true hc with rfl | rfl
      · exact hplus cs rfl
      · exact hminus cs rfl

theorem digitCount_eq_zero_iff : digitCount cs = 0 ↔ ¬ cs[0]?.any Char.isDigit = true := by
  cases cs with
  | nil => exact iff_of_true rfl Bool.false_ne_true
  | cons c cs =>
    change _ ↔ ¬ c.isDigit = true
    by_cases hc : c.isDigit = true
    · rw [digitCount_cons hc]
      simp [hc]
    · rw [digitCount, List.takeWhile_cons_of_neg hc]
      simp [hc]

theorem goes_passExponent (h : StandsAt text s cs) :
    Goes (passExponent text) s (.ok ⟨⟩) (cs.take (exponentCount cs)) := by
  refine .look (runs_peekAt h 0) ?_
  cases cs with
  | nil => exact .pure _ s
  | cons c cs =>
    rw [exponentCount_cons]
    by_cases hc : c = 'e' ∨ c = 'E'
    · rw [if_pos hc]
      change Goes (if decide (c = 'e' ∨ c = 'E') = true then _ else _) s _ _
      rw [if_pos (decide_eq_true hc)]
      refine .look (runs_peekAt h 1) ?_
      rw [List.getElem?_cons_succ, ← signCount_eq]
      dsimp only
      refine .look (runs_peekAt h (1 + signCount cs)) ?_
      have hdigit : (c :: cs)[1 + signCount cs]? = (cs.drop (signCount cs))[0]? := by
        rw [Nat.add_comm, List.getElem?_cons_succ, List.getElem?_drop, Nat.add_zero]
      rw [hdigit]
      by_cases hzero : digitCount (cs.drop (signCount cs)) = 0
      · rw [if_pos hzero, if_neg (digitCount_eq_zero_iff.1 hzero)]
        exact .pure _ s
      · rw [if_neg hzero, if_pos (Decidable.byContradiction fun hnone ↦
          hzero (digitCount_eq_zero_iff.2 hnone)), take_exponent]
        have hle := digitCount_le (cs.drop (signCount cs))
        rw [List.length_drop] at hle
        have hlength : (c :: cs.take (signCount cs)).length = 1 + signCount cs := by
          rw [List.length_cons, List.length_take_of_le (by omega), Nat.add_comm]
        have hparts :
            StandsAt text s ((c :: cs.take (signCount cs)) ++ cs.drop (signCount cs)) := by
          rwa [List.cons_append, List.take_append_drop]
        have hmarks := goes_advanceBy hparts
        rw [hlength] at hmarks
        exact hmarks.bind fun s' hs' ↦ goes_passDigits (hs'.standsAt hparts)
    · rw [if_neg hc]
      change Goes (if decide (c = 'e' ∨ c = 'E') = true then _ else _) s _ _
      rw [if_neg (fun hmark ↦ hc (of_decide_eq_true hmark))]
      exact .pure _ s

theorem goes_passNumeral (h : StandsAt text s cs) :
    Goes (passNumeral text) s (.ok ⟨⟩) (cs.take (numeralCount cs)) := by
  have htail : StandsAt text s (cs.take (digitCount cs) ++ cs.drop (digitCount cs)) := by
    rwa [List.take_append_drop]
  rw [numeralCount_eq, List.take_add, take_tailCount]
  refine (goes_passDigits h).bind fun s' hs' ↦ ?_
  have hdrop := hs'.standsAt htail
  refine (goes_passFraction hdrop).bind fun s'' hs'' ↦ goes_passExponent (hs''.standsAt ?_)
  rwa [List.take_append_drop]

/-- What is cut from the text for a number is a numeral, so it is the text of a number. -/
theorem goes_scanNumber (h : StandsAt text s (c :: cs)) (hc : BeginsNumeral c cs) :
    ∃ l, numberLexeme c cs = .ok l ∧
      Goes (scanNumber text) s (.ok l.token) (c :: cs.take l.more) := by
  obtain ⟨more, hmore, -, hnumeral⟩ := exists_numeralCount_eq hc
  obtain ⟨value, hvalue⟩ := exists_read_of_isNumeral hnumeral
  obtain ⟨s', hruns, hpassed⟩ := goes_passNumeral h
  rw [hmore, List.take_succ_cons] at hpassed
  have hparts : StandsAt text s (c :: cs.take more ++ cs.drop more) := by
    rwa [List.cons_append, List.take_append_drop]
  refine ⟨_, numberLexeme_eq hmore hvalue, _, (Runs.get s).bind (hruns.bind ((Runs.get s').bind
    ((Runs.cut (hpassed.slice hparts) s').bind ((Runs.modify _ s').bind ?_)))),
    hpassed.cutNumeral hnumeral⟩
  rw [hvalue]
  exact .pure _ _

/-! ### The other tokens -/

theorem goes_scanMark (h : StandsAt text s (c :: cs)) (token : Token) :
    Goes (scanMark text token) s (.ok token) [c] :=
  (goes_advance h).bind_pure token

theorem goes_scanIdentifier (h : StandsAt text s (c :: cs)) (hc : isIdentifierChar c = true) :
    Goes (scanIdentifier text) s
      (.ok (.identifier (String.ofList (c :: cs.takeWhile isIdentifierChar))))
      (c :: cs.takeWhile isIdentifierChar) := by
  obtain ⟨s', hruns, hpassed⟩ := goes_passOver h isIdentifierChar
  rw [List.takeWhile_cons_of_pos hc] at hpassed
  have hparts : StandsAt text s
      (c :: cs.takeWhile isIdentifierChar ++ cs.dropWhile isIdentifierChar) := by
    rwa [List.cons_append, List.takeWhile_append_dropWhile]
  exact ⟨s', (Runs.get s).bind (hruns.bind ((Runs.get s').bind
    ((Runs.cut (hpassed.slice hparts) s').bind (.pure _ s')))), hpassed⟩

/-- A scan ends as `lexeme` says, behind the token that it finds. -/
def Scans (m : Step Token) (s : Cursor) (c : Char) (cs : List Char)
    (answer : Except ParseError Lexeme) : Prop :=
  ∃ front, Goes m s (answer.map Lexeme.token) front ∧ front <+: c :: cs ∧
    ∀ l, answer = .ok l → front = c :: cs.take l.more

theorem Scans.ok {m : Step Token} {l : Lexeme}
    (h : Goes m s (.ok l.token) (c :: cs.take l.more)) : Scans m s c cs (.ok l) := by
  refine ⟨_, h, List.cons_prefix_cons.2 ⟨rfl, List.take_prefix _ _⟩, ?_⟩
  rintro _ ⟨⟩
  rfl

theorem Scans.error {m : Step Token} {e : ParseError} (h : Goes m s (.error e) front)
    (hfront : front <+: c :: cs) : Scans m s c cs (.error e) :=
  ⟨front, h, hfront, nofun⟩

theorem Scans.look {α : Type} {m : Step α} {f : α → Step Token} {a : α}
    {answer : Except ParseError Lexeme} (hm : Runs m s (.ok a) s)
    (hf : Scans (f a) s c cs answer) : Scans (m >>= f) s c cs answer := by
  obtain ⟨front, hgoes, hfront⟩ := hf
  exact ⟨front, .look hm hgoes, hfront⟩

theorem scans_scanDoubled (h : StandsAt text s (c :: cs)) (one two : Token) :
    Scans (scanDoubled text c one two) s c cs
      (.ok (if cs.head? = some c then ⟨two, 1⟩ else ⟨one, 0⟩)) := by
  have hpeek : (c :: cs)[1]? = cs.head? := by
    rw [List.getElem?_cons_succ, List.head?_eq_getElem?]
  have hlook := runs_peekAt h 1
  rw [hpeek] at hlook
  refine .ok (.look hlook ?_)
  by_cases hc : cs.head? = some c
  · rw [if_pos hc, if_pos hc]
    obtain ⟨cs, rfl⟩ := List.head?_eq_some_iff.1 hc
    exact (goes_advance h).bind fun s' hs' ↦ goes_scanMark (hs'.standsAt h) two
  · rw [if_neg hc, if_neg hc]
    exact goes_scanMark h one

theorem scans_scanModel (h : StandsAt text s ('[' :: cs)) :
    Scans (scanModel text) s '[' cs (modelLexeme cs) := by
  obtain ⟨atName, hopen, hopened⟩ := goes_advance h
  have hname := hopened.standsAt h
  obtain ⟨atClose, hover, hpassed⟩ := goes_passOver hname (· ≠ ']')
  by_cases hmem : ']' ∈ cs
  · obtain ⟨body, rest, rfl, hbody⟩ := List.eq_append_cons_of_mem hmem
    rw [takeWhile_append_bracket hbody] at hpassed
    have hclose := hpassed.standsAt hname
    obtain ⟨after, hadvance, hclosed⟩ := goes_advance hclose
    rw [modelLexeme_append hbody]
    have hinside : ¬ byteCount text ≤ atClose.position := fun hle ↦
      List.cons_ne_nil _ _ ((byteCount_le_position_iff hclose).1 hle)
    have hwhole : Passed s ('[' :: (body ++ [']'])) after := hopened.trans (hpassed.trans hclosed)
    have hrun : ∀ {answer}, Runs (if (trim body).isEmpty then throw .emptyModel
        else return .model (String.ofList (trim body))) after answer after →
        Runs (scanModel text) s answer after := by
      intro answer hrest
      refine hopen.bind ((Runs.get _).bind (hover.bind ((Runs.get _).bind ?_)))
      rw [if_neg hinside]
      exact (Runs.cut (hpassed.slice hname) _).bind (hadvance.bind hrest)
    by_cases hempty : (trim body).isEmpty = true
    · rw [if_pos hempty] at hrun ⊢
      exact .error ⟨after, hrun (.throw _ _), hwhole⟩ ⟨rest, by simp⟩
    · rw [if_neg hempty] at hrun ⊢
      refine .ok ⟨after, hrun (.pure _ _), ?_⟩
      rwa [take_append_cons]
  · rw [takeWhile_of_not_mem_bracket hmem] at hpassed
    rw [modelLexeme_of_not_mem hmem]
    have hparts : StandsAt text atName (cs ++ []) := by rwa [List.append_nil]
    have hend : byteCount text ≤ atClose.position :=
      (byteCount_le_position_iff (hpassed.standsAt hparts)).2 rfl
    refine .error ⟨atClose, hopen.bind ((Runs.get _).bind (hover.bind ((Runs.get _).bind ?_))),
      hopened.trans hpassed⟩ List.prefix_rfl
    rw [if_pos hend]
    exact .throw _ _

theorem scans_scanPlain (h : StandsAt text s (c :: cs)) (hplain : IsPlain c) :
    Scans (scanPlain text c) s c cs (lexeme s.position c cs) := by
  have hnumber : BeginsNumeral c cs →
      Scans (scanNumber text) s c cs (lexeme s.position c cs) := by
    intro hc
    obtain ⟨l, hl, hgoes⟩ := goes_scanNumber h hc
    rw [lexeme_of_beginsNumeral hc, hl]
    exact .ok hgoes
  unfold scanPlain
  by_cases hdigit : c.isDigit = true
  · rw [if_pos hdigit]
    exact hnumber (.inl hdigit)
  rw [if_neg hdigit]
  refine .look (runs_peekAt h 1) ?_
  have hhead : ((c :: cs)[1]?).any Char.isDigit = cs.head?.any Char.isDigit := by
    rw [List.getElem?_cons_succ, List.head?_eq_getElem?]
  rw [hhead]
  by_cases hpoint : (c = '.' && cs.head?.any Char.isDigit) = true
  · rw [if_pos hpoint]
    exact hnumber (beginsNumeral_iff.1 (by rw [hpoint, Bool.or_true]))
  have hnone : ¬ (c.isDigit || (c = '.' && cs.head?.any Char.isDigit)) = true := by
    rw [Bool.or_eq_true]
    exact not_or.2 ⟨hdigit, hpoint⟩
  rw [if_neg hpoint, lexeme_of_plain hplain, if_neg hnone]
  by_cases hname : (c.isAlpha || c = '_') = true
  · rw [if_pos hname, if_pos hname]
    have hbegins : BeginsName c := by simpa [BeginsName] using hname
    refine .ok ?_
    rw [take_takeWhile_length]
    exact goes_scanIdentifier h (isIdentifierChar_of_beginsName hbegins)
  · rw [if_neg hname, if_neg hname]
    exact .error (.look (.get s) (.throw _ s)) List.nil_prefix

theorem scans_scanFrom (h : StandsAt text s (c :: cs)) :
    Scans (scanFrom text c) s c cs (lexeme s.position c cs) := by
  by_cases hmark : ∃ token, Mark c token
  · obtain ⟨token, hmark⟩ := hmark
    rw [lexeme_of_mark hmark]
    have hscan : scanFrom text c = scanMark text token := by cases hmark <;> rfl
    rw [hscan]
    exact .ok (goes_scanMark h token)
  by_cases hdoubled : ∃ one two, Doubled c one two
  · obtain ⟨one, two, hdoubled⟩ := hdoubled
    rw [lexeme_of_doubled hdoubled]
    have hscan : scanFrom text c = scanDoubled text c one two := by cases hdoubled <;> rfl
    rw [hscan]
    exact scans_scanDoubled h one two
  by_cases hbracket : c = '['
  · subst hbracket
    exact scans_scanModel h
  have hplain : IsPlain c :=
    ⟨not_exists.1 hmark, fun one two h ↦ hdoubled ⟨one, two, h⟩, hbracket⟩
  have hscan : scanFrom text c = scanPlain text c := by
    unfold scanFrom
    rw [if_neg (hplain.ne (by decide)), if_neg (hplain.ne (by decide)),
      if_neg (hplain.ne (by decide)), if_neg (hplain.ne (by decide)),
      if_neg (hplain.ne (by decide)), if_neg (hplain.ne (by decide)),
      if_neg (hplain.ne (by decide)), if_neg (hplain.ne (by decide)),
      if_neg (hplain.ne (by decide))]
  rw [hscan]
  exact scans_scanPlain h hplain

/-! ### The next token -/

/-- The first token of a text that was cut, none at its end. -/
def Lexed.first : Lexed → Except ParseError (Option Token)
  | ⟨token :: _, _⟩ => .ok (some token)
  | ⟨[], some fault⟩ => .error fault
  | ⟨[], none⟩ => .ok none

theorem isLexical_of_first {position : ℕ} {e : ParseError}
    (h : (lex position cs).first = .error e) : e.IsLexical := by
  have hfault : (lex position cs).fault = some e := by
    generalize lex position cs = lexed at h
    obtain ⟨_ | ⟨token, tokens⟩, _ | fault⟩ := lexed
    · cases h
    · exact congrArg some (Except.error.inj h)
    · cases h
    · cases h
  exact isLexical_of_lex hfault

theorem lex_dropWhile (position : ℕ) (cs : List Char) :
    lex position cs =
      lex (position + byteCount (cs.takeWhile isBlank)) (cs.dropWhile isBlank) := by
  induction cs generalizing position with
  | nil => rfl
  | cons c cs ih =>
    by_cases hc : isBlank c = true
    · rw [lex_blank hc, ih, List.takeWhile_cons_of_pos hc, List.dropWhile_cons_of_pos hc, byteCount,
        Nat.add_assoc]
    · rw [List.takeWhile_cons_of_neg hc, List.dropWhile_cons_of_neg hc]
      rfl

theorem lex_nil (position : ℕ) : lex position [] = ⟨[], none⟩ := by
  rw [lex]

theorem lex_of_error {position : ℕ} {e : ParseError} (hc : ¬ isBlank c = true)
    (h : lexeme position c cs = .error e) : lex position (c :: cs) = ⟨[], some e⟩ := by
  rw [lex, if_neg hc, h]

theorem lex_of_ok {position : ℕ} {l : Lexeme} (hc : ¬ isBlank c = true)
    (h : lexeme position c cs = .ok l) : lex position (c :: cs) =
      ⟨l.token :: (lex (position + byteCount (c :: cs.take l.more)) (cs.drop l.more)).tokens,
        (lex (position + byteCount (c :: cs.take l.more)) (cs.drop l.more)).fault⟩ := by
  rw [lex, if_neg hc, h]

/-- A scan from `s` takes `front` off the text behind the cursor and ends at `s'`, with the first of
the tokens into which that text is cut. It takes a character at least for a token, and what is left
is cut in the same way. -/
structure ScansNext (text : List Char) (s : Cursor) (cs front rest : List Char) (lexed : Lexed)
    (s' : Cursor) : Prop where
  parts : cs = front ++ rest
  passed : Passed s front s'
  runs : Runs (scanToken text) s lexed.first s'
  progress : ∀ token, lexed.first = .ok (some token) → front ≠ [] ∧
    lexed = ⟨token :: (lex s'.position rest).tokens, (lex s'.position rest).fault⟩

/-- From every place between two characters the next token is scanned. -/
theorem exists_scansNext (h : StandsAt text s cs) :
    ∃ front rest s', ScansNext text s cs front rest (lex s.position cs) s' := by
  obtain ⟨s', hover, hblanks⟩ := goes_passOver h isBlank
  have hsplit := List.takeWhile_append_dropWhile (p := isBlank) (l := cs)
  have hstands : StandsAt text s' (cs.dropWhile isBlank) :=
    hblanks.standsAt (by rwa [hsplit])
  rw [lex_dropWhile, ← hblanks.position]
  generalize hrest : cs.dropWhile isBlank = rest at hstands hsplit ⊢
  cases rest with
  | nil =>
    rw [lex_nil]
    exact ⟨_, [], s', hsplit.symm, hblanks,
      hover.bind ((runs_peekAt hstands 0).bind (.pure _ s')), nofun⟩
  | cons c rest =>
    have hc : ¬ isBlank c = true := by
      have hhead := List.head?_dropWhile_not isBlank cs
      rw [hrest] at hhead
      exact Bool.eq_false_iff.1 hhead
    obtain ⟨front, ⟨s'', hruns, hpassed⟩, ⟨back, hback⟩, hfront⟩ := scans_scanFrom hstands
    have hparts : cs = cs.takeWhile isBlank ++ front ++ back := by
      rw [List.append_assoc, hback, hsplit]
    cases hl : lexeme s'.position c rest with
    | error e =>
      rw [hl] at hruns
      rw [lex_of_error hc hl]
      exact ⟨_, back, s'', hparts, hblanks.trans hpassed,
        hover.bind ((runs_peekAt hstands 0).bind hruns.bind_error), nofun⟩
    | ok l =>
      rw [hl] at hruns
      rw [lex_of_ok hc hl]
      refine ⟨_, back, s'', hparts, hblanks.trans hpassed,
        hover.bind ((runs_peekAt hstands 0).bind (hruns.bind (.pure _ s''))), ?_⟩
      rintro _ ⟨⟩
      obtain rfl := hfront l hl
      have hdrop : back = rest.drop l.more :=
        List.append_cancel_left (hback.trans (by rw [List.cons_append, List.take_append_drop]))
      rw [hpassed.position, hdrop]
      exact ⟨List.append_ne_nil_of_right_ne_nil _ (List.cons_ne_nil _ _), rfl⟩

end

end Ventilation.Formula
