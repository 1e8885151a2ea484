import Ventilation.Proofs.Formula.Numerals

/-!
# Splitting a text into tokens

How each token is spelled, and what it is to split a text into tokens that are each as long as they
can be. `lex` finds the splits and nothing else, `lex_eq_iff_splits`, so a text has at most one.
-/

set_option autoImplicit false
set_option relaxedAutoImplicit false

namespace Ventilation.Formula

open Text

/-- How a name begins. -/
def BeginsName (c : Char) : Prop := c.isAlpha = true ∨ c = '_'

/-- An ASCII letter or an underscore, and more of those and digits. -/
def IsIdentifier (cs : List Char) : Prop :=
  ∃ c rest, cs = c :: rest ∧ BeginsName c ∧ ∀ d ∈ rest, isIdentifierChar d = true

/-- The tokens that are spelled by a character which begins no other token. -/
inductive Mark : Char → Token → Prop
  | plus : Mark '+' .plus
  | minus : Mark '-' .minus
  | percent : Mark '%' .percent
  | comma : Mark ',' .comma
  | leftParen : Mark '(' .leftParen
  | rightParen : Mark ')' .rightParen

/-- The tokens that are spelled by a character once and twice. -/
inductive Doubled : Char → Token → Token → Prop
  | star : Doubled '*' .star .doubleStar
  | slash : Doubled '/' .slash .doubleSlash

/-- The texts of a token. -/
inductive Spells : List Char → Token → Prop
  | number {cs : List Char} {value : Float} (h : IsNumeral cs)
    (hvalue : Binary64.read cs = some value) : Spells cs (.number value)
  | identifier {cs : List Char} (h : IsIdentifier cs) : Spells cs (.identifier (String.ofList cs))
  | model {body : List Char} (hbody : ']' ∉ body) (hname : trim body ≠ []) :
    Spells ('[' :: (body ++ [']'])) (.model (String.ofList (trim body)))
  | mark {c : Char} {token : Token} (h : Mark c token) : Spells [c] token
  | single {c : Char} {one two : Token} (h : Doubled c one two) : Spells [c] one
  | double {c : Char} {one two : Token} (h : Doubled c one two) : Spells [c, c] two

/-- At the front of `cs` no token is longer than `spelling`. -/
def IsLongest (spelling cs : List Char) : Prop :=
  ∀ longer token, Spells longer token → longer <+: cs → longer.length ≤ spelling.length

/-- A text is its blanks and its tokens, where each token is the longest at its place. -/
inductive Splits : List Char → List Token → Prop
  | nil : Splits [] []
  | blank {c : Char} {cs : List Char} {tokens : List Token} (hc : isBlank c = true)
    (h : Splits cs tokens) : Splits (c :: cs) tokens
  | token {spelling rest : List Char} {token : Token} {tokens : List Token}
    (hspells : Spells spelling token) (hlongest : IsLongest spelling (spelling ++ rest))
    (h : Splits rest tokens) : Splits (spelling ++ rest) (token :: tokens)

/-! ### The lexeme of a first character -/

section

variable {c : Char} {cs : List Char}

theorem lexeme_of_mark {token : Token} (h : Mark c token) (position : Nat) (cs : List Char) :
    lexeme position c cs = .ok ⟨token, 0⟩ := by
  cases h <;> rfl

theorem lexeme_of_doubled {one two : Token} (h : Doubled c one two) (position : Nat)
    (cs : List Char) :
    lexeme position c cs = .ok (if cs.head? = some c then ⟨two, 1⟩ else ⟨one, 0⟩) := by
  cases h <;> rfl

theorem isIdentifierChar_of_beginsName (h : BeginsName c) : isIdentifierChar c = true := by
  unfold isIdentifierChar Char.isAlphanum
  rcases h with halpha | rfl
  · rw [halpha]
    rfl
  · rfl

theorem isIdentifierChar_of_isIdentifier (h : IsIdentifier cs) (hc : c ∈ cs) :
    isIdentifierChar c = true := by
  obtain ⟨d, rest, rfl, hname, hrest⟩ := h
  rcases List.mem_cons.1 hc with rfl | hc
  · exact isIdentifierChar_of_beginsName hname
  · exact hrest c hc

/-- A character that stands for no operator and opens no model. -/
def IsPlain (c : Char) : Prop :=
  (∀ token, ¬ Mark c token) ∧ (∀ one two, ¬ Doubled c one two) ∧ c ≠ '['

theorem IsPlain.ne (h : IsPlain c) {d : Char}
    (hd : d ∈ ['+', '-', '*', '/', '%', ',', '(', ')', '[']) : c ≠ d := by
  obtain ⟨hmark, hdoubled, hbracket⟩ := h
  rintro rfl
  simp only [List.mem_cons, List.not_mem_nil, or_false] at hd
  rcases hd with rfl | rfl | rfl | rfl | rfl | rfl | rfl | rfl | rfl
  · exact hmark _ .plus
  · exact hmark _ .minus
  · exact hdoubled _ _ .star
  · exact hdoubled _ _ .slash
  · exact hmark _ .percent
  · exact hmark _ .comma
  · exact hmark _ .leftParen
  · exact hmark _ .rightParen
  · exact hbracket rfl

theorem lexeme_of_plain (h : IsPlain c) (position : Nat) (cs : List Char) :
    lexeme position c cs =
      if c.isDigit || (c = '.' && cs.head?.any Char.isDigit) then numberLexeme c cs
      else if c.isAlpha || c = '_' then
        .ok ⟨.identifier (String.ofList (c :: cs.takeWhile isIdentifierChar)),
          (cs.takeWhile isIdentifierChar).length⟩
      else .error (.unexpectedCharacter c position) := by
  unfold lexeme
  rw [if_neg (h.ne (by decide)), if_neg (h.ne (by decide)), if_neg (h.ne (by decide)),
    if_neg (h.ne (by decide)), if_neg (h.ne (by decide)), if_neg (h.ne (by decide)),
    if_neg (h.ne (by decide)), if_neg (h.ne (by decide)), if_neg (h.ne (by decide))]

theorem isPlain_of_beginsNumeral (h : BeginsNumeral c cs) : IsPlain c := by
  refine ⟨fun token hmark ↦ ?_, fun one two hdoubled ↦ ?_, ?_⟩
  · cases hmark <;> simp [BeginsNumeral] at h
  · cases hdoubled <;> simp [BeginsNumeral] at h
  · rintro rfl
    simp [BeginsNumeral] at h

theorem beginsNumeral_iff :
    (c.isDigit || (c = '.' && cs.head?.any Char.isDigit)) = true ↔ BeginsNumeral c cs := by
  simp [BeginsNumeral]

theorem lexeme_of_beginsNumeral (h : BeginsNumeral c cs) (position : Nat) :
    lexeme position c cs = numberLexeme c cs := by
  rw [lexeme_of_plain (isPlain_of_beginsNumeral h), if_pos (beginsNumeral_iff.2 h)]

theorem isPlain_of_beginsName (h : BeginsName c) : IsPlain c := by
  refine ⟨fun token hmark ↦ ?_, fun one two hdoubled ↦ ?_, ?_⟩
  · cases hmark <;> simp [BeginsName] at h
  · cases hdoubled <;> simp [BeginsName] at h
  · rintro rfl
    simp [BeginsName] at h

theorem not_beginsNumeral_of_beginsName (h : BeginsName c) (cs : List Char) :
    ¬ BeginsNumeral c cs := by
  rintro (hdigit | ⟨rfl, -⟩)
  · have hrange : 48 ≤ c.toNat ∧ c.toNat ≤ 57 := Char.isDigit_iff_toNat.1 hdigit
    rcases h with halpha | rfl
    · have halpha := isAlpha_iff.1 halpha
      omega
    · exact absurd hrange.2 (by decide)
  · simp [BeginsName] at h

theorem lexeme_of_beginsName (h : BeginsName c) (position : Nat) (cs : List Char) :
    lexeme position c cs =
      .ok ⟨.identifier (String.ofList (c :: cs.takeWhile isIdentifierChar)),
        (cs.takeWhile isIdentifierChar).length⟩ := by
  have hname : (c.isAlpha || c = '_') = true := by simpa [BeginsName] using h
  rw [lexeme_of_plain (isPlain_of_beginsName h),
    if_neg (fun hc ↦ not_beginsNumeral_of_beginsName h cs (beginsNumeral_iff.1 hc)), if_pos hname]

/-! ### Lexemes are spelled -/

/-- A token and how many characters it takes after its first one `c`. -/
def Taken (c : Char) (cs : List Char) (l : Lexeme) : Prop :=
  l.more ≤ cs.length ∧ Spells (c :: cs.take l.more) l.token

theorem takeWhile_append_bracket {body : List Char} (hbody : ']' ∉ body) (rest : List Char) :
    (body ++ ']' :: rest).takeWhile (· ≠ ']') = body := by
  have hne : ∀ d ∈ body, decide (d ≠ ']') = true := by
    rintro d hd
    exact decide_eq_true fun heq ↦ hbody (heq ▸ hd)
  rw [List.takeWhile_append_of_pos hne, List.takeWhile_cons_of_neg (by simp), List.append_nil]

theorem takeWhile_of_not_mem_bracket (h : ']' ∉ cs) : cs.takeWhile (· ≠ ']') = cs :=
  List.takeWhile_eq_self_iff.2 fun _ hd ↦ decide_eq_true fun heq ↦ h (heq ▸ hd)

theorem modelLexeme_append {body : List Char} (hbody : ']' ∉ body) (rest : List Char) :
    modelLexeme (body ++ ']' :: rest) =
      if (trim body).isEmpty then .error .emptyModel
      else .ok ⟨.model (String.ofList (trim body)), body.length + 1⟩ := by
  unfold modelLexeme
  simp only [takeWhile_append_bracket hbody]
  rw [if_neg]
  rw [List.length_append, List.length_cons]
  omega

theorem modelLexeme_of_not_mem (h : ']' ∉ cs) : modelLexeme cs = .error .unterminatedModel := by
  unfold modelLexeme
  simp only [takeWhile_of_not_mem_bracket h, if_true]

theorem take_append_cons (front : List Char) (c : Char) (back : List Char) :
    (front ++ c :: back).take (front.length + 1) = front ++ [c] := by
  rw [List.take_length_add_append, List.take_succ_cons, List.take_zero]

theorem taken_of_modelLexeme {l : Lexeme} (h : modelLexeme cs = .ok l) : Taken '[' cs l := by
  by_cases hmem : ']' ∈ cs
  · obtain ⟨body, rest, rfl, hbody⟩ := List.eq_append_cons_of_mem hmem
    rw [modelLexeme_append hbody] at h
    split at h
    · cases h
    · rename_i hname
      obtain rfl := Except.ok.inj h
      refine ⟨?_, ?_⟩
      · rw [List.length_append, List.length_cons]
        exact Nat.add_le_add_left (Nat.succ_pos _) _
      · rw [take_append_cons]
        exact .model hbody fun hnil ↦ hname (List.isEmpty_iff.2 hnil)
  · rw [modelLexeme_of_not_mem hmem] at h
    cases h

theorem numberLexeme_eq {more : ℕ} {value : Float} (hmore : numeralCount (c :: cs) = more + 1)
    (hvalue : Binary64.read (c :: cs.take more) = some value) :
    numberLexeme c cs = .ok ⟨.number value, more⟩ := by
  unfold numberLexeme
  rw [hmore, Nat.add_sub_cancel]
  simp only [hvalue]

theorem taken_of_numberLexeme {l : Lexeme} (hc : BeginsNumeral c cs)
    (h : numberLexeme c cs = .ok l) : Taken c cs l := by
  obtain ⟨more, hmore, hle, hnumeral⟩ := exists_numeralCount_eq hc
  obtain ⟨value, hvalue⟩ := exists_read_of_isNumeral hnumeral
  rw [numberLexeme_eq hmore hvalue] at h
  obtain rfl := Except.ok.inj h
  exact ⟨hle, .number hnumeral hvalue⟩

theorem taken_of_beginsName (h : BeginsName c) (cs : List Char) :
    Taken c cs ⟨.identifier (String.ofList (c :: cs.takeWhile isIdentifierChar)),
      (cs.takeWhile isIdentifierChar).length⟩ := by
  refine ⟨(List.takeWhile_prefix _).length_le, ?_⟩
  rw [take_takeWhile_length]
  exact .identifier ⟨c, _, rfl, h, fun d hd ↦ List.mem_takeWhile_imp hd⟩

theorem taken_of_lexeme {position : Nat} {l : Lexeme} (h : lexeme position c cs = .ok l) :
    Taken c cs l := by
  by_cases hmark : ∃ token, Mark c token
  · obtain ⟨token, hmark⟩ := hmark
    rw [lexeme_of_mark hmark] at h
    obtain rfl := Except.ok.inj h
    exact ⟨Nat.zero_le _, .mark hmark⟩
  by_cases hdoubled : ∃ one two, Doubled c one two
  · obtain ⟨one, two, hdoubled⟩ := hdoubled
    rw [lexeme_of_doubled hdoubled] at h
    by_cases hhead : cs.head? = some c
    · rw [if_pos hhead] at h
      obtain rfl := Except.ok.inj h
      obtain ⟨rest, rfl⟩ := List.head?_eq_some_iff.1 hhead
      exact ⟨Nat.le_add_left 1 _, .double hdoubled⟩
    · rw [if_neg hhead] at h
      obtain rfl := Except.ok.inj h
      exact ⟨Nat.zero_le _, .single hdoubled⟩
  by_cases hbracket : c = '['
  · subst hbracket
    exact taken_of_modelLexeme h
  -- what is left begins a number or a name, or nothing
  rw [lexeme_of_plain ⟨not_exists.1 hmark, fun one two h ↦ hdoubled ⟨one, two, h⟩, hbracket⟩] at h
  split at h
  · rename_i hc
    exact taken_of_numberLexeme (beginsNumeral_iff.1 hc) h
  · split at h
    · rename_i hname
      obtain rfl := Except.ok.inj h
      exact taken_of_beginsName (by simpa [BeginsName] using hname) cs
    · cases h

/-! ### Faults -/

/-- Why a text is cut no further. That a number is invalid is no reason. -/
inductive ParseError.IsLexical : ParseError → Prop
  | unexpectedCharacter (c : Char) (position : ℕ) : IsLexical (.unexpectedCharacter c position)
  | unterminatedModel : IsLexical .unterminatedModel
  | emptyModel : IsLexical .emptyModel

theorem isLexical_of_modelLexeme {e : ParseError} (h : modelLexeme cs = .error e) :
    e.IsLexical := by
  by_cases hmem : ']' ∈ cs
  · obtain ⟨body, rest, rfl, hbody⟩ := List.eq_append_cons_of_mem hmem
    rw [modelLexeme_append hbody] at h
    split at h
    · cases h
      exact .emptyModel
    · cases h
  · rw [modelLexeme_of_not_mem hmem] at h
    cases h
    exact .unterminatedModel

theorem isLexical_of_lexeme {position : Nat} {e : ParseError}
    (h : lexeme position c cs = .error e) : e.IsLexical := by
  by_cases hmark : ∃ token, Mark c token
  · obtain ⟨token, hmark⟩ := hmark
    rw [lexeme_of_mark hmark] at h
    cases h
  by_cases hdoubled : ∃ one two, Doubled c one two
  · obtain ⟨one, two, hdoubled⟩ := hdoubled
    rw [lexeme_of_doubled hdoubled] at h
    cases h
  by_cases hbracket : c = '['
  · subst hbracket
    exact isLexical_of_modelLexeme h
  rw [lexeme_of_plain ⟨not_exists.1 hmark, fun one two h ↦ hdoubled ⟨one, two, h⟩, hbracket⟩] at h
  split at h
  · rename_i hc
    obtain ⟨more, hmore, -, hnumeral⟩ := exists_numeralCount_eq (beginsNumeral_iff.1 hc)
    obtain ⟨value, hvalue⟩ := exists_read_of_isNumeral hnumeral
    rw [numberLexeme_eq hmore hvalue] at h
    cases h
  · split at h
    · cases h
    · cases h
      exact .unexpectedCharacter c position

/-! ### The lexeme is the longest -/

/-- A lexeme is found that takes at least the characters `more`, and stands for `token` if it takes
no others. -/
def Reaches (result : Except ParseError Lexeme) (more : List Char) (token : Token) : Prop :=
  ∃ l, result = .ok l ∧ more.length ≤ l.more ∧ (more.length = l.more → l.token = token)

theorem beginsNumeral_append (h : BeginsNumeral c cs) (rest : List Char) :
    BeginsNumeral c (cs ++ rest) := by
  rcases h with hc | ⟨hc, hdigit⟩
  · exact .inl hc
  · cases cs with
    | nil => cases hdigit
    | cons d cs => exact .inr ⟨hc, hdigit⟩

theorem beginsName_of_isIdentifier (h : IsIdentifier (c :: cs)) :
    BeginsName c ∧ ∀ d ∈ cs, isIdentifierChar d = true := by
  obtain ⟨_, _, heq, hname, hrest⟩ := h
  obtain ⟨rfl, rfl⟩ := List.cons.inj heq
  exact ⟨hname, hrest⟩

theorem reaches_numeral {more rest : List Char} {value : Float} (h : IsNumeral (c :: more))
    (hvalue : Binary64.read (c :: more) = some value) (position : Nat) :
    Reaches (lexeme position c (more ++ rest)) more (.number value) := by
  have hbegins := beginsNumeral_append (beginsNumeral_of_isNumeral h) rest
  obtain ⟨count, hcount, -, hnumeral⟩ := exists_numeralCount_eq hbegins
  obtain ⟨value', hvalue'⟩ := exists_read_of_isNumeral hnumeral
  have hle := length_le_numeralCount h (List.prefix_append (c :: more) rest)
  refine ⟨_, (lexeme_of_beginsNumeral hbegins position).trans (numberLexeme_eq hcount hvalue'),
    ?_, ?_⟩
  · rw [List.cons_append, hcount] at hle
    exact Nat.le_of_succ_le_succ hle
  · rintro rfl
    rw [List.take_left, hvalue] at hvalue'
    rw [Option.some.inj hvalue']

theorem reaches_identifier {more rest : List Char} (h : IsIdentifier (c :: more)) (position : Nat) :
    Reaches (lexeme position c (more ++ rest)) more (.identifier (String.ofList (c :: more))) := by
  obtain ⟨hname, hmore⟩ := beginsName_of_isIdentifier h
  have htake : (more ++ rest).takeWhile isIdentifierChar =
      more ++ rest.takeWhile isIdentifierChar := List.takeWhile_append_of_pos hmore
  refine ⟨_, lexeme_of_beginsName hname position _, ?_, ?_⟩
  · rw [htake, List.length_append]
    exact Nat.le_add_right _ _
  · intro (hlength : more.length = ((more ++ rest).takeWhile isIdentifierChar).length)
    rw [htake, List.length_append] at hlength
    have hnil : rest.takeWhile isIdentifierChar = [] := List.eq_nil_of_length_eq_zero (by omega)
    rw [htake, hnil, List.append_nil]

theorem reaches_lexeme {more : List Char} {token : Token} (h : Spells (c :: more) token)
    (rest : List Char) (position : Nat) :
    Reaches (lexeme position c (more ++ rest)) more token := by
  cases h with
  | number h hvalue => exact reaches_numeral h hvalue position
  | identifier h => exact reaches_identifier h position
  | @model body hbody hname =>
    have hmodel := modelLexeme_append hbody rest
    rw [if_neg fun hempty ↦ hname (List.isEmpty_iff.1 hempty)] at hmodel
    rw [List.append_assoc, List.singleton_append]
    refine ⟨_, hmodel, ?_, fun _ ↦ rfl⟩
    rw [List.length_append, List.length_singleton]
  | mark hmark => exact ⟨_, lexeme_of_mark hmark _ _, Nat.le_refl 0, fun _ ↦ rfl⟩
  | single hdoubled =>
    refine ⟨_, lexeme_of_doubled hdoubled _ _, Nat.zero_le _, ?_⟩
    intro hlength
    split at hlength
    · cases hlength
    · rw [if_neg ‹_›]
  | double hdoubled =>
    refine ⟨_, (lexeme_of_doubled hdoubled _ _).trans (congrArg _ (if_pos rfl)), Nat.le_refl 1, ?_⟩
    exact fun _ ↦ rfl

theorem ne_nil_of_spells {spelling : List Char} {token : Token} (h : Spells spelling token) :
    spelling ≠ [] := by
  cases h with
  | number h _ =>
    obtain ⟨c, rest, rfl, -⟩ := exists_cons_of_isNumeral h
    exact List.cons_ne_nil c rest
  | identifier h =>
    obtain ⟨c, rest, rfl, -⟩ := h
    exact List.cons_ne_nil c rest
  | model _ _ => exact List.cons_ne_nil _ _
  | mark _ => exact List.cons_ne_nil _ _
  | single _ => exact List.cons_ne_nil _ _
  | double _ => exact List.cons_ne_nil _ _

/-- What is taken for a token is as long as a token can be. -/
theorem isLongest_of_lexeme {position : Nat} {l : Lexeme} (h : lexeme position c cs = .ok l) :
    IsLongest (c :: cs.take l.more) (c :: cs) := by
  intro longer token hspells hinitial
  obtain ⟨d, more, rfl⟩ := List.exists_cons_of_ne_nil (ne_nil_of_spells hspells)
  obtain ⟨rest, hrest⟩ := hinitial
  obtain ⟨rfl, rfl⟩ := List.cons.inj hrest
  obtain ⟨l', hl', hle, -⟩ := reaches_lexeme hspells rest position
  obtain rfl := Except.ok.inj (hl'.symm.trans h)
  rw [List.length_cons, List.length_cons, List.length_take_of_le (taken_of_lexeme h).1]
  exact Nat.succ_le_succ hle

/-- The longest token is what is taken. -/
theorem lexeme_of_isLongest {more rest : List Char} {token : Token} (h : Spells (c :: more) token)
    (hlongest : IsLongest (c :: more) (c :: (more ++ rest))) (position : Nat) :
    lexeme position c (more ++ rest) = .ok ⟨token, more.length⟩ := by
  obtain ⟨l, hl, hle, htoken⟩ := reaches_lexeme h rest position
  obtain ⟨hmore, hspells⟩ := taken_of_lexeme hl
  have hinitial : c :: (more ++ rest).take l.more <+: c :: (more ++ rest) :=
    List.cons_prefix_cons.2 ⟨rfl, List.take_prefix _ _⟩
  have hge := hlongest _ _ hspells hinitial
  rw [List.length_cons, List.length_cons, List.length_take_of_le hmore] at hge
  have hlength : more.length = l.more := Nat.le_antisymm hle (Nat.le_of_succ_le_succ hge)
  rw [hl, ← htoken hlength, hlength]

/-! ### The splits of a text -/

theorem visible_of_isNumeral (h : IsNumeral cs) (hc : c ∈ cs) : Visible c := by
  rcases mem_of_isNumeral h hc with hdigit | hmark
  · exact visible_of_isDigit hdigit
  · have hmarks : ∀ c ∈ ['.', 'e', 'E', '+', '-'], Visible c := by simp [Visible]
    exact hmarks c hmark

theorem visible_of_isIdentifierChar (h : isIdentifierChar c = true) : Visible c := by
  unfold isIdentifierChar Char.isAlphanum at h
  simp only [Bool.or_eq_true, decide_eq_true_eq] at h
  rcases h with (halpha | hdigit) | rfl
  · exact visible_of_isAlpha halpha
  · exact visible_of_isDigit hdigit
  · decide

theorem visible_of_isIdentifier (h : IsIdentifier cs) (hc : c ∈ cs) : Visible c :=
  visible_of_isIdentifierChar (isIdentifierChar_of_isIdentifier h hc)

/-- No token begins or ends with a blank. -/
theorem isBlank_of_spells {token : Token} (h : Spells cs token)
    (hc : c ∈ cs.head? ∨ c ∈ cs.getLast?) : isBlank c = false := by
  have hmem : c ∈ cs := hc.elim List.mem_of_mem_head? List.mem_of_mem_getLast?
  cases h with
  | number h _ => exact isBlank_of_visible (visible_of_isNumeral h hmem)
  | identifier h => exact isBlank_of_visible (visible_of_isIdentifier h hmem)
  | @model body _ _ =>
    have hlast : ('[' :: (body ++ [']'])).getLast? = some ']' := by
      rw [← List.cons_append, List.getLast?_concat]
    rcases hc with hc | hc
    · obtain rfl := Option.some.inj hc
      decide
    · obtain rfl := Option.some.inj (hlast.symm.trans hc)
      decide
  | mark hmark =>
    obtain rfl := List.mem_singleton.1 hmem
    cases hmark <;> decide
  | single hdoubled =>
    obtain rfl := List.mem_singleton.1 hmem
    cases hdoubled <;> decide
  | @double d one two hdoubled =>
    obtain rfl : c = d := by simpa using hmem
    cases hdoubled <;> decide

theorem lex_blank {position : Nat} (hc : isBlank c = true) :
    lex position (c :: cs) = lex (position + c.utf8Size) cs := by
  rw [lex, if_pos hc]

/-- What passes over blanks and tokens from the rest of a text to the whole of it holds of the text
and how it is cut. -/
theorem lex_induction {motive : List Char → Lexed → Prop} (nil : motive [] ⟨[], none⟩)
    (blank : ∀ c cs lexed, isBlank c = true → motive cs lexed → motive (c :: cs) lexed)
    (fault : ∀ position c cs e, lexeme position c cs = .error e → motive (c :: cs) ⟨[], some e⟩)
    (token : ∀ position c cs l lexed, lexeme position c cs = .ok l →
      motive (cs.drop l.more) lexed → motive (c :: cs) ⟨l.token :: lexed.tokens, lexed.fault⟩)
    (position : Nat) (cs : List Char) : motive cs (lex position cs) := by
  induction hlength : cs.length using Nat.strongRecOn generalizing cs position with
  | ind length ih =>
    subst hlength
    cases cs with
    | nil =>
      rw [lex]
      exact nil
    | cons c cs =>
      by_cases hc : isBlank c = true
      · rw [lex_blank hc]
        exact blank c cs _ hc (ih _ (Nat.lt_succ_self _) _ _ rfl)
      · rw [lex, if_neg hc]
        cases hl : lexeme position c cs with
        | error e => exact fault position c cs e hl
        | ok l =>
          have hshorter : (cs.drop l.more).length < (c :: cs).length := by
            rw [List.length_drop, List.length_cons]
            omega
          exact token position c cs l _ hl (ih _ hshorter _ _ rfl)

theorem isLexical_of_lex {position : Nat} {e : ParseError}
    (h : (lex position cs).fault = some e) : e.IsLexical := by
  revert h
  refine lex_induction (motive := fun _ lexed ↦ lexed.fault = some e → e.IsLexical) ?_ ?_ ?_ ?_
    position cs
  · exact nofun
  · exact fun _ _ _ _ ih ↦ ih
  · rintro position c cs e hl ⟨⟩
    exact isLexical_of_lexeme hl
  · exact fun _ _ _ _ _ _ ih ↦ ih

theorem splits_of_lex {position : Nat} {tokens : List Token}
    (h : lex position cs = ⟨tokens, none⟩) : Splits cs tokens := by
  have hsplits : (lex position cs).fault = none → Splits cs (lex position cs).tokens := by
    refine lex_induction (motive := fun cs lexed ↦ lexed.fault = none → Splits cs lexed.tokens)
      ?_ ?_ ?_ ?_ position cs
    · exact fun _ ↦ .nil
    · exact fun c cs lexed hc ih hfault ↦ .blank hc (ih hfault)
    · exact nofun
    · intro position c cs l lexed hl ih hfault
      have hwhole := Splits.token (taken_of_lexeme hl).2 (by simpa using isLongest_of_lexeme hl)
        (ih hfault)
      rwa [List.cons_append, List.take_append_drop] at hwhole
  rw [h] at hsplits
  exact hsplits rfl

theorem lex_of_splits {tokens : List Token} (h : Splits cs tokens) (position : Nat) :
    lex position cs = ⟨tokens, none⟩ := by
  induction h generalizing position with
  | nil => rw [lex]
  | blank hc _ ih => rw [lex_blank hc, ih]
  | @token spelling rest token tokens hspells hlongest _ ih =>
    obtain ⟨c, more, rfl⟩ := List.exists_cons_of_ne_nil (ne_nil_of_spells hspells)
    have hc : ¬ isBlank c = true := by simp [isBlank_of_spells hspells (.inl rfl)]
    rw [List.cons_append, lex, if_neg hc, lexeme_of_isLongest hspells hlongest]
    simp only [List.drop_left, ih]

/-- The tokens are found to which a text splits. -/
theorem lex_eq_iff_splits (position : Nat) {tokens : List Token} :
    lex position cs = ⟨tokens, none⟩ ↔ Splits cs tokens :=
  ⟨splits_of_lex, fun h ↦ lex_of_splits h position⟩

theorem splits_unique {tokens others : List Token} (h : Splits cs tokens)
    (hothers : Splits cs others) : tokens = others :=
  congrArg Lexed.tokens ((lex_of_splits h 0).symm.trans (lex_of_splits hothers 0))

end

end Ventilation.Formula
