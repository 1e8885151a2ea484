import Ventilation.Proofs.Formula.Language
import Ventilation.Proofs.Formula.Scanning

/-!
# Reading formulas at byte positions

The reader of formulas that scans one token after another off its text, keeps the token it stands
on and counts how deep it is in signed operands. Whatever cursor it starts from, it ends as the
reader of tokens does on those that the cursor faces, `follows_readUnary`, and has kept the log
safe: each position is one between two characters, each scan but the last has moved on, what was cut
for a number is a numeral, and the depth stays within 64 and returns to where it was. So the reader
ends on every text as `parse` does, `exists_runs_readText`.
-/

set_option autoImplicit false
set_option relaxedAutoImplicit false

namespace Ventilation.Formula

open Text

/-! ### The reader -/

/-- The levels of operators whose operands group to the left. -/
inductive OperatorLevel where
  | additive
  | multiplicative

def OperatorLevel.operator : OperatorLevel → Token → Option Operator
  | additive => additive?
  | multiplicative => multiplicative?

namespace Cursor

/-- A token is to be scanned. -/
def scanning (s : Cursor) : Cursor := { s with current := none, scans := s.scans + 1 }

/-- A signed operand is to be read. -/
def enter (s : Cursor) : Cursor :=
  { s with depth := s.depth + 1, depths := (s.depth + 1) :: s.depths }

def leave (s : Cursor) : Cursor :=
  { s with depth := s.depth - 1, depths := (s.depth - 1) :: s.depths }

end Cursor

namespace Source

variable (text : Source)

/-- Scans the token behind the current one. -/
def consume : Step Unit := do
  modify Cursor.scanning
  let token ← text.scanToken
  modify fun s => { s with current := token }

def expect (token : Token) : Step Unit := do
  let s ← get
  if s.current = some token then text.consume
  else throw (.expected token s.current)

mutual

def readExpression (text : Source) : Step Expr := text |>.readLevel .additive
partial_fixpoint

/-- Reads operands of one level with operators between them. -/
def readLevel (text : Source) (l : OperatorLevel) : Step Expr := do
  let left ← text |>.readOperand l
  text |>.readMore l left
partial_fixpoint

def readOperand (text : Source) (l : OperatorLevel) : Step Expr :=
  match l with
  | .additive => text |>.readLevel .multiplicative
  | .multiplicative => text |>.readUnary
partial_fixpoint

/-- Goes on with operators of one level and their right operands. -/
def readMore (text : Source) (l : OperatorLevel) (left : Expr) : Step Expr := do
  match (← get).current.bind l.operator with
  | none => return left
  | some op =>
    text |>.consume
    let right ← text |>.readOperand l
    text |>.readMore l (.binary op left right)
partial_fixpoint

/-- Reads a signed operand, one level deeper whether that fails or not. -/
def readUnary (text : Source) : Step Expr := fun s => do
  if maxNesting ≤ s.depth then return (.error .tooDeep, s)
  else
    let (answer, s') ← (text |>.readSigned).run.run s.enter
    return (answer, s'.leave)
partial_fixpoint

def readSigned (text : Source) : Step Expr := do
  match (← get).current with
  | some .minus => text |>.readSign .negate
  | some .plus => text |>.readSign .plus
  | _ => text |>.readPower
partial_fixpoint

def readSign (text : Source) (sign : Sign) : Step Expr := do
  text |>.consume
  let operand ← text |>.readUnary
  return .sign sign operand
partial_fixpoint

def readPower (text : Source) : Step Expr := do
  let base ← text |>.readPrimary
  if (← get).current = some .doubleStar then
    text |>.consume
    let exponent ← text |>.readUnary
    return .binary .power base exponent
  else return base
partial_fixpoint

def readPrimary (text : Source) : Step Expr := do
  match (← get).current with
  | some (.number value) =>
    text |>.consume
    return .number value
  | some (.model name) =>
    text |>.consume
    return .model name
  | some .leftParen =>
    text |>.consume
    let inner ← text |>.readExpression
    text |>.expect .rightParen
    return inner
  | some (.identifier name) =>
    text |>.consume
    if (← get).current = some .leftParen then text |>.readCall name
    else return nameTree name
  | token => throw (.unexpected token)
partial_fixpoint

def readCall (text : Source) (function : String) : Step Expr := do
  text |>.expect .leftParen
  if (← get).current = some .rightParen then
    text |>.expect .rightParen
    return .call function []
  else
    let args ← text |>.readArguments
    text |>.expect .rightParen
    return .call function args
partial_fixpoint

def readArguments (text : Source) : Step (List Expr) := do
  let first ← text |>.readExpression
  if (← get).current = some .comma then
    text |>.consume
    let others ← text |>.readArguments
    return first :: others
  else return [first]
partial_fixpoint

end

/-- Reads all of the text. -/
def readFormula : Step Expr := do
  text.consume
  let tree ← text.readExpression
  match (← get).current with
  | none => return tree
  | some token => throw (.trailing token)

end Source

open Source

/-! ### What a cursor faces -/

section

variable {text : List Char} {fault : Option ParseError} {d : ℕ} {s s' : Cursor}

/-- What a run keeps: every position is a boundary, a token is scanned at most once for each byte
and once for the end, what is cut for a number is a numeral, and the depth stays within bounds. -/
structure IsSafe (text : List Char) (s : Cursor) : Prop where
  positions : ∀ p ∈ s.positions, IsBoundary text p
  scans : s.scans ≤ byteCount text + 1
  numerals : ∀ numeral ∈ s.numerals, IsNumeral numeral
  depths : ∀ depth ∈ s.depths, depth ≤ maxNesting

/-- The tokens that are still to be read: the current one, and those behind the cursor. -/
def IsAhead (text : List Char) (fault : Option ParseError) (s : Cursor) : List Token → Prop
  | [] => s.current = none ∧ fault = none
  | token :: rest => s.current = some token ∧ s.scans ≤ s.position ∧
    ∃ cs, StandsAt text s cs ∧ lex s.position cs = ⟨rest, fault⟩

structure Faces (text : List Char) (fault : Option ParseError) (d : ℕ) (s : Cursor)
    (tokens : List Token) : Prop where
  isSafe : IsSafe text s
  depth : s.depth = d
  isAhead : IsAhead text fault s tokens

theorem Faces.current {tokens : List Token} (h : Faces text fault d s tokens) :
    s.current = tokens.head? := by
  cases tokens with
  | nil => exact h.isAhead.1
  | cons token rest => exact h.isAhead.1

theorem IsSafe.passed {front rest : List Char} (h : IsSafe text s)
    (hs : StandsAt text s (front ++ rest)) (hpassed : Passed s front s') : IsSafe text s' where
  positions p hp := (hpassed.isBoundary hs hp).elim (h.positions p) id
  scans := hpassed.scans ▸ h.scans
  numerals numeral hnumeral := (hpassed.numerals numeral hnumeral).elim (h.numerals numeral) id
  depths := hpassed.depths ▸ h.depths

/-- A step ends as an answer about tokens says: with its value, before the tokens it leaves. The
answer is never that a number is invalid. -/
def Does (text : List Char) (fault : Option ParseError) (d : ℕ) {α β : Type} (m : Step α)
    (s : Cursor) (answer : Except ParseError β) (value : β → α) (rest : β → List Token) : Prop :=
  ∃ s', Runs m s (answer.map value) s' ∧ IsSafe text s' ∧ s'.depth = d ∧
    (∀ b, answer = .ok b → IsAhead text fault s' (rest b)) ∧
    ∀ numeral, answer ≠ .error (.invalidNumber numeral)

namespace Does

variable {α β γ δ : Type} {m : Step α} {f : α → Step γ} {answer : Except ParseError β}
  {g : β → Except ParseError δ} {value : β → α} {rest : β → List Token} {value' : δ → γ}
  {rest' : δ → List Token}

theorem pure {tokens : List Token} {a : α} {b : β} (h : Faces text fault d s tokens)
    (hvalue : value b = a) (hrest : rest b = tokens) :
    Does text fault d (pure a) s (.ok b) value rest := by
  subst hvalue hrest
  refine ⟨s, .pure _ s, h.isSafe, h.depth, ?_, nofun⟩
  rintro _ ⟨⟩
  exact h.isAhead

theorem throw {tokens : List Token} {e : ParseError} (h : Faces text fault d s tokens)
    (he : ∀ numeral, e ≠ .invalidNumber numeral) :
    Does text fault d (throw e) s (.error e) value rest :=
  ⟨s, .throw e s, h.isSafe, h.depth, nofun,
    fun numeral hnumeral ↦ he numeral (Except.error.inj hnumeral)⟩

theorem bind_error {e : ParseError}
    (hm : Does text fault d m s (.error e : Except ParseError β) value rest) :
    Does text fault d (m >>= f) s (.error e) value' rest' := by
  obtain ⟨s', hruns, hsafe, hdepth, -, hvalid⟩ := hm
  exact ⟨s', hruns.bind_error, hsafe, hdepth, nofun,
    fun numeral hnumeral ↦ hvalid numeral (congrArg _ (Except.error.inj hnumeral))⟩

theorem bind (hm : Does text fault d m s answer value rest)
    (hf : ∀ b s', answer = .ok b → Faces text fault d s' (rest b) →
      Does text fault d (f (value b)) s' (g b) value' rest') :
    Does text fault d (m >>= f) s (answer >>= g) value' rest' := by
  cases answer with
  | error e => exact hm.bind_error
  | ok b =>
    obtain ⟨s', hruns, hsafe, hdepth, hahead, -⟩ := hm
    obtain ⟨s'', hmore, h⟩ := hf b s' rfl ⟨hsafe, hdepth, hahead b rfl⟩
    exact ⟨s'', hruns.bind hmore, h⟩

theorem get {f : Cursor → Step γ} {answer : Except ParseError δ}
    (h : Does text fault d (f s) s answer value' rest') :
    Does text fault d (MonadState.get >>= f) s answer value' rest' := by
  obtain ⟨s', hruns, h⟩ := h
  exact ⟨s', (Runs.get s).bind hruns, h⟩

/-- The answer may be put together anew, if its value and its tokens stay. -/
theorem andThen {g : β → δ} {value : δ → α}
    (hm : Does text fault d m s answer (fun b ↦ value (g b)) fun b ↦ rest' (g b)) :
    Does text fault d m s (answer >>= fun b ↦ .ok (g b)) value rest' := by
  obtain ⟨s', hruns, hsafe, hdepth, hahead, hvalid⟩ := hm
  cases answer with
  | error e =>
    exact ⟨s', hruns, hsafe, hdepth, nofun,
      fun numeral hnumeral ↦ hvalid numeral (congrArg _ (Except.error.inj hnumeral))⟩
  | ok b =>
    refine ⟨s', hruns, hsafe, hdepth, ?_, nofun⟩
    rintro _ ⟨⟩
    exact hahead b rfl

end Does

/-! ### Tokens are consumed -/

theorem first_eq_stepOnto (rest : List Token) (fault : Option ParseError) :
    (Lexed.mk rest fault).first = (stepOnto fault rest).map fun _ ↦ rest.head? := by
  cases rest <;> cases fault <;> rfl

theorem does_consume_of_lex {cs : List Char} {rest : List Token} (hsafe : IsSafe text s)
    (hdepth : s.depth = d) (hscans : s.scans ≤ s.position) (hstands : StandsAt text s cs)
    (hlex : lex s.position cs = ⟨rest, fault⟩) :
    Does text fault d (consume text) s (stepOnto fault rest) id fun _ ↦ rest := by
  have hle : s.position ≤ byteCount text := position_le hstands
  have hstart : IsSafe text s.scanning :=
    { hsafe with scans := Nat.succ_le_succ (hscans.trans hle) }
  obtain ⟨front, back, s', hscan⟩ := exists_scansNext (s := s.scanning) hstands
  change ScansNext _ _ _ _ _ (lex s.position cs) _ at hscan
  rw [hlex] at hscan
  obtain ⟨rfl, hpassed, hruns, hprogress⟩ := hscan
  rw [first_eq_stepOnto] at hruns hprogress
  have hafter := hstart.passed hstands hpassed
  cases hstep : stepOnto fault rest with
  | error e =>
    rw [hstep] at hruns
    refine ⟨s', (Runs.modify _ s).bind hruns.bind_error, hafter, hpassed.depth.trans hdepth, nofun,
      ?_⟩
    rintro numeral ⟨⟩
    have hfault : (lex s.position (front ++ back)).fault = some (.invalidNumber numeral) := by
      rw [hlex]
      exact eq_of_stepOnto hstep
    cases isLexical_of_lex hfault
  | ok _ =>
    rw [hstep] at hruns hprogress
    refine ⟨_, (Runs.modify _ s).bind (hruns.bind (.modify _ s')),
      ⟨hafter.positions, hafter.scans, hafter.numerals, hafter.depths⟩,
      hpassed.depth.trans hdepth, fun _ _ ↦ ?_, nofun⟩
    cases rest with
    | nil =>
      refine ⟨rfl, Decidable.byContradiction fun hfault ↦ ?_⟩
      exact stepOnto_eq_ok_iff.1 hstep hfault rfl
    | cons token more =>
      obtain ⟨hfront, hcut⟩ := hprogress token rfl
      obtain ⟨hmore, hfault⟩ := Lexed.mk.inj hcut
      refine ⟨rfl, ?_, back, hpassed.standsAt hstands, ?_⟩
      · have hpos := byteCount_pos hfront
        have hposition : s'.position = s.position + byteCount front := hpassed.position
        have hcount : s'.scans = s.scans + 1 := hpassed.scans
        change s'.scans ≤ s'.position
        omega
      · rw [(List.cons.inj hmore).2, hfault]

theorem does_consume {token : Token} {rest : List Token}
    (h : Faces text fault d s (token :: rest)) :
    Does text fault d (consume text) s (stepOnto fault rest) id fun _ ↦ rest := by
  obtain ⟨-, hscans, cs, hstands, hlex⟩ := h.isAhead
  exact does_consume_of_lex h.isSafe h.depth hscans hstands hlex

/-! ### Readers -/

/-- At depth `d` the steps end as the reader does on the tokens that the cursor faces. -/
def Follows (text : List Char) (fault : Option ParseError) (d : ℕ) (m : Step Expr)
    (reader : Reader) : Prop :=
  ∀ ⦃s tokens⦄, Faces text fault d s tokens →
    Does text fault d m s (reader tokens) Parsed.tree Parsed.rest

section

variable {reader : Reader} {l : OperatorLevel}

theorem does_readMore (hoperand : Follows text fault d (readOperand text l) reader)
    {tokens : List Token} (h : Faces text fault d s tokens) (left : Expr) :
    Does text fault d (readMore text l left) s (chain fault l.operator reader left tokens)
      Extended.tree Extended.rest := by
  -- each round reads an operand, so fewer tokens are left for the next one
  induction hlength : tokens.length using Nat.strongRecOn generalizing tokens s left with
  | ind length ih =>
    subst hlength
    rw [readMore, chain.eq_def]
    refine .get ?_
    rw [h.current]
    cases tokens with
    | nil => exact .pure h rfl rfl
    | cons token rest =>
      rw [List.head?_cons, Option.bind_some]
      cases hop : l.operator token with
      | none =>
        simp only [hop]
        exact .pure h rfl rfl
      | some op =>
        simp only [hop]
        refine (does_consume h).bind fun _ s' _ hs' ↦ ?_
        refine (hoperand hs').bind fun right s'' _ hs'' ↦ ?_
        exact .andThen (ih _ (Nat.lt_succ_of_lt right.shorter) hs'' _ rfl)

theorem follows_readLevel (hoperand : Follows text fault d (readOperand text l) reader) :
    Follows text fault d (readLevel text l) (level fault l.operator reader) := by
  intro s tokens h
  rw [readLevel]
  exact (hoperand h).bind fun first s' _ hs' ↦ .andThen (does_readMore hoperand hs' first.tree)

theorem follows_readExpression (hunary : Follows text fault d (readUnary text) reader) :
    Follows text fault d (readExpression text) (expression fault reader) := by
  have hoperand : Follows text fault d (readOperand text .multiplicative) reader := by
    rwa [readOperand]
  have hlevel : Follows text fault d (readOperand text .additive)
      (level fault multiplicative? reader) := by
    rw [readOperand]
    exact follows_readLevel hoperand
  rw [readExpression]
  exact follows_readLevel hlevel

/-! ### Groups, calls and powers -/

theorem does_expect {token : Token} {rest : List Token}
    (h : Faces text fault d s (token :: rest)) :
    Does text fault d (expect text token) s (stepOnto fault rest) id fun _ ↦ rest := by
  refine .get ?_
  rw [if_pos (h.current.trans (List.head?_cons ..))]
  exact does_consume h

theorem does_expect_error {token : Token} {tokens : List Token}
    (h : Faces text fault d s tokens) (hne : tokens.head? ≠ some token) :
    Does text fault d (expect text token) s
      (.error (.expected token tokens.head?) : Except ParseError Unit) id fun _ ↦ [] := by
  refine .get ?_
  rw [h.current, if_neg hne]
  exact .throw h nofun

theorem does_closed {tokens rest : List Token} (shorter : rest.length < tokens.length)
    (tree : Expr) (h : Faces text fault d s rest) :
    Does text fault d (expect text .rightParen >>= fun _ ↦ pure tree) s
      (closed fault rest shorter tree) Parsed.tree Parsed.rest := by
  unfold closed
  split
  · exact (does_expect h).bind fun _ s' _ hs' ↦ .pure hs' rfl rfl
  · rename_i hne
    refine (does_expect_error h fun hhead ↦ ?_).bind_error
    obtain ⟨after, rfl⟩ := List.head?_eq_some_iff.1 hhead
    exact hne after shorter rfl HEq.rfl

theorem does_readArguments (hexpr : Follows text fault d (readExpression text) reader)
    {tokens : List Token} (h : Faces text fault d s tokens) :
    Does text fault d (readArguments text) s (arguments fault reader tokens)
      Arguments.trees Arguments.rest := by
  induction hlength : tokens.length using Nat.strongRecOn generalizing tokens s with
  | ind length ih =>
    subst hlength
    rw [readArguments, arguments.eq_def]
    refine (hexpr h).bind fun first s' _ hs' ↦ .get ?_
    rw [hs'.current]
    by_cases hcomma : first.rest.head? = some .comma
    · obtain ⟨rest, hrest⟩ := List.head?_eq_some_iff.1 hcomma
      rw [if_pos hcomma]
      have hlength : rest.length < tokens.length := by
        have hshorter := first.shorter
        rw [hrest, List.length_cons] at hshorter
        omega
      split
      · rename_i after hafter
        obtain rfl : rest = after := (List.cons.inj (hrest.symm.trans hafter)).2
        refine (does_consume (hrest ▸ hs')).bind fun _ s'' _ hs'' ↦ ?_
        exact (ih _ hlength hs'' rfl).bind fun _ _ _ hs ↦ .pure hs rfl rfl
      · rename_i hne
        exact absurd hrest (hne rest)
    · rw [if_neg hcomma]
      split
      · rename_i after hafter
        exact absurd (hafter ▸ rfl) hcomma
      · exact .pure hs' rfl rfl

theorem does_readCall (hexpr : Follows text fault d (readExpression text) reader)
    (function : String) {inner : List Token} (h : Faces text fault d s (.leftParen :: inner)) :
    Does text fault d (readCall text function) s
      (stepOnto fault inner >>= fun _ ↦ call fault reader function inner)
      Parsed.tree Parsed.rest := by
  rw [readCall]
  refine (does_expect h).bind fun _ s' _ hs' ↦ .get ?_
  rw [hs'.current]
  unfold call
  by_cases hclose : inner.head? = some .rightParen
  · rw [if_pos hclose]
    obtain ⟨rest, rfl⟩ := List.head?_eq_some_iff.1 hclose
    exact (does_expect hs').bind fun _ _ _ hs ↦ .pure hs rfl rfl
  · rw [if_neg hclose]
    split
    · exact absurd rfl hclose
    · exact (does_readArguments hexpr hs').bind fun args _ _ hs ↦ does_closed args.shorter _ hs

theorem does_named (hunary : Follows text fault d (readUnary text) reader) (name : String)
    {tokens : List Token} (h : Faces text fault d s tokens) :
    Does text fault d
      (if tokens.head? = some .leftParen then readCall text name else pure (nameTree name)) s
      (named fault reader name tokens) Extended.tree Extended.rest := by
  unfold named
  by_cases hopen : tokens.head? = some .leftParen
  · rw [if_pos hopen]
    obtain ⟨inner, rfl⟩ := List.head?_eq_some_iff.1 hopen
    dsimp only
    rw [← bind_assoc]
    exact .andThen (does_readCall (follows_readExpression hunary) name h)
  · rw [if_neg hopen]
    split
    · exact absurd rfl hopen
    · exact .pure h rfl rfl

theorem follows_readPrimary (hunary : Follows text fault d (readUnary text) reader) :
    Follows text fault d (readPrimary text) (primary fault reader) := by
  have hexpr := follows_readExpression hunary
  intro s tokens h
  rw [readPrimary]
  refine .get ?_
  rw [h.current]
  unfold primary
  cases tokens with
  | nil => exact .throw h nofun
  | cons token rest =>
    cases token with
    | number value => exact (does_consume h).bind fun _ _ _ hs ↦ .pure hs rfl rfl
    | model name => exact (does_consume h).bind fun _ _ _ hs ↦ .pure hs rfl rfl
    | leftParen =>
      refine (does_consume h).bind fun _ s' _ hs' ↦ ?_
      exact (hexpr hs').bind fun inner _ _ hs ↦ does_closed _ _ hs
    | identifier name =>
      refine (does_consume h).bind fun _ s' _ hs' ↦ .get ?_
      rw [hs'.current]
      exact .andThen (does_named hunary name hs')
    | plus | minus | star | doubleStar | slash | doubleSlash | percent | comma | rightParen =>
      exact .throw h nofun

theorem follows_readPower (hunary : Follows text fault d (readUnary text) reader) :
    Follows text fault d (readPower text) (power fault reader) := by
  intro s tokens h
  rw [readPower]
  refine (follows_readPrimary hunary h).bind fun base s' _ hs' ↦ .get ?_
  rw [hs'.current]
  by_cases hpower : base.rest.head? = some .doubleStar
  · rw [if_pos hpower]
    split
    · rename_i rest hrest
      refine (does_consume (hrest ▸ hs')).bind fun _ _ _ hs ↦ ?_
      exact (hunary hs).bind fun _ _ _ hs ↦ .pure hs rfl rfl
    · rename_i hne
      obtain ⟨rest, hrest⟩ := List.head?_eq_some_iff.1 hpower
      exact absurd hrest (hne rest)
  · rw [if_neg hpower]
    split
    · rename_i rest hrest
      exact absurd (hrest ▸ rfl) hpower
    · exact .pure hs' rfl rfl

theorem does_readSign (hunary : Follows text fault d (readUnary text) reader) (sign : Sign)
    {token : Token} {rest : List Token} (h : Faces text fault d s (token :: rest)) :
    Does text fault d (readSign text sign) s (signed fault reader sign rest token)
      Parsed.tree Parsed.rest := by
  rw [readSign]
  refine (does_consume h).bind fun _ _ _ hs ↦ ?_
  exact (hunary hs).bind fun _ _ _ hs ↦ .pure hs rfl rfl

theorem does_readSigned {room : ℕ}
    (hunary : Follows text fault d (readUnary text) (unary fault room)) {tokens : List Token}
    (h : Faces text fault d s tokens) :
    Does text fault d (readSigned text) s (unary fault (room + 1) tokens)
      Parsed.tree Parsed.rest := by
  rw [readSigned]
  refine .get ?_
  rw [h.current]
  cases tokens with
  | nil => exact follows_readPower hunary h
  | cons token rest =>
    cases token
    case minus => exact does_readSign hunary .negate h
    case plus => exact does_readSign hunary .plus h
    all_goals exact follows_readPower hunary h

theorem Faces.enter {tokens : List Token} (h : Faces text fault d s tokens) (hd : d < maxNesting) :
    Faces text fault (d + 1) s.enter tokens where
  isSafe :=
    { h.isSafe with
      depths := List.forall_mem_cons.2 ⟨by rw [h.depth]; exact hd, h.isSafe.depths⟩ }
  depth := congrArg (· + 1) h.depth
  isAhead := by
    cases tokens <;> exact h.isAhead

theorem IsAhead.leave {tokens : List Token} (h : IsAhead text fault s tokens) :
    IsAhead text fault s.leave tokens := by
  cases tokens <;> exact h

theorem IsSafe.leave (h : IsSafe text s) (hd : s.depth ≤ maxNesting) : IsSafe text s.leave :=
  { h with depths := List.forall_mem_cons.2 ⟨(Nat.sub_le _ _).trans hd, h.depths⟩ }

/-- At depth `d` there is room for as many more operands within one another as are left of 64. -/
theorem follows_readUnary (room : ℕ) (h : d + room = maxNesting) :
    Follows text fault d (readUnary text) (unary fault room) := by
  induction room generalizing d with
  | zero =>
    intro s tokens hs
    have hfull : maxNesting ≤ s.depth := by
      rw [hs.depth]
      exact h.ge
    refine ⟨s, ?_, hs.isSafe, hs.depth, nofun, nofun⟩
    change readUnary text s = _
    rw [readUnary, if_pos hfull]
    rfl
  | succ room ih =>
    intro s tokens hs
    have hroom : d < maxNesting := by omega
    have hfree : ¬ maxNesting ≤ s.depth := by
      rw [hs.depth]
      exact Nat.not_le.2 hroom
    obtain ⟨s', hruns, hsafe, hdepth, hahead, hvalid⟩ :=
      does_readSigned (ih (d := d + 1) (by omega)) (hs.enter hroom)
    refine ⟨s'.leave, ?_, hsafe.leave (by omega), ?_, ?_, hvalid⟩
    · change readUnary text s = _
      unfold Runs at hruns
      rw [readUnary, if_neg hfree, hruns]
      rfl
    · change s'.depth - 1 = d
      omega
    · exact fun parsed hparsed ↦ (hahead parsed hparsed).leave

end

/-! ### Whole texts -/

theorem isSafe_start (text : List Char) : IsSafe text Cursor.start where
  positions := List.forall_mem_singleton.2 ⟨[], List.nil_prefix, rfl⟩
  scans := Nat.zero_le _
  numerals := fun _ h ↦ nomatch h
  depths := List.forall_mem_singleton.2 (Nat.zero_le _)

/-- The reader ends on every text, as `parseTokens` does on the tokens of the text, and what it did
was safe. The depth is that of the start again. -/
theorem exists_runs_readFormula (text : List Char) :
    ∃ s, Runs (readFormula text) Cursor.start
        (parseTokens (lex 0 text).fault (lex 0 text).tokens) s ∧
      IsSafe text s ∧ s.depth = 0 ∧
      ∀ numeral, parseTokens (lex 0 text).fault (lex 0 text).tokens ≠
        .error (.invalidNumber numeral) := by
  have hstands : StandsAt text Cursor.start text := sliceFrom?_append [] text
  have hunary : Follows text (lex 0 text).fault 0 (readUnary text)
      (unary (lex 0 text).fault maxNesting) := follows_readUnary maxNesting (Nat.zero_add _)
  have hdoes : Does text (lex 0 text).fault 0 (readFormula text) Cursor.start
      (parseTokens (lex 0 text).fault (lex 0 text).tokens) id fun _ ↦ [] := by
    refine (does_consume_of_lex (isSafe_start text) rfl (Nat.le_refl 0) hstands rfl).bind
      fun _ s' _ hs' ↦ ?_
    refine (follows_readExpression hunary hs').bind fun ⟨tree, rest, _⟩ s'' _ hs'' ↦ .get ?_
    rw [hs''.current]
    cases rest with
    | nil => exact .pure hs'' rfl rfl
    | cons token rest => exact .throw hs'' nofun
  obtain ⟨s, hruns, hsafe, hdepth, -, hvalid⟩ := hdoes
  rw [Except.map_id] at hruns
  exact ⟨s, hruns, hsafe, hdepth, hvalid⟩

end

theorem isBoundary_iff_isValid {text : String} {p : ℕ} :
    IsBoundary text.toList p ↔ (⟨p⟩ : String.Pos.Raw).IsValid text := by
  rw [String.Pos.Raw.isValid_iff_exists_append]
  constructor
  · rintro ⟨front, ⟨rest, hrest⟩, rfl⟩
    refine ⟨String.ofList front, String.ofList rest, ?_, ?_⟩
    · rw [← String.ofList_append, hrest, String.ofList_toList]
    · rw [byteCount_eq]
      rfl
  · rintro ⟨front, rest, rfl, hp⟩
    refine ⟨front.toList, ?_, ?_⟩
    · rw [String.toList_append]
      exact List.prefix_append _ _
    · rw [byteCount_eq, String.ofList_toList]
      exact (congrArg String.Pos.Raw.byteIdx hp).symm

/-- Reads a text without the blanks around it, unless it is too long. -/
def readText (text : String) : Step Expr :=
  let cs := trim text.toList
  if maxLength < byteCount cs then throw (.tooLong maxLength) else readFormula cs

/-- The reader ends on every text as `parse` does, and what it did was safe. -/
theorem exists_runs_readText (text : String) :
    ∃ s, Runs (readText text) Cursor.start (parse text) s ∧ IsSafe (trim text.toList) s ∧
      s.depth = 0 ∧ ∀ numeral, parse text ≠ .error (.invalidNumber numeral) := by
  unfold readText parse
  dsimp only
  by_cases hlong : maxLength < byteCount (trim text.toList)
  · rw [if_pos hlong, if_pos hlong]
    exact ⟨_, .throw _ _, isSafe_start _, rfl, nofun⟩
  · rw [if_neg hlong, if_neg hlong]
    exact exists_runs_readFormula _

/-- The scanner is safe on every text and makes progress. From every place between two characters a
scan ends between two characters of the text again, and so does each of its moves; it has moved on
if it gives a token, and it cuts nothing for a number but numerals, which are texts of numbers. The
reader ends on every text, as `parseTokens` does on its tokens; it stands between two characters
wherever it stands, and scans no more tokens than the text has bytes, and the end of the text. No
formula is refused for an invalid number. -/
theorem scans_between_characters (text : String) :
    (∀ s : Cursor, (⟨s.position⟩ : String.Pos.Raw).IsValid text →
      ∃ answer s', Runs (scanToken text.toList) s answer s' ∧
        (⟨s'.position⟩ : String.Pos.Raw).IsValid text ∧
        (∀ p ∈ s'.positions, p ∈ s.positions ∨ (⟨p⟩ : String.Pos.Raw).IsValid text) ∧
        (∀ token, answer = .ok (some token) → s.position < s'.position) ∧
        (∀ numeral ∈ s'.numerals, numeral ∈ s.numerals ∨ IsNumeral numeral) ∧
        ∀ numeral, answer ≠ .error (.invalidNumber numeral)) ∧
    (∃ s, Runs (readFormula text.toList) Cursor.start
        (parseTokens (lex 0 text.toList).fault (lex 0 text.toList).tokens) s ∧
      (∀ p ∈ s.positions, (⟨p⟩ : String.Pos.Raw).IsValid text) ∧
      s.scans ≤ text.utf8ByteSize + 1 ∧ ∀ numeral ∈ s.numerals, IsNumeral numeral) ∧
    (∀ numeral, IsNumeral numeral → ∃ value, Binary64.read numeral = some value) ∧
    ∀ numeral, parse text ≠ .error (.invalidNumber numeral) := by
  refine ⟨fun s hs ↦ ?_, ?_, fun _ ↦ exists_read_of_isNumeral, ?_⟩
  · obtain ⟨cs, hstands⟩ := exists_standsAt_iff.2 (isBoundary_iff_isValid.2 hs)
    obtain ⟨front, rest, s', hscan⟩ := exists_scansNext hstands
    have hparts := hscan.parts ▸ hstands
    refine ⟨_, s', hscan.runs, ?_, fun p hp ↦ ?_, fun token htoken ↦ ?_, hscan.passed.numerals,
      fun numeral hnumeral ↦ nomatch isLexical_of_first hnumeral⟩
    · exact isBoundary_iff_isValid.1 (exists_standsAt_iff.1 ⟨_, hscan.passed.standsAt hparts⟩)
    · exact (hscan.passed.isBoundary hparts hp).imp_right isBoundary_iff_isValid.1
    · have hpos := byteCount_pos (hscan.progress token htoken).1
      rw [hscan.passed.position]
      omega
  · obtain ⟨s, hruns, hsafe, -⟩ := exists_runs_readFormula text.toList
    refine ⟨s, hruns, fun p hp ↦ isBoundary_iff_isValid.1 (hsafe.positions p hp), ?_,
      hsafe.numerals⟩
    have hscans := hsafe.scans
    rwa [byteCount_eq, String.ofList_toList] at hscans
  · obtain ⟨s, -, -, -, hvalid⟩ := exists_runs_readText text
    exact hvalid

/-- Behind a name that takes two bytes for its one letter, a scan moves on and ends between two
characters. -/
theorem scans_between_characters_after_name :
    (⟨4⟩ : String.Pos.Raw).IsValid "[ä]*2e3" ∧
      ∃ answer s', Runs (scanToken "[ä]*2e3".toList) ⟨4, none, 0, [], 0, [], []⟩ answer s' ∧
        (⟨s'.position⟩ : String.Pos.Raw).IsValid "[ä]*2e3" ∧
        ∀ token, answer = .ok (some token) → 4 < s'.position := by
  have hvalid : (⟨4⟩ : String.Pos.Raw).IsValid "[ä]*2e3" :=
    isBoundary_iff_isValid.1 ⟨['[', 'ä', ']'], ⟨['*', '2', 'e', '3'], rfl⟩, by decide⟩
  obtain ⟨answer, s', hruns, hposition, -, hprogress, -⟩ :=
    (scans_between_characters "[ä]*2e3").1 ⟨4, none, 0, [], 0, [], []⟩ hvalid
  exact ⟨hvalid, answer, s', hruns, hposition, hprogress⟩

end Ventilation.Formula
