import Ventilation.Proofs.Formula.Composition
import Ventilation.Proofs.Formula.Language
import Ventilation.Proofs.Formula.Pattern

/-!
# What the screen keeps out

The screen looks at the text of a formula, before it is cut into tokens. No tree gets past it that
holds what the patterns stand for: the name of a call and its parenthesis have nothing but blanks
between them in the text, blanks of any kind, and every name is a part of the text.
-/

set_option autoImplicit false
set_option relaxedAutoImplicit false

namespace Ventilation.Formula

open Text

/-- The name that a node carries. -/
def Expr.name? : Expr → Option String
  | var name | model name | call name _ => some name
  | number _ | sign _ _ | binary _ _ _ => none

/-! ### Where tokens stand in a text -/

section

variable {cs : List Char} {token : Token} {tokens : List Token} {name : String}

theorem exists_of_splits_cons (h : Splits cs (token :: tokens)) :
    ∃ blanks spelling rest, cs = blanks ++ (spelling ++ rest) ∧
      (∀ c ∈ blanks, isBlank c = true) ∧ Spells spelling token ∧ Splits rest tokens := by
  generalize hall : token :: tokens = all at h
  induction h with
  | nil => cases hall
  | @blank c cs _ hc _ ih =>
    obtain ⟨blanks, spelling, rest, rfl, hblanks, hspells, hrest⟩ := ih hall
    exact ⟨c :: blanks, spelling, rest, rfl, List.forall_mem_cons.2 ⟨hc, hblanks⟩, hspells, hrest⟩
  | @token spelling rest _ _ hspells _ h _ =>
    obtain ⟨rfl, rfl⟩ := List.cons.inj hall
    exact ⟨[], spelling, rest, rfl, List.forall_mem_nil _, hspells, h⟩

theorem exists_suffix_of_splits {front back : List Token} (h : Splits cs (front ++ back)) :
    ∃ rest, rest <:+ cs ∧ Splits rest back := by
  induction front generalizing cs with
  | nil => exact ⟨cs, List.suffix_rfl, h⟩
  | cons token front ih =>
    obtain ⟨blanks, spelling, rest, rfl, -, -, hrest⟩ := exists_of_splits_cons h
    obtain ⟨last, hlast, hback⟩ := ih hrest
    exact ⟨last, hlast.trans ((List.suffix_append _ _).trans (List.suffix_append _ _)), hback⟩

theorem exists_spelling_of_mem (h : Splits cs tokens) (htoken : token ∈ tokens) :
    ∃ spelling, spelling <:+: cs ∧ Spells spelling token := by
  obtain ⟨front, back, rfl⟩ := List.append_of_mem htoken
  obtain ⟨rest, hrest, hback⟩ := exists_suffix_of_splits h
  obtain ⟨blanks, spelling, last, rfl, -, hspells, -⟩ := exists_of_splits_cons hback
  exact ⟨spelling, List.IsInfix.trans ⟨blanks, last, List.append_assoc ..⟩ hrest.isInfix, hspells⟩

theorem eq_of_spells_identifier (h : Spells cs (.identifier name)) :
    cs = name.toList ∧ IsIdentifier cs := by
  cases h with
  | identifier h => exact ⟨String.toList_ofList.symm, h⟩
  | mark hmark => cases hmark
  | single hdoubled => cases hdoubled
  | double hdoubled => cases hdoubled

theorem eq_of_spells_leftParen (h : Spells cs .leftParen) : cs = ['('] := by
  cases h with
  | mark hmark =>
    cases hmark
    rfl
  | single hdoubled => cases hdoubled
  | double hdoubled => cases hdoubled

theorem trim_isInfix (cs : List Char) : trim cs <:+: cs := by
  have hend : trimEnd (trimStart cs) <+: trimStart cs := by
    unfold trimEnd
    rw [← List.reverse_suffix, List.reverse_reverse]
    exact List.dropWhile_suffix _
  exact hend.isInfix.trans (List.dropWhile_suffix _).isInfix

theorem infix_of_spells_model (h : Spells cs (.model name)) : name.toList <:+: cs := by
  cases h with
  | @model body _ _ =>
    rw [String.toList_ofList]
    exact (trim_isInfix body).trans ⟨['['], [']'], rfl⟩
  | mark hmark => cases hmark
  | single hdoubled => cases hdoubled
  | double hdoubled => cases hdoubled

end

section

variable {text : String} {tree : Expr}

theorem exists_anchored_of_parse (h : parse text = .ok tree) :
    ∃ tokens, Splits text.toList tokens ∧ tree.Anchored tokens := by
  obtain ⟨-, tokens, hsplits, hsum⟩ := parse_eq_ok_iff.1 h
  exact ⟨tokens, hsplits, Expr.isCompositional_anchored.sum hsum⟩

/-- In the text, nothing but blanks stands between the name of a call and its parenthesis. -/
theorem exists_call_of_parse (h : parse text = .ok tree) {name : String} {args : List Expr}
    (hcall : tree.Contains (.call name args)) :
    IsIdentifier name.toList ∧ ∃ front blanks back,
      text.toList = front ++ (name.toList ++ (blanks ++ '(' :: back)) ∧
        ∀ c ∈ blanks, isBlank c = true := by
  obtain ⟨tokens, hsplits, hanchored⟩ := exists_anchored_of_parse h
  obtain ⟨before, after, rfl⟩ := hanchored _ hcall
  rw [List.append_assoc] at hsplits
  obtain ⟨rest, ⟨front, hfront⟩, hrest⟩ := exists_suffix_of_splits hsplits
  obtain ⟨gap, spelling, last, rfl, -, hname, hlast⟩ := exists_of_splits_cons hrest
  obtain ⟨blanks, mark, back, rfl, hblanks, hmark, -⟩ := exists_of_splits_cons hlast
  obtain ⟨rfl, hidentifier⟩ := eq_of_spells_identifier hname
  obtain rfl := eq_of_spells_leftParen hmark
  refine ⟨hidentifier, front ++ gap, blanks, back, ?_, hblanks⟩
  rw [← hfront, List.append_assoc, List.singleton_append]

/-- Every name of a tree is a part of the text. -/
theorem infix_of_name (h : parse text = .ok tree) {node : Expr} (hnode : tree.Contains node)
    {name : String} (hname : name ∈ node.name?) : name.toList <:+: text.toList := by
  obtain ⟨tokens, hsplits, hanchored⟩ := exists_anchored_of_parse h
  have htokens := (hanchored node hnode).subset
  cases node with
  | number x => cases hname
  | sign op operand => cases hname
  | binary op left right => cases hname
  | var other =>
    obtain rfl := Option.some.inj hname
    obtain ⟨spelling, hspelling, hspells⟩ :=
      exists_spelling_of_mem hsplits (htokens List.mem_cons_self)
    exact (eq_of_spells_identifier hspells).1 ▸ hspelling
  | call other args =>
    obtain rfl := Option.some.inj hname
    obtain ⟨spelling, hspelling, hspells⟩ :=
      exists_spelling_of_mem hsplits (htokens List.mem_cons_self)
    exact (eq_of_spells_identifier hspells).1 ▸ hspelling
  | model other =>
    obtain rfl := Option.some.inj hname
    obtain ⟨spelling, hspelling, hspells⟩ :=
      exists_spelling_of_mem hsplits (htokens List.mem_cons_self)
    exact (infix_of_spells_model hspells).trans hspelling

/-! ### What the rules reject -/

theorem mem_screenRules_of_call {word : String} (h : word ∈ forbiddenCalls) :
    (Pattern.called word, Forbidden.call word) ∈ screenRules :=
  List.mem_append_left _ (List.mem_append_right _ (List.mem_map_of_mem h))

theorem map_foldCase_of_isIdentifier {cs : List Char} (h : IsIdentifier cs) :
    cs.map foldCase = cs.map Char.toLower :=
  List.map_congr_left fun _ hc ↦ foldCase_of_visible (visible_of_isIdentifier h hc)

theorem map_foldCase_of_blanks {blanks : List Char} (h : ∀ c ∈ blanks, isBlank c = true) :
    blanks.map foldCase = blanks :=
  (List.map_congr_left fun c hc ↦ foldCase_of_isBlank (h c hc)).trans (List.map_id' _)

/-- A forbidden word, in any case, is rejected before a parenthesis and any blanks. -/
theorem rejects_call {word : String} {front spelling blanks back : List Char}
    (htext : text.toList = front ++ (spelling ++ (blanks ++ '(' :: back)))
    (hspelling : spelling.map foldCase = word.toList) (hblanks : ∀ c ∈ blanks, isBlank c = true) :
    Rejects (.called word, .call word) text := by
  refine ⟨front.map foldCase, blanks, back.map foldCase, ?_, hblanks⟩
  rw [htext, List.map_append, List.map_append, List.map_append, hspelling,
    map_foldCase_of_blanks hblanks]
  rfl

/-- A mark stands twice in a text, at places that do not overlap. -/
def OccursTwice (mark cs : List Char) : Prop :=
  ∃ front between back, cs = front ++ (mark ++ (between ++ (mark ++ back)))

theorem OccursTwice.of_infix {mark cs whole : List Char} (h : OccursTwice mark cs)
    (hwhole : cs <:+: whole) : OccursTwice mark whole := by
  obtain ⟨front, between, back, rfl⟩ := h
  obtain ⟨before, after, rfl⟩ := hwhole
  exact ⟨before ++ front, between, back ++ after, by simp⟩

theorem rejects_dunder (h : OccursTwice ['_', '_'] text.toList) :
    Rejects (.around "__" "__", .dunderName) text := by
  obtain ⟨front, between, back, htext⟩ := h
  refine ⟨front.map foldCase, between.map foldCase, back.map foldCase, ?_⟩
  rw [htext]
  simp only [List.map_append]
  rfl

theorem not_mem_of_screen {chars : List Char} {construct : Forbidden}
    (hrule : (Pattern.oneOf chars, construct) ∈ screenRules)
    (hlow : ∀ c ∈ chars, c.toNat < 65) (hscreen : screen text = .ok ()) :
    ∀ c ∈ chars, c ∉ text.toList := by
  intro c hc hmem
  refine (screen_eq_ok_iff.1 hscreen).1 _ hrule ⟨c, ?_, hc⟩
  exact List.mem_map.2 ⟨c, hmem, foldCase_of_lt (hlow c hc)⟩

/-- A text is refused in which a forbidden word, whatever the case of its letters, stands before a
parenthesis with blanks of any kind between them. In the tree of a text that is accepted no call has
a name that ends in a forbidden word, no name holds two underscores at two places, and the text has
no separator and no comment. -/
theorem excluded_of_ofText? (text : String) :
    (∀ word ∈ forbiddenCalls, ∀ front spelling blanks back,
      text.toList = front ++ (spelling ++ (blanks ++ '(' :: back)) →
      spelling.map foldCase = word.toList → (∀ c ∈ blanks, isBlank c = true) →
      ∃ construct, ofText? text = .error (.forbidden construct)) ∧
    ∀ f, ofText? text = .ok f →
      (∀ name args, f.tree.Contains (.call name args) →
        ∀ word ∈ forbiddenCalls, ¬ word.toList <:+ name.toList.map Char.toLower) ∧
      (∀ node, f.tree.Contains node →
        ∀ name ∈ node.name?, ¬ OccursTwice ['_', '_'] name.toList) ∧
      ∀ c ∈ [';', '\n', '\r', '#'], c ∉ text.toList := by
  refine ⟨fun word hword front spelling blanks back htext hspelling hblanks ↦
    exists_forbidden_of_rejects (mem_screenRules_of_call hword)
      (rejects_call htext hspelling hblanks), fun f hf ↦ ?_⟩
  have hparse := parse_of_ofText? hf
  have hscreen := screen_of_ofText? hf
  have hrules := (screen_eq_ok_iff.1 hscreen).1
  refine ⟨fun name args hcall word hword hsuffix ↦ ?_, fun node hnode name hname htwice ↦ ?_, ?_⟩
  · obtain ⟨hidentifier, front, blanks, back, htext, hblanks⟩ := exists_call_of_parse hparse hcall
    rw [← map_foldCase_of_isIdentifier hidentifier] at hsuffix
    obtain ⟨spelling, ⟨before, hname⟩, hspelling⟩ := List.suffix_map_iff.1 hsuffix
    rw [← hname, List.append_assoc, ← List.append_assoc front] at htext
    exact hrules _ (mem_screenRules_of_call hword) (rejects_call htext hspelling.symm hblanks)
  · exact hrules _ (List.mem_append_right _ List.mem_cons_self)
      (rejects_dunder (htwice.of_infix (infix_of_name hparse hnode hname)))
  · have hseparator : (Pattern.oneOf [';', '\n', '\r'], Forbidden.separator) ∈ screenRules := by
      simp [screenRules]
    have hcomment : (Pattern.oneOf ['#'], Forbidden.comment) ∈ screenRules := by
      simp [screenRules]
    exact List.forall_mem_append.2 ⟨not_mem_of_screen hseparator (by simp) hscreen,
      not_mem_of_screen hcomment (by simp) hscreen⟩

/-- Em and ideographic spaces do not hide a call, and underscores may stand at one place of a name;
a forbidden word that begins a name does not end it. -/
theorem excluded_of_ofText?_openings :
    (∃ construct, ofText? "2*Eval\u2003\u3000(1)" = .error (.forbidden construct)) ∧
    ∃ f, ofText? "openings(TB) + [A__B]" = .ok f ∧
      (∀ name args, f.tree.Contains (.call name args) →
        ∀ word ∈ forbiddenCalls, ¬ word.toList <:+ name.toList.map Char.toLower) ∧
      (∀ node, f.tree.Contains node →
        ∀ name ∈ node.name?, ¬ OccursTwice ['_', '_'] name.toList) ∧
      ∀ c ∈ [';', '\n', '\r', '#'], c ∉ "openings(TB) + [A__B]".toList := by
  obtain ⟨f, hf⟩ : ∃ f, (ofText? "openings(TB) + [A__B]").toOption = some f :=
    Option.isSome_iff_exists.1 (by decide +kernel)
  have hf := eq_ok_of_toOption hf
  exact ⟨(excluded_of_ofText? _).1 "eval" (by decide) ['2', '*'] ['E', 'v', 'a', 'l']
      ['\u2003', '\u3000'] ['1', ')'] (by decide) (by simp [foldCase])
      (by simp [isBlank, inRanges]),
    f, hf, (excluded_of_ofText? _).2 f hf⟩

end

end Ventilation.Formula
