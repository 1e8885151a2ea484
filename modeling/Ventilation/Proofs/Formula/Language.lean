import Ventilation.Proofs.Formula.Parsing
import Ventilation.Proofs.Formula.Splitting

/-!
# The language of formulas

`parse` takes the texts of at most 1024 bytes that split into the tokens of a sum, and gives the
tree of that sum. The blanks around a text neither count nor change how it splits.
-/

set_option autoImplicit false
set_option relaxedAutoImplicit false

namespace Ventilation.Formula

open Text

/-! ### Blanks around a text -/

section

variable {cs blanks : List Char} {tokens : List Token}

theorem splits_cons_blank {c : Char} (hc : isBlank c = true) :
    Splits (c :: cs) tokens ↔ Splits cs tokens := by
  rw [← lex_eq_iff_splits 0, lex_blank hc, lex_eq_iff_splits]

theorem splits_blanks_append (hblanks : ∀ c ∈ blanks, isBlank c = true) :
    Splits (blanks ++ cs) tokens ↔ Splits cs tokens := by
  induction blanks with
  | nil => rfl
  | cons c blanks ih =>
    obtain ⟨hc, hblanks⟩ := List.forall_mem_cons.1 hblanks
    rw [List.cons_append, splits_cons_blank hc, ih hblanks]

/-- Tokens do not reach into the blanks at the end. -/
theorem prefix_of_spells {spelling : List Char} {token : Token} (h : Spells spelling token)
    (hblanks : ∀ c ∈ blanks, isBlank c = true) (hinitial : spelling <+: cs ++ blanks) :
    spelling <+: cs := by
  rcases List.prefix_or_prefix_of_prefix hinitial (List.prefix_append cs blanks) with hcs | hcs
  · exact hcs
  obtain ⟨back, rfl⟩ := hcs
  rcases List.eq_nil_or_concat back with rfl | ⟨front, c, rfl⟩
  · exact ⟨[], by rw [List.append_nil, List.append_nil]⟩
  · rw [List.concat_eq_append] at h hinitial
    have hback : front ++ [c] <+: blanks := (List.prefix_append_right_inj cs).1 hinitial
    have hblank := hblanks c (hback.subset (List.mem_append_right _ List.mem_cons_self))
    have hlast : c ∈ (cs ++ (front ++ [c])).getLast? := by
      rw [← List.append_assoc, List.getLast?_concat]
      rfl
    rw [isBlank_of_spells h (.inr hlast)] at hblank
    cases hblank

theorem splits_of_append_blanks (hblanks : ∀ c ∈ blanks, isBlank c = true)
    (h : Splits (cs ++ blanks) tokens) : Splits cs tokens := by
  generalize htext : cs ++ blanks = text at h
  induction h generalizing cs blanks with
  | nil =>
    rw [(List.append_eq_nil_iff.1 htext).1]
    exact .nil
  | @blank c text tokens hc h ih =>
    cases cs with
    | nil =>
      obtain rfl : blanks = c :: text := htext
      exact ih (fun d hd ↦ hblanks d (List.mem_cons_of_mem c hd)) (List.nil_append text)
    | cons d cs =>
      obtain ⟨rfl, hrest⟩ := List.cons.inj htext
      exact .blank hc (ih hblanks hrest)
  | @token spelling rest token tokens hspells hlongest _ ih =>
    obtain ⟨cs, rfl⟩ : spelling <+: cs := prefix_of_spells hspells hblanks ⟨rest, htext.symm⟩
    rw [List.append_assoc] at htext
    have hrest : cs ++ blanks = rest := List.append_cancel_left htext
    refine .token hspells ?_ (ih hblanks hrest)
    intro longer other hlonger hinitial
    refine hlongest _ _ hlonger (hinitial.trans ⟨blanks, ?_⟩)
    rw [List.append_assoc, hrest]

theorem splits_append_of_blanks (hblanks : ∀ c ∈ blanks, isBlank c = true) (h : Splits cs tokens) :
    Splits (cs ++ blanks) tokens := by
  induction h with
  | nil =>
    rw [List.nil_append, ← List.append_nil blanks]
    exact (splits_blanks_append hblanks).2 .nil
  | blank hc _ ih => exact .blank hc ih
  | token hspells hlongest _ ih =>
    rw [List.append_assoc]
    refine .token hspells ?_ ih
    -- a longer token would reach into the blanks
    intro longer other hlonger hinitial
    rw [← List.append_assoc] at hinitial
    exact hlongest _ _ hlonger (prefix_of_spells hlonger hblanks hinitial)

theorem splits_append_blanks (hblanks : ∀ c ∈ blanks, isBlank c = true) :
    Splits (cs ++ blanks) tokens ↔ Splits cs tokens :=
  ⟨splits_of_append_blanks hblanks, splits_append_of_blanks hblanks⟩

theorem splits_trim : Splits (trim cs) tokens ↔ Splits cs tokens := by
  have hstart : ∀ c ∈ cs.takeWhile isBlank, isBlank c = true := fun c ↦ List.mem_takeWhile_imp
  have hend : ∀ c ∈ ((trimStart cs).reverse.takeWhile isBlank).reverse, isBlank c = true :=
    fun c hc ↦ List.mem_takeWhile_imp (List.mem_reverse.1 hc)
  have htrim : trim cs ++ ((trimStart cs).reverse.takeWhile isBlank).reverse = trimStart cs := by
    unfold trim trimEnd
    rw [← List.reverse_append, List.takeWhile_append_dropWhile, List.reverse_reverse]
  rw [← splits_append_blanks hend, htrim, ← splits_blanks_append hstart, trimStart,
    List.takeWhile_append_dropWhile]

end

/-! ### Texts and trees -/

theorem byteCount_eq (cs : List Char) : byteCount cs = (String.ofList cs).utf8ByteSize := by
  induction cs with
  | nil => rfl
  | cons c cs ih =>
    rw [byteCount, ih, ← List.singleton_append, String.ofList_append, String.utf8ByteSize_append,
      ← String.singleton_eq_ofList, String.utf8ByteSize_singleton]

theorem parse_eq_ok_iff {text : String} {tree : Expr} :
    parse text = .ok tree ↔ (trimmed text).utf8ByteSize ≤ maxLength ∧
      ∃ tokens, Splits text.toList tokens ∧ Sum (Unary maxNesting) tokens tree := by
  unfold parse trimmed
  rw [← byteCount_eq]
  dsimp only
  by_cases hlong : maxLength < byteCount (trim text.toList)
  · rw [if_pos hlong]
    constructor
    · intro h
      cases h
    · rintro ⟨hle, -⟩
      exact absurd hlong (Nat.not_lt.2 hle)
  · rw [if_neg hlong, parseTokens_eq_ok_iff, and_iff_right (Nat.not_lt.1 hlong)]
    constructor
    · rintro ⟨hfault, hsum⟩
      exact ⟨_, splits_trim.1 (splits_of_lex (congrArg (Lexed.mk _) hfault)), hsum⟩
    · rintro ⟨tokens, hsplits, hsum⟩
      rw [lex_of_splits (splits_trim.2 hsplits) 0]
      exact ⟨rfl, hsum⟩

/-- A text of at most 1024 bytes without the blanks around it is read if and only if it splits into
the tokens of a sum, to the tree of that sum; a longer one is rejected. There is one split and one
tree. -/
theorem parse_eq_ok_iff_of_size (text : String) :
    ((trimmed text).utf8ByteSize ≤ 1024 → ∀ tree, parse text = .ok tree ↔
      ∃ tokens, Splits text.toList tokens ∧ Sum (Unary 64) tokens tree) ∧
    (1024 < (trimmed text).utf8ByteSize → parse text = .error (.tooLong 1024)) ∧
    (∀ tokens tokens', Splits text.toList tokens → Splits text.toList tokens' →
      tokens = tokens') ∧
    ∀ tokens tree tree', Sum (Unary 64) tokens tree → Sum (Unary 64) tokens tree' →
      tree = tree' := by
  have hsize : byteCount (trim text.toList) = (trimmed text).utf8ByteSize := byteCount_eq _
  refine ⟨fun hle tree ↦ ?_, fun hlt ↦ ?_, fun _ _ ↦ splits_unique, fun _ _ _ ↦ sum_unique⟩
  · have hshort : ¬ maxLength < byteCount (trim text.toList) := by
      rw [hsize]
      exact Nat.not_lt.2 hle
    unfold parse
    simp only [if_neg hshort]
    rw [parseTokens_eq_ok_iff]
    constructor
    · rintro ⟨hfault, hsum⟩
      have hlex : lex 0 (trim text.toList) = ⟨(lex 0 (trim text.toList)).tokens, none⟩ :=
        congrArg (Lexed.mk _) hfault
      exact ⟨_, splits_trim.1 (splits_of_lex hlex), hsum⟩
    · rintro ⟨tokens, hsplits, hsum⟩
      rw [lex_of_splits (splits_trim.2 hsplits) 0]
      exact ⟨rfl, hsum⟩
  · unfold parse
    exact if_pos (hsize ▸ hlt)

/-- The exponent keeps its sign, and a text of 1025 letters is no name. -/
theorem parse_eq_ok_iff_of_size_sample :
    parse "2 ** -x" = .ok (.binary .power (.number 2) (.sign .negate (.var "x"))) ∧
      parse (String.ofList (List.replicate 1025 'x')) = .error (.tooLong 1024) := by
  have hlex : lex 0 "2 ** -x".toList =
      ⟨[.number 2, .doubleStar, .minus, .identifier "x"], none⟩ :=
    congrArg₂ Lexed.mk (by decide +kernel) (by decide +kernel)
  have hname : ∀ value, ¬ Constant "x" value := by
    intro value h
    have hvalue := constant_iff.2 h
    simp [constant?] at hvalue
  have hexponent : Unary 63 [.minus, .identifier "x"] (.sign .negate (.var "x")) :=
    .sign .minus (.power (.primary (.var hname)))
  have hsum : Sum (Unary 64) [.number 2, .doubleStar, .minus, .identifier "x"]
      (.binary .power (.number 2) (.sign .negate (.var "x"))) :=
    .single (.single (.power (.raised (.number 2) hexponent)))
  refine ⟨((parse_eq_ok_iff_of_size "2 ** -x").1 ?_ _).2 ⟨_, splits_of_lex hlex, hsum⟩,
    (parse_eq_ok_iff_of_size _).2.1 ?_⟩
  · decide
  · rw [trimmed, String.toList_ofList, ← byteCount_eq]
    decide +kernel

end Ventilation.Formula
